import LinuxChat.Lib.Utf8

/-!
# The JSON scanner

`lexer` of server/third_party/nlohmann/json.hpp:7554-8990, reading a `std::string`.
An octet is compared by its number. Positions, error messages, the token text they
quote and comments (`ignore_comments` is false) are left out, and so is the rest of
the input after an error, which nobody reads.
-/

namespace LinuxChat.Source

open LinuxChat.Lib

/-- `token_type` with what the getter returns. A JSON value keeps no difference
between `value_unsigned` and `value_integer`; a float is the decimal number that
`strtod` rounds. -/
inductive Token where
  | literalTrue
  | literalFalse
  | literalNull
  | valueString (buffer : Bytes)
  | valueInteger (value : Int)
  | valueFloat (mantissa exponent : Int)
  | beginArray
  | beginObject
  | endArray
  | endObject
  | nameSeparator
  | valueSeparator
  | parseError
  | endOfInput
  deriving DecidableEq

/-! ## Strings -/

/-- One digit of a `\u` escape, upper or lower case. -/
def hexDigit (c : UInt8) : Option Nat :=
  if 0x30 ≤ c.toNat ∧ c.toNat ≤ 0x39 then some (c.toNat - 0x30)
  else if 0x41 ≤ c.toNat ∧ c.toNat ≤ 0x46 then some (c.toNat - 0x37)
  else if 0x61 ≤ c.toNat ∧ c.toNat ≤ 0x66 then some (c.toNat - 0x57)
  else none

/-- The loop of `get_codepoint` over its shift widths; `none` stands for -1. -/
def getCodepoint : List Nat → Nat → Bytes → Option (Nat × Bytes)
  | [], codepoint, input => some (codepoint, input)
  | _ :: _, _, [] => none
  | factor :: factors, codepoint, c :: rest =>
    match hexDigit c with
    | some digit => getCodepoint factors (codepoint + digit <<< factor) rest
    | none => none

/-- The octets that `scan_string` adds for a code point. -/
def codepointBytes (codepoint : Nat) : Bytes :=
  if codepoint < 0x80 then [UInt8.ofNat codepoint]
  else if codepoint ≤ 0x7FF then
    [UInt8.ofNat (0xC0 ||| codepoint >>> 6), UInt8.ofNat (0x80 ||| codepoint &&& 0x3F)]
  else if codepoint ≤ 0xFFFF then
    [UInt8.ofNat (0xE0 ||| codepoint >>> 12), UInt8.ofNat (0x80 ||| codepoint >>> 6 &&& 0x3F),
      UInt8.ofNat (0x80 ||| codepoint &&& 0x3F)]
  else
    [UInt8.ofNat (0xF0 ||| codepoint >>> 18), UInt8.ofNat (0x80 ||| codepoint >>> 12 &&& 0x3F),
      UInt8.ofNat (0x80 ||| codepoint >>> 6 &&& 0x3F), UInt8.ofNat (0x80 ||| codepoint &&& 0x3F)]

/-- What one round of the loop of `scan_string` comes to. -/
inductive StringStep where
  | closed (rest : Bytes)
  | added (octets rest : Bytes)
  | failed

/-- `next_byte_in_range`, with the octets added so far. -/
def nextByteInRange (octets : Bytes) : List (Nat × Nat) → Bytes → StringStep
  | [], input => .added octets input
  | _ :: _, [] => .failed
  | range :: ranges, c :: rest =>
    if range.1 ≤ c.toNat ∧ c.toNat ≤ range.2 then nextByteInRange (octets ++ [c]) ranges rest
    else .failed

/-- The case `u` of an escape. -/
def scanUnicode (input : Bytes) : StringStep :=
  match getCodepoint [12, 8, 4, 0] 0 input with
  | none => .failed
  | some (codepoint1, rest) =>
    if 0xD800 ≤ codepoint1 ∧ codepoint1 ≤ 0xDBFF then
      match rest with
      | reverseSolidus :: letter :: rest =>
        if reverseSolidus.toNat = 0x5C ∧ letter.toNat = 0x75 then
          match getCodepoint [12, 8, 4, 0] 0 rest with
          | none => .failed
          | some (codepoint2, rest) =>
            if 0xDC00 ≤ codepoint2 ∧ codepoint2 ≤ 0xDFFF then
              .added (codepointBytes (codepoint1 <<< 10 + codepoint2 - 0x35FDC00)) rest
            else .failed
        else .failed
      | _ => .failed
    else if 0xDC00 ≤ codepoint1 ∧ codepoint1 ≤ 0xDFFF then .failed
    else .added (codepointBytes codepoint1) rest

/-- The switch after a backslash. -/
def scanEscape : Bytes → StringStep
  | [] => .failed
  | c :: rest =>
    if c.toNat = 0x22 then .added [0x22] rest
    else if c.toNat = 0x5C then .added [0x5C] rest
    else if c.toNat = 0x2F then .added [0x2F] rest
    else if c.toNat = 0x62 then .added [0x08] rest
    else if c.toNat = 0x66 then .added [0x0C] rest
    else if c.toNat = 0x6E then .added [0x0A] rest
    else if c.toNat = 0x72 then .added [0x0D] rest
    else if c.toNat = 0x74 then .added [0x09] rest
    else if c.toNat = 0x75 then scanUnicode rest
    else .failed

/-- One round of the loop of `scan_string`: the closing quote, an escape, a character of one to
four octets in well-formed UTF-8, or a failure. -/
def stringStep : Bytes → StringStep
  | [] => .failed
  | c :: rest =>
    if c.toNat = 0x22 then .closed rest
    else if c.toNat = 0x5C then scanEscape rest
    else if c.toNat ≤ 0x1F then .failed
    else if c.toNat ≤ 0x7F then .added [c] rest
    else if 0xC2 ≤ c.toNat ∧ c.toNat ≤ 0xDF then nextByteInRange [c] [(0x80, 0xBF)] rest
    else if c.toNat = 0xE0 then nextByteInRange [c] [(0xA0, 0xBF), (0x80, 0xBF)] rest
    else if 0xE1 ≤ c.toNat ∧ c.toNat ≤ 0xEF ∧ c.toNat ≠ 0xED then
      nextByteInRange [c] [(0x80, 0xBF), (0x80, 0xBF)] rest
    else if c.toNat = 0xED then nextByteInRange [c] [(0x80, 0x9F), (0x80, 0xBF)] rest
    else if c.toNat = 0xF0 then
      nextByteInRange [c] [(0x90, 0xBF), (0x80, 0xBF), (0x80, 0xBF)] rest
    else if 0xF1 ≤ c.toNat ∧ c.toNat ≤ 0xF3 then
      nextByteInRange [c] [(0x80, 0xBF), (0x80, 0xBF), (0x80, 0xBF)] rest
    else if c.toNat = 0xF4 then
      nextByteInRange [c] [(0x80, 0x8F), (0x80, 0xBF), (0x80, 0xBF)] rest
    else .failed

/-- The loop of `scan_string`. Every round but the last removes an octet, so more
rounds than there are octets are enough fuel. -/
def scanString : Nat → Bytes → Bytes → Option (Bytes × Bytes)
  | 0, _, _ => none
  | fuel + 1, buffer, input =>
    match stringStep input with
    | .closed rest => some (buffer, rest)
    | .added octets rest => scanString fuel (buffer ++ octets) rest
    | .failed => none

/-! ## Numbers -/

/-- The labels `scan_number_...`. -/
inductive NumberState where
  | minus
  | zero
  | any1
  | decimal1
  | decimal2
  | exponent
  | sign
  | any2
  deriving DecidableEq

/-- The kind of number that `scan_number` settles on. -/
inductive NumberType where
  | unsigned
  | integer
  | float
  deriving DecidableEq

/-- Where a label of `scan_number` goes with the next octet. -/
inductive NumberMove where
  | goto (next : NumberState)
  | done
  | failed

/-- The octets '0' to '9'. -/
def isDigit (c : UInt8) : Bool := 0x30 ≤ c.toNat && c.toNat ≤ 0x39

/-- The octets 'e' and 'E'. -/
def isExponentMark (c : UInt8) : Bool := c.toNat = 0x65 || c.toNat = 0x45

/-- The default branch of a label, which the end of the input takes as well. -/
def NumberState.otherwise : NumberState → NumberMove
  | zero | any1 | decimal2 | any2 => .done
  | minus | decimal1 | exponent | sign => .failed

/-- The labels of `scan_number`, one `switch` each. -/
def NumberState.move (state : NumberState) (c : UInt8) : NumberMove :=
  match state with
  | minus =>
    if c.toNat = 0x30 then .goto zero
    else if isDigit c then .goto any1
    else state.otherwise
  | zero =>
    if c.toNat = 0x2E then .goto decimal1
    else if isExponentMark c then .goto exponent
    else state.otherwise
  | any1 =>
    if isDigit c then .goto any1
    else if c.toNat = 0x2E then .goto decimal1
    else if isExponentMark c then .goto exponent
    else state.otherwise
  | decimal1 => if isDigit c then .goto decimal2 else state.otherwise
  | decimal2 =>
    if isDigit c then .goto decimal2
    else if isExponentMark c then .goto exponent
    else state.otherwise
  | exponent =>
    if c.toNat = 0x2B ∨ c.toNat = 0x2D then .goto sign
    else if isDigit c then .goto any2
    else state.otherwise
  | sign => if isDigit c then .goto any2 else state.otherwise
  | any2 => if isDigit c then .goto any2 else state.otherwise

/-- The assignment to `number_type` behind a label. -/
def NumberState.assign (type : NumberType) : NumberState → NumberType
  | minus => .integer
  | decimal1 | exponent => .float
  | _ => type

/-- From a label to `scan_number_done`, with `token_buffer` and the input left. -/
def scanNumberFrom : NumberState → NumberType → Bytes → Bytes →
    Option (NumberType × Bytes × Bytes)
  | state, type, buffer, [] =>
    match state.otherwise with
    | .done => some (type, buffer, [])
    | _ => none
  | state, type, buffer, c :: rest =>
    match state.move c with
    | .goto next => scanNumberFrom next (next.assign type) (buffer ++ [c]) rest
    | .done => some (type, buffer, c :: rest)
    | .failed => none

/-- The value of decimal digits, most significant first. -/
def digitsValue (digits : Bytes) : Nat :=
  digits.foldl (fun value c => value * 10 + (c.toNat - 0x30)) 0

/-- The exponent part of a number: a sign and digits. -/
def exponentValue : Bytes → Int
  | [] => 0
  | c :: rest =>
    if c.toNat = 0x2D then -(digitsValue rest)
    else if c.toNat = 0x2B then digitsValue rest
    else digitsValue (c :: rest)

/-- `strtof`: the decimal number a scanned text stands for. -/
def strtof (buffer : Bytes) : Token :=
  let negative := buffer.head? = some 0x2D
  let unsigned := if negative then buffer.tail else buffer
  let whole := unsigned.takeWhile isDigit
  let afterWhole := unsigned.dropWhile isDigit
  let fraction := if afterWhole.head? = some 0x2E then afterWhole.tail.takeWhile isDigit else []
  let afterFraction :=
    if afterWhole.head? = some 0x2E then afterWhole.tail.dropWhile isDigit else afterWhole
  let mantissa : Int := digitsValue (whole ++ fraction)
  .valueFloat (if negative then -mantissa else mantissa)
    (exponentValue afterFraction.tail - fraction.length)

/-- `scan_number_done`: `strtoull` and `strtoll` fail with ERANGE outside 64 bits. -/
def numberToken : NumberType → Bytes → Token
  | .unsigned, buffer =>
    if digitsValue buffer < 2 ^ 64 then .valueInteger (digitsValue buffer) else strtof buffer
  | .integer, buffer =>
    if digitsValue buffer.tail ≤ 2 ^ 63 then .valueInteger (-(digitsValue buffer.tail))
    else strtof buffer
  | .float, buffer => strtof buffer

/-- `scan_number` on an input that starts with `-` or a digit. -/
def scanNumber (c : UInt8) (rest : Bytes) : Option (Token × Bytes) :=
  let state : NumberState :=
    if c.toNat = 0x2D then .minus else if c.toNat = 0x30 then .zero else .any1
  match scanNumberFrom state (state.assign .unsigned) [c] rest with
  | some (type, buffer, rest) => some (numberToken type buffer, rest)
  | none => none

/-! ## Tokens -/

/-- The loop of `scan_literal`, after the first character. -/
def scanLiteral : Bytes → Bytes → Option Bytes
  | [], input => some input
  | _ :: _, [] => none
  | letter :: text, c :: rest => if c = letter then scanLiteral text rest else none

/-- `skip_bom`. -/
def skipBom (input : Bytes) : Option Bytes :=
  match input with
  | [] => some []
  | c :: rest =>
    if c.toNat = 0xEF then
      match rest with
      | d :: e :: rest => if d.toNat = 0xBB ∧ e.toNat = 0xBF then some rest else none
      | _ => none
    else some (c :: rest)

/-- The four octets that JSON takes for white space. -/
def isWhitespace (c : UInt8) : Bool :=
  c.toNat = 0x20 || c.toNat = 0x09 || c.toNat = 0x0A || c.toNat = 0x0D

/-- `skip_whitespace`: the input from the first other octet on. -/
def skipWhitespace (input : Bytes) : Bytes := input.dropWhile isWhitespace

/-- A token with the input behind it, or `parse_error`. -/
def orError (rest : Bytes) : Option (Token × Bytes) → Token × Bytes
  | some scanned => scanned
  | none => (.parseError, rest)

/-- `scan`, the byte order mark apart. An octet zero ends the input. -/
def scan (input : Bytes) : Token × Bytes :=
  match skipWhitespace input with
  | [] => (.endOfInput, [])
  | c :: rest =>
    if c.toNat = 0x5B then (.beginArray, rest)
    else if c.toNat = 0x5D then (.endArray, rest)
    else if c.toNat = 0x7B then (.beginObject, rest)
    else if c.toNat = 0x7D then (.endObject, rest)
    else if c.toNat = 0x3A then (.nameSeparator, rest)
    else if c.toNat = 0x2C then (.valueSeparator, rest)
    else if c.toNat = 0x74 then
      orError rest ((scanLiteral [0x72, 0x75, 0x65] rest).map (Token.literalTrue, ·))
    else if c.toNat = 0x66 then
      orError rest ((scanLiteral [0x61, 0x6C, 0x73, 0x65] rest).map (Token.literalFalse, ·))
    else if c.toNat = 0x6E then
      orError rest ((scanLiteral [0x75, 0x6C, 0x6C] rest).map (Token.literalNull, ·))
    else if c.toNat = 0x22 then
      orError rest ((scanString (rest.length + 1) [] rest).map fun scanned =>
        (Token.valueString scanned.1, scanned.2))
    else if c.toNat = 0x2D ∨ isDigit c then orError rest (scanNumber c rest)
    else if c.toNat = 0 then (.endOfInput, rest)
    else (.parseError, rest)

/-- The tokens in the order `get_token` returns them, up to the one behind which the
parser asks for none. Each one but the last takes an octet of the input. -/
def tokens : Nat → Bytes → List Token
  | 0, _ => []
  | fuel + 1, input =>
    let (token, rest) := scan input
    if token = .parseError ∨ token = .endOfInput then [token]
    else token :: tokens fuel rest

end LinuxChat.Source
