import LinuxChat.Source.JsonParser

/-!
# JSON texts

What the interchange format is, apart from any program that reads it: how characters,
strings and numbers are spelled, the tokens of a value and the texts that spell them.
A text may start with a byte order mark and end at an octet zero, as the library allows.
The values are those of the library, with the fields of an object in the order of the
text and a key as often as it is there; `mapped` is what a `std::map` makes of them.
-/

namespace LinuxChat.Guarantees.JsonText

open LinuxChat.Lib
open LinuxChat.Source

/-! ## Strings -/

/-- The octet is a hexadecimal digit of this value, upper or lower case. -/
def Hex (octet : UInt8) (digit : Nat) : Prop :=
  digit ≤ 9 ∧ octet.toNat = 0x30 + digit ∨
    10 ≤ digit ∧ digit ≤ 15 ∧ (octet.toNat = 0x37 + digit ∨ octet.toNat = 0x57 + digit)

/-- Four hexadecimal digits with their value. -/
inductive Hex4 : Bytes → Nat → Prop where
  | digits {a b c d : UInt8} {w x y z : Nat} (ha : Hex a w) (hb : Hex b x) (hc : Hex c y)
      (hd : Hex d z) : Hex4 [a, b, c, d] (w * 4096 + x * 256 + y * 16 + z)

/-- The letters that stand for a character behind a backslash. -/
def letters : List (UInt8 × Char) :=
  [(0x22, '"'), (0x5C, '\\'), (0x2F, '/'), (0x62, '\x08'), (0x66, '\x0c'), (0x6E, '\n'),
    (0x72, '\r'), (0x74, '\t')]

/-- The spellings of one character. -/
inductive Spelling (c : Char) : Bytes → Prop where
  | plain (printable : 0x20 ≤ c.val.toNat) (quotation : c ≠ '"') (solidus : c ≠ '\\') :
      Spelling c (String.utf8EncodeChar c)
  | letter {octet : UInt8} (h : (octet, c) ∈ letters) : Spelling c [0x5C, octet]
  | code {digits : Bytes} (h : Hex4 digits c.val.toNat) : Spelling c (0x5C :: 0x75 :: digits)
  | pair {high low : Bytes} {top bottom : Nat} (hi : Hex4 high (0xD800 + top))
      (lo : Hex4 low (0xDC00 + bottom)) (top_lt : top < 0x400) (bottom_lt : bottom < 0x400)
      (value : c.val.toNat = 0x10000 + top * 0x400 + bottom) :
      Spelling c (0x5C :: 0x75 :: (high ++ 0x5C :: 0x75 :: low))

/-- The text between the quotation marks. -/
inductive Quoted : List Char → Bytes → Prop where
  | nil : Quoted [] []
  | cons {c : Char} {chars : List Char} {octets rest : Bytes} (first : Spelling c octets)
      (more : Quoted chars rest) : Quoted (c :: chars) (octets ++ rest)

/-! ## Numbers -/

/-- Decimal digits, one at least. -/
structure Digits where
  octets : Bytes
  nonempty : octets ≠ []
  decimal : ∀ c ∈ octets, isDigit c = true

/-- The exponent part of a number: its mark, a sign or none, and digits. -/
structure Exponent where
  mark : UInt8
  isMark : isExponentMark mark = true
  sign : Option Bool
  digits : Digits

/-- True is the minus sign. -/
def signText : Option Bool → Bytes
  | none => []
  | some true => [0x2D]
  | some false => [0x2B]

/-- Its octets. -/
def Exponent.text (e : Exponent) : Bytes := e.mark :: (signText e.sign ++ e.digits.octets)

/-- The power of ten it stands for. -/
def Exponent.value (e : Exponent) : Int :=
  if e.sign = some true then -(digitsValue e.digits.octets) else digitsValue e.digits.octets

/-- A point and digits, or nothing. -/
def fractionText : Option Digits → Bytes
  | none => []
  | some digits => 0x2E :: digits.octets

/-- The exponent part, or nothing. -/
def exponentText : Option Exponent → Bytes
  | none => []
  | some e => e.text

/-- A number as RFC 8259 writes it. A zero in front stands alone. -/
structure Numeral where
  negative : Bool
  whole : Digits
  noLeadingZero : whole.octets.head? = some 0x30 → whole.octets = [0x30]
  fraction : Option Digits
  exponent : Option Exponent

namespace Numeral

/-- The minus sign, if there is one. -/
def minusText (n : Numeral) : Bytes := if n.negative then [0x2D] else []

/-- The octets of a number. -/
def text (n : Numeral) : Bytes :=
  n.minusText ++ (n.whole.octets ++ (fractionText n.fraction ++ exponentText n.exponent))

/-- The digits behind the point. -/
def fractionDigits (n : Numeral) : Bytes := (n.fraction.map Digits.octets).getD []

/-- The number is `mantissa * 10 ^ power`. -/
def mantissa (n : Numeral) : Int :=
  if n.negative then -(digitsValue (n.whole.octets ++ n.fractionDigits))
  else digitsValue (n.whole.octets ++ n.fractionDigits)

/-- The power of ten that is left when the point is moved behind the last digit. -/
def power (n : Numeral) : Int := (n.exponent.map Exponent.value).getD 0 - n.fractionDigits.length

/-- A number without fraction and exponent that 64 bits hold is an integer. -/
def token (n : Numeral) : Token :=
  if n.fraction = none ∧ n.exponent = none ∧ -(2 ^ 63) ≤ n.mantissa ∧ n.mantissa < 2 ^ 64 then
    .valueInteger n.mantissa
  else .valueFloat n.mantissa n.power

end Numeral

/-! ## Tokens -/

/-- The octets of a token, without the white space around them. -/
inductive Lexeme : Token → Bytes → Prop where
  | beginArray : Lexeme .beginArray [0x5B]
  | endArray : Lexeme .endArray [0x5D]
  | beginObject : Lexeme .beginObject [0x7B]
  | endObject : Lexeme .endObject [0x7D]
  | nameSeparator : Lexeme .nameSeparator [0x3A]
  | valueSeparator : Lexeme .valueSeparator [0x2C]
  | literalTrue : Lexeme .literalTrue [0x74, 0x72, 0x75, 0x65]
  | literalFalse : Lexeme .literalFalse [0x66, 0x61, 0x6C, 0x73, 0x65]
  | literalNull : Lexeme .literalNull [0x6E, 0x75, 0x6C, 0x6C]
  | string {chars : List Char} {octets : Bytes} (h : Quoted chars octets) :
      Lexeme (.valueString (Utf8.encode chars)) (0x22 :: (octets ++ [0x22]))
  | number (n : Numeral) : Lexeme n.token n.text

/-- Lexemes with white space before each. -/
inductive Spells : List Token → Bytes → Prop where
  | nil : Spells [] []
  | cons {token : Token} {rest : List Token} {blank octets tail : Bytes}
      (space : ∀ c ∈ blank, isWhitespace c = true) (lexeme : Lexeme token octets)
      (more : Spells rest tail) : Spells (token :: rest) (blank ++ (octets ++ tail))

/-! ## Values -/

/-- A text in UTF-8. -/
def textBytes (text : String) : Bytes := Utf8.encode text.toList

mutual

/-- The tokens of a value, in the order in which they are written. -/
def tokensOf : Json → List Token
  | .null => [.literalNull]
  | .boolean true => [.literalTrue]
  | .boolean false => [.literalFalse]
  | .number value => [.valueInteger value]
  | .float mantissa exponent => [.valueFloat mantissa exponent]
  | .string text => [.valueString (textBytes text)]
  | .array items => .beginArray :: itemTokens items
  | .object fields => .beginObject :: fieldTokens fields

/-- Behind the opening bracket. -/
def itemTokens : List Json → List Token
  | [] => [.endArray]
  | item :: rest => tokensOf item ++ moreItems rest

/-- Behind an item. -/
def moreItems : List Json → List Token
  | [] => [.endArray]
  | item :: rest => .valueSeparator :: (tokensOf item ++ moreItems rest)

/-- The tokens of an object behind its opening brace. -/
def fieldTokens : List (String × Json) → List Token
  | [] => [.endObject]
  | (key, value) :: rest =>
    .valueString (textBytes key) :: .nameSeparator :: (tokensOf value ++ moreFields rest)

/-- The tokens behind a member. -/
def moreFields : List (String × Json) → List Token
  | [] => [.endObject]
  | (key, value) :: rest =>
    .valueSeparator :: .valueString (textBytes key) :: .nameSeparator ::
      (tokensOf value ++ moreFields rest)

end

/-- The texts of a value. What comes behind an octet zero does not count. -/
def Text (json : Json) (bytes : Bytes) : Prop :=
  ∃ mark body blank tail : Bytes, bytes = mark ++ (body ++ (blank ++ tail)) ∧
    (mark = [] ∨ mark = [0xEF, 0xBB, 0xBF]) ∧ Spells (tokensOf json) body ∧
    (∀ c ∈ blank, isWhitespace c = true) ∧ (tail = [] ∨ tail.head? = some 0)

mutual

/-- The library's value: objects are maps, the last field of a key counts. -/
def mapped : Json → Json
  | .array items => .array (mappedItems items)
  | .object fields => .object (mappedFields [] fields)
  | json => json

/-- The elements, each as the parser keeps it. -/
def mappedItems : List Json → List Json
  | [] => []
  | item :: rest => mapped item :: mappedItems rest

/-- The members as the map keeps them, sorted by name, a later one in place of an earlier one of
its name. -/
def mappedFields (found : List (String × Json)) : List (String × Json) → List (String × Json)
  | [] => found
  | (key, value) :: rest => mappedFields (setField key (mapped value) found) rest

end

mutual

/-- No number is too great for a double. -/
def finite : Json → Bool
  | .float mantissa exponent => isFinite mantissa exponent
  | .array items => finiteItems items
  | .object fields => finiteFields fields
  | _ => true

/-- No element has a number that overflows. -/
def finiteItems : List Json → Bool
  | [] => true
  | item :: rest => finite item && finiteItems rest

/-- No member has one. -/
def finiteFields : List (String × Json) → Bool
  | [] => true
  | (_, value) :: rest => finite value && finiteFields rest

end

end LinuxChat.Guarantees.JsonText
