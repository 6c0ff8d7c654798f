import LinuxChat.Source.ChatClient
import LinuxChat.Guarantees.JsonStrings

/-!
# A compact writer

`QJsonDocument::toJson` is a parameter of the client's side. Concrete runs of the client
need one such function: the members one after the other without blanks, every string as
it stands but for the two quoting characters and the controls.
-/

namespace LinuxChat.Guarantees.CompactJson

open LinuxChat.Lib LinuxChat.Source
open JsonText (Spelling Quoted Lexeme Hex Hex4 textBytes char_eq)

/-! ## The writer -/

/-- The octets of a text in ASCII. -/
def asciiBytes (text : String) : Bytes := text.toList.map fun c => UInt8.ofNat c.toNat

/-- One character inside a JSON string: the two quoting characters and the
controls are escaped, everything else is its UTF-8 encoding. -/
def escapedChar (c : Char) : Bytes :=
  if c = '"' then asciiBytes "\\\""
  else if c = '\\' then asciiBytes "\\\\"
  else if c.toNat = 8 then asciiBytes "\\b"
  else if c.toNat = 12 then asciiBytes "\\f"
  else if c.toNat = 10 then asciiBytes "\\n"
  else if c.toNat = 13 then asciiBytes "\\r"
  else if c.toNat = 9 then asciiBytes "\\t"
  else if c.toNat < 32 then
    asciiBytes "\\u00" ++ asciiBytes (hex [UInt8.ofNat c.toNat])
  else String.utf8EncodeChar c

/-- A string in quotes. -/
def compactString (text : String) : Bytes :=
  asciiBytes "\"" ++ text.toList.flatMap escapedChar ++ asciiBytes "\""

/-- A member: its name, a colon and its text. -/
def compactMember (member : String × String) : Bytes :=
  compactString member.1 ++ asciiBytes ":" ++ compactString member.2

/-- The members, with commas between. -/
def compactMembers : TextObject → Bytes
  | [] => []
  | [member] => compactMember member
  | member :: rest => compactMember member ++ asciiBytes "," ++ compactMembers rest

/-- The object without white space, as `QJsonDocument::Compact` has it. -/
def compactJson (msg : TextObject) : Bytes :=
  asciiBytes "\x7b" ++ compactMembers msg ++ asciiBytes "\x7d"

/-! ## Its strings -/

theorem control_spelling {c : Char} (control : c.toNat < 32) :
    Spelling c (asciiBytes "\\u00" ++ asciiBytes (hex [UInt8.ofNat c.toNat])) := by
  have table : ∀ n < 32, (hexChars [UInt8.ofNat n]).map (fun d => UInt8.ofNat d.toNat) =
      [UInt8.ofNat (0x30 + n / 16),
        UInt8.ofNat (if n % 16 ≤ 9 then 0x30 + n % 16 else 0x57 + n % 16)] := by decide
  have digits : asciiBytes (hex [UInt8.ofNat c.toNat]) =
      [UInt8.ofNat (0x30 + c.toNat / 16),
        UInt8.ofNat (if c.toNat % 16 ≤ 9 then 0x30 + c.toNat % 16 else 0x57 + c.toNat % 16)] := by
    rw [← table c.toNat control]
    simp [asciiBytes, hex]
  have start : asciiBytes "\\u00" = [0x5C, 0x75, 0x30, 0x30] := by decide
  have zero : Hex 0x30 0 := Or.inl ⟨by decide, rfl⟩
  have high : Hex (UInt8.ofNat (0x30 + c.toNat / 16)) (c.toNat / 16) := by
    left
    rw [UInt8.toNat_ofNat']
    omega
  have low : Hex (UInt8.ofNat (if c.toNat % 16 ≤ 9 then 0x30 + c.toNat % 16
      else 0x57 + c.toNat % 16)) (c.toNat % 16) := by
    rw [Hex, UInt8.toNat_ofNat']
    split <;> omega
  have code := Hex4.digits zero zero high low
  have value : 0 * 4096 + 0 * 256 + c.toNat / 16 * 16 + c.toNat % 16 = c.val.toNat := by
    have : c.toNat = c.val.toNat := rfl
    omega
  rw [value] at code
  rw [start, digits]
  exact Spelling.code code

/-- Each character is written as one of its spellings. -/
theorem escapedChar_spelling (c : Char) : Spelling c (escapedChar c) := by
  have named (octet : UInt8) (d : Char) (h : (octet, d) ∈ JsonText.letters)
      (same : c.toNat = d.toNat) : Spelling c [0x5C, octet] := by
    rw [char_eq same]
    exact Spelling.letter h
  rw [escapedChar]
  by_cases quotation : c = '"'
  · rw [if_pos quotation]
    exact named 0x22 '"' (by decide) (congrArg Char.toNat quotation)
  rw [if_neg quotation]
  by_cases solidus : c = '\\'
  · rw [if_pos solidus]
    exact named 0x5C '\\' (by decide) (congrArg Char.toNat solidus)
  rw [if_neg solidus]
  by_cases backspace : c.toNat = 8
  · rw [if_pos backspace]
    exact named 0x62 '\x08' (by decide) backspace
  rw [if_neg backspace]
  by_cases feed : c.toNat = 12
  · rw [if_pos feed]
    exact named 0x66 '\x0c' (by decide) feed
  rw [if_neg feed]
  by_cases line : c.toNat = 10
  · rw [if_pos line]
    exact named 0x6E '\n' (by decide) line
  rw [if_neg line]
  by_cases carriage : c.toNat = 13
  · rw [if_pos carriage]
    exact named 0x72 '\r' (by decide) carriage
  rw [if_neg carriage]
  by_cases tab : c.toNat = 9
  · rw [if_pos tab]
    exact named 0x74 '\t' (by decide) tab
  rw [if_neg tab]
  by_cases control : c.toNat < 32
  · rw [if_pos control]
    exact control_spelling control
  · rw [if_neg control]
    exact Spelling.plain (Nat.le_of_not_lt control) quotation solidus

theorem quoted_text (chars : List Char) : Quoted chars (chars.flatMap escapedChar) := by
  induction chars with
  | nil => exact Quoted.nil
  | cons c chars ih => exact Quoted.cons (escapedChar_spelling c) ih

theorem lexeme_string (text : String) :
    Lexeme (.valueString (textBytes text)) (compactString text) :=
  Lexeme.string (quoted_text text.toList)

/-! ## Its length -/

theorem compactJson_length (msg : TextObject) : 1 ≤ (compactJson msg).length := by
  simp only [compactJson, asciiBytes, List.length_append, List.length_map]
  have opening : "\x7b".toList.length = 1 := by decide
  omega

theorem escaped_plain (n : Nat) :
    ((List.replicate n 'a').flatMap escapedChar).length = n := by
  induction n with
  | zero => rfl
  | succ n ih =>
    have first : (escapedChar 'a').length = 1 := by decide
    rw [List.replicate_succ, List.flatMap_cons, List.length_append, first, ih]
    omega

/-- A text of `n` letters. -/
def letters (n : Nat) : String := String.ofList (List.replicate n 'a')

theorem broadcast_length (n : Nat) :
    (compactJson (Request.broadcast (letters n)).msg).length = n + 33 := by
  have fields : (Request.broadcast (letters n)).msg =
      [("content", letters n), ("type", "BROADCAST")] := by
    have order : "content" < "type" := by decide
    simp [Request.msg, TextObject.set, order]
  have before : (asciiBytes "\x7b" ++ compactString "content" ++ asciiBytes ":" ++
      asciiBytes "\"").length = 12 := by decide
  have behind : (asciiBytes "\"" ++ asciiBytes "," ++ compactMember ("type", "BROADCAST") ++
      asciiBytes "\x7d").length = 21 := by decide
  have middle : (letters n).toList.flatMap escapedChar =
      (List.replicate n 'a').flatMap escapedChar := by simp [letters]
  have size := escaped_plain n
  rw [fields]
  simp only [compactJson, compactMembers, compactMember, compactString, middle,
    List.length_append] at before behind ⊢
  omega

end LinuxChat.Guarantees.CompactJson
