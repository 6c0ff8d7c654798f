import LinuxChat.Guarantees.JsonParsing.Values

/-!
# Reading JSON

`nlohmann::json::parse` accepts exactly the JSON texts without numbers that a double
cannot hold, and returns the value that the text denotes. Scanner and parser were treated
apart, each in both directions; here they meet, with the byte order mark before the text and
the octets after it.
-/

namespace LinuxChat.Guarantees.JsonText

open LinuxChat.Lib
open LinuxChat.Source

theorem textual_tokens (fuel : Nat) (input : Bytes) : Textual (tokens fuel input) := by
  induction fuel generalizing input with
  | zero => intro buffer mem; cases mem
  | succ fuel ih =>
    intro buffer mem
    rcases scanned : scan input with ⟨token, rest⟩
    rw [tokens, scanned] at mem
    have first (same : Token.valueString buffer = token) :
        textBytes (textOfBytes buffer) = buffer := by
      obtain ⟨_, _, _, _, last⟩ := lexeme_of_scan scanned (by rw [← same]; exact Token.noConfusion)
      rcases last with ⟨ended, -⟩ | ⟨octets, lexeme, -⟩
      · rw [← same] at ended
        cases ended
      · rw [← same] at lexeme
        generalize string : Token.valueString buffer = spelled at lexeme
        cases lexeme with
        | string quoted =>
          injection string with encoded
          rw [encoded]
          exact textBytes_textOfBytes _
        | number n =>
          have number := token_number n
          rw [← string] at number
          exact number.elim
        | _ => cases string
    simp only at mem
    split at mem
    · exact first (List.mem_singleton.mp mem)
    · rcases List.mem_cons.mp mem with same | later
      · exact first same
      · exact ih rest buffer later

theorem lexeme_first {token : Token} {octets : Bytes} (lexeme : Lexeme token octets) :
    ∃ c rest, octets = c :: rest ∧ c.toNat < 0x80 := by
  cases lexeme with
  | number n =>
    obtain ⟨c, more, whole, digit, -⟩ := n.whole.split
    have range := digit_range digit
    rw [Numeral.text, Numeral.minusText, whole]
    cases n.negative with
    | true => exact ⟨0x2D, _, rfl, by decide⟩
    | false => exact ⟨c, _, rfl, by omega⟩
  | _ => exact ⟨_, _, rfl, by decide⟩

theorem skipBom_spells {json : Json} {body : Bytes} (spells : Spells (tokensOf json) body)
    (tail : Bytes) : skipBom (body ++ tail) = some (body ++ tail) := by
  obtain ⟨token, rest, first, -⟩ := first_token json
  rw [first] at spells
  cases spells with
  | @cons _ _ blank octets body space lexeme more =>
    have start : ∃ c others, blank ++ (octets ++ body) = c :: others ∧ c.toNat < 0x80 := by
      cases blank with
      | nil =>
        obtain ⟨c, others, rfl, ascii⟩ := lexeme_first lexeme
        exact ⟨c, _, rfl, ascii⟩
      | cons c blank =>
        have white := space c List.mem_cons_self
        simp only [isWhitespace, Bool.or_eq_true, decide_eq_true_eq] at white
        exact ⟨c, _, rfl, by omega⟩
    obtain ⟨c, others, split, ascii⟩ := start
    have unmarked : ¬ c.toNat = 0xEF := by omega
    rw [split, List.cons_append, skipBom.eq_def]
    exact if_neg unmarked

theorem mark_of_skipBom {bytes input : Bytes} (h : skipBom bytes = some input) :
    ∃ mark, bytes = mark ++ input ∧ (mark = [] ∨ mark = [0xEF, 0xBB, 0xBF]) := by
  match bytes with
  | [] =>
    injection h with same
    exact ⟨[], by rw [← same]; rfl, Or.inl rfl⟩
  | c :: rest =>
    rw [skipBom.eq_def] at h
    simp only at h
    by_cases lead : c.toNat = 0xEF
    · rw [if_pos lead] at h
      match rest with
      | [] => cases h
      | [_] => cases h
      | d :: e :: rest =>
        simp only at h
        split at h
        next second =>
          injection h with same
          have lead_eq : c = 0xEF := UInt8.toNat_inj.mp lead
          have second_eq : d = 0xBB := UInt8.toNat_inj.mp second.1
          have third_eq : e = 0xBF := UInt8.toNat_inj.mp second.2
          exact ⟨[0xEF, 0xBB, 0xBF], by rw [lead_eq, second_eq, third_eq, same]; rfl, Or.inr rfl⟩
        next => cases h
    · rw [if_neg lead] at h
      injection h with same
      exact ⟨[], same, Or.inl rfl⟩

/-- A JSON text is parsed into its value, unless a number in it is too great. -/
theorem parse_text {json : Json} {bytes : Bytes} (text : Text json bytes) :
    jsonParse bytes = if finite json then .value (mapped json) else .outOfRange := by
  obtain ⟨mark, body, blank, tail, rfl, marked, spells, space, ended⟩ := text
  have skip : skipBom (mark ++ (body ++ (blank ++ tail))) = some (body ++ (blank ++ tail)) := by
    rcases marked with rfl | rfl
    · exact skipBom_spells spells _
    · rfl
  have all := tokens_spelled spells space ended ((body ++ (blank ++ tail)).length + 1)
    (by rw [List.length_append]; omega) (chained_tokensOf json)
  simp only [jsonParse, skip, all]
  rw [parse_tokensOf]
  rfl

theorem text_of_parse {bytes : Bytes} {parsed : Json} (h : jsonParse bytes = .value parsed) :
    ∃ json, Text json bytes ∧ finite json = true ∧ mapped json = parsed := by
  cases skip : skipBom bytes with
  | none =>
    rw [jsonParse, skip] at h
    cases h
  | some input =>
    simp only [jsonParse, skip] at h
    have textual := textual_tokens (input.length + 1) input
    obtain ⟨json, rest, split, fits, later⟩ := begins parsed _ _ (Nat.lt_succ_self _) textual _ h
    have end_textual := textual
    rw [split] at end_textual
    obtain ⟨after, last, value⟩ :=
      begins parsed _ _ (Nat.lt_succ_self _) end_textual.right (.finished (mapped json)) later
    rw [last] at split
    obtain ⟨body, blank, tail, rfl, spells, space, ended⟩ := spells_of_tokens split
    obtain ⟨mark, rfl, marked⟩ := mark_of_skipBom skip
    exact ⟨json, ⟨mark, body, blank, tail, rfl, marked, spells, space, ended⟩, fits, value⟩

/-- The parser accepts the JSON texts whose numbers a double can hold, and no others, and
returns the value of the text; a text with a greater number is the error out_of_range. -/
theorem parses_json_texts (bytes : Bytes) :
    (∀ parsed, jsonParse bytes = .value parsed ↔
      ∃ json, Text json bytes ∧ finite json = true ∧ mapped json = parsed) ∧
    ∀ json, Text json bytes → finite json = false → jsonParse bytes = .outOfRange := by
  refine ⟨fun parsed => ⟨text_of_parse, ?_⟩, ?_⟩
  · rintro ⟨json, text, fits, rfl⟩
    rw [parse_text text, if_pos fits]
  · intro json text great
    rw [parse_text text, great]
    rfl

/-- One followed by 999 zeros. -/
def great : Numeral where
  negative := false
  whole := ⟨[0x31], by decide, by simp [isDigit]⟩
  noLeadingZero := by decide
  fraction := none
  exponent := some ⟨0x65, by decide, none, ⟨[0x39, 0x39, 0x39], by decide, by simp [isDigit]⟩⟩

theorem great_text : Text (.float 1 999) great.text := by
  have token : great.token = .valueFloat 1 999 := by decide
  have lexeme := Lexeme.number great
  have space : ∀ c ∈ ([] : Bytes), isWhitespace c = true := by simp
  rw [token] at lexeme
  have spelled := Spells.cons space lexeme Spells.nil
  rw [List.nil_append, List.append_nil] at spelled
  exact ⟨[], great.text, [], [], by simp, Or.inl rfl, spelled, space, Or.inl rfl⟩

/-- A text, but not of a number that a double holds: reported as out of range. -/
theorem parses_json_texts_great : jsonParse great.text = .outOfRange :=
  (parses_json_texts great.text).2 (.float 1 999) great_text (by decide +kernel)

end LinuxChat.Guarantees.JsonText
