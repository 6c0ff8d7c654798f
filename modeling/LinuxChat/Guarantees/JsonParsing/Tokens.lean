import LinuxChat.Guarantees.JsonNumbers
import LinuxChat.Guarantees.JsonStrings
import Mathlib.Data.List.Chain

/-!
# The scanner

One token is taken from the octets exactly where they begin with one of its lexemes, and a run
of the scanner spells the tokens of the whole input. Where two tokens follow one another, the
first ends where the second begins: the tokens of a value are such a chain.
-/

namespace LinuxChat.Guarantees.JsonText

open LinuxChat.Lib
open LinuxChat.Source

/-! ## One token -/

/-- The token of a number. -/
def IsNumber : Token → Prop
  | .valueInteger _ | .valueFloat _ _ => True
  | _ => False

/-- The tokens that may come behind a number. -/
def Closes : Token → Prop
  | .valueSeparator | .endArray | .endObject => True
  | _ => False

theorem token_number (n : Numeral) : IsNumber n.token := by
  rw [Numeral.token]
  split <;> trivial

theorem scan_blank {blank : Bytes} (space : ∀ c ∈ blank, isWhitespace c = true) (rest : Bytes) :
    scan (blank ++ rest) = scan rest := by
  rw [scan, skipWhitespace, List.dropWhile_append_of_pos space, scan, skipWhitespace]

theorem scanLiteral_append (text rest : Bytes) : scanLiteral text (text ++ rest) = some rest := by
  induction text with
  | nil => rfl
  | cons c text ih => simp [scanLiteral, ih]

theorem literal_of_scan {text input rest : Bytes} (h : scanLiteral text input = some rest) :
    input = text ++ rest := by
  induction text generalizing input with
  | nil =>
    injection h
  | cons letter text ih =>
    cases input with
    | nil => simp [scanLiteral] at h
    | cons c input =>
      rw [scanLiteral] at h
      split at h
      next same => rw [same, ih h, List.cons_append]
      next => cases h

theorem skipWhitespace_cons {c : UInt8} (h : isWhitespace c = false) (rest : Bytes) :
    skipWhitespace (c :: rest) = c :: rest := by
  simp [skipWhitespace, h]

theorem scan_string {chars : List Char} {body : Bytes} (quoted : Quoted chars body)
    (rest : Bytes) :
    scan (0x22 :: (body ++ 0x22 :: rest)) = (.valueString (Utf8.encode chars), rest) := by
  have read := scanString_quoted quoted ((body ++ 0x22 :: rest).length + 1) [] rest
    (by rw [List.length_append]; omega)
  rw [scan, skipWhitespace_cons (by decide)]
  simp only [read]
  rfl

theorem digit_not_whitespace {c : UInt8} (start : c.toNat = 0x2D ∨ isDigit c = true) :
    isWhitespace c = false := by
  have range : c.toNat = 0x2D ∨ 0x30 ≤ c.toNat ∧ c.toNat ≤ 0x39 := start.imp_right digit_range
  simp only [isWhitespace, Bool.or_eq_false_iff, decide_eq_false_iff_not]
  omega

theorem scan_number_start {c : UInt8} (start : c.toNat = 0x2D ∨ isDigit c = true)
    (rest : Bytes) : scan (c :: rest) = orError rest (scanNumber c rest) := by
  have range : c.toNat = 0x2D ∨ 0x30 ≤ c.toNat ∧ c.toNat ≤ 0x39 := start.imp_right digit_range
  rw [scan, skipWhitespace_cons (digit_not_whitespace start)]
  simp only
  rw [if_neg (by omega), if_neg (by omega), if_neg (by omega), if_neg (by omega),
    if_neg (by omega), if_neg (by omega), if_neg (by omega), if_neg (by omega),
    if_neg (by omega), if_neg (by omega), if_pos start]

theorem scan_of_literal {c : UInt8} {text : Bytes} {token : Token} (rest : Bytes)
    (literal : scan (c :: (text ++ rest)) =
      orError (text ++ rest) ((scanLiteral text (text ++ rest)).map (token, ·))) :
    scan (c :: text ++ rest) = (token, rest) := by
  rw [List.cons_append, literal, scanLiteral_append]
  rfl

/-- A lexeme is scanned to its end; a number needs something behind it that ends it. -/
theorem scan_lexeme {token : Token} {octets : Bytes} (lexeme : Lexeme token octets) {rest : Bytes}
    (stops : IsNumber token → Stops rest) : scan (octets ++ rest) = (token, rest) := by
  cases lexeme with
  | literalTrue | literalFalse | literalNull => exact scan_of_literal rest rfl
  | string quoted =>
    rw [List.cons_append, List.append_assoc]
    exact scan_string quoted rest
  | number n =>
    obtain ⟨c, tail, text, start, read⟩ := scanNumber_text n (stops (token_number n))
    rw [text, List.cons_append, scan_number_start start, read]
    rfl
  | _ => rfl

theorem lexeme_of_octet {c : UInt8} {n : Nat} {token token' : Token} {tail rest : Bytes}
    (same : c.toNat = n) (lexeme : Lexeme token [UInt8.ofNat n])
    (h : (token, tail) = (token', rest)) :
    ∃ octets, Lexeme token' octets ∧ c :: tail = octets ++ rest := by
  cases h
  rw [← same, UInt8.ofNat_toNat] at lexeme
  exact ⟨[c], lexeme, rfl⟩

theorem some_of_orError {tail rest : Bytes} {found : Option (Token × Bytes)} {token : Token}
    (h : orError tail found = (token, rest)) (valid : token ≠ .parseError) :
    found = some (token, rest) := by
  cases found with
  | none =>
    cases h
    exact absurd rfl valid
  | some scanned => exact congrArg some h

theorem lexeme_of_literal {c : UInt8} {n : Nat} {token token' : Token} {text tail rest : Bytes}
    (same : c.toNat = n) (lexeme : Lexeme token (UInt8.ofNat n :: text))
    (h : orError tail ((scanLiteral text tail).map (token, ·)) = (token', rest))
    (valid : token' ≠ .parseError) : ∃ octets, Lexeme token' octets ∧ c :: tail = octets ++ rest := by
  obtain ⟨left, read, result⟩ := Option.map_eq_some_iff.mp (some_of_orError h valid)
  cases result
  rw [← same, UInt8.ofNat_toNat] at lexeme
  rw [literal_of_scan read]
  exact ⟨c :: text, lexeme, rfl⟩

theorem lexeme_of_first {c : UInt8} {tail rest : Bytes} {token : Token}
    (space : isWhitespace c = false) (h : scan (c :: tail) = (token, rest))
    (valid : token ≠ .parseError) :
    token = .endOfInput ∧ c.toNat = 0 ∨
      ∃ octets, Lexeme token octets ∧ c :: tail = octets ++ rest := by
  rw [scan, skipWhitespace_cons space] at h
  simp only at h
  by_cases beginArray : c.toNat = 0x5B
  · rw [if_pos beginArray] at h
    right
    exact lexeme_of_octet beginArray Lexeme.beginArray h
  rw [if_neg beginArray] at h
  by_cases endArray : c.toNat = 0x5D
  · rw [if_pos endArray] at h
    right
    exact lexeme_of_octet endArray Lexeme.endArray h
  rw [if_neg endArray] at h
  by_cases beginObject : c.toNat = 0x7B
  · rw [if_pos beginObject] at h
    right
    exact lexeme_of_octet beginObject Lexeme.beginObject h
  rw [if_neg beginObject] at h
  by_cases endObject : c.toNat = 0x7D
  · rw [if_pos endObject] at h
    right
    exact lexeme_of_octet endObject Lexeme.endObject h
  rw [if_neg endObject] at h
  by_cases colon : c.toNat = 0x3A
  · rw [if_pos colon] at h
    right
    exact lexeme_of_octet colon Lexeme.nameSeparator h
  rw [if_neg colon] at h
  by_cases comma : c.toNat = 0x2C
  · rw [if_pos comma] at h
    right
    exact lexeme_of_octet comma Lexeme.valueSeparator h
  rw [if_neg comma] at h
  by_cases literalTrue : c.toNat = 0x74
  · rw [if_pos literalTrue] at h
    right
    exact lexeme_of_literal literalTrue Lexeme.literalTrue h valid
  rw [if_neg literalTrue] at h
  by_cases literalFalse : c.toNat = 0x66
  · rw [if_pos literalFalse] at h
    right
    exact lexeme_of_literal literalFalse Lexeme.literalFalse h valid
  rw [if_neg literalFalse] at h
  by_cases literalNull : c.toNat = 0x6E
  · rw [if_pos literalNull] at h
    right
    exact lexeme_of_literal literalNull Lexeme.literalNull h valid
  rw [if_neg literalNull] at h
  by_cases quotation : c.toNat = 0x22
  · rw [if_pos quotation] at h
    obtain ⟨scanned, read, result⟩ := Option.map_eq_some_iff.mp (some_of_orError h valid)
    cases result
    obtain ⟨chars, body, quoted, split, buffer⟩ := quoted_of_scanString read
    rw [List.nil_append] at buffer
    rw [split, show c = 0x22 from UInt8.toNat_inj.mp quotation, buffer]
    exact Or.inr ⟨_, Lexeme.string quoted, by simp⟩
  rw [if_neg quotation] at h
  by_cases start : c.toNat = 0x2D ∨ isDigit c = true
  · rw [if_pos start] at h
    obtain ⟨n, same, split⟩ := numeral_of_scanNumber start (some_of_orError h valid)
    rw [split, same]
    exact Or.inr ⟨n.text, Lexeme.number n, rfl⟩
  rw [if_neg start] at h
  by_cases nul : c.toNat = 0
  · rw [if_pos nul] at h
    cases h
    exact Or.inl ⟨rfl, nul⟩
  · rw [if_neg nul] at h
    cases h
    exact absurd rfl valid

theorem skipped (input : Bytes) :
    ∃ blank, input = blank ++ skipWhitespace input ∧ (∀ c ∈ blank, isWhitespace c = true) ∧
      ∀ c, (skipWhitespace input).head? = some c → isWhitespace c = false := by
  refine ⟨input.takeWhile isWhitespace, ?_, fun c => List.mem_takeWhile_imp, ?_⟩
  · rw [skipWhitespace, List.takeWhile_append_dropWhile]
  · intro c h
    have := List.head?_dropWhile_not isWhitespace input
    rw [skipWhitespace] at h
    rw [h] at this
    simpa using this

/-- What `scan` takes for a token is white space and a lexeme of it, or the end. -/
theorem lexeme_of_scan {input rest : Bytes} {token : Token} (h : scan input = (token, rest))
    (valid : token ≠ .parseError) :
    ∃ blank left, input = blank ++ left ∧ (∀ c ∈ blank, isWhitespace c = true) ∧
      (token = .endOfInput ∧ (left = [] ∨ left.head? = some 0) ∨
        ∃ octets, Lexeme token octets ∧ left = octets ++ rest) := by
  obtain ⟨blank, split, space, visible⟩ := skipped input
  refine ⟨blank, skipWhitespace input, split, space, ?_⟩
  rw [split, scan_blank space] at h
  cases start : skipWhitespace input with
  | nil =>
    rw [start] at h
    cases h
    exact Or.inl ⟨rfl, Or.inl rfl⟩
  | cons c tail =>
    rw [start] at h visible
    rcases lexeme_of_first (visible c rfl) h valid with ⟨ended, nul⟩ | lexeme
    · have nul_eq : c = 0 := UInt8.toNat_inj.mp nul
      exact Or.inl ⟨ended, Or.inr (by rw [nul_eq]; rfl)⟩
    · exact Or.inr lexeme

theorem scan_end {blank tail : Bytes} (space : ∀ c ∈ blank, isWhitespace c = true)
    (ended : tail = [] ∨ tail.head? = some 0) : (scan (blank ++ tail)).1 = .endOfInput := by
  rw [scan_blank space]
  rcases ended with rfl | nul
  · rfl
  · obtain ⟨rest, rfl⟩ := List.head?_eq_some_iff.mp nul
    rfl

/-! ## All tokens -/

/-- What may stand behind a number in a list of tokens. -/
def Follows (token next : Token) : Prop := IsNumber token → Closes next

theorem lexeme_token {token : Token} {octets : Bytes} (lexeme : Lexeme token octets) :
    token ≠ .parseError ∧ token ≠ .endOfInput ∧ 0 < octets.length := by
  cases lexeme with
  | number n =>
    have number := token_number n
    obtain ⟨c, more, whole, -⟩ := n.whole.split
    refine ⟨?_, ?_, ?_⟩
    · intro same
      rw [same] at number
      exact number
    · intro same
      rw [same] at number
      exact number
    · simp only [Numeral.text, List.length_append, whole, List.length_cons]
      omega
  | _ => simp

theorem stops_whitespace {c : UInt8} (space : isWhitespace c = true) (rest : Bytes) :
    Stops (c :: rest) := by
  intro d h
  injection h with same
  have range : c.toNat ≤ 0x20 := by
    simp only [isWhitespace, Bool.or_eq_true, decide_eq_true_eq] at space
    omega
  rw [← same]
  refine ⟨?_, by omega, ?_⟩
  · by_contra digit
    have := digit_range (Bool.eq_true_of_not_eq_false digit)
    omega
  · by_contra mark
    have := mark_range (Bool.eq_true_of_not_eq_false mark)
    omega

theorem stops_end {tail : Bytes} (ended : tail = [] ∨ tail.head? = some 0) : Stops tail := by
  intro c h
  rcases ended with rfl | nul
  · cases h
  · rw [nul] at h
    injection h with same
    rw [← same]
    decide

theorem stops_closes {token : Token} {octets : Bytes} (lexeme : Lexeme token octets)
    (closes : Closes token) (rest : Bytes) : Stops (octets ++ rest) := by
  intro c h
  cases lexeme with
  | valueSeparator | endArray | endObject =>
    injection h with same
    rw [← same]
    decide
  | number n =>
    rw [Numeral.token] at closes
    split at closes <;> exact closes.elim
  | _ => exact closes.elim

theorem stops_blank {blank rest : Bytes} (space : ∀ c ∈ blank, isWhitespace c = true)
    (stops : Stops rest) : Stops (blank ++ rest) := by
  cases blank with
  | nil => exact stops
  | cons c more => exact stops_whitespace (space c List.mem_cons_self) _

theorem stops_spells {toks : List Token} {body tail : Bytes} (spells : Spells toks body)
    (closes : ∀ token, toks.head? = some token → Closes token) (stops : Stops tail) :
    Stops (body ++ tail) := by
  cases spells with
  | nil => exact stops
  | cons space lexeme more =>
    rw [List.append_assoc, List.append_assoc]
    exact stops_blank space (stops_closes lexeme (closes _ rfl) _)

theorem tokens_spelled {toks : List Token} {body : Bytes} (spells : Spells toks body)
    {blank tail : Bytes} (space : ∀ c ∈ blank, isWhitespace c = true)
    (ended : tail = [] ∨ tail.head? = some 0) :
    ∀ fuel, body.length < fuel → toks.IsChain Follows →
      tokens fuel (body ++ (blank ++ tail)) = toks ++ [.endOfInput] := by
  induction spells with
  | nil =>
    intro fuel enough _
    obtain ⟨fuel, rfl⟩ := Nat.exists_eq_succ_of_ne_zero (Nat.ne_of_gt enough)
    rw [List.nil_append, tokens]
    simp [scan_end space ended]
  | @cons token rest before octets body around lexeme more ih =>
    intro fuel enough chained
    obtain ⟨valid, going, size⟩ := lexeme_token lexeme
    simp only [List.length_append] at enough
    obtain ⟨fuel, rfl⟩ := Nat.exists_eq_succ_of_ne_zero (by omega : fuel ≠ 0)
    have behind (number : IsNumber token) : Stops (body ++ (blank ++ tail)) := by
      apply stops_spells more
      · intro next first
        obtain ⟨others, rfl⟩ := List.head?_eq_some_iff.mp first
        exact (List.isChain_cons_cons.mp chained).1 number
      · exact stops_blank space (stops_end ended)
    have scanned := scan_lexeme lexeme behind
    rw [List.append_assoc, List.append_assoc, tokens, scan_blank around, scanned]
    simp only [valid, going, or_self, if_false, List.cons_append]
    rw [ih fuel (by omega) chained.tail]

theorem spells_of_tokens {toks later : List Token} {fuel : Nat} {input : Bytes}
    (h : tokens fuel input = toks ++ .endOfInput :: later) :
    ∃ body blank tail, input = body ++ (blank ++ tail) ∧ Spells toks body ∧
      (∀ c ∈ blank, isWhitespace c = true) ∧ (tail = [] ∨ tail.head? = some 0) := by
  induction toks generalizing fuel input with
  | nil =>
    cases fuel with
    | zero => cases h
    | succ fuel =>
      rw [tokens] at h
      rcases scanned : scan input with ⟨token, rest⟩
      have first : token = .endOfInput := by
        rw [scanned] at h
        simp only at h
        split at h <;> injection h
      obtain ⟨blank, left, split, space, last⟩ :=
        lexeme_of_scan scanned (by rw [first]; exact Token.noConfusion)
      rcases last with ⟨-, ended⟩ | ⟨octets, lexeme, -⟩
      · exact ⟨[], blank, left, split, Spells.nil, space, ended⟩
      · exact absurd first (lexeme_token lexeme).2.1
  | cons token toks ih =>
    cases fuel with
    | zero => cases h
    | succ fuel =>
      rw [tokens] at h
      rcases scanned : scan input with ⟨token', rest⟩
      rw [scanned] at h
      simp only at h
      split at h
      next =>
        injection h with _ empty
        exact absurd empty.symm (by simp)
      next going =>
        injection h with same others
        obtain ⟨body, blank, tail, split, spells, ended⟩ := ih others
        obtain ⟨before, left, whole, space, last⟩ :=
          lexeme_of_scan scanned fun wrong => going (Or.inl wrong)
        rcases last with ⟨wrong, -⟩ | ⟨octets, lexeme, rfl⟩
        · exact absurd (Or.inr wrong) going
        · rw [same] at lexeme
          refine ⟨before ++ (octets ++ body), blank, tail, ?_, Spells.cons space lexeme spells, ended⟩
          rw [whole, split]
          simp

/-! ## The tokens of a value -/

theorem chained_cons {token : Token} {rest : List Token} (plain : ¬ IsNumber token)
    (h : rest.IsChain Follows) : (token :: rest).IsChain Follows :=
  List.isChain_cons.mpr ⟨fun _ _ number => absurd number plain, h⟩

theorem chained_append {first rest : List Token} (h : first.IsChain Follows)
    (h' : rest.IsChain Follows) (closes : ∀ token, rest.head? = some token → Closes token) :
    (first ++ rest).IsChain Follows :=
  List.isChain_append.mpr ⟨h, h', fun _ _ next hn _ => closes next hn⟩

theorem moreItems_closes (items : List Json) (token : Token)
    (h : (moreItems items).head? = some token) : Closes token := by
  cases items <;> injection h with same <;> rw [← same] <;> trivial

theorem moreFields_closes (fields : List (String × Json)) (token : Token)
    (h : (moreFields fields).head? = some token) : Closes token := by
  cases fields <;> injection h with same <;> rw [← same] <;> trivial

mutual

theorem chained_tokensOf (json : Json) : (tokensOf json).IsChain Follows := by
  match json with
  | .null => exact List.isChain_singleton _
  | .boolean true => exact List.isChain_singleton _
  | .boolean false => exact List.isChain_singleton _
  | .number _ => exact List.isChain_singleton _
  | .float _ _ => exact List.isChain_singleton _
  | .string _ => exact List.isChain_singleton _
  | .array items => exact chained_cons id (chained_itemTokens items)
  | .object fields => exact chained_cons id (chained_fieldTokens fields)

theorem chained_itemTokens (items : List Json) : (itemTokens items).IsChain Follows := by
  match items with
  | [] => exact List.isChain_singleton _
  | item :: rest =>
    exact chained_append (chained_tokensOf item) (chained_moreItems rest) (moreItems_closes rest)

theorem chained_moreItems (items : List Json) : (moreItems items).IsChain Follows := by
  match items with
  | [] => exact List.isChain_singleton _
  | item :: rest =>
    exact chained_cons id
      (chained_append (chained_tokensOf item) (chained_moreItems rest) (moreItems_closes rest))

theorem chained_fieldTokens (fields : List (String × Json)) :
    (fieldTokens fields).IsChain Follows := by
  match fields with
  | [] => exact List.isChain_singleton _
  | (key, value) :: rest =>
    exact chained_cons id (chained_cons id
      (chained_append (chained_tokensOf value) (chained_moreFields rest) (moreFields_closes rest)))

theorem chained_moreFields (fields : List (String × Json)) :
    (moreFields fields).IsChain Follows := by
  match fields with
  | [] => exact List.isChain_singleton _
  | (key, value) :: rest =>
    exact chained_cons id (chained_cons id (chained_cons id
      (chained_append (chained_tokensOf value) (chained_moreFields rest) (moreFields_closes rest))))

end

end LinuxChat.Guarantees.JsonText
