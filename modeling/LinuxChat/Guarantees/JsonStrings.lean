import LinuxChat.Guarantees.JsonText

/-!
# Strings

`scan_string` reads exactly the quoted texts, and what it leaves in `token_buffer` is the
UTF-8 encoding of the characters that they spell.
-/

namespace LinuxChat.Guarantees.JsonText

open LinuxChat.Lib
open LinuxChat.Source

/-! ## Hexadecimal digits -/

theorem hexDigit_iff {c : UInt8} {digit : Nat} : hexDigit c = some digit ↔ Hex c digit := by
  simp only [hexDigit, Hex]
  split_ifs <;> simp <;> omega

theorem getCodepoint_cons {factor codepoint n : Nat} {factors : List Nat} {input rest : Bytes}
    (h : getCodepoint (factor :: factors) codepoint input = some (n, rest)) :
    ∃ c digit tail, input = c :: tail ∧ Hex c digit ∧
      getCodepoint factors (codepoint + digit <<< factor) tail = some (n, rest) := by
  cases input with
  | nil => simp [getCodepoint] at h
  | cons c tail =>
    simp only [getCodepoint] at h
    cases digit : hexDigit c with
    | none => simp [digit] at h
    | some value =>
      rw [digit] at h
      exact ⟨c, value, tail, rfl, hexDigit_iff.mp digit, h⟩

/-- Four rounds of the loop. -/
theorem getCodepoint_iff {input rest : Bytes} {n : Nat} :
    getCodepoint [12, 8, 4, 0] 0 input = some (n, rest) ↔
      ∃ digits, Hex4 digits n ∧ input = digits ++ rest := by
  constructor
  · intro h
    obtain ⟨a, w, _, rfl, ha, h⟩ := getCodepoint_cons h
    obtain ⟨b, x, _, rfl, hb, h⟩ := getCodepoint_cons h
    obtain ⟨c, y, _, rfl, hc, h⟩ := getCodepoint_cons h
    obtain ⟨d, z, _, rfl, hd, h⟩ := getCodepoint_cons h
    simp only [getCodepoint, Option.some.injEq, Prod.mk.injEq, Nat.shiftLeft_eq] at h
    obtain ⟨value, rfl⟩ := h
    have value : n = w * 4096 + x * 256 + y * 16 + z := by omega
    rw [value]
    exact ⟨[a, b, c, d], Hex4.digits ha hb hc hd, rfl⟩
  · rintro ⟨digits, ⟨ha, hb, hc, hd⟩, rfl⟩
    simp only [List.cons_append, List.nil_append, getCodepoint, hexDigit_iff.mpr ha,
      hexDigit_iff.mpr hb, hexDigit_iff.mpr hc, hexDigit_iff.mpr hd, Nat.shiftLeft_eq]
    simp

theorem Hex4.bound {digits : Bytes} {n : Nat} (h : Hex4 digits n) : n ≤ 0xFFFF := by
  cases h with
  | digits ha hb hc hd =>
    simp only [Hex] at ha hb hc hd
    omega

/-! ## Code points -/

theorem or_lead {low : Nat} (k width : Nat) (h : low < 2 ^ width) :
    2 ^ width * k ||| low = 2 ^ width * k + low :=
  (Nat.two_pow_add_eq_or_of_lt h k).symm

theorem tail_octet (n : Nat) : 0x80 ||| n &&& 0x3F = n % 64 + 0x80 := by
  have mask : n &&& 0x3F = n % 64 := Nat.and_two_pow_sub_one_eq_mod n 6
  have lead := or_lead 2 6 (Nat.mod_lt n (by omega : 0 < 2 ^ 6))
  simp only [Nat.reducePow, Nat.reduceMul] at lead
  rw [mask, lead]
  omega

/-- A code point that is a character is written as that character. -/
theorem codepointBytes_eq (c : Char) : codepointBytes c.val.toNat = String.utf8EncodeChar c := by
  have range := Utf8.valid c
  simp only [codepointBytes, String.utf8EncodeChar, tail_octet, Nat.shiftRight_eq_div_pow,
    Nat.reducePow]
  split_ifs with h1 h2 h3 h4 h5 h6 h7 <;> try omega
  · rfl
  · have low : c.val.toNat / 64 < 2 ^ 5 := by omega
    have lead := or_lead 6 5 low
    simp only [Nat.reducePow, Nat.reduceMul] at lead
    rw [lead]
    congr 2
    omega
  · have low : c.val.toNat / 4096 < 2 ^ 4 := by omega
    have lead := or_lead 14 4 low
    simp only [Nat.reducePow, Nat.reduceMul] at lead
    rw [lead]
    congr 2
    omega
  · have low : c.val.toNat / 262144 < 2 ^ 3 := by omega
    have lead := or_lead 30 3 low
    simp only [Nat.reducePow, Nat.reduceMul] at lead
    rw [lead]
    congr 2
    omega

/-! ## Unicode escapes -/

theorem scanUnicode_code {c : Char} {digits : Bytes} (h : Hex4 digits c.val.toNat)
    (rest : Bytes) : scanUnicode (digits ++ rest) = .added (String.utf8EncodeChar c) rest := by
  have range := Utf8.valid c
  have bound := h.bound
  simp only [scanUnicode, getCodepoint_iff.mpr ⟨digits, h, rfl⟩]
  rw [if_neg (by omega), if_neg (by omega), codepointBytes_eq]

theorem scanUnicode_pair {c : Char} {high low : Bytes} {top bottom : Nat}
    (hi : Hex4 high (0xD800 + top)) (lo : Hex4 low (0xDC00 + bottom)) (top_lt : top < 0x400)
    (bottom_lt : bottom < 0x400) (value : c.val.toNat = 0x10000 + top * 0x400 + bottom)
    (rest : Bytes) :
    scanUnicode (high ++ 0x5C :: 0x75 :: (low ++ rest)) =
      .added (String.utf8EncodeChar c) rest := by
  have joined : (0xD800 + top) <<< 10 + (0xDC00 + bottom) - 0x35FDC00 = c.val.toNat := by
    rw [Nat.shiftLeft_eq]
    omega
  have second : (0x5C : UInt8).toNat = 0x5C ∧ (0x75 : UInt8).toNat = 0x75 := by decide
  simp only [scanUnicode, getCodepoint_iff.mpr ⟨high, hi, rfl⟩,
    getCodepoint_iff.mpr ⟨low, lo, rfl⟩]
  rw [if_pos (by omega), if_pos second, if_pos (by omega), joined, codepointBytes_eq]

theorem scanUnicode_added {input octets rest : Bytes}
    (h : scanUnicode input = .added octets rest) :
    ∃ c spelled, input = spelled ++ rest ∧ octets = String.utf8EncodeChar c ∧
      Spelling c (0x5C :: 0x75 :: spelled) := by
  cases first : getCodepoint [12, 8, 4, 0] 0 input with
  | none => simp [scanUnicode, first] at h
  | some scanned =>
    obtain ⟨n, tail⟩ := scanned
    obtain ⟨digits, hex, rfl⟩ := getCodepoint_iff.mp first
    have bound := hex.bound
    simp only [scanUnicode, first] at h
    split_ifs at h with surrogate low
    · match tail, h with
      | solidus :: letter :: tail, h =>
        simp only at h
        split_ifs at h with prefixed
        cases second : getCodepoint [12, 8, 4, 0] 0 tail with
        | none => simp [second] at h
        | some scanned =>
          obtain ⟨m, tail⟩ := scanned
          obtain ⟨digits', hex', rfl⟩ := getCodepoint_iff.mp second
          simp only [second] at h
          split_ifs at h with low
          simp only [StringStep.added.injEq] at h
          obtain ⟨rfl, rfl⟩ := h
          have range : (0x10000 + (n - 0xD800) * 0x400 + (m - 0xDC00)).isValidChar := by
            simp only [Nat.isValidChar]
            omega
          have joined : n <<< 10 + m - 0x35FDC00 = (Utf8.charAt _ range).val.toNat := by
            rw [Utf8.charAt_toNat, Nat.shiftLeft_eq]
            omega
          have hi : Hex4 digits (0xD800 + (n - 0xD800)) := by
            rwa [Nat.add_sub_cancel' surrogate.1]
          have lo : Hex4 digits' (0xDC00 + (m - 0xDC00)) := by
            rwa [Nat.add_sub_cancel' low.1]
          have solidus_eq : solidus = 0x5C := UInt8.toNat_inj.mp prefixed.1
          have letter_eq : letter = 0x75 := UInt8.toNat_inj.mp prefixed.2
          refine ⟨Utf8.charAt _ range, digits ++ 0x5C :: 0x75 :: digits', ?_, ?_, ?_⟩
          · rw [solidus_eq, letter_eq, List.append_assoc]
            rfl
          · rw [joined, codepointBytes_eq]
          · exact Spelling.pair hi lo (by omega) (by omega) (Utf8.charAt_toNat range)
    · simp only [StringStep.added.injEq] at h
      obtain ⟨rfl, rfl⟩ := h
      have range : n.isValidChar := by
        simp only [Nat.isValidChar]
        omega
      have value := Utf8.charAt_toNat range
      refine ⟨Utf8.charAt n range, digits, rfl, ?_, ?_⟩
      · rw [← codepointBytes_eq, value]
      · apply Spelling.code
        rwa [value]

/-! ## Escapes -/

theorem scanEscape_letter {octet : UInt8} {c : Char} (h : (octet, c) ∈ letters) (rest : Bytes) :
    scanEscape (octet :: rest) = .added (String.utf8EncodeChar c) rest := by
  simp only [letters, List.mem_cons, Prod.mk.injEq, List.not_mem_nil, or_false] at h
  rcases h with ⟨rfl, rfl⟩ | ⟨rfl, rfl⟩ | ⟨rfl, rfl⟩ | ⟨rfl, rfl⟩ | ⟨rfl, rfl⟩ | ⟨rfl, rfl⟩ |
    ⟨rfl, rfl⟩ | ⟨rfl, rfl⟩ <;> rfl

theorem scanEscape_unicode (rest : Bytes) : scanEscape (0x75 :: rest) = scanUnicode rest := rfl

/-- Behind a backslash there is a letter, a `u`, or an error. -/
theorem scanEscape_other {octet : UInt8} (unlisted : octet ∉ letters.map Prod.fst)
    (rest : Bytes) :
    scanEscape (octet :: rest) = if octet.toNat = 0x75 then scanUnicode rest else .failed := by
  have absent (letter : Nat) (h : UInt8.ofNat letter ∈ letters.map Prod.fst) :
      ¬ octet.toNat = letter := by
    intro same
    rw [← same, UInt8.ofNat_toNat] at h
    exact unlisted h
  rw [scanEscape, if_neg (absent 0x22 (by decide)), if_neg (absent 0x5C (by decide)),
    if_neg (absent 0x2F (by decide)), if_neg (absent 0x62 (by decide)),
    if_neg (absent 0x66 (by decide)), if_neg (absent 0x6E (by decide)),
    if_neg (absent 0x72 (by decide)), if_neg (absent 0x74 (by decide))]

theorem scanEscape_added {input octets rest : Bytes} (h : scanEscape input = .added octets rest) :
    ∃ c spelled, input = spelled ++ rest ∧ octets = String.utf8EncodeChar c ∧
      Spelling c (0x5C :: spelled) := by
  cases input with
  | nil => simp [scanEscape] at h
  | cons octet tail =>
    by_cases listed : octet ∈ letters.map Prod.fst
    · obtain ⟨⟨_, c⟩, letter, rfl⟩ := List.mem_map.mp listed
      rw [scanEscape_letter letter] at h
      injection h with added left
      subst left
      exact ⟨c, [_], rfl, added.symm, Spelling.letter letter⟩
    · rw [scanEscape_other listed] at h
      by_cases unicode : octet.toNat = 0x75
      · rw [if_pos unicode] at h
        obtain ⟨c, spelled, rfl, rfl, spelling⟩ := scanUnicode_added h
        have letter : octet = 0x75 := UInt8.toNat_inj.mp unicode
        rw [letter]
        exact ⟨c, 0x75 :: spelled, rfl, rfl, spelling⟩
      · rw [if_neg unicode] at h
        cases h

theorem scanUnicode_open {input rest : Bytes} : scanUnicode input ≠ .closed rest := by
  simp only [scanUnicode]
  repeat' split
  all_goals exact StringStep.noConfusion

theorem scanEscape_open {input rest : Bytes} : scanEscape input ≠ .closed rest := by
  cases input with
  | nil => exact StringStep.noConfusion
  | cons octet tail =>
    by_cases listed : octet ∈ letters.map Prod.fst
    · obtain ⟨⟨_, c⟩, letter, rfl⟩ := List.mem_map.mp listed
      rw [scanEscape_letter letter]
      exact StringStep.noConfusion
    · rw [scanEscape_other listed]
      split
      · exact scanUnicode_open
      · exact StringStep.noConfusion

/-! ## Characters as they are -/

/-- The octet is in the range. -/
def Within (range : Nat × Nat) (c : UInt8) : Prop := range.1 ≤ c.toNat ∧ c.toNat ≤ range.2

theorem nextByteInRange_iff {octets input result rest : Bytes} {ranges : List (Nat × Nat)} :
    nextByteInRange octets ranges input = .added result rest ↔
      ∃ more, List.Forall₂ Within ranges more ∧ result = octets ++ more ∧
        input = more ++ rest := by
  induction ranges generalizing octets input with
  | nil =>
    simp only [nextByteInRange, StringStep.added.injEq, List.forall₂_nil_left_iff]
    constructor
    · rintro ⟨rfl, rfl⟩
      exact ⟨[], rfl, by simp⟩
    · rintro ⟨_, rfl, rfl, rfl⟩
      simp
  | cons range ranges ih =>
    cases input with
    | nil =>
      simp only [nextByteInRange, reduceCtorEq, false_iff]
      rintro ⟨more, within, -, empty⟩
      cases within
      cases empty
    | cons c tail =>
      simp only [nextByteInRange]
      constructor
      · intro h
        split_ifs at h with within
        obtain ⟨more, others, rfl, rfl⟩ := ih.mp h
        exact ⟨c :: more, List.Forall₂.cons within others, by simp, rfl⟩
      · rintro ⟨more, within, rfl, same⟩
        cases within with
        | cons first others =>
          simp only [List.cons_append, List.cons.injEq] at same
          obtain ⟨rfl, rfl⟩ := same
          rw [if_pos ⟨first.1, first.2⟩]
          exact ih.mpr ⟨_, others, by simp, rfl⟩

theorem nextByteInRange_open {octets input rest : Bytes} {ranges : List (Nat × Nat)} :
    nextByteInRange octets ranges input ≠ .closed rest := by
  induction ranges generalizing octets input with
  | nil => simp [nextByteInRange]
  | cons range ranges ih =>
    cases input with
    | nil => simp [nextByteInRange]
    | cons c tail =>
      rw [nextByteInRange]
      split
      · exact ih
      · exact StringStep.noConfusion

/-- The ranges of the octets behind the first one of a longer character. -/
def ranges (first : UInt8) : List (Nat × Nat) :=
  if first.toNat ≤ 0xDF then [(0x80, 0xBF)]
  else if first.toNat ≤ 0xEF then
    [(if first.toNat = 0xE0 then 0xA0 else 0x80, if first.toNat = 0xED then 0x9F else 0xBF),
      (0x80, 0xBF)]
  else
    [(if first.toNat = 0xF0 then 0x90 else 0x80, if first.toNat = 0xF4 then 0x8F else 0xBF),
      (0x80, 0xBF), (0x80, 0xBF)]

theorem stringStep_lead {first : UInt8} (lead : 0xC2 ≤ first.toNat ∧ first.toNat ≤ 0xF4)
    (rest : Bytes) :
    stringStep (first :: rest) = nextByteInRange [first] (ranges first) rest := by
  rw [stringStep, if_neg (by omega), if_neg (by omega), if_neg (by omega), if_neg (by omega),
    ranges]
  by_cases two : first.toNat ≤ 0xDF
  · rw [if_pos ⟨lead.1, two⟩, if_pos two]
  rw [if_neg (by omega), if_neg two]
  by_cases three : first.toNat ≤ 0xEF
  · rw [if_pos three]
    by_cases e0 : first.toNat = 0xE0
    · rw [if_pos e0, if_pos e0, if_neg (by omega)]
    rw [if_neg e0, if_neg e0]
    by_cases ed : first.toNat = 0xED
    · rw [if_neg (by omega), if_pos ed, if_pos ed]
    · rw [if_pos (by omega), if_neg ed]
  rw [if_neg (by omega), if_neg (by omega), if_neg (by omega), if_neg three]
  by_cases f0 : first.toNat = 0xF0
  · rw [if_pos f0, if_pos f0, if_neg (by omega)]
  rw [if_neg f0, if_neg f0]
  by_cases f4 : first.toNat = 0xF4
  · rw [if_neg (by omega), if_pos f4, if_pos f4]
  · rw [if_pos (by omega), if_neg f4]

theorem stringStep_ascii {first : UInt8} (printable : 0x20 ≤ first.toNat)
    (ascii : first.toNat ≤ 0x7F) (quotation : first.toNat ≠ 0x22) (solidus : first.toNat ≠ 0x5C)
    (rest : Bytes) : stringStep (first :: rest) = .added [first] rest := by
  rw [stringStep, if_neg quotation, if_neg solidus, if_neg (by omega), if_pos ascii]

theorem stringStep_other {first : UInt8} (quotation : first.toNat ≠ 0x22)
    (solidus : first.toNat ≠ 0x5C)
    (other : first.toNat ≤ 0x1F ∨ 0x7F < first.toNat ∧ first.toNat < 0xC2 ∨ 0xF4 < first.toNat)
    (rest : Bytes) : stringStep (first :: rest) = .failed := by
  rw [stringStep, if_neg quotation, if_neg solidus]
  by_cases control : first.toNat ≤ 0x1F
  · rw [if_pos control]
  · rw [if_neg control, if_neg (by omega), if_neg (by omega), if_neg (by omega),
      if_neg (by omega), if_neg (by omega), if_neg (by omega), if_neg (by omega),
      if_neg (by omega)]

/-- The ranges are those of the encodings of a character. -/
theorem form_lead {first : UInt8} {more : Bytes}
    (lead : 0xC2 ≤ first.toNat ∧ first.toNat ≤ 0xF4) :
    Utf8.Form (first :: more) ↔ List.Forall₂ Within (ranges first) more := by
  constructor
  · intro form
    cases form with
    | one ha => omega
    | two ha hb =>
      rw [ranges, if_pos ha.2]
      exact List.Forall₂.cons hb List.Forall₂.nil
    | three ha hb hc long plain =>
      rw [ranges, if_neg (by omega), if_pos ha.2]
      have second := hb
      simp only [Utf8.Tail] at second
      refine List.Forall₂.cons ⟨?_, ?_⟩ (List.Forall₂.cons hc List.Forall₂.nil)
      · change ite _ _ _ ≤ _
        split <;> omega
      · change _ ≤ ite _ _ _
        split <;> omega
    | four ha hb hc hd long bounded =>
      rw [ranges, if_neg (by omega), if_neg (by omega)]
      have second := hb
      simp only [Utf8.Tail] at second
      refine List.Forall₂.cons ⟨?_, ?_⟩
        (List.Forall₂.cons hc (List.Forall₂.cons hd List.Forall₂.nil))
      · change ite _ _ _ ≤ _
        split <;> omega
      · change _ ≤ ite _ _ _
        split <;> omega
  · intro within
    rw [ranges] at within
    by_cases two : first.toNat ≤ 0xDF
    · rw [if_pos two] at within
      simp only [List.forall₂_cons_left_iff, List.forall₂_nil_left_iff] at within
      obtain ⟨b, _, hb, rfl, rfl⟩ := within
      exact Utf8.Form.two ⟨lead.1, two⟩ hb
    rw [if_neg two] at within
    by_cases three : first.toNat ≤ 0xEF
    · rw [if_pos three] at within
      simp only [List.forall₂_cons_left_iff, List.forall₂_nil_left_iff] at within
      obtain ⟨b, _, hb, ⟨c, _, hc, rfl, rfl⟩, rfl⟩ := within
      have least : (if first.toNat = 0xE0 then 0xA0 else 0x80) ≤ b.toNat := hb.1
      have most : b.toNat ≤ if first.toNat = 0xED then 0x9F else 0xBF := hb.2
      have second : Utf8.Tail b ∧ (first.toNat = 0xE0 → 0xA0 ≤ b.toNat) ∧
          (first.toNat = 0xED → b.toNat ≤ 0x9F) := by
        simp only [Utf8.Tail]
        split at least <;> split at most <;> omega
      exact Utf8.Form.three (by omega) second.1 hc second.2.1 second.2.2
    · rw [if_neg three] at within
      simp only [List.forall₂_cons_left_iff, List.forall₂_nil_left_iff] at within
      obtain ⟨b, _, hb, ⟨c, _, hc, ⟨d, _, hd, rfl, rfl⟩, rfl⟩, rfl⟩ := within
      have least : (if first.toNat = 0xF0 then 0x90 else 0x80) ≤ b.toNat := hb.1
      have most : b.toNat ≤ if first.toNat = 0xF4 then 0x8F else 0xBF := hb.2
      have second : Utf8.Tail b ∧ (first.toNat = 0xF0 → 0x90 ≤ b.toNat) ∧
          (first.toNat = 0xF4 → b.toNat ≤ 0x8F) := by
        simp only [Utf8.Tail]
        split at least <;> split at most <;> omega
      exact Utf8.Form.four (by omega) second.1 hc hd second.2.1 second.2.2

theorem stringStep_form {first : UInt8} {more : Bytes} (form : Utf8.Form (first :: more))
    (printable : 0x20 ≤ first.toNat) (quotation : first.toNat ≠ 0x22)
    (solidus : first.toNat ≠ 0x5C) (rest : Bytes) :
    stringStep (first :: (more ++ rest)) = .added (first :: more) rest := by
  by_cases ascii : first.toNat ≤ 0x7F
  · cases form with
    | one => exact stringStep_ascii printable ascii quotation solidus rest
    | _ => omega
  · have lead : 0xC2 ≤ first.toNat ∧ first.toNat ≤ 0xF4 := by
      cases form <;> omega
    rw [stringStep_lead lead]
    exact nextByteInRange_iff.mpr ⟨more, (form_lead lead).mp form, rfl, rfl⟩

/-- What a round does without a quotation mark and a backslash: it takes a character, or
finds none. -/
theorem form_of_stringStep {first : UInt8} {input octets rest : Bytes}
    (quotation : first.toNat ≠ 0x22) (solidus : first.toNat ≠ 0x5C)
    (h : stringStep (first :: input) = .added octets rest) :
    0x20 ≤ first.toNat ∧ Utf8.Form octets ∧ first :: input = octets ++ rest := by
  by_cases lead : 0xC2 ≤ first.toNat ∧ first.toNat ≤ 0xF4
  · rw [stringStep_lead lead] at h
    obtain ⟨more, within, rfl, rfl⟩ := nextByteInRange_iff.mp h
    have form : Utf8.Form (first :: more) := (form_lead lead).mpr within
    exact ⟨by omega, form, rfl⟩
  · by_cases ascii : 0x20 ≤ first.toNat ∧ first.toNat ≤ 0x7F
    · rw [stringStep_ascii ascii.1 ascii.2 quotation solidus] at h
      injection h with added left
      rw [← added, ← left]
      exact ⟨ascii.1, Utf8.Form.one ascii.2, rfl⟩
    · rw [stringStep_other quotation solidus (by omega)] at h
      cases h

/-! ## Rounds -/

theorem stringStep_solidus (rest : Bytes) : stringStep (0x5C :: rest) = scanEscape rest := rfl

theorem first_octet (c : Char) :
    ∃ first more, String.utf8EncodeChar c = first :: more ∧
      (first.toNat = c.val.toNat ∧ more = [] ∨ 0x7F < c.val.toNat ∧ 0x7F < first.toNat) := by
  have range := Utf8.valid c
  simp only [String.utf8EncodeChar]
  split_ifs with one two three
  · refine ⟨_, _, rfl, Or.inl ⟨?_, rfl⟩⟩
    simp only [UInt8.toNat_ofNat']
    omega
  all_goals
    refine ⟨_, _, rfl, Or.inr ⟨by omega, ?_⟩⟩
    simp only [UInt8.toNat_ofNat']
    omega

theorem char_eq {c d : Char} (h : c.val.toNat = d.val.toNat) : c = d :=
  Char.ext (UInt32.toNat_inj.mp h)

/-- A spelling takes one round, which adds the character. -/
theorem stringStep_spelling {c : Char} {octets : Bytes} (spelling : Spelling c octets)
    (rest : Bytes) : stringStep (octets ++ rest) = .added (String.utf8EncodeChar c) rest := by
  cases spelling with
  | plain printable quotation solidus =>
    obtain ⟨first, more, encoded, size⟩ := first_octet c
    have notQuotation : c.val.toNat ≠ 0x22 := fun same => quotation (char_eq same)
    have notSolidus : c.val.toNat ≠ 0x5C := fun same => solidus (char_eq same)
    have form := Utf8.form_encode c
    rw [encoded] at form ⊢
    exact stringStep_form form (by omega) (by omega) (by omega) rest
  | letter h => exact scanEscape_letter h rest
  | code h => exact scanUnicode_code h rest
  | pair hi lo top_lt bottom_lt value =>
    have whole := scanUnicode_pair hi lo top_lt bottom_lt value rest
    rw [← scanEscape_unicode, ← stringStep_solidus] at whole
    simpa using whole

theorem spelling_of_stringStep {input octets rest : Bytes}
    (h : stringStep input = .added octets rest) :
    ∃ c spelled, input = spelled ++ rest ∧ octets = String.utf8EncodeChar c ∧
      Spelling c spelled := by
  cases input with
  | nil => simp [stringStep] at h
  | cons first input =>
    by_cases quotation : first.toNat = 0x22
    · simp [stringStep, quotation] at h
    by_cases solidus : first.toNat = 0x5C
    · have first_eq : first = 0x5C := UInt8.toNat_inj.mp solidus
      rw [first_eq, stringStep_solidus] at h
      obtain ⟨c, spelled, rfl, rfl, spelling⟩ := scanEscape_added h
      rw [first_eq]
      exact ⟨c, 0x5C :: spelled, rfl, rfl, spelling⟩
    · obtain ⟨printable, form, split⟩ := form_of_stringStep quotation solidus h
      obtain ⟨c, rfl⟩ := Utf8.exists_char form
      refine ⟨c, _, split, rfl, ?_⟩
      obtain ⟨first', more, encoded, size⟩ := first_octet c
      rw [encoded] at split
      simp only [List.cons_append, List.cons.injEq] at split
      obtain ⟨rfl, -⟩ := split
      apply Spelling.plain
      · omega
      · rintro rfl
        simp at size
        omega
      · rintro rfl
        simp at size
        omega

theorem quotation_of_closed {input rest : Bytes} (h : stringStep input = .closed rest) :
    input = 0x22 :: rest := by
  cases input with
  | nil => simp [stringStep] at h
  | cons first input =>
    by_cases quotation : first.toNat = 0x22
    · have first_eq : first = 0x22 := UInt8.toNat_inj.mp quotation
      rw [stringStep, if_pos quotation] at h
      injection h with same
      rw [same, first_eq]
    by_cases solidus : first.toNat = 0x5C
    · have first_eq : first = 0x5C := UInt8.toNat_inj.mp solidus
      rw [first_eq, stringStep_solidus] at h
      exact absurd h scanEscape_open
    by_cases lead : 0xC2 ≤ first.toNat ∧ first.toNat ≤ 0xF4
    · rw [stringStep_lead lead] at h
      exact absurd h nextByteInRange_open
    · by_cases ascii : 0x20 ≤ first.toNat ∧ first.toNat ≤ 0x7F
      · rw [stringStep_ascii ascii.1 ascii.2 quotation solidus] at h
        cases h
      · rw [stringStep_other quotation solidus (by omega)] at h
        cases h

/-! ## The loop -/

theorem spelling_nonempty {c : Char} {octets : Bytes} (spelling : Spelling c octets) :
    0 < octets.length := by
  cases spelling with
  | plain =>
    obtain ⟨first, more, encoded, -⟩ := first_octet c
    simp [encoded]
  | _ => simp

theorem scanString_quoted {chars : List Char} {body : Bytes} (quoted : Quoted chars body) :
    ∀ (fuel : Nat) (buffer rest : Bytes), body.length < fuel →
      scanString fuel buffer (body ++ 0x22 :: rest) = some (buffer ++ Utf8.encode chars, rest) := by
  induction quoted with
  | nil =>
    intro fuel buffer rest enough
    obtain ⟨fuel, rfl⟩ := Nat.exists_eq_succ_of_ne_zero (Nat.ne_of_gt enough)
    simp [scanString, stringStep]
  | @cons c chars octets body first more ih =>
    intro fuel buffer rest enough
    have size := spelling_nonempty first
    rw [List.length_append] at enough
    obtain ⟨fuel, rfl⟩ := Nat.exists_eq_succ_of_ne_zero (by omega : fuel ≠ 0)
    simp only [List.append_assoc, scanString, stringStep_spelling first]
    rw [ih fuel _ rest (by omega), List.append_assoc, Utf8.encode_cons]

theorem quoted_of_scanString {fuel : Nat} {buffer input result rest : Bytes}
    (h : scanString fuel buffer input = some (result, rest)) :
    ∃ chars body, Quoted chars body ∧ input = body ++ 0x22 :: rest ∧
      result = buffer ++ Utf8.encode chars := by
  induction fuel generalizing buffer input with
  | zero => simp [scanString] at h
  | succ fuel ih =>
    simp only [scanString] at h
    cases round : stringStep input with
    | closed tail =>
      rw [round] at h
      simp only [Option.some.injEq, Prod.mk.injEq] at h
      obtain ⟨rfl, rfl⟩ := h
      exact ⟨[], [], Quoted.nil, quotation_of_closed round, by simp⟩
    | added octets tail =>
      rw [round] at h
      obtain ⟨c, spelled, rfl, rfl, spelling⟩ := spelling_of_stringStep round
      obtain ⟨chars, body, quoted, rfl, rfl⟩ := ih h
      exact ⟨c :: chars, spelled ++ body, Quoted.cons spelling quoted, by simp, by simp⟩
    | failed =>
      rw [round] at h
      simp at h

end LinuxChat.Guarantees.JsonText
