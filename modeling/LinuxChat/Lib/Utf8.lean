import LinuxChat.Lib.Framing

/-!
# UTF-8

Which octet sequences encode one character, read off the ranges of the octets, and
the decoder that does not check them. The ranges describe the encodings of the characters
exactly (`form_encode`, `exists_char`), and decoding undoes encoding (`decode_encode`).
-/

namespace LinuxChat.Lib.Utf8

/-- The octets of a text in UTF-8. -/
def encode (chars : List Char) : Bytes := chars.flatMap String.utf8EncodeChar

@[simp] theorem encode_nil : encode [] = [] := rfl

@[simp] theorem encode_cons (c : Char) (chars : List Char) :
    encode (c :: chars) = String.utf8EncodeChar c ++ encode chars := rfl

/-! ## The ranges of the octets -/

/-- An octet that continues a character. -/
def Tail (octet : UInt8) : Prop := 0x80 ≤ octet.toNat ∧ octet.toNat ≤ 0xBF

/-- The encodings of one character. The side conditions on the second octet leave out
overlong forms, the surrogates and what lies beyond U+10FFFF. -/
inductive Form : Bytes → Prop where
  | one {a : UInt8} (ha : a.toNat ≤ 0x7F) : Form [a]
  | two {a b : UInt8} (ha : 0xC2 ≤ a.toNat ∧ a.toNat ≤ 0xDF) (hb : Tail b) : Form [a, b]
  | three {a b c : UInt8} (ha : 0xE0 ≤ a.toNat ∧ a.toNat ≤ 0xEF) (hb : Tail b) (hc : Tail c)
      (long : a.toNat = 0xE0 → 0xA0 ≤ b.toNat) (plain : a.toNat = 0xED → b.toNat ≤ 0x9F) :
      Form [a, b, c]
  | four {a b c d : UInt8} (ha : 0xF0 ≤ a.toNat ∧ a.toNat ≤ 0xF4) (hb : Tail b) (hc : Tail c)
      (hd : Tail d) (long : a.toNat = 0xF0 → 0x90 ≤ b.toNat)
      (bounded : a.toNat = 0xF4 → b.toNat ≤ 0x8F) : Form [a, b, c, d]

theorem valid (c : Char) :
    c.val.toNat < 0xD800 ∨ 0xDFFF < c.val.toNat ∧ c.val.toNat < 0x110000 := c.valid

theorem form_encode (c : Char) : Form (String.utf8EncodeChar c) := by
  have range := valid c
  simp only [String.utf8EncodeChar]
  split_ifs with one two three
  · apply Form.one
    simp only [UInt8.toNat_ofNat']
    omega
  · apply Form.two <;> simp only [Tail, UInt8.toNat_ofNat'] <;> omega
  · apply Form.three <;> simp only [Tail, UInt8.toNat_ofNat'] <;> omega
  · apply Form.four <;> simp only [Tail, UInt8.toNat_ofNat'] <;> omega

/-- The character with a valid number. -/
def charAt (n : Nat) (h : n.isValidChar) : Char := Char.ofNatAux n h

theorem charAt_toNat {n : Nat} (h : n.isValidChar) : (charAt n h).val.toNat = n := rfl

theorem exists_char {bytes : Bytes} (form : Form bytes) :
    ∃ c, bytes = String.utf8EncodeChar c := by
  cases form with
  | @one a ha =>
    refine ⟨charAt a.toNat (Or.inl (by omega)), ?_⟩
    simp only [String.utf8EncodeChar]
    rw [charAt_toNat, if_pos ha, UInt8.ofNat_toNat]
  | @two a b ha hb =>
    have := hb.1
    have := hb.2
    refine ⟨charAt (a.toNat % 32 * 64 + b.toNat % 64) (Or.inl (by omega)), ?_⟩
    simp only [String.utf8EncodeChar]
    rw [charAt_toNat, if_neg (by omega), if_pos (by omega)]
    simp only [List.cons.injEq, and_true, ← UInt8.toNat_inj, UInt8.toNat_ofNat']
    omega
  | @three a b c ha hb hc long plain =>
    have := hb.1
    have := hb.2
    have := hc.1
    have := hc.2
    have range : (a.toNat % 16 * 4096 + b.toNat % 64 * 64 + c.toNat % 64).isValidChar := by
      simp only [Nat.isValidChar]
      omega
    refine ⟨charAt _ range, ?_⟩
    simp only [String.utf8EncodeChar]
    rw [charAt_toNat, if_neg (by omega), if_neg (by omega), if_pos (by omega)]
    simp only [List.cons.injEq, and_true, ← UInt8.toNat_inj, UInt8.toNat_ofNat']
    omega
  | @four a b c d ha hb hc hd long bounded =>
    have := hb.1
    have := hb.2
    have := hc.1
    have := hc.2
    have := hd.1
    have := hd.2
    have range : (a.toNat % 8 * 262144 + b.toNat % 64 * 4096 + c.toNat % 64 * 64 +
        d.toNat % 64).isValidChar := by
      simp only [Nat.isValidChar]
      omega
    refine ⟨charAt _ range, ?_⟩
    simp only [String.utf8EncodeChar]
    rw [charAt_toNat, if_neg (by omega), if_neg (by omega), if_neg (by omega)]
    simp only [List.cons.injEq, and_true, ← UInt8.toNat_inj, UInt8.toNat_ofNat']
    omega

/-! ## Decoding -/

/-- The characters of a text in UTF-8, without a check that it is one. -/
def decode : Bytes → List Char
  | [] => []
  | a :: rest =>
    if a.toNat < 0x80 then Char.ofNat a.toNat :: decode rest
    else
      match rest with
      | [] => []
      | b :: rest =>
        if a.toNat < 0xE0 then Char.ofNat (a.toNat % 32 * 64 + b.toNat % 64) :: decode rest
        else
          match rest with
          | [] => []
          | c :: rest =>
            if a.toNat < 0xF0 then
              Char.ofNat (a.toNat % 16 * 4096 + b.toNat % 64 * 64 + c.toNat % 64) :: decode rest
            else
              match rest with
              | [] => []
              | d :: rest =>
                Char.ofNat (a.toNat % 8 * 262144 + b.toNat % 64 * 4096 + c.toNat % 64 * 64 +
                  d.toNat % 64) :: decode rest

theorem decode_one {a : UInt8} (rest : Bytes) (ha : a.toNat < 0x80) :
    decode (a :: rest) = Char.ofNat a.toNat :: decode rest := by
  rw [decode.eq_def]
  exact if_pos ha

theorem decode_two {a : UInt8} (b : UInt8) (rest : Bytes) (low : 0x80 ≤ a.toNat)
    (high : a.toNat < 0xE0) :
    decode (a :: b :: rest) = Char.ofNat (a.toNat % 32 * 64 + b.toNat % 64) :: decode rest := by
  rw [decode.eq_def]
  simp only [if_neg (Nat.not_lt.mpr low), if_pos high]

theorem decode_three {a : UInt8} (b c : UInt8) (rest : Bytes) (low : 0xE0 ≤ a.toNat)
    (high : a.toNat < 0xF0) :
    decode (a :: b :: c :: rest) =
      Char.ofNat (a.toNat % 16 * 4096 + b.toNat % 64 * 64 + c.toNat % 64) :: decode rest := by
  have beyond : ¬ a.toNat < 0x80 := by omega
  rw [decode.eq_def]
  simp only [if_neg beyond, if_neg (Nat.not_lt.mpr low), if_pos high]

theorem decode_four {a : UInt8} (b c d : UInt8) (rest : Bytes) (low : 0xF0 ≤ a.toNat) :
    decode (a :: b :: c :: d :: rest) =
      Char.ofNat (a.toNat % 8 * 262144 + b.toNat % 64 * 4096 + c.toNat % 64 * 64 +
        d.toNat % 64) :: decode rest := by
  have beyond : ¬ a.toNat < 0x80 := by omega
  have further : ¬ a.toNat < 0xE0 := by omega
  simp only [decode, if_neg beyond, if_neg further, if_neg (Nat.not_lt.mpr low)]

theorem ofNat_eq {n : Nat} {c : Char} (h : n = c.val.toNat) : Char.ofNat n = c := by
  rw [h]
  exact Char.ofNat_toNat c

theorem tail_toNat (n : Nat) : (UInt8.ofNat (n % 64 + 128)).toNat % 64 = n % 64 := by
  simp only [UInt8.toNat_ofNat']
  omega

theorem decode_char (c : Char) (rest : Bytes) :
    decode (String.utf8EncodeChar c ++ rest) = c :: decode rest := by
  have range := valid c
  simp only [String.utf8EncodeChar]
  split_ifs with one two three
  · have first : (UInt8.ofNat c.val.toNat).toNat = c.val.toNat := by
      simp only [UInt8.toNat_ofNat']
      omega
    rw [List.singleton_append, decode_one rest (by omega), first, ofNat_eq rfl]
  · have first : (UInt8.ofNat (c.val.toNat / 64 % 32 + 192)).toNat = c.val.toNat / 64 + 192 := by
      simp only [UInt8.toNat_ofNat']
      omega
    rw [List.cons_append, List.singleton_append, decode_two _ rest (by omega) (by omega),
      first, tail_toNat, @ofNat_eq _ c (by omega)]
  · have first : (UInt8.ofNat (c.val.toNat / 4096 % 16 + 224)).toNat =
        c.val.toNat / 4096 + 224 := by
      simp only [UInt8.toNat_ofNat']
      omega
    rw [List.cons_append, List.cons_append, List.singleton_append,
      decode_three _ _ rest (by omega) (by omega), first, tail_toNat, tail_toNat,
      @ofNat_eq _ c (by omega)]
  · have first : (UInt8.ofNat (c.val.toNat / 262144 % 8 + 240)).toNat =
        c.val.toNat / 262144 + 240 := by
      simp only [UInt8.toNat_ofNat']
      omega
    rw [List.cons_append, List.cons_append, List.cons_append, List.singleton_append,
      decode_four _ _ _ rest (by omega), first, tail_toNat, tail_toNat, tail_toNat,
      @ofNat_eq _ c (by omega)]

@[simp] theorem decode_encode (chars : List Char) : decode (encode chars) = chars := by
  induction chars with
  | nil => rfl
  | cons c chars ih => rw [encode_cons, decode_char, ih]

end LinuxChat.Lib.Utf8
