import LinuxChat.Guarantees.Handlers

/-!
# Salted password records

`hash_password` and `verify_password` (server/src/message_router.cpp:44-111) when
OpenSSL delivers. A record is the salt and the digest of salt and password, both in
hexadecimal, around a colon. A record verifies exactly the passwords that give the
same record with its salt, and no NUL cuts it short in the database.
-/

namespace LinuxChat.Guarantees

open LinuxChat.Lib LinuxChat.Source Prog

variable {H : String → Octets 32}

theorem Octets.eq_of_bytes {n : Nat} {x y : Octets n} (h : x.bytes = y.bytes) : x = y := by
  cases x
  cases y
  cases h
  rfl

/-- SQLite and OpenSSL calls succeed, and the digest is `H`. -/
def Sound (H : String → Octets 32) (w : World) : Prop :=
  w.dbOk = true ∧ (∃ octets, w.rand = some octets) ∧ ∀ text, w.sha256 text = some (H text)

/-- What is stored for a password. -/
def saltedRecord (H : String → Octets 32) (salt : Octets 16) (password : String) : String :=
  hex salt.bytes ++ ":" ++ hex (H (hex salt.bytes ++ ":" ++ password)).bytes

theorem saltedRecord_toList (salt : Octets 16) (password : String) :
    (saltedRecord H salt password).toList =
      hexChars salt.bytes ++ ':' :: hexChars (H (hex salt.bytes ++ ":" ++ password)).bytes := by
  simp [saltedRecord, hex]

theorem notMem_hexChars {c : Char} (h : c ∉ "0123456789abcdef".toList) (octets : List UInt8) :
    c ∉ hexChars octets :=
  fun member => h (mem_hexChars member)

/-- The database keeps the whole record. -/
theorem cString_saltedRecord (salt : Octets 16) (password : String) :
    cString (saltedRecord H salt password) = saltedRecord H salt password := by
  apply cString_eq_self
  rw [saltedRecord_toList]
  intro member
  rcases List.mem_append.mp member with salted | rest
  · exact notMem_hexChars (by decide) _ salted
  · rcases List.mem_cons.mp rest with colon | digest
    · exact absurd colon (by decide)
    · exact notMem_hexChars (by decide) _ digest

theorem saltedRecord_ne_empty (salt : Octets 16) (password : String) :
    (saltedRecord H salt password).isEmpty = false := by
  have chars := saltedRecord_toList (H := H) salt password
  cases h : (saltedRecord H salt password).isEmpty with
  | false => rfl
  | true =>
    have empty : saltedRecord H salt password = "" := by simpa using h
    rw [empty] at chars
    simp at chars

/-- Behind any salt, no two of these passwords have the same digest. An injective
digest separates every list. -/
def Separates (H : String → Octets 32) (passwords : List String) : Prop :=
  ∀ salt : Octets 16, ∀ p ∈ passwords, ∀ q ∈ passwords,
    H (hex salt.bytes ++ ":" ++ p) = H (hex salt.bytes ++ ":" ++ q) → p = q

/-- Equal records have equal salts and equal digests. -/
theorem saltedRecord_eq {salt salt' : Octets 16} {password password' : String}
    (same : saltedRecord H salt password = saltedRecord H salt' password') :
    salt = salt' ∧
      H (hex salt.bytes ++ ":" ++ password) = H (hex salt'.bytes ++ ":" ++ password') := by
  have chars := congrArg String.toList same
  rw [saltedRecord_toList, saltedRecord_toList] at chars
  have sizes : (hexChars salt.bytes).length = (hexChars salt'.bytes).length := by
    rw [hexChars_length, hexChars_length, salt.length_eq, salt'.length_eq]
  obtain ⟨salts, rest⟩ := List.append_inj chars sizes
  have digests := hexChars_injective (List.cons.inj rest).2
  exact ⟨Octets.eq_of_bytes (hexChars_injective salts), Octets.eq_of_bytes digests⟩

/-- A record is made from one of the passwords only. -/
theorem saltedRecord_inj {passwords : List String} (apart : Separates H passwords)
    {salt salt' : Octets 16} {p q : String} (hp : p ∈ passwords) (hq : q ∈ passwords)
    (same : saltedRecord H salt p = saltedRecord H salt' q) : p = q := by
  obtain ⟨salts, digests⟩ := saltedRecord_eq same
  subst salts
  exact apart salt p hp q hq digests

/-! ## Making and checking records -/

theorem always_hashPassword (password : String) (s : Server) (log : List Act) :
    Always loggedExec (Sound H) (hashPassword password) (s, log) fun o s' =>
      ∃ salt, o = .ok (saltedRecord H salt password) ∧
        s' = (s, log ++ [.randBytes, .sha256 (hex salt.bytes ++ ":" ++ password)]) := by
  unfold hashPassword generateSalt sha256Hex
  simp only [bind_eq, pure_eq, act_bind, ret_bind]
  refine (always_act _ _ _ _).mpr fun w sound => ?_
  obtain ⟨salt, drawn⟩ := sound.2.1
  simp only [logging, Act.exec, drawn, ret_bind]
  refine (always_act _ _ _ _).mpr fun w' sound' => ?_
  simp only [logging, Act.exec, sound'.2.2, ret_bind]
  refine (always_ret _ _ _).mpr ⟨salt, ?_, ?_⟩
  · rfl
  · simp

/-- Where `verify_password` cuts a record. -/
theorem idxOf_colon (salt : Octets 16) (password : String) :
    (saltedRecord H salt password).toList.idxOf ':' = (hexChars salt.bytes).length := by
  have absent : ':' ∉ hexChars salt.bytes := notMem_hexChars (by decide) _
  rw [saltedRecord_toList, List.idxOf_append, if_neg absent, List.idxOf_cons_self, Nat.zero_add]

/-- A record accepts exactly the passwords that give it with its salt. -/
theorem always_passwordAccepted (password original : String) (salt : Octets 16) (s : Server)
    (log : List Act) :
    Always loggedExec (Sound H) (passwordAccepted password (saltedRecord H salt original)) (s, log)
      fun o s' =>
        (∃ accepted, o = .ok accepted ∧
          (accepted = true ↔ saltedRecord H salt original = saltedRecord H salt password)) ∧
        s' = (s, log ++ [.sha256 (hex salt.bytes ++ ":" ++ password)]) := by
  have cut := idxOf_colon (H := H) salt original
  have chars := saltedRecord_toList (H := H) salt original
  have size := congrArg List.length chars
  rw [List.length_append, List.length_cons, hexChars_length, hexChars_length, salt.length_eq,
    (H (hex salt.bytes ++ ":" ++ original)).length_eq] at size
  have short : ¬ (hexChars salt.bytes).length + 1 ≥
      (saltedRecord H salt original).toList.length := by
    rw [hexChars_length, salt.length_eq]
    omega
  have saltPart : String.ofList ((saltedRecord H salt original).toList.take
      (hexChars salt.bytes).length) = hex salt.bytes := by
    rw [chars, List.take_left]
    rfl
  have hashPart : String.ofList ((saltedRecord H salt original).toList.drop
      ((hexChars salt.bytes).length + 1)) =
      hex (H (hex salt.bytes ++ ":" ++ original)).bytes := by
    rw [chars, List.drop_append]
    simp [hex]
  unfold passwordAccepted
  rw [saltedRecord_ne_empty, if_neg Bool.false_ne_true]
  unfold verifyPassword
  simp only [cut, if_neg short, saltPart, hashPart]
  unfold sha256Hex
  refine (always_act _ _ _ _).mpr fun w sound => ?_
  simp only [logging, Act.exec, sound.2.2, ret_bind]
  refine (always_ret _ _ _).mpr ⟨⟨_, rfl, ?_⟩, rfl⟩
  rw [decide_eq_true_iff]
  constructor
  · intro same
    exact congrArg (hex salt.bytes ++ ":" ++ ·) same.symm
  · intro same
    exact congrArg (fun octets : Octets 32 => hex octets.bytes) (saltedRecord_eq same).2.symm

end LinuxChat.Guarantees
