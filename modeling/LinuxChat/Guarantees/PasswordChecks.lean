import LinuxChat.Guarantees.Passwords
import Mathlib.Data.Set.Function

/-!
# Which passwords a stored record accepts

`verify_password` on the records of `hash_password`, and on the plain hashes of older
accounts (server/src/message_router.cpp:44-111). Every `sha256_hex` call may fail by
itself and then returns the empty string. A record made with a failed call ends in its
colon and is compared as a plain hash, which no hash equals.
-/

namespace LinuxChat.Guarantees.PasswordChecks

open LinuxChat.Lib LinuxChat.Source Prog

variable {H : String → Octets 32}

/-- OpenSSL digests with `H`, or fails. -/
def Digests (H : String → Octets 32) (succeeds : Bool) (w : World) : Prop :=
  ∀ text, w.sha256 text = if succeeds then some (H text) else none

/-- What `sha256_hex` returns. -/
def digestText (H : String → Octets 32) (succeeds : Bool) (text : String) : String :=
  if succeeds then hex (H text).bytes else ""

theorem digestText_ne_empty (text : String) : digestText H true text ≠ "" := by
  have size := hexChars_length (H text).bytes
  rw [(H text).length_eq] at size
  intro empty
  have chars : hexChars (H text).bytes = [] := by
    simpa [digestText, hex] using congrArg String.toList empty
  rw [chars, List.length_nil] at size
  omega

/-- Whether the text of a check is the text of a record. -/
theorem digestText_eq {succeeds : Bool} {text text' : String} :
    digestText H succeeds text = digestText H true text' ↔ succeeds = true ∧ H text = H text' := by
  cases succeeds with
  | false =>
    constructor
    · intro same
      exact absurd same.symm (digestText_ne_empty text')
    · rintro ⟨impossible, _⟩
      cases impossible
  | true =>
    constructor
    · intro same
      exact ⟨rfl, Octets.eq_of_bytes (hex_injective same)⟩
    · rintro ⟨_, same⟩
      exact congrArg (fun octets : Octets 32 => hex octets.bytes) same

theorem colon_notMem_digestText (succeeds : Bool) (text : String) :
    ':' ∉ (digestText H succeeds text).toList := by
  cases succeeds with
  | false => simp [digestText]
  | true =>
    have absent := notMem_hexChars (c := ':') (by decide) (H text).bytes
    simpa [digestText, hex] using absent

theorem always_sha256Hex (succeeds : Bool) (text : String) (s : Server) :
    Always Act.exec (Digests H succeeds) (sha256Hex text) s fun o _ =>
      o = .ok (digestText H succeeds text) := by
  unfold sha256Hex
  refine (always_act _ _ _ _).mpr fun w digests => ?_
  have reply := digests text
  cases succeeds with
  | false => simp [Act.exec, reply, digestText]
  | true => simp [Act.exec, reply, digestText]

/-- A record of `hash_password`, or the exception of a failed draw. -/
theorem always_hashPassword (succeeds : Bool) (password : String) (s : Server) :
    Always Act.exec (Digests H succeeds) (hashPassword password) s fun o _ =>
      ∀ record, o = .ok record → ∃ salt : Octets 16, record =
        hex salt.bytes ++ ":" ++ digestText H succeeds (hex salt.bytes ++ ":" ++ password) := by
  unfold hashPassword generateSalt
  simp only [bind_eq, pure_eq, act_bind, ret_bind]
  refine (always_act _ _ _ _).mpr fun w _ => ?_
  cases drawn : w.rand with
  | none => simp [Act.exec, drawn]
  | some salt =>
    simp only [Act.exec, drawn, ret_bind]
    refine (always_bind _ _ _ _).mpr ((always_sha256Hex succeeds _ s).mono ?_)
    rintro o s₁ rfl
    refine (always_ret _ _ _).mpr fun record made => ⟨salt, ?_⟩
    cases made
    rfl

/-- A text without a colon is compared whole. -/
theorem always_verifyPassword_plain {succeeds : Bool} {stored : String}
    (plain : ':' ∉ stored.toList) (password : String) (s : Server) :
    Always Act.exec (Digests H succeeds) (verifyPassword password stored) s fun o _ =>
      o = .ok (decide (digestText H succeeds password = stored)) := by
  have absent : stored.toList.idxOf ':' + 1 ≥ stored.toList.length := by
    rw [List.idxOf_eq_length plain]
    omega
  unfold verifyPassword
  simp only [if_pos absent]
  refine (always_bind _ _ _ _).mpr ((always_sha256Hex succeeds _ s).mono ?_)
  rintro o s₁ rfl
  exact (always_ret _ _ _).mpr rfl

variable (salt : Octets 16) (digest : String)

theorem saltedText_toList :
    (hex salt.bytes ++ ":" ++ digest).toList = hexChars salt.bytes ++ ':' :: digest.toList := by
  simp [hex]

theorem saltedText_idxOf : (hex salt.bytes ++ ":" ++ digest).toList.idxOf ':' = 32 := by
  have absent : ':' ∉ hexChars salt.bytes := notMem_hexChars (by decide) _
  rw [saltedText_toList, List.idxOf_append, if_neg absent, List.idxOf_cons_self, hexChars_length,
    salt.length_eq]

/-- With a digest behind its colon the record is cut there. -/
theorem always_verifyPassword_salted {succeeds : Bool} (present : digest ≠ "") (password : String)
    (s : Server) :
    Always Act.exec (Digests H succeeds)
      (verifyPassword password (hex salt.bytes ++ ":" ++ digest)) s fun o _ =>
        o = .ok (decide (digestText H succeeds (hex salt.bytes ++ ":" ++ password) = digest)) := by
  have size : (hexChars salt.bytes).length = 32 := by
    rw [hexChars_length, salt.length_eq]
  have some : 0 < digest.toList.length := by
    have chars : digest.toList ≠ [] := by simpa using present
    exact List.length_pos_iff.mpr chars
  have long : ¬ 32 + 1 ≥ (hex salt.bytes ++ ":" ++ digest).toList.length := by
    rw [saltedText_toList, List.length_append, List.length_cons]
    omega
  have saltPart : String.ofList ((hex salt.bytes ++ ":" ++ digest).toList.take 32) =
      hex salt.bytes := by
    rw [saltedText_toList, List.take_left' size]
    rfl
  have hashPart : String.ofList ((hex salt.bytes ++ ":" ++ digest).toList.drop (32 + 1)) =
      digest := by
    rw [saltedText_toList, ← size, List.drop_append]
    simp
  unfold verifyPassword
  simp only [saltedText_idxOf, if_neg long, saltPart, hashPart]
  refine (always_bind _ _ _ _).mpr ((always_sha256Hex succeeds _ s).mono ?_)
  rintro o s₁ rfl
  exact (always_ret _ _ _).mpr rfl

/-- Without one it is compared whole, and no digest has a colon. -/
theorem always_verifyPassword_cut {succeeds : Bool} (password : String) (s : Server) :
    Always Act.exec (Digests H succeeds) (verifyPassword password (hex salt.bytes ++ ":" ++ "")) s
      fun o _ => o = .ok false := by
  have short : 32 + 1 ≥ (hex salt.bytes ++ ":" ++ "").toList.length := by
    rw [saltedText_toList, List.length_append, hexChars_length, salt.length_eq]
    simp
  have differs : digestText H succeeds password ≠ hex salt.bytes ++ ":" ++ "" := by
    intro same
    apply colon_notMem_digestText succeeds password
    rw [same, saltedText_toList]
    simp
  unfold verifyPassword
  simp only [saltedText_idxOf, if_pos short]
  refine (always_bind _ _ _ _).mpr ((always_sha256Hex succeeds _ s).mono ?_)
  rintro o s₁ rfl
  exact (always_ret _ _ _).mpr (congrArg Except.ok (decide_eq_false differs))

/-! ## Exactly the registered password -/

/-- The texts that are digested for two passwords. -/
def digested (salt : Octets 16) (p p' : String) : Set String :=
  {p, p', hex salt.bytes ++ ":" ++ p, hex salt.bytes ++ ":" ++ p'}

/-- `made` and `checked` say which `sha256_hex` calls succeed: the one that makes the
record and the one that checks the password. -/
theorem verifies_exactly (H : String → Octets 32) (p p' : String)
    (injective : ∀ salt, Set.InjOn H (digested salt p p')) (made checked : Bool)
    (s t s' t' : Server) (record : String) (accepted : Except Exn Bool) :
    (Runs Act.exec (Digests H made) (hashPassword p) s (.ok record) s' →
      Runs Act.exec (Digests H checked) (verifyPassword p' record) t accepted t' →
        accepted = .ok (made && checked && decide (p' = p))) ∧
    (Runs Act.exec (Digests H made) (sha256Hex p) s (.ok record) s' → record ≠ "" →
      Runs Act.exec (Digests H checked) (verifyPassword p' record) t accepted t' →
        accepted = .ok (made && checked && decide (p' = p))) := by
  constructor
  · intro hashes verifies
    obtain ⟨salt, rfl⟩ := always_hashPassword made p s _ _ hashes record rfl
    cases made with
    | false => exact always_verifyPassword_cut salt p' t _ _ verifies
    | true =>
      rw [always_verifyPassword_salted salt _ (digestText_ne_empty _) p' t _ _ verifies]
      refine congrArg Except.ok (Bool.eq_iff_iff.mpr ?_)
      rw [decide_eq_true_iff, digestText_eq, Bool.true_and, Bool.and_eq_true, decide_eq_true_iff]
      refine and_congr_right fun _ => ⟨fun same => ?_, fun same => by rw [same]⟩
      have texts := injective salt (by simp [digested]) (by simp [digested]) same
      exact String.append_right_inj _ |>.mp texts
  · intro hashes present verifies
    have made_eq : record = digestText H made p :=
      Except.ok.inj (always_sha256Hex made p s _ _ hashes)
    subst made_eq
    have plain := colon_notMem_digestText (H := H) made p
    rw [always_verifyPassword_plain plain p' t _ _ verifies]
    cases made with
    | false => exact absurd rfl present
    | true =>
      refine congrArg Except.ok (Bool.eq_iff_iff.mpr ?_)
      rw [decide_eq_true_iff, digestText_eq, Bool.true_and, Bool.and_eq_true, decide_eq_true_iff]
      refine and_congr_right fun _ => ⟨fun same => ?_, fun same => by rw [same]⟩
      exact injective ⟨List.replicate 16 0, rfl⟩ (by simp [digested]) (by simp [digested]) same

/-- A digest that tells texts of different lengths apart. -/
def lengthDigest (text : String) : Octets 32 :=
  ⟨UInt8.ofNat text.toList.length :: List.replicate 31 0, rfl⟩

theorem lengthDigest_injOn (salt : Octets 16) :
    Set.InjOn lengthDigest (digested salt "a:b" "a") := by
  have size : (hexChars salt.bytes).length = 32 := by
    rw [hexChars_length, salt.length_eq]
  have octet : ∀ text, (lengthDigest text).bytes.head? = some (UInt8.ofNat text.toList.length) :=
    fun _ => rfl
  intro x hx y hy same
  have firsts := congrArg (fun octets : Octets 32 => octets.bytes.head?) same
  simp only [octet, Option.some.injEq] at firsts
  rcases hx with rfl | rfl | rfl | rfl <;> rcases hy with rfl | rfl | rfl | rfl <;>
    first | rfl | (simp [hex, size] at firsts)

/-- A drawn salt of zeros. -/
def digesting : World :=
  { (default : World) with
    rand := some (.zeros 16)
    sha256 := fun text => some (lengthDigest text) }

/-- The record of a password with a colon refuses the part before it. -/
theorem verifies_exactly_colon :
    ∃ record, Runs Act.exec (Digests lengthDigest true) (hashPassword "a:b") {} (.ok record) {} ∧
      ∀ accepted t', Runs Act.exec (Digests lengthDigest true) (verifyPassword "a" record) {}
        accepted t' → accepted = .ok false := by
  have digests : Digests lengthDigest true digesting := fun _ => rfl
  have made := eval_runs Act.exec _ digesting digests (hashPassword "a:b") {}
  refine ⟨_, made, fun accepted t' checked => ?_⟩
  have exactly := (verifies_exactly lengthDigest "a:b" "a" lengthDigest_injOn true true {} {} _ _ _
    accepted).1 made checked
  rw [exactly]
  decide

end LinuxChat.Guarantees.PasswordChecks
