import LinuxChat.Guarantees.SerialPlayback

/-!
# Rejected requests

server/src/message_router.cpp:237-535 with one handler at a time and a working random
generator. Between two turns nothing is reserved and nothing pending, so the exits of
`handle_register` and `handle_login` that lie behind the reservation undo exactly what
was done. Every other rejecting exit precedes the first write.
-/

namespace LinuxChat.Guarantees.Rejections

open LinuxChat.Lib LinuxChat.Source Prog Serial SerialRuns SerialPlayback

/-- `RAND_bytes` succeeds. -/
def Draws (w : World) : Prop := w.rand ≠ none

/-! ## Nothing pending between turns -/

/-- No name is reserved, and none is pending in any session. -/
structure Unreserved (s : Server) : Prop where
  names : s.loginInProgress = []
  pending : ∀ id, (s.heap id).pendingLogin = ""

theorem Unreserved.modify {s : Server} (idle : Unreserved s) (x : SessionRef)
    {f : ClientSession → ClientSession}
    (kept : ∀ c, c.pendingLogin = "" → (f c).pendingLogin = "") : Unreserved (s.modify x f) where
  names := idle.names
  pending id := by
    rw [modify_heap]
    split
    · exact kept _ (idle.pending id)
    · exact idle.pending id

/-- A reservation that is settled again leaves nothing behind. -/
theorem unreserved_settled {s : Server} (s₁ : Server) (x : SessionRef) (username : String)
    (idle : Unreserved s) (names : s₁.loginInProgress = username :: s.loginInProgress)
    (others : ∀ id, id ≠ x.id → (s₁.heap id).pendingLogin = (s.heap id).pendingLogin) :
    Unreserved (settled s₁ x username) where
  names := by simp [settled, names, idle.names]
  pending id := by
    simp only [settled, modify_heap]
    split
    · rfl
    next other => rw [others id other, idle.pending id]

theorem reserved_pending {s : Server} {x : SessionRef} {username : String} {id : Nat}
    (other : id ≠ x.id) :
    ((reserved s x username).heap id).pendingLogin = (s.heap id).pendingLogin := by
  simp only [reserved, modify_heap, if_neg other]

theorem Unreserved.handled {s s' : Server} {x : SessionRef} {msg : Json} {o : Except Exn Unit}
    (idle : Unreserved s) (ended : Handled Draws x msg s o s') : Unreserved s' := by
  cases ended with
  | unreadable id => exact idle
  | ignored => exact idle
  | refused code content attempts own => exact ⟨idle.names, idle.pending⟩
  | failed username code content attempts free own =>
    have back := unreserved_settled (reserved { s with loginAttempts := attempts } x username)
      x username idle rfl fun id other => reserved_pending other
    exact ⟨back.names, back.pending⟩
  | stranded username what free undrawn =>
    obtain ⟨w, draws, undrawn⟩ := undrawn
    exact absurd undrawn draws
  | entered username db attempts rows now now' bare nonempty free entry own =>
    apply unreserved_settled _ x username idle
    · rfl
    · intro id other
      simp only [told, admitted, named, modify_heap, if_neg other]
      exact reserved_pending other
  | left now now' bears =>
    have back := idle.modify x (f := fun c => { c with username := "" }) fun _ blank => blank
    exact ⟨back.names, back.pending⟩
  | spoke content now ok => exact ⟨idle.names, idle.pending⟩
  | whispered target toUser content now ok => exact ⟨idle.names, idle.pending⟩
  | recalled toUser rows => exact ⟨idle.names, idle.pending⟩

theorem Unreserved.erased {s : Server} (idle : Unreserved s) (fd : Nat) :
    Unreserved (s.eraseSession fd).2 := by
  unfold Server.eraseSession
  cases s.findByFd fd with
  | none => exact idle
  | some x =>
    refine ⟨idle.names, ?_⟩
    intro id
    simp only [modify_heap]
    split
    · exact idle.pending id
    · exact idle.pending id

theorem Unreserved.disconnected {s s' : Server} {x : SessionRef} (idle : Unreserved s)
    (gone : Disconnected s x s') : Unreserved s' := by
  have same : cleaned s x = s := by rw [cleaned, if_pos (idle.pending x.id)]
  cases gone with
  | stranger bare =>
    rw [same]
    exact idle
  | user now now' bears =>
    have back := idle.modify x (f := fun c => { c with username := "" }) fun _ blank => blank
    rw [same]
    exact ⟨back.names, back.pending⟩

theorem Unreserved.turn {s s' : Server} (idle : Unreserved s) (ended : TurnEnd Draws s s') :
    Unreserved s' := by
  have receives : ∀ (x : SessionRef) (buf : Bytes) (failures : UInt32),
      Unreserved (buffered s x buf failures) :=
    fun x _ _ => idle.modify x fun _ blank => blank
  cases ended with
  | idle => exact idle
  | accepted fd ip free =>
    refine ⟨idle.names, ?_⟩
    intro id
    simp only [Server.storeSession]
    by_cases new : id = s.nextId
    · subst new
      simp
    · simp [new, idle.pending id]
  | pinged => exact ⟨idle.names, idle.pending⟩
  | received x live buf failures _ queued =>
    obtain ⟨added, rfl, _⟩ := queued
    exact ⟨(receives x buf failures).names, (receives x buf failures).pending⟩
  | removed x live buf failures _ gone =>
    exact ((receives x buf failures).erased x.fd).disconnected gone
  | stale task rest queued => exact ⟨idle.names, idle.pending⟩
  | handled task rest queued current o _ ended =>
    have shorter : Unreserved { s with tasks := rest } := ⟨idle.names, idle.pending⟩
    exact shorter.handled ended

/-- Between two turns no name is reserved and no session has a name pending. -/
theorem unreserved_of_run {db : Database} {s : Server} (run : SerialRun Draws db s) :
    Unreserved s := by
  induction run with
  | boot => exact ⟨rfl, fun _ => rfl⟩
  | turn run step ih => exact ih.turn (step.ends (orderly_of_run run).registered)

/-! ## Rejections -/

/-- The frames sent between two states of a run. -/
def newFrames (s s' : Server) : List (SessionRef × Json) := s'.sent.drop s.sent.length

theorem newFrames_told (s s₁ : Server) (frames : List (SessionRef × Json))
    (quiet : s₁.sent = s.sent) : newFrames s (told s₁ frames) = frames := by
  simp [newFrames, told, quiet]

/-- The request was answered with an ERROR frame, or ended in a type_error. -/
def Rejected (x : SessionRef) (s : Server) (o : Except Exn Unit) (s' : Server) : Prop :=
  (∃ frame, (x, frame) ∈ newFrames s s' ∧ frame.typeOf = "ERROR") ∨
    ∃ id, o = .error (.typeError id)

/-- Nothing changed but the failed-login record of the session's own address, and
nobody else heard of it. -/
structure Untouched (x : SessionRef) (s s' : Server) : Prop where
  users : s'.db.users = s.db.users
  messages : s'.db.messages = s.db.messages
  online : s'.onlineUsers = s.onlineUsers
  inProgress : s'.loginInProgress = s.loginInProgress
  username : ∀ id, (s'.heap id).username = (s.heap id).username
  pending : ∀ id, (s'.heap id).pendingLogin = (s.heap id).pendingLogin
  sessions : s'.sessions = s.sessions
  frames : ∀ sent ∈ newFrames s s', sent.1 = x
  attempts : ∀ ip, ip ≠ x.ipAddress → s'.loginAttempts ip = s.loginAttempts ip

/-- Frames of other types are no rejection of a handler that returned. -/
theorem not_rejected {x : SessionRef} {s s' : Server} {frames : List (SessionRef × Json)}
    (sent : newFrames s s' = frames) (positive : ∀ f ∈ frames, f.2.typeOf ≠ "ERROR") :
    ¬ Rejected x s (.ok ()) s' := by
  rintro (⟨frame, member, type⟩ | ⟨id, thrown⟩)
  · rw [sent] at member
    exact positive _ member type
  · cases thrown

theorem toAll_other {frame : Json} {type : String} (other : frame.typeOf ≠ type)
    (targets : List SessionRef) : ∀ f ∈ toAll frame targets, f.2.typeOf ≠ type := by
  intro f member
  obtain ⟨target, _, rfl⟩ := List.mem_map.mp member
  exact other

theorem untouched_of_handled {x : SessionRef} {msg : Json} {s s' : Server} {o : Except Exn Unit}
    (idle : Unreserved s) (ended : Handled Draws x msg s o s') (rejected : Rejected x s o s') :
    Untouched x s s' := by
  have stays : Untouched x s s := by
    refine ⟨rfl, rfl, rfl, rfl, fun _ => rfl, fun _ => rfl, rfl, ?_, fun _ _ => rfl⟩
    simp [newFrames]
  cases ended with
  | unreadable id => exact stays
  | ignored => exact stays
  | refused code content attempts own =>
    refine ⟨rfl, rfl, rfl, rfl, fun _ => rfl, fun _ => rfl, rfl, ?_, own⟩
    rw [newFrames_told s { s with loginAttempts := attempts } _ rfl]
    simp
  | failed username code content attempts free own =>
    have back := unreserved_settled (reserved { s with loginAttempts := attempts } x username)
      x username idle rfl fun id other => reserved_pending other
    refine ⟨rfl, rfl, rfl, back.names.trans idle.names.symm, ?_, ?_, rfl, ?_, own⟩
    · intro id
      have reserving := (sameBook_reserved { s with loginAttempts := attempts } x username).username id
      exact ((sameBook_settled _ x username).username id).trans reserving
    · intro id
      exact (back.pending id).trans (idle.pending id).symm
    · rw [newFrames_told s (settled (reserved { s with loginAttempts := attempts } x username) x
        username) _ rfl]
      simp
  | stranded username what free undrawn =>
    obtain ⟨w, draws, undrawn⟩ := undrawn
    exact absurd undrawn draws
  | entered username db attempts rows now now' bare nonempty free entry own =>
    refine absurd rejected (not_rejected (newFrames_told s (admitted s x username db attempts)
      (loginFrames (admitted s x username db attempts) x username rows now now') rfl) ?_)
    intro f member
    simp only [loginFrames, List.mem_cons, List.mem_append] at member
    rcases member with rfl | history | users | notify
    · simp
    · exact toAll_other (by simp) _ f history
    · exact toAll_other (by simp) _ f users
    · exact toAll_other (by simp) _ f notify
  | left now now' bears =>
    refine absurd rejected (not_rejected (newFrames_told s _ _ rfl) ?_)
    intro f member
    rcases List.mem_append.mp member with users | notify
    · exact toAll_other (by simp) _ f users
    · exact toAll_other (by simp) _ f notify
  | spoke content now ok =>
    exact absurd rejected (not_rejected (newFrames_told s _ _ rfl)
      (toAll_other (by simp) _))
  | whispered target toUser content now ok =>
    refine absurd rejected (not_rejected (newFrames_told s _ _ rfl) ?_)
    intro f member
    rcases List.mem_append.mp member with first | second
    · exact toAll_other (by simp) _ f first
    · exact toAll_other (by simp) _ f second
  | recalled toUser rows =>
    exact absurd rejected (not_rejected (newFrames_told s _ _ rfl)
      (toAll_other (by simp) _))

/-- In every state that handlers, accepts and disconnects reach one at a time, a
rejected request leaves no trace. -/
theorem rejected_leaves_no_trace {db : Database} {s s' : Server} {o : Except Exn Unit}
    (run : SerialRun Draws db s) (x : SessionRef) (msg : Json)
    (ran : Runs Act.exec Draws (route x msg) s o s') (rejected : Rejected x s o s') :
    Untouched x s s' :=
  untouched_of_handled (unreserved_of_run run) (handled_route x msg s o s' ran) rejected

/-! ## A wrong password -/

theorem draws_telling (msg : Json) : Draws (tellingWorld msg) := by
  simp [Draws, tellingWorld]

/-- Bob's record is not the digest of any password. -/
def bobDb : Database := { users := [("bob", hex (List.replicate 32 1))] }

/-- Alice is logged in, and there is a second connection. -/
def bobComes : Server := connects (registers { db := bobDb } 5 "alice") 6

/-- A LOGIN of bob. -/
def guess : Json :=
  .object [("type", .string "LOGIN"), ("from", .string "bob"), ("content", .string "guess")]

/-- The LOGIN has been refused. -/
def bobRefused : Server := (eval Act.exec (tellingWorld .null) (route bob guess) bobComes).2

theorem run_bobComes : SerialRun Draws bobDb bobComes :=
  run_connects draws_telling (run_registers draws_telling .boot "alice" (by simp)) (by decide +kernel)

/-- The password is found to be wrong when the name is reserved, while alice is online. -/
theorem rejected_leaves_no_trace_guess :
    bobComes.onlineUsers = ["alice"] ∧
      (newFrames bobComes bobRefused).map (fun sent => sent.2.value "code" "") =
        [.ok "WRONG_PASSWORD"] ∧
      Untouched bob bobComes bobRefused := by
  have ran := eval_runs Act.exec Draws (tellingWorld .null) (draws_telling .null) (route bob guess)
    bobComes
  have answer : (newFrames bobComes bobRefused).map (fun sent => (sent.1, sent.2.typeOf)) =
      [(bob, "ERROR")] := by decide +kernel
  obtain ⟨⟨x, frame⟩, sent, same⟩ := List.map_eq_singleton_iff.mp answer
  obtain ⟨own, type⟩ := Prod.mk.inj same
  replace own : x = bob := own
  subst own
  refine ⟨by decide +kernel, by decide +kernel, rejected_leaves_no_trace run_bobComes bob guess ran ?_⟩
  exact Or.inl ⟨frame, sent ▸ List.mem_singleton_self _, type⟩

end LinuxChat.Guarantees.Rejections
