import LinuxChat.Source.Wire

/-!
# Senders and their mutex

Every send of the programs that says it holds `send_mutex_` holds it, and in pieces it keeps it
until its frame is written to the end.
-/

namespace LinuxChat.Guarantees.WholeFrames

open LinuxChat.Lib LinuxChat.Source Prog

/-! ## Sends under their mutex -/

/-- A send that claims the lock has it. -/
def lockedSends : Monitor (lockInterface ⟨Inner, Inner.Res⟩ Mutex) (List (Mutex × Bool)) where
  next held action _ := action.after held
  ok
    | held, .act (.act (.sendMsg session locked _)) =>
      locked = true → (Mutex.send session.id, false) ∈ held
    | _, _ => True

/-- Whatever is held at the start. -/
def Sends {α : Type} (p : LockProc α) : Prop :=
  ∀ held, p.Meets lockedSends (fun _ _ => True) held

/-- Anything but a send. -/
def Silent : LockAct ⟨Inner, Inner.Res⟩ Mutex → Prop
  | .act (.act (.sendMsg _ _ _)) => False
  | _ => True

theorem sends_of_silent {α : Type} {p : LockProc α} (silent : p.Forall Silent) : Sends p := by
  intro held
  have keeps : ∀ action, Silent action → ∀ held : List (Mutex × Bool), True →
      lockedSends.ok held action ∧ ∀ _ : action.Res, True := by
    intro action silent held _
    refine ⟨?_, fun _ => trivial⟩
    cases action with
    | acquire | release => trivial
    | act inner =>
      cases inner with
      | act action =>
        cases action with
        | sendMsg session locked msg => cases silent
        | _ => trivial
      | _ => trivial
  exact meets_of_forall (J := fun _ => True) keeps silent trivial

theorem Sends.bind {α β : Type} {p : LockProc α} {f : α → LockProc β} (first : Sends p)
    (second : ∀ value, Sends (f value)) : Sends (p.bind f) := by
  intro held
  apply Meets.bind (first held)
  · exact fun value now _ => second value now
  · exact fun _ _ _ => trivial

theorem silent_within {α : Type} {mutex : Mutex} {shared : Bool} {body : LockProc α}
    (inside : body.Forall Silent) : (within mutex shared body).Forall Silent := by
  constructor
  · trivial
  · intro _
    have released : ∀ error : Exn, (.act (.release mutex) fun _ => .raise error : LockProc α).Forall
        Silent := fun error => ⟨trivial, fun _ => trivial⟩
    exact (inside.tryCatch released).bind fun value => ⟨trivial, fun _ => trivial⟩

theorem silent_guarded {action : Act} (silent : Silent (.act (.act action))) :
    (guarded action).Forall Silent := by
  have alone : (doing (.act action)).Forall Silent := ⟨silent, fun _ => trivial⟩
  unfold guarded
  split
  · exact silent_within alone
  · exact alone

theorem silent_scanNames (username : String) (table : List SessionRef) :
    (scanNames username table).Forall Silent := by
  induction table with
  | nil => trivial
  | cons session rest ih =>
    have named : (guarded (.getUsername session)).Forall Silent := silent_guarded trivial
    apply named.bind
    intro name
    split
    · trivial
    · exact ih

theorem silent_scanTargets (excludeUsername : String) (table : List SessionRef) :
    (scanTargets excludeUsername table).Forall Silent := by
  induction table with
  | nil => trivial
  | cons session rest ih =>
    have gate : (guarded (.isAuthenticated session)).Forall Silent := silent_guarded trivial
    have named : (guarded (.getUsername session)).Forall Silent := silent_guarded trivial
    apply gate.bind
    intro authenticated
    split
    · exact ih
    · split
      · exact ih.bind fun targets => trivial
      · exact named.bind fun name => ih.bind fun targets => trivial

theorem silent_findSession (username : String) : (findSessionBlock username).Forall Silent :=
  silent_within ⟨trivial, fun table => silent_scanNames username table⟩

theorem silent_broadcastTargets (excludeUsername : String) :
    (broadcastTargetsBlock excludeUsername).Forall Silent :=
  silent_within ⟨trivial, fun table => silent_scanTargets excludeUsername table⟩

theorem silent_reserveForRegister (username : String) :
    (reserveForRegisterBlock username).Forall Silent := by
  refine ⟨trivial, fun _ => ⟨trivial, fun busy => ?_⟩⟩
  cases busy with
  | true => trivial
  | false => exact ⟨trivial, fun _ => ⟨trivial, fun _ => trivial⟩⟩

theorem silent_reserveForLogin (username : String) :
    (reserveForLoginBlock username).Forall Silent := by
  refine ⟨trivial, fun _ => ⟨trivial, fun busy => ?_⟩⟩
  cases busy with
  | true => trivial
  | false =>
    apply (silent_findSession username).bind
    intro found
    cases found with
    | some session => trivial
    | none => exact ⟨trivial, fun _ => ⟨trivial, fun _ => trivial⟩⟩

/-- `send_to_fd` and `broadcast` send under the mutex, `send_error` and `send_ok` without. -/
theorem sends_sendMsg (session : SessionRef) (locked : Bool) (msg : Json) :
    Sends (block (.sendMsg session locked msg)) := by
  intro held
  cases locked with
  | false => exact ⟨fun impossible => (nomatch impossible), fun _ => trivial⟩
  | true =>
    exact ⟨trivial, fun _ => ⟨fun _ => List.mem_cons_self, fun _ => ⟨trivial, fun _ => trivial⟩⟩⟩

theorem sends_plain {action : Act} (plain : block action = guarded action)
    (silent : Silent (.act (.act action))) : Sends (block action) := by
  rw [plain]
  exact sends_of_silent (silent_guarded silent)

theorem sends_block (action : Act) : Sends (block action) := by
  cases action with
  | sendMsg session locked msg => exact sends_sendMsg session locked msg
  | findSession username => exact sends_of_silent (silent_findSession username)
  | broadcastTargets excludeUsername =>
    exact sends_of_silent (silent_broadcastTargets excludeUsername)
  | reserveForRegister username => exact sends_of_silent (silent_reserveForRegister username)
  | reserveForLogin username => exact sends_of_silent (silent_reserveForLogin username)
  | _ => exact sends_plain rfl trivial

theorem sends_releaseOwed {α : Type} (owed : Bool) {p : LockProc α} (h : Sends p) :
    Sends (releaseOwed owed p) := by
  intro held
  cases owed with
  | false => exact h held
  | true => exact ⟨trivial, fun _ => h _⟩

theorem sends_expand {α : Type} (owed : Bool) (p : Proc α) : Sends (expand owed p) := by
  induction p generalizing owed with
  | ret value => exact sends_releaseOwed owed fun _ => trivial
  | raise error => exact sends_releaseOwed owed fun _ => trivial
  | act action next ih =>
    exact (sends_block action).bind fun result => sends_releaseOwed owed (ih result _)

theorem sends_workerRound : Sends workerRound := by
  have popped : (within .pool false (doing .popTask)).Forall Silent :=
    silent_within ⟨trivial, fun _ => trivial⟩
  apply (sends_of_silent popped).bind
  intro taken
  cases taken with
  | none => exact fun _ => trivial
  | some task => exact sends_expand false (runTask task)

/-! ## Frames piece by piece -/

variable {dump : Json → Option Bytes}

/-- A thread writes its frame to the end before it does anything else, starts with the
first octet, and has `send_mutex_` if it claims so. -/
def pieces (dump : Json → Option Bytes) :
    Monitor (lockInterface ⟨Piece, Piece.Res⟩ Mutex) (List (Mutex × Bool) × Option UnderWay) where
  next
    | s, .act (.write session locked msg _ rest behind), more =>
      (s.1, UnderWay.of session.id locked msg (rest.drop more ++ behind))
    | s, action, _ => (action.after s.1, s.2)
  ok
    | s, .act (.write session locked msg first rest behind) =>
      (locked = true → (Mutex.send session.id, false) ∈ s.1) ∧
        (s.2 = some ⟨session.id, locked, msg, first :: rest ++ behind⟩ ∨
          s.2 = none ∧ first :: rest ++ behind = sentBytes dump msg)
    | s, _ => s.2 = none

/-- Without an exception, with the same mutexes, and with this under way. -/
def Reaching {α : Type} (held : List (Mutex × Bool)) (way : Option UnderWay) :
    Except Exn α → List (Mutex × Bool) × Option UnderWay → Prop :=
  fun o s => (∃ value, o = .ok value) ∧ s = (held, way)

theorem Reaching.bind {α β : Type} {way way' : Option UnderWay}
    {held : List (Mutex × Bool)}
    {s : List (Mutex × Bool) × Option UnderWay} {p : WireProc α} {f : α → WireProc β}
    (first : p.Meets (pieces dump) (Reaching held way) s)
    (second : ∀ value, (f value).Meets (pieces dump) (Reaching held way') (held, way)) :
    (p.bind f).Meets (pieces dump) (Reaching held way') s := by
  apply first.bind
  · intro value now ended
    rw [ended.2]
    exact second value
  · intro error now ended
    obtain ⟨⟨value, impossible⟩, _⟩ := ended
    cases impossible

section
variable {session : SessionRef} {locked : Bool} {msg : Json} {held : List (Mutex × Bool)}
  (holds : locked = true → (Mutex.send session.id, false) ∈ held)
include holds

/-- From the middle of a buffer to what comes behind it. -/
theorem meets_writePieces (behind : Bytes) (fuel : Nat) (buffer : Bytes)
    (enough : buffer.length ≤ fuel) :
    (writePieces session locked msg behind fuel buffer).Meets (pieces dump)
      (Reaching held (UnderWay.of session.id locked msg behind))
      (held, UnderWay.of session.id locked msg (buffer ++ behind)) := by
  induction fuel generalizing buffer with
  | zero =>
    have empty : buffer = [] := List.eq_nil_of_length_eq_zero (Nat.le_zero.mp enough)
    subst empty
    exact ⟨⟨(), rfl⟩, rfl⟩
  | succ fuel ih =>
    cases buffer with
    | nil => exact ⟨⟨(), rfl⟩, rfl⟩
    | cons first rest =>
      constructor
      · exact ⟨holds, Or.inl rfl⟩
      · intro more
        have fewer : (rest.drop more).length ≤ fuel := by
          rw [List.length_cons] at enough
          rw [List.length_drop]
          omega
        exact ih (rest.drop more) fewer

/-- From the first octet of a frame on. -/
theorem meets_startPieces {behind first : Bytes} (some : first ≠ [])
    (whole : first ++ behind = sentBytes dump msg) :
    (writePieces session locked msg behind first.length first).Meets (pieces dump)
      (Reaching held (UnderWay.of session.id locked msg behind)) (held, none) := by
  cases first with
  | nil => exact absurd rfl some
  | cons first rest =>
    constructor
    · exact ⟨holds, Or.inr ⟨rfl, whole⟩⟩
    · intro more
      have fewer : (rest.drop more).length ≤ rest.length := by
        rw [List.length_drop]
        omega
      exact meets_writePieces holds behind rest.length (rest.drop more) fewer

theorem meets_sendPieces :
    (sendPieces dump session locked msg).Meets (pieces dump) (Reaching held none) (held, none) := by
  unfold sendPieces
  cases buffers : sendBuffers dump msg with
  | none => exact ⟨⟨false, rfl⟩, rfl⟩
  | some both =>
    obtain ⟨header, body⟩ := both
    have whole : header ++ body = sentBytes dump msg := by
      simp only [sentBytes, buffers]
    have some : header ≠ [] := by
      unfold sendBuffers at buffers
      split at buffers
      · cases buffers
      · split at buffers
        · cases buffers
        · cases buffers
          exact fun impossible => nomatch impossible
    apply Reaching.bind (meets_startPieces holds some whole)
    intro _
    have rest := @meets_writePieces dump session locked msg held holds [] body.length body
      (Nat.le_refl _)
    rw [List.append_nil] at rest
    apply Reaching.bind rest
    exact fun _ => ⟨⟨true, rfl⟩, rfl⟩

end

/-- In pieces, what sends under its mutex writes frame after frame. -/
theorem meets_translate {p : LockProc Unit} (sends : Sends p) (held : List (Mutex × Bool)) :
    (p.translate (spell dump)).Meets (pieces dump) (fun _ s => s.2 = none) (held, none) := by
  have steps : ∀ action held (s : List (Mutex × Bool) × Option UnderWay),
      lockedSends.ok held action → s = (held, none) →
      (spell dump action).Meets (pieces dump)
        (fun o s₁ => ∃ result, o = .ok result ∧ s₁ = (lockedSends.next held action result, none))
        s := by
    rintro action held s ok rfl
    cases action with
    | acquire mutex shared => exact ⟨rfl, fun _ => ⟨(), rfl, rfl⟩⟩
    | release mutex => exact ⟨rfl, fun _ => ⟨(), rfl, rfl⟩⟩
    | act part =>
      cases part with
      | act action =>
        cases action with
        | sendMsg session locked msg =>
          apply (@meets_sendPieces dump session locked msg held ok).mono
          rintro o now ⟨⟨value, returned⟩, same⟩
          exact ⟨value, returned, same⟩
        | _ => exact ⟨rfl, fun result => ⟨result, rfl, rfl⟩⟩
      | _ => exact ⟨rfl, fun result => ⟨result, rfl, rfl⟩⟩
  have related := (sends held).translate (R := fun held s => s = (held, none)) steps rfl
  apply related.mono
  rintro o s ⟨now, _, rfl⟩
  rfl

end LinuxChat.Guarantees.WholeFrames
