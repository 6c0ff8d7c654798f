import LinuxChat.Guarantees.Lockout.Steps

/-!
# What the threads know of reservations

A worker knows its own reservation at every stage of a login, the event loop where it is
with a removal. Each of their programs is verified against the discipline once.
-/

namespace LinuxChat.Guarantees.Lockout

open LinuxChat.Lib LinuxChat.Source Prog

/-! ## The workers -/

/-- Which name a worker has reserved at a stage of its handler. -/
def reservation : Stage → Option String
  | .reserved username => some username
  | .granted username => some username
  | .free username => some username
  | .named username => some username
  | .listed username => some username
  | _ => none

/-- At the end of the handler an exception may have left the name reserved. -/
def Holding (t : Nat) (stage : Stage) (s : Watched) : Prop :=
  stage ≠ .over → s.1.aux.reservedBy t = reservation stage

section
variable {workers t : Nat} {s : Watched} {action : Act} {session : SessionRef}
  {stage stage' : Stage} {result : action.Res}

/-- Each move is sound, and leads where the next stage says. -/
theorem holding_moves (w : World) (worker : 0 < t) (h : Holding t stage s)
    (ran : (action.exec w s.1.server).1 = result) (moves : Moves session stage action result stage') :
    Sound t s action ∧ Holding t stage' (next workers t w action s) := by
  have after : (next workers t w action s).1.aux.reservedBy =
      (s.1.aux.record t s.1.server action result).reservedBy := by
    rw [← ran]
    rfl
  rw [record_reservedBy] at after
  have before : stage ≠ .over → (next workers t w action s).1.aux.reservedBy = s.1.aux.reservedBy →
      reservation stage' = reservation stage → Holding t stage' (next workers t w action s) := by
    intro unfinished same stays _
    rw [same, stays]
    exact h unfinished
  cases moves with
  | neutral neutral =>
    have core := @next_reservedBy workers t s action w
    rw [Core.step_neutral neutral] at core
    constructor
    · cases action with
      | getPendingLogin x => exact fun loop => absurd loop (Nat.ne_of_gt worker)
      | reserveForRegister | reserveForLogin | releaseReservation | cleanupLoginReservation |
        eraseSession | storeSession => cases neutral
      | _ => trivial
    · exact fun unfinished => (congrFun core t).trans (h unfinished)
  | gateClosed | read | unlist | unname | insertRow | refuseRow | findRow | give | list =>
    exact ⟨trivial, before Stage.noConfusion after rfl⟩
  | @reserve username nonempty =>
    refine ⟨⟨nonempty, h Stage.noConfusion⟩, fun _ => ?_⟩
    exact (congrFun after t).trans (Function.update_self _ _ _)
  | refuse nonempty =>
    exact ⟨⟨nonempty, h Stage.noConfusion⟩, before Stage.noConfusion after rfl⟩
  | @grant username nonempty =>
    refine ⟨⟨nonempty, h Stage.noConfusion⟩, fun _ => ?_⟩
    exact (congrFun after t).trans (Function.update_self _ _ _)
  | @deny username outcome nonempty denied =>
    refine ⟨⟨nonempty, h Stage.noConfusion⟩, before Stage.noConfusion ?_ rfl⟩
    cases outcome with
    | reserved => exact absurd rfl denied
    | inProgress => exact after
    | alreadyOnline => exact after
  | giveUp =>
    refine ⟨h Stage.noConfusion, fun _ => ?_⟩
    exact (congrFun after t).trans (Function.update_self _ _ _)
  | release => exact ⟨h Stage.noConfusion, fun unfinished => absurd rfl unfinished⟩

/-- The login handlers on a worker. -/
def logins (workers : Nat) {t : Nat} (worker : 0 < t) (session : SessionRef) :
    Outline (lockout workers) t session where
  holds := Holding t
  stable _ _ _ leaves h unfinished := leaves.own.trans (h unfinished)
  moves w h inv allowed ran moves := by
    obtain ⟨sound, after⟩ := holding_moves w worker h ran moves
    exact ⟨keeps_of_sound w inv sound allowed, after⟩
  rest _ unfinished := absurd rfl unfinished
  forget h := by
    rcases h with granted | free
    · exact fun _ => granted Stage.noConfusion
    · exact fun _ => free Stage.noConfusion
  drop _ unfinished := absurd rfl unfinished

end

/-! ## The threads -/

/-- Nothing reserved; for the event loop, how far its cleanup is. -/
structure Resting (t : Nat) (cleanup : Cleanup) (s : Watched) : Prop where
  own : s.1.aux.reservedBy t = none
  loop : t = 0 → s.2 = cleanup

/-- Actions that reserve and clean up nothing. -/
def Carefree : Act → Prop
  | .reserveForRegister _ => False
  | .reserveForLogin _ => False
  | .releaseReservation _ => False
  | .cleanupLoginReservation _ => False
  | .getPendingLogin _ => False
  | .storeSession _ _ => False
  | .eraseSession _ => False
  | _ => True

section
variable {workers t : Nat} {s : Watched} {cleanup : Cleanup} {α : Type} {Q : α → Watched → Prop}
  {X : Exn → Watched → Prop}

theorem Resting.stable : (lockout workers).Stable t (Resting t cleanup) :=
  fun _ _ leaves resting =>
    ⟨leaves.own.trans resting.own, fun loop => (leaves.cleanup loop).trans (resting.loop loop)⟩

theorem resting_step {action : Act} (free : Carefree action) (w : World)
    (resting : Resting t cleanup s) :
    Sound t s action ∧ Resting t cleanup (next workers t w action s) := by
  have reserved := @next_reservedBy workers t s action w
  have follows := @next_cleanup workers t s action w
  rw [Core.step_reservedBy] at reserved
  have own := resting.own
  cases action with
  | reserveForRegister | reserveForLogin | releaseReservation | cleanupLoginReservation |
    getPendingLogin | storeSession | eraseSession => cases free
  | dropSession x =>
    refine ⟨trivial, (congrFun reserved t).trans (Function.update_self _ _ _), fun loop => ?_⟩
    rw [follows, if_pos loop]
    exact resting.loop loop
  | _ =>
    refine ⟨trivial, (congrFun reserved t).trans own, fun loop => ?_⟩
    rw [follows, if_pos loop]
    exact resting.loop loop

theorem wp_carefree {p : Proc α} (free : p.Forall Carefree) (resting : Resting t cleanup s) :
    (lockout workers).wp t (fun _ => Resting t cleanup) (fun _ => Resting t cleanup) p s := by
  refine Discipline.wp_of_forall Resting.stable (fun action carefree s₁ rests inv allowed w => ?_)
    (fun _ _ h => h) (fun _ _ h => h) free resting
  obtain ⟨sound, after⟩ := @resting_step workers _ _ _ _ carefree w rests
  exact ⟨keeps_of_sound w inv sound allowed, after⟩

/-- The rule for the actions that move the cleanup on. -/
theorem wp_follow {action : Act} {next' : action.Res → Proc α} (resting : Resting t cleanup s)
    (sound : ∀ s₁, Resting t cleanup s₁ → Sound t s₁ action)
    (go : ∀ s₁ w, Resting t cleanup s₁ → Kept s₁ → 
      (lockout workers).wp t Q X (next' (action.exec w s₁.1.server).1) (next workers t w action s₁)) :
    (lockout workers).wp t Q X (.act action next') s :=
  Discipline.wp_act Resting.stable resting fun s₁ rests inv allowed w =>
    ⟨keeps_of_sound w inv (sound s₁ rests) allowed, go s₁ w rests inv⟩

/-- A worker ends without a reservation of its own, unless a handler threw; then the reservation
is covered by the pending name of its session. -/
theorem wp_runTask (worker : 0 < t) (task : Task) (resting : Resting t .idle s) :
    (lockout workers).wp t (fun _ => Resting t .idle) (fun _ => Resting t .idle) (runTask task) s := by
  have ends : ∀ s₁, (lockout workers).wp t (fun _ => Resting t .idle) (fun _ => Resting t .idle)
      (.act (.dropSession task.session) .ret : Proc Unit) s₁ := by
    intro s₁ s₂ _ inv allowed w
    refine ⟨keeps_of_sound w inv trivial allowed, ?_, fun loop => absurd loop (Nat.ne_of_gt worker)⟩
    have dropped := @next_reservedBy workers t s₂ (.dropSession task.session) w
    rw [Core.step_reservedBy] at dropped
    exact (congrFun dropped t).trans (Function.update_self _ _ _)
  rw [runTask_eq]
  refine wp_follow resting (fun _ _ => trivial) fun s₁ w rests _ => ?_
  obtain ⟨_, after⟩ := @resting_step workers _ _ _ (.checkGeneration task) trivial w rests
  dsimp only
  split
  · have routed := (logins workers worker task.session).wp_guardedRoute
      (X := fun _ => Resting t .idle) task.msg fun _ => after.own
    exact Discipline.wp_seq routed (fun _ s₂ _ => ends s₂) fun _ _ h => h
  · exact ends _

/-! ### The event loop -/

theorem carefree_announcing : Announcing Carefree where
  clock := trivial
  list := trivial
  scan _ := trivial
  find _ := trivial
  users _ _ _ := trivial
  notify _ _ _ := trivial

theorem carefree_departing : Departing Carefree where
  toAnnouncing := carefree_announcing
  gate _ := trivial
  name _ := trivial
  offline _ := trivial
  unname _ := trivial

theorem forall_endRemoval_carefree (session : SessionRef) :
    (endRemoval session).Forall Carefree := by
  refine ⟨trivial, fun authenticated => ?_⟩
  dsimp only
  split
  · exact ⟨trivial, fun _ => ⟨trivial, fun _ => trivial⟩⟩
  · exact ⟨trivial, fun _ => trivial⟩

/-- The disconnect handler reads the pending name of the removed session and takes that
name out. -/
theorem wp_disconnectHandler {x : SessionRef} (resting : Resting 0 (.unread x) s) :
    (lockout workers).wp 0 (fun _ => Resting 0 .idle) (fun _ => Resting 0 .idle)
      (disconnectHandler x) s := by
  have logout := forall_logout carefree_departing x
  rw [disconnectHandler_eq]
  refine wp_follow resting (fun _ rests => rests.loop) fun s₁ w rests _ => ?_
  have own := rests.own
  have reads : (next workers 0 w (.getPendingLogin x) s₁).2 =
      if pending s₁ x.id = "" then .idle else .holding (pending s₁ x.id) := rfl
  have pends : (Act.exec w (.getPendingLogin x) s₁.1.server).1 = pending s₁ x.id := rfl
  rw [pends]
  dsimp only
  split
  next some =>
    have named : pending s₁ x.id ≠ "" := by
      intro empty
      rw [empty] at some
      cases some
    rw [if_neg named] at reads
    have holds : Resting 0 (.holding (pending s₁ x.id)) (next workers 0 w (.getPendingLogin x) s₁) :=
      ⟨own, fun _ => reads⟩
    refine wp_follow holds (fun _ rests => rests.loop rfl) fun s₂ w rests _ => ?_
    have idles : Resting 0 .idle (next workers 0 w (.cleanupLoginReservation (pending s₁ x.id)) s₂) :=
      ⟨rests.own, fun _ => rfl⟩
    refine wp_follow idles (fun _ _ => trivial) fun s₃ w rests _ => ?_
    exact wp_carefree logout
      (@resting_step workers _ _ _ (.clearPendingLogin x) trivial w rests).2
  next none =>
    have empty : pending s₁ x.id = "" := by simpa [String.isEmpty_iff] using none
    rw [if_pos empty] at reads
    exact wp_carefree logout ⟨own, fun _ => reads⟩

theorem wp_removeClient (fd : Nat) (resting : Resting 0 .idle s) :
    (lockout workers).wp 0 (fun _ => Resting 0 .idle) (fun _ => Resting 0 .idle)
      (removeClient fd) s := by
  rw [removeClient_eq]
  refine wp_follow resting (fun _ rests => ⟨rfl, rests.loop rfl⟩) fun s₁ w rests _ => ?_
  have own := rests.own
  have idle := rests.loop rfl
  have follows : (next workers 0 w (.eraseSession fd) s₁).2 =
      s₁.2.follow (.eraseSession fd) (Act.exec w (.eraseSession fd) s₁.1.server).1 := rfl
  have reserved : (next workers 0 w (.eraseSession fd) s₁).1.aux.reservedBy 0 = none := by
    rw [next_reservedBy, Core.step_reservedBy]
    exact own
  cases removed : (Act.exec w (.eraseSession fd) s₁.1.server).1 with
  | none =>
    rw [removed] at follows
    exact ⟨reserved, fun _ => follows.trans idle⟩
  | some x =>
    rw [removed] at follows
    have resting : Resting 0 (.unread x) (next workers 0 w (.eraseSession fd) s₁) :=
      ⟨reserved, fun _ => follows⟩
    refine wp_follow resting (fun _ _ => trivial) fun s₂ w rests kept => ?_
    have handler : (Act.exec w .hasDisconnectHandler s₂.1.server).1 = true := kept.disconnects
    have after := (@resting_step workers _ _ _ .hasDisconnectHandler trivial w rests).2
    rw [handler, if_pos rfl]
    have handled : (lockout workers).wp 0 (fun _ => Resting 0 .idle) (fun _ => Resting 0 .idle)
        ((disconnectHandler x).tryCatch fun _ => .ret ()) _ :=
      (Discipline.wp_tryCatch _ _ _).mpr (wp_disconnectHandler after)
    exact Discipline.wp_seq handled
      (fun _ _ rests => wp_carefree (forall_endRemoval_carefree x) rests) fun _ _ h => h

/-- After every event the loop has no removal under way. -/
theorem wp_event (e : Event) (possible : e.possible s.1.server) (resting : Resting 0 .idle s) :
    (lockout workers).wp 0 (fun _ => Resting 0 .idle) (fun _ => Resting 0 .idle) e.program s := by
  cases e with
  | newConnection fd ip =>
    intro s₁ leaves inv allowed w
    have rests := @Resting.stable workers _ _ s s₁ leaves resting
    have free : ∀ x ∈ s₁.1.server.sessions, x.fd ≠ fd := by
      rw [leaves.table rfl]
      exact possible
    refine ⟨keeps_of_sound w inv ⟨rfl, free⟩ allowed, ?_, fun loop => rests.loop loop⟩
    have reserved := @next_reservedBy workers 0 s₁ (.storeSession fd ip) w
    rw [Core.step_reservedBy] at reserved
    exact (congrFun reserved 0).trans rests.own
  | client fd =>
    change (lockout workers).wp 0 _ _ (handleClientEvent fd) s
    rw [handleClientEvent_eq]
    refine wp_follow resting (fun _ _ => trivial) fun s₁ w rests _ => ?_
    have after := (@resting_step workers _ _ _ (.findByFd fd) trivial w rests).2
    cases (Act.exec w (.findByFd fd) s₁.1.server).1 with
    | none => exact after
    | some session =>
      refine wp_follow after (fun _ _ => trivial) fun s₂ w rests _ => ?_
      have received := (@resting_step workers _ _ _ (.recvMsgs session) trivial w rests).2
      cases (Act.exec w (.recvMsgs session) s₂.1.server).1 with
      | error e => exact received
      | ok msgs =>
        cases msgs with
        | none => exact wp_removeClient fd received
        | some msgs =>
          exact wp_carefree (forall_dispatch trivial trivial trivial (fun _ _ => trivial) msgs) received
  | heartbeat =>
    exact wp_carefree (forall_broadcast (P := Carefree) trivial fun _ => trivial) resting

end

/-- All programs keep to the discipline. -/
theorem lockout_verified (workers : Nat) :
    (lockout workers).Verified fun t => Resting t .idle where
  stable _ := Resting.stable
  spawn t p s s' inv resting start := by
    obtain ⟨start, follows⟩ := start
    have cleanup : s'.2 = s.2 := follows
    obtain ⟨shared, history⟩ := s'
    dsimp only at start cleanup
    subst cleanup
    cases start with
    | event e _ possible =>
      refine ⟨⟨inv, fun other _ => (lockout workers).rely_refl other s⟩, ?_⟩
      exact wp_event e possible resting
    | @task _ _ task rest worker inPool queued =>
      refine ⟨⟨⟨inv.numbered, inv.fds, inv.unread, inv.nonempty, inv.covered, inv.disconnects⟩,
        fun other _ => ⟨rfl, fun _ => rfl, fun _ => rfl⟩⟩, ?_⟩
      exact wp_runTask worker task ⟨resting.own, resting.loop⟩

end LinuxChat.Guarantees.Lockout
