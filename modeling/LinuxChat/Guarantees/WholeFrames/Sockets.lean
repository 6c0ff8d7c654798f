import LinuxChat.Guarantees.WholeFrames.Senders

/-!
# What the sockets get

No two threads write to one socket, and what is written there is whole frames but for the one
under way: kept by every step that the mutexes allow and that keeps unlocked sends out of the
frames of others.
-/

namespace LinuxChat.Guarantees.WholeFrames

open LinuxChat.Lib LinuxChat.Source Prog

variable {dump : Json → Option Bytes}

/-- No `::send` without `send_mutex_` falls into a frame that another thread is writing to
this socket, and no `::send` into a frame that is written without it. -/
def Apart (t : Nat) : LockAct ⟨Piece, Piece.Res⟩ Mutex → WireState → Prop
  | .act (.write session locked _ _ _ _), s =>
    ∀ u w, u ≠ t → s.1.2.underWay u = some w → w.id = session.id →
      locked = true ∧ w.locked = true
  | _, _ => True

/-- The invariant: mutexes exclude each other, a frame that a thread is writing under
`send_mutex_` has it, no two threads write to one socket, and what is written there is whole
frames but for the one under way. -/
structure Sound (dump : Json → Option Bytes) (s : WireState) : Prop where
  exclusive : Exclusive s.2
  held : ∀ t w, s.1.2.underWay t = some w → w.locked = true → (Mutex.send w.id, false) ∈ s.2 t
  unique : ∀ t u w w', s.1.2.underWay t = some w → s.1.2.underWay u = some w' → w.id = w'.id →
    t = u
  begun : ∀ t w, s.1.2.underWay t = some w → ∃ part, part ++ w.left = sentBytes dump w.msg ∧
    s.1.2.written w.id = (s.1.2.complete w.id).flatMap (sentBytes dump) ++ part
  whole : ∀ id, (∀ t w, s.1.2.underWay t = some w → w.id ≠ id) →
    s.1.2.written id = (s.1.2.complete id).flatMap (sentBytes dump)

/-- A step that changes what one thread holds, of a thread with nothing under way. -/
theorem Sound.relock {s : WireState} (sound : Sound dump s) {t : Nat} (free : s.1.2.underWay t = none)
    {now : List (Mutex × Bool)} (exclusive : Exclusive (Function.update s.2 t now)) :
    Sound dump (s.1, Function.update s.2 t now) where
  exclusive := exclusive
  held u w way locked := by
    have other : u ≠ t := by
      intro same
      rw [same, free] at way
      cases way
    dsimp only
    rw [Function.update_of_ne other]
    exact sound.held u w way locked
  unique := sound.unique
  begun := sound.begun
  whole := sound.whole

theorem underWay_of_eq_some {id : Nat} {locked : Bool} {msg : Json} {left : Bytes} {w : UnderWay}
    (way : UnderWay.of id locked msg left = some w) :
    left.isEmpty = false ∧ w = ⟨id, locked, msg, left⟩ := by
  cases left with
  | nil => cases way
  | cons first rest =>
    cases way
    exact ⟨rfl, rfl⟩

/-- The only thread that has a frame under way on this socket, if any does, writes on. -/
theorem Sound.write {s : WireState} (sound : Sound dump s) {t id : Nat} {locked : Bool} {msg : Json}
    {taken left : Bytes} (holds : locked = true → (Mutex.send id, false) ∈ s.2 t)
    (alone : ∀ u w, u ≠ t → s.1.2.underWay u = some w → w.id ≠ id)
    (own : ∀ w, s.1.2.underWay t = some w → w.id = id)
    (before : ∃ part, part ++ (taken ++ left) = sentBytes dump msg ∧
      s.1.2.written id = (s.1.2.complete id).flatMap (sentBytes dump) ++ part) :
    Sound dump ((s.1.1, s.1.2.write t id locked msg taken left), s.2) := by
  obtain ⟨part, whole, prefixed⟩ := before
  -- another socket, before and after
  have written : ∀ id', id' ≠ id →
      (s.1.2.write t id locked msg taken left).written id' = s.1.2.written id' := by
    intro id' other
    exact Function.update_of_ne other _ _
  have complete : ∀ id', id' ≠ id →
      (s.1.2.write t id locked msg taken left).complete id' = s.1.2.complete id' := by
    intro id' other
    unfold Wire.write
    dsimp only
    split
    · exact Function.update_of_ne other _ _
    · rfl
  have now : (s.1.2.write t id locked msg taken left).written id =
      (s.1.2.complete id).flatMap (sentBytes dump) ++ (part ++ taken) := by
    unfold Wire.write
    dsimp only
    rw [Function.update_self, prefixed, List.append_assoc]
  have same : (s.1.2.write t id locked msg taken left).underWay t = UnderWay.of id locked msg left :=
    Function.update_self _ _ _
  have others : ∀ u, u ≠ t →
      (s.1.2.write t id locked msg taken left).underWay u = s.1.2.underWay u := by
    intro u other
    exact Function.update_of_ne other _ _
  constructor
  · exact sound.exclusive
  · intro u w way
    by_cases actor : u = t
    · subst actor
      obtain ⟨_, new⟩ := underWay_of_eq_some (same.symm.trans way)
      rw [new]
      exact holds
    · exact sound.held u w ((others u actor).symm.trans way)
  · intro u v w w' way way' equal
    by_cases actor : u = t
    · by_cases actor' : v = t
      · rw [actor, actor']
      · subst actor
        obtain ⟨_, new⟩ := underWay_of_eq_some (same.symm.trans way)
        have differs := alone v w' actor' ((others v actor').symm.trans way')
        rw [new] at equal
        exact absurd equal.symm differs
    · by_cases actor' : v = t
      · subst actor'
        obtain ⟨_, new⟩ := underWay_of_eq_some (same.symm.trans way')
        have differs := alone u w actor ((others u actor).symm.trans way)
        rw [new] at equal
        exact absurd equal differs
      · exact sound.unique u v w w' ((others u actor).symm.trans way)
          ((others v actor').symm.trans way') equal
  · intro u w way
    by_cases actor : u = t
    · subst actor
      obtain ⟨unfinished, new⟩ := underWay_of_eq_some (same.symm.trans way)
      subst new
      refine ⟨part ++ taken, ?_, ?_⟩
      · rw [List.append_assoc]
        exact whole
      · dsimp only
        rw [now]
        unfold Wire.write
        dsimp only
        rw [unfinished]
        rfl
    · have way₀ := (others u actor).symm.trans way
      have differs := alone u w actor way₀
      dsimp only
      rw [written w.id differs, complete w.id differs]
      exact sound.begun u w way₀
  · intro id' nobody
    by_cases here : id' = id
    · subst here
      cases left with
      | nil =>
        rw [List.append_nil] at whole
        dsimp only
        rw [now, whole]
        unfold Wire.write
        dsimp only [List.isEmpty_nil]
        rw [if_pos rfl, Function.update_self, List.flatMap_append, List.flatMap_singleton]
      | cons first rest => exact absurd rfl (nobody t _ same)
    · dsimp only
      rw [written id' here, complete id' here]
      apply sound.whole id'
      intro u w way
      by_cases actor : u = t
      · subst actor
        rw [own w way]
        exact fun equal => here equal.symm
      · exact nobody u w ((others u actor).trans way)

/-- What a thread holds, and what it has under way. -/
def viewOf (s : WireState) (t : Nat) : List (Mutex × Bool) × Option UnderWay :=
  (s.2 t, s.1.2.underWay t)

/-- One step of a thread that writes frame after frame, where the mutexes let it and no
unlocked send falls into another frame. -/
theorem sound_step {s : WireState} (sound : Sound dump s) {t : Nat} {w : World × Nat}
    {action : LockAct ⟨Piece, Piece.Res⟩ Mutex} (ok : (pieces dump).ok (viewOf s t) action)
    (waits : blocking t action s) (apart : Apart t action s) :
    Sound dump (locking Piece.exec t w action s).2 := by
  cases action with
  | acquire mutex shared => exact sound.relock ok (sound.exclusive.acquire waits t)
  | release mutex =>
    exact sound.relock ok (sound.exclusive.fewer fun entry member => List.mem_of_mem_filter member)
  | act piece =>
    cases piece with
    | inner part => exact ⟨sound.exclusive, sound.held, sound.unique, sound.begun, sound.whole⟩
    | write session locked msg first rest behind =>
      obtain ⟨holds, way⟩ := ok
      have all : (first :: rest.take w.2) ++ (rest.drop w.2 ++ behind) = first :: rest ++ behind := by
        rw [List.cons_append, ← List.append_assoc, List.take_append_drop, List.cons_append]
      have alone : ∀ u w', u ≠ t → s.1.2.underWay u = some w' → w'.id ≠ session.id := by
        intro u w' other under here
        -- both are locked, and the mutex is with one of them only
        obtain ⟨mine, theirs⟩ := apart u w' other under here
        have held := sound.held u w' under theirs
        rw [here] at held
        exact other (sound.exclusive t u _ _ (holds mine) held).symm
      apply sound.write holds alone
      · intro w' under
        rcases way with going | ⟨free, _⟩
        · have same := under.symm.trans going
          cases same
          rfl
        · have same := under.symm.trans free
          cases same
      · rw [all]
        rcases way with going | ⟨free, fresh⟩
        · exact sound.begun t _ going
        · refine ⟨[], fresh, ?_⟩
          rw [List.append_nil]
          apply sound.whole
          intro u w' under
          by_cases actor : u = t
          · rw [actor] at under
            have same := under.symm.trans free
            cases same
          · exact alone u w' actor under

variable {workers : Nat} {db : Database}

/-- What a thread is writing, as the sockets have it, is what its monitor has followed. -/
theorem follows (dump : Json → Option Bytes) (workers : Nat) :
    (wireMachine dump workers).Follows (pieces dump) viewOf fun _ s => s.2 = none where
  acts t w action s u := by
    cases action with
    | acquire mutex shared =>
      by_cases actor : u = t
      · rw [if_pos actor, actor]
        exact congrArg (Prod.mk · _) (Function.update_self _ _ _)
      · rw [if_neg actor]
        exact congrArg (Prod.mk · _) (Function.update_of_ne actor _ _)
    | release mutex =>
      by_cases actor : u = t
      · rw [if_pos actor, actor]
        exact congrArg (Prod.mk · _) (Function.update_self _ _ _)
      · rw [if_neg actor]
        exact congrArg (Prod.mk · _) (Function.update_of_ne actor _ _)
    | act piece =>
      cases piece with
      | inner part =>
        by_cases actor : u = t
        · rw [if_pos actor, actor]
          rfl
        · rw [if_neg actor]
          rfl
      | write session locked msg first rest behind =>
        by_cases actor : u = t
        · rw [if_pos actor, actor]
          exact congrArg (Prod.mk _) (Function.update_self _ _ _)
        · rw [if_neg actor]
          exact congrArg (Prod.mk _) (Function.update_of_ne actor _ _)
  starts t p s s' start := by
    have settled : (viewOf s t).2 = none → viewOf s t = (s.2 t, none) :=
      fun free => congrArg (Prod.mk _) free
    cases start with
    | event e =>
      refine ⟨fun _ _ => rfl, fun free => ?_⟩
      rw [settled free]
      exact meets_translate (sends_expand false e.program) _
    | round =>
      refine ⟨fun _ _ => rfl, fun free => ?_⟩
      rw [settled free]
      exact meets_translate sends_workerRound _

theorem sound_boot (db : Database) : Sound dump (wireBoot db).shared where
  exclusive _ _ _ _ member := nomatch member
  held _ _ under := nomatch under
  unique _ _ _ _ under := nomatch under
  begun _ _ under := nomatch under
  whole _ _ := rfl

/-- The steps that the mutexes allow, and that keep unlocked sends out of other frames. -/
def careful (t : Nat) (action : LockAct ⟨Piece, Piece.Res⟩ Mutex) (s : WireState) : Prop :=
  blocking t action s ∧ Apart t action s

/-- The invariant holds at any point of any run of careful steps. -/
theorem sound_reached {c : Config (lockInterface ⟨Piece, Piece.Res⟩ Mutex) Exn WireState}
    (run : (wireMachine dump workers).Reaches careful (wireBoot db) c) : Sound dump c.shared := by
  have idle : ∀ t, ((wireBoot db).thread t).Meets (pieces dump) (fun _ s => s.2 = none)
      (viewOf (wireBoot db).shared t) := fun _ => rfl
  apply (follows dump workers).invariant idle (P := Sound dump) (sound_boot db) _ _ run
  · intro t w action s sound ok allowed
    exact sound_step sound ok allowed.1 allowed.2
  · intro t p s s' sound start
    cases start with
    | event => exact sound
    | round => exact sound

end LinuxChat.Guarantees.WholeFrames
