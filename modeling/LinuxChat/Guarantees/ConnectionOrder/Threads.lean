import LinuxChat.Guarantees.ConnectionOrder.Steps
import LinuxChat.Guarantees.Handlers

/-!
# The threads in turn

A worker has one message in hand from the moment it takes it to its last action, the event loop
none. With that every thread keeps the order of the messages.
-/

namespace LinuxChat.Guarantees.ConnectionOrder

open LinuxChat.Lib LinuxChat.Source Prog
open MessageFlow (Arrival Flow arrivalOf tracing)

/-- The thread has the message in hand and has begun with it. -/
def Begun (t : Nat) (own : Message) (s : Numbered) : Prop :=
  s.2.inHand t = some own ∧ ∃ e ∈ s.2.log, e.message = own

/-- The thread has no message in hand. -/
def Resting (t : Nat) (s : Numbered) : Prop := s.2.inHand t = none

/-- Actions within a handler. -/
def Handling : Act → Prop
  | .dropSession _ => False
  | _ => True

/-- Actions of the event loop. -/
def Looping : Act → Prop
  | .storeMessage _ _ _ _ => False
  | _ => True

section
variable {workers t : Nat} {db : Database} {s : Numbered}

theorem Begun.stable {own : Message} : (inTurn workers db).Stable t (Begun t own) :=
  fun _ _ leaves ⟨hand, e, member, same⟩ =>
    ⟨leaves.own.trans hand, e, leaves.log e member, same⟩

theorem Resting.stable : (inTurn workers db).Stable t (Resting t) :=
  fun _ _ leaves resting => leaves.own.trans resting

theorem Begun.sound {own : Message} (begun : Begun t own s) (sorted : Sorted workers db s)
    (action : Act) : Sound t s action := by
  obtain ⟨hand, e, member, same⟩ := begun
  refine Or.inr ⟨own, hand, fun other m theirs => ?_⟩
  rw [← same]
  exact sorted.turn e member other m theirs

/-- An action of a thread with a message in hand begins with it. -/
theorem begun_next {own : Message} (hand : s.2.inHand t = some own) {action : Act}
    (handling : Handling action) (w : World) : Begun t own (next workers t w action s) := by
  constructor
  · rcases @next_inHand workers t s action w with
      same | ⟨⟨x, drops⟩, _⟩
    · rw [same]
      exact hand
    · rw [drops] at handling
      cases handling
  · refine ⟨⟨own, action, added w action s⟩, ?_, rfl⟩
    rw [next_log, hand]
    exact List.mem_append_right _ (List.mem_singleton.mpr rfl)

theorem handling_inRoute (action : Act) (inRoute : InRoute action) : Handling action := by
  cases action with
  | dropSession => exact inRoute
  | _ => trivial

/-- A task is run with its message in hand and put down at the end. -/
theorem wp_runTask {own : Message} (worker : t ≤ workers) (task : Task)
    (hand : s.2.inHand t = some own) :
    (inTurn workers db).wp t (fun _ => Resting t) (fun _ => Resting t) (runTask task) s := by
  have drops : ∀ s₁, Begun t own s₁ → (inTurn workers db).wp t (fun _ => Resting t)
      (fun _ => Resting t) (.act (.dropSession task.session) .ret : Proc Unit) s₁ := by
    intro s₁ begun
    refine Discipline.wp_act Begun.stable begun fun s₂ begun sorted _ w => ?_
    refine ⟨keeps_of_sound w sorted (begun.sound sorted _), ?_⟩
    exact Function.update_self _ _ _
  have stable : (inTurn workers db).Stable t fun s => s.2.inHand t = some own :=
    fun _ _ leaves hand => leaves.own.trans hand
  rw [runTask_eq]
  refine Discipline.wp_act stable hand fun s₁ hand sorted allowed w => ?_
  have first : ∀ other m, s₁.2.inHand other = some m → ¬ Before m own := by
    intro other m theirs
    by_cases several : 1 < workers
    · exact allowed several own hand other m theirs
    · -- a single worker has no other beside it
      have one := sorted.workers other m theirs
      have two := sorted.workers t own hand
      have same : other = t := by omega
      rw [same, hand] at theirs
      cases theirs
      exact fun before => Nat.lt_irrefl _ before.2
  refine ⟨keeps_of_sound w sorted (Or.inr ⟨own, hand, first⟩), ?_⟩
  have begun := @begun_next workers _ _ _ hand (.checkGeneration task) trivial w
  dsimp only
  split
  · have routed : (inTurn workers db).wp t (fun _ => Begun t own) (fun _ => Begun t own)
        (route task.session task.msg) _ :=
      Discipline.wp_of_forall Begun.stable
        (fun action handles s₂ begun sorted _ w =>
          ⟨keeps_of_sound w sorted (begun.sound sorted action), begun_next begun.1 handles w⟩)
        (fun _ _ h => h) (fun _ _ h => h) (forall_route_of handling_inRoute _ _) begun
    have guarded : (inTurn workers db).wp t (fun _ => Begun t own) (fun _ => Resting t)
        ((route task.session task.msg).tryCatch fun _ => .ret ()) _ :=
      (Discipline.wp_tryCatch _ _ _).mpr routed
    exact Discipline.wp_seq guarded (fun _ => drops) fun _ _ h => h
  · exact drops _ begun

theorem looping_serving : Serving Looping where
  clock := trivial
  list := trivial
  scan _ := trivial
  find _ := trivial
  users _ _ _ := trivial
  notify _ _ _ := trivial
  gate _ := trivial
  name _ := trivial
  offline _ := trivial
  unname _ := trivial
  erase _ := trivial
  registered := trivial
  pending _ := trivial
  cleanup _ := trivial
  unpend _ := trivial
  drop _ := trivial
  store _ _ := trivial
  receive _ := trivial
  handler := trivial
  stamp _ := trivial
  enqueue _ := trivial
  ping _ := trivial

/-- The event loop has no message in hand, whatever it is doing. -/
theorem wp_event (e : Event) (resting : Resting t s) :
    (inTurn workers db).wp t (fun _ => Resting t) (fun _ => Resting t) e.program s := by
  refine Discipline.wp_of_forall Resting.stable (fun action loops s₁ resting sorted _ w => ?_)
    (fun _ _ h => h) (fun _ _ h => h) (forall_event looping_serving e) resting
  have sound : Sound t s₁ action := by
    refine Or.inl ⟨resting, fun sender toUser content timestamp stores => ?_⟩
    rw [stores] at loops
    cases loops
  refine ⟨keeps_of_sound w sorted sound, ?_⟩
  cases own : (next workers t w action s₁).2.inHand t with
  | none => exact own
  | some m =>
    have before := inHand_before w own
    rw [resting] at before
    cases before

end

theorem Sorted.take {workers t : Nat} {db : Database} {s : Numbered} {message : Message}
    {rest : List Message} {tasks : List Task} (sorted : Sorted workers db s)
    (worker : 0 < t ∧ t ≤ workers) (queued : s.2.queued = message :: rest)
    (same : rest.map Message.task = tasks) :
    Sorted workers db ({ s.1 with server := { s.1.server with tasks := tasks } },
      { s.2 with queued := rest, inHand := Function.update s.2.inHand t (some message) }) := by
  have ascending := sorted.ascending
  have head : message ∈ s.2.queued := by
    rw [queued]
    exact List.mem_cons_self
  have tail : ∀ m ∈ rest, m ∈ s.2.queued := by
    intro m member
    rw [queued]
    exact List.mem_cons_of_mem _ member
  rw [queued] at ascending
  obtain ⟨first, others⟩ := List.pairwise_cons.mp ascending
  -- in hand before, or just taken
  have hands : ∀ other m, Function.update s.2.inHand t (some message) other = some m →
      s.2.inHand other = some m ∨ other = t ∧ m = message := by
    intro other m own
    by_cases actor : other = t
    · rw [actor, Function.update_self] at own
      exact Or.inr ⟨actor, (Option.some.inj own).symm⟩
    · rw [Function.update_of_ne actor] at own
      exact Or.inl own
  constructor
  · exact same
  · rintro m (member | ⟨other, own⟩)
    · exact sorted.known m (Or.inl (tail m member))
    · rcases hands other m own with old | ⟨_, rfl⟩
      · exact sorted.known m (Or.inr ⟨other, old⟩)
      · exact sorted.known m (Or.inl head)
  · exact others
  · intro m member other earlier own
    rcases hands other earlier own with old | ⟨_, rfl⟩
    · exact sorted.taken m (tail m member) other earlier old
    · exact first m member
  · exact fun m member => sorted.logged m (tail m member)
  · intro e member other m own before
    rcases hands other m own with old | ⟨_, rfl⟩
    · exact sorted.turn e member other m old before
    · have later := sorted.logged m head e member
      have earlier := before.2
      omega
  · intro other m own
    rcases hands other m own with old | ⟨rfl, _⟩
    · exact sorted.workers other m old
    · exact worker
  · exact sorted.numbered
  · exact sorted.ordered
  · exact sorted.rows

/-- All programs keep to the discipline, so every run in turn keeps the order. -/
theorem inTurn_verified (workers : Nat) (db : Database) :
    (inTurn workers db).Verified Resting where
  stable _ := Resting.stable
  spawn t p s s' sorted resting start := by
    obtain ⟨start, takes⟩ := start
    obtain ⟨shared, order⟩ := s'
    dsimp only at start
    replace takes : order = s.2.take t := takes
    subst takes
    cases start with
    | event e _ possible =>
      exact ⟨⟨sorted, fun other _ => (inTurn workers db).rely_refl other s⟩, wp_event e resting⟩
    | @task _ _ task rest worker inPool queued =>
      have tasks := sorted.queue
      rw [queued] at tasks
      cases waiting : s.2.queued with
      | nil =>
        rw [waiting] at tasks
        cases tasks
      | cons message others =>
        rw [waiting] at tasks
        obtain ⟨_, same⟩ := List.cons.inj tasks
        have taken : s.2.take t = { s.2 with
            queued := others
            inHand := Function.update s.2.inHand t (some message) } := by
          unfold Order.take
          rw [if_neg (Nat.ne_of_gt worker), waiting]
        rw [taken]
        refine ⟨⟨sorted.take ⟨worker, inPool⟩ waiting same, fun other differs => ?_⟩, ?_⟩
        · exact ⟨Function.update_of_ne differs _ _, fun _ member => member⟩
        · exact wp_runTask inPool task (Function.update_self _ _ _)

theorem sorted_boot (workers : Nat) (db : Database) :
    Sorted workers db (((boot db).shared, {}) : Numbered) where
  queue := rfl
  known m left := by
    rcases left with queued | ⟨t, own⟩
    · cases queued
    · cases own
  ascending := List.Pairwise.nil
  taken _ member := absurd member List.not_mem_nil
  logged _ member := absurd member List.not_mem_nil
  turn _ member := absurd member List.not_mem_nil
  workers _ _ own := nomatch own
  numbered _ member := absurd member List.not_mem_nil
  ordered := List.Pairwise.nil
  rows := (List.append_nil _).symm

end LinuxChat.Guarantees.ConnectionOrder
