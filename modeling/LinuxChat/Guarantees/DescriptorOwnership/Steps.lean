import LinuxChat.Guarantees.DescriptorOwnership.Owners
import Mathlib.Data.List.Nodup

/-!
# What a step does to the descriptors

`step_change` sorts the steps of the process by what they do to the references, the open files
and the calls of `close`. The invariants are proved over these changes.
-/

namespace LinuxChat.Guarantees.DescriptorOwnership

open LinuxChat.Source

variable {event : FdEvent} {p q : Process} {descriptor session : Descriptor} {number : Nat}

/-- A refused connection has still to be closed, or its session. -/
def Failing : FdPosition → Prop
  | .refused _ => True
  | .abandoned _ => True
  | _ => False

/-- Nothing is opened or closed. -/
structure SameFiles (p q : Process) : Prop where
  table : q.table = p.table
  closings : q.closings = p.closings
  destroyed : q.position = .destroyed ↔ p.position = .destroyed
  calm : Failing q.position → Failing p.position

/-- What an event can do, and all that it can do: something moves between the owners, a descriptor
of the server is opened, stored or closed, or a file of somebody else is. -/
inductive Change (event : FdEvent) (p : Process) : Process → Prop
  | moved {q : Process} (moves : Moves p q) (files : SameFiles p q)
      (kept : ∀ descriptor ∈ p.owners, descriptor ∈ q.owners) : Change event p q
  | released {q : Process} {session : Descriptor} (moves : Moves p q) (files : SameFiles p q)
      (owned : session ∈ p.owners)
      (kept : ∀ descriptor ∈ p.owners, descriptor ∈ q.owners ∨ descriptor = session) :
      Change event p (q.dropped session)
  | stored {session : Descriptor} (made : p.position = .registering session) :
      Change event p (p.store session)
  | listened {number : Nat} (constructed : p.position = .constructed)
      (free : p.table number = none) :
      Change event p
        { p.opened number with listenFd := some ⟨number, p.born⟩, position := .binding }
  | accepted {number : Nat} (accepting : p.position = .accepting)
      (free : p.table number = none) :
      Change event p { p.opened number with position := .registering ⟨number, p.born⟩ }
  | listenFailed {listenFd : Descriptor} (failed : event = .bind false ∨ event = .listen false)
      (listens : p.listenFd = some listenFd)
      (before : p.position = .binding ∨ p.position = .listening) :
      Change event p (Process.close { p with position := .returned } listenFd)
  | refused {session : Descriptor} (failed : event = .epollAdd false)
      (made : p.position = .registering session) :
      Change event p { p with position := .refused session }
  | addFailed {session : Descriptor} (refused : p.position = .refused session) :
      Change event p (Process.close { p with position := .abandoned session } session)
  | ended {listenFd : Descriptor} (listens : p.listenFd = some listenFd)
      (clearing : p.position = .clearing) (cleared : p.sessions = []) :
      Change event p (Process.close { p with position := .destroyed } listenFd)
  | endedEarly (listens : p.listenFd = none) (clearing : p.position = .clearing)
      (cleared : p.sessions = []) : Change event p { p with position := .destroyed }
  | otherOpened {number : Nat} (free : p.table number = none) :
      Change event p
        { p with table := Function.update p.table number (some p.born), born := p.born + 1 }
  | otherClosed {number file : Nat} (found : p.table number = some file)
      (other : ∀ descriptor ∈ p.acquired, descriptor.file ≠ file) :
      Change event p { p with table := Function.update p.table number none }

/-- A step that gives up no reference. -/
theorem Change.keep (moves : Moves p q) (table : q.table = p.table)
    (closings : q.closings = p.closings) (running : q.position ≠ .destroyed)
    (live : p.position ≠ .destroyed) (calm : Failing q.position → Failing p.position)
    (kept : ∀ descriptor ∈ p.owners, descriptor ∈ q.owners) : Change event p q :=
  have ends : q.position = .destroyed ↔ p.position = .destroyed :=
    ⟨fun ends => absurd ends running, fun ends => absurd ends live⟩
  .moved moves ⟨table, closings, ends, calm⟩ kept

theorem Moves.position {position : FdPosition} (orderly : Orderly p)
    (fewer : ∀ descriptor ∈ position.stack, descriptor ∈ p.position.stack)
    (unmade : ∀ session, making position = some session → making p.position = some session)
    (started : position ≠ .constructed) (emptied : position = .destroyed → p.sessions = []) :
    Moves p { p with position := position } where
  born := rfl
  listenFd := rfl
  acquired := rfl
  sessions := List.Sublist.refl _
  owners descriptor owned := by
    simp only [mem_owners] at owned ⊢
    have kept := fewer descriptor
    grind
  alone session made := orderly.alone session (unmade session made)
  start constructed := absurd constructed started
  emptied := emptied

/-- The thread of `run` goes on without a change to the references. -/
theorem Change.advance {position : FdPosition} (orderly : Orderly p)
    (kept : position.stack = p.position.stack) (unmade : making position = making p.position)
    (started : position ≠ .constructed) (running : position ≠ .destroyed)
    (live : p.position ≠ .destroyed) (calm : Failing position → Failing p.position) :
    Change event p { p with position := position } := by
  have moves : Moves p { p with position := position } :=
    Moves.position orderly (fun _ owned => kept ▸ owned) (fun _ made => unmade ▸ made) started
      fun destroyed => absurd destroyed running
  apply Change.keep moves rfl rfl running live calm
  intro descriptor owned
  simp only [mem_owners, kept] at owned ⊢
  exact owned

theorem Change.idle (orderly : Orderly p) : Change event p p :=
  .moved
    { born := rfl, listenFd := rfl, acquired := rfl, sessions := List.Sublist.refl _
      owners := fun _ owned => owned
      alone := orderly.alone
      start := id
      emptied := orderly.emptied }
    ⟨rfl, rfl, Iff.rfl, id⟩ fun _ owned => owned

/-- `handle_client_event` copies the reference. -/
theorem Change.handle (here : p.position = .polling) (found : p.find number = some session) :
    Change event p { p with position := .handling session } := by
  have mapped := find_mem found
  refine Change.keep ?_ rfl rfl FdPosition.noConfusion
    (by rw [here]; exact FdPosition.noConfusion) False.elim ?_
  · exact
      { born := rfl, listenFd := rfl, acquired := rfl, sessions := List.Sublist.refl _
        owners := fun descriptor kept => by
          simp only [mem_owners, FdPosition.stack, List.mem_singleton] at kept ⊢
          grind
        alone := fun other made => nomatch made
        start := fun constructed => nomatch constructed
        emptied := fun destroyed => nomatch destroyed }
  · intro descriptor kept
    simp only [mem_owners, FdPosition.stack, here, List.not_mem_nil] at kept ⊢
    grind

/-- A task or a sender takes a reference. -/
theorem Change.hold (orderly : Orderly p) (owned : session ∈ p.owners)
    (shared : ∀ other, making p.position = some other → session ≠ other) :
    Change event p { p with held := session :: p.held } := by
  have owners : ∀ descriptor, descriptor ∈ Process.owners { p with held := session :: p.held } ↔
      descriptor ∈ p.owners := by
    intro descriptor
    simp only [mem_owners, List.mem_cons] at owned ⊢
    grind
  refine .moved ?_ ⟨rfl, rfl, Iff.rfl, id⟩ fun descriptor kept => (owners descriptor).mpr kept
  refine
    { born := rfl, listenFd := rfl, acquired := rfl, sessions := List.Sublist.refl _
      owners := fun descriptor kept => (owners descriptor).mp kept
      alone := ?_
      start := id
      emptied := orderly.emptied }
  intro other made
  obtain ⟨unmapped, unheld⟩ := orderly.alone other made
  exact ⟨unmapped, List.not_mem_cons_of_ne_of_not_mem (shared other made).symm unheld⟩

/-- The thread of `run` gives up a reference. -/
theorem Change.drop {position : FdPosition} (orderly : Orderly p) (owned : session ∈ p.position.stack)
    (fewer : ∀ descriptor ∈ position.stack, descriptor ∈ p.position.stack)
    (rest : ∀ descriptor ∈ p.position.stack, descriptor ∈ position.stack ∨ descriptor = session)
    (unmade : making position = none) (started : position ≠ .constructed)
    (running : position ≠ .destroyed) (live : p.position ≠ .destroyed) (calm : ¬ Failing position) :
    Change event p (Process.dropped { p with position := position } session) := by
  apply Change.released
  · apply Moves.position orderly fewer _ started fun destroyed => absurd destroyed running
    intro other made
    exact nomatch unmade.symm.trans made
  · exact ⟨rfl, rfl, ⟨fun ends => absurd ends running, fun ends => absurd ends live⟩,
      fun failing => absurd failing calm⟩
  · exact mem_owners.mpr (Or.inr (Or.inl owned))
  · intro descriptor kept
    simp only [mem_owners] at kept ⊢
    have gone := rest descriptor
    grind

theorem Change.release (orderly : Orderly p) (held : session ∈ p.held) :
    Change event p (Process.dropped { p with held := p.held.erase session } session) := by
  apply Change.released
  · exact
      { born := rfl, listenFd := rfl, acquired := rfl, sessions := List.Sublist.refl _
        owners := fun descriptor kept => by
          simp only [mem_owners] at kept ⊢
          grind
        alone := fun other made => by
          obtain ⟨unmapped, unheld⟩ := orderly.alone other made
          exact ⟨unmapped, fun kept => unheld (List.mem_of_mem_erase kept)⟩
        start := id
        emptied := orderly.emptied }
  · exact ⟨rfl, rfl, Iff.rfl, id⟩
  · exact mem_owners.mpr (Or.inr (Or.inr held))
  · intro descriptor kept
    simp only [mem_owners] at kept ⊢
    by_cases same : descriptor = session
    · exact Or.inr same
    · have stays := (List.mem_erase_of_ne (l := p.held) same).mpr
      grind

theorem keyed_eq {first second : Descriptor} (orderly : Orderly p) (one : first ∈ p.sessions)
    (two : second ∈ p.sessions) (same : first.number = second.number) : first = second :=
  List.inj_on_of_nodup_map orderly.keyed one two same

theorem find_eq (orderly : Orderly p) (mapped : session ∈ p.sessions) :
    p.find session.number = some session := by
  cases found : p.find session.number with
  | none =>
    have missing := List.find?_eq_none.mp found session mapped
    exact absurd (decide_eq_true rfl) missing
  | some other =>
    have number := List.find?_some found
    simp only [decide_eq_true_eq] at number
    rw [keyed_eq orderly (find_mem found) mapped number]

theorem Change.remove (orderly : Orderly p) (here : p.position = .handling session) :
    Change event p
      { p with
        position := .removing session (p.find session.number)
        sessions := p.sessions.filter fun other => other.number ≠ session.number } := by
  refine Change.keep ?_ rfl rfl FdPosition.noConfusion
    (by rw [here]; exact FdPosition.noConfusion) False.elim ?_
  · exact
      { born := rfl, listenFd := rfl, acquired := rfl, sessions := List.filter_sublist
        owners := fun descriptor kept => by
          simp only [mem_owners, FdPosition.stack, List.mem_cons, Option.mem_toList,
            List.mem_filter, here] at kept ⊢
          have found := @find_mem p descriptor session.number
          grind
        alone := fun other made => nomatch made
        start := fun constructed => nomatch constructed
        emptied := fun destroyed => nomatch destroyed }
  · intro descriptor kept
    simp only [mem_owners, FdPosition.stack, List.mem_cons, Option.mem_toList, List.mem_filter,
      here, decide_eq_true_eq] at kept ⊢
    have found := @find_eq p descriptor orderly
    grind

theorem Change.clear (here : p.position = .clearing)
    (mapped : session ∈ p.sessions) :
    Change event p (Process.dropped { p with sessions := p.sessions.filter (· ≠ session) } session) := by
  apply Change.released
  · exact
      { born := rfl, listenFd := rfl, acquired := rfl, sessions := List.filter_sublist
        owners := fun descriptor kept => by
          simp only [mem_owners, List.mem_filter] at kept ⊢
          grind
        alone := fun other made => by
          rw [here] at made
          exact nomatch made
        start := id
        emptied := fun destroyed => by
          rw [here] at destroyed
          exact nomatch destroyed }
  · exact ⟨rfl, rfl, Iff.rfl, id⟩
  · exact mem_owners.mpr (Or.inl mapped)
  · intro descriptor kept
    simp only [mem_owners, List.mem_filter, decide_eq_true_eq] at kept ⊢
    grind

/-- Every step is one of these. -/
theorem step_change (orderly : Orderly p) (stepped : event.step p = some q) :
    Change event p q := by
  cases event with
  | socket number =>
    cases number with
    | none =>
      simp only [FdEvent.step, Option.ite_none_right_eq_some, Option.some.injEq] at stepped
      obtain ⟨here, rfl⟩ := stepped
      apply Change.advance orderly <;> simp [here, FdPosition.stack, making, Failing]
    | some number =>
      simp only [FdEvent.step, Option.ite_none_right_eq_some, Option.some.injEq] at stepped
      obtain ⟨⟨here, free⟩, rfl⟩ := stepped
      exact Change.listened here free
  | bind ok =>
    cases ok with
    | true =>
      simp only [FdEvent.step, Option.ite_none_right_eq_some, Option.some.injEq] at stepped
      obtain ⟨here, rfl⟩ := stepped
      apply Change.advance orderly <;> simp [here, FdPosition.stack, making, Failing]
    | false =>
      simp only [FdEvent.step] at stepped
      split at stepped
      next here listens =>
        cases stepped
        exact Change.listenFailed (Or.inl rfl) listens (Or.inl here)
      next => cases stepped
  | listen ok =>
    cases ok with
    | true =>
      simp only [FdEvent.step, Option.ite_none_right_eq_some, Option.some.injEq] at stepped
      obtain ⟨here, rfl⟩ := stepped
      apply Change.advance orderly <;> simp [here, FdPosition.stack, making, Failing]
    | false =>
      simp only [FdEvent.step] at stepped
      split at stepped
      next here listens =>
        cases stepped
        exact Change.listenFailed (Or.inr rfl) listens (Or.inr here)
      next => cases stepped
  | leaveLoop =>
    simp only [FdEvent.step, Option.ite_none_right_eq_some, Option.some.injEq] at stepped
    obtain ⟨here, rfl⟩ := stepped
    apply Change.advance orderly <;> simp [here, FdPosition.stack, making, Failing]
  | newConnection =>
    simp only [FdEvent.step, Option.ite_none_right_eq_some, Option.some.injEq] at stepped
    obtain ⟨here, rfl⟩ := stepped
    apply Change.advance orderly <;> simp [here, FdPosition.stack, making, Failing]
  | accept number =>
    cases number with
    | none =>
      simp only [FdEvent.step, Option.ite_none_right_eq_some, Option.some.injEq] at stepped
      obtain ⟨here, rfl⟩ := stepped
      apply Change.advance orderly <;> simp [here, FdPosition.stack, making, Failing]
    | some number =>
      simp only [FdEvent.step, Option.ite_none_right_eq_some, Option.some.injEq] at stepped
      obtain ⟨⟨here, free⟩, rfl⟩ := stepped
      exact Change.accepted here free
  | epollAdd ok =>
    cases ok with
    | true =>
      simp only [FdEvent.step] at stepped
      split at stepped
      next session here =>
        cases stepped
        exact Change.stored here
      next => cases stepped
    | false =>
      simp only [FdEvent.step] at stepped
      split at stepped
      next session here =>
        cases stepped
        exact Change.refused rfl here
      next => cases stepped
  | closeRefused =>
    simp only [FdEvent.step] at stepped
    split at stepped
    next session here =>
      cases stepped
      exact Change.addFailed here
    next => cases stepped
  | nextConnection =>
    simp only [FdEvent.step] at stepped
    split at stepped
    next session here =>
      cases stepped
      apply Change.drop orderly <;> simp [here, FdPosition.stack, making, Failing]
    next => cases stepped
  | clientEvent number =>
    simp only [FdEvent.step, Option.ite_none_right_eq_some] at stepped
    obtain ⟨here, stepped⟩ := stepped
    split at stepped
    next =>
      cases stepped
      exact Change.idle orderly
    next session found =>
      cases stepped
      exact Change.handle here found
  | dispatch =>
    simp only [FdEvent.step] at stepped
    split at stepped
    next session here =>
      cases stepped
      apply Change.hold orderly
      · simp [mem_owners, here, FdPosition.stack]
      · simp [here, making]
    next => cases stepped
  | removeClient =>
    simp only [FdEvent.step] at stepped
    split at stepped
    next session here =>
      cases stepped
      exact Change.remove orderly here
    next => cases stepped
  | endRemove =>
    simp only [FdEvent.step] at stepped
    split at stepped
    next session here =>
      cases stepped
      apply Change.advance orderly <;> simp [here, FdPosition.stack, making, Failing]
    next session removed here =>
      cases stepped
      apply Change.drop orderly <;> simp [here, FdPosition.stack, making, Failing]
    next => cases stepped
  | endClientEvent raised =>
    simp only [FdEvent.step] at stepped
    split at stepped
    next session here =>
      cases stepped
      cases raised <;> apply Change.drop orderly <;> simp [here, FdPosition.stack, making, Failing]
    next session here =>
      cases stepped
      apply Change.drop orderly <;> simp [here, FdPosition.stack, making, Failing]
    next => cases stepped
  | hold number =>
    simp only [FdEvent.step] at stepped
    split at stepped
    next =>
      cases stepped
      exact Change.idle orderly
    next session found =>
      cases stepped
      have mapped := find_mem found
      apply Change.hold orderly (mem_owners.mpr (Or.inl mapped))
      intro other made same
      exact (orderly.alone other made).1 (same ▸ mapped)
  | release session =>
    simp only [FdEvent.step, Option.ite_none_right_eq_some, Option.some.injEq] at stepped
    obtain ⟨held, rfl⟩ := stepped
    exact Change.release orderly held
  | destroy =>
    simp only [FdEvent.step, Option.ite_none_right_eq_some, Option.some.injEq] at stepped
    obtain ⟨here, rfl⟩ := stepped
    rcases here with here | here
    · apply Change.advance orderly <;> simp [here, FdPosition.stack, making, Failing]
    · apply Change.advance orderly <;> simp [here, FdPosition.stack, making, Failing]
  | clear session =>
    simp only [FdEvent.step, Option.ite_none_right_eq_some, Option.some.injEq] at stepped
    obtain ⟨⟨here, mapped⟩, rfl⟩ := stepped
    exact Change.clear here mapped
  | closeListen =>
    simp only [FdEvent.step, Option.ite_none_right_eq_some] at stepped
    obtain ⟨⟨here, cleared⟩, stepped⟩ := stepped
    split at stepped
    next unused =>
      cases stepped
      exact Change.endedEarly unused here cleared
    next listenFd listens =>
      cases stepped
      exact Change.ended listens here cleared
  | openOther number =>
    simp only [FdEvent.step, Option.ite_none_right_eq_some, Option.some.injEq] at stepped
    obtain ⟨free, rfl⟩ := stepped
    exact Change.otherOpened free
  | closeOther number =>
    simp only [FdEvent.step] at stepped
    split at stepped
    next => cases stepped
    next file found =>
      simp only [Option.ite_none_right_eq_some, Option.some.injEq] at stepped
      obtain ⟨other, rfl⟩ := stepped
      exact Change.otherClosed found other

end LinuxChat.Guarantees.DescriptorOwnership
