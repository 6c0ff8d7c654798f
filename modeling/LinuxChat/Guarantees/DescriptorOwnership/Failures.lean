import LinuxChat.Guarantees.DescriptorOwnership.Sound

/-!
# Runs with a failure

A failed `bind`, `listen` or `epoll_ctl` closes a descriptor and leaves its number where the
regular close finds it. From then on the second close is due in every run: it has happened,
or the state still leads to it.
-/

namespace LinuxChat.Guarantees.DescriptorOwnership

open LinuxChat.Source

variable {event : FdEvent} {p q : Process} {descriptor session : Descriptor} {number : Nat}

/-- The calls of `close` so far stay. -/
def Grows (p q : Process) : Prop := ∃ more, q.closings = p.closings ++ more

theorem Grows.refl (p : Process) : Grows p p := ⟨[], (List.append_nil _).symm⟩

theorem Grows.trans {r : Process} (first : Grows p q) (second : Grows q r) : Grows p r := by
  obtain ⟨more, same⟩ := first
  obtain ⟨rest, same'⟩ := second
  exact ⟨more ++ rest, by rw [same', same, List.append_assoc]⟩

theorem Grows.of_eq (same : q.closings = p.closings) : Grows p q := ⟨[], by rw [same, List.append_nil]⟩

theorem Grows.close (p : Process) (session : Descriptor) : Grows p (p.close session) := ⟨_, rfl⟩

theorem Grows.dropped (p : Process) (session : Descriptor) : Grows p (p.dropped session) := by
  rcases dropped_eq p session with same | ⟨same, _⟩
  · rw [same]
    exact Grows.refl p
  · rw [same]
    exact Grows.close p session

theorem Grows.foldl (sessions : List Descriptor) (p : Process) :
    Grows p (sessions.foldl Process.dropped p) := by
  induction sessions generalizing p with
  | nil => exact Grows.refl p
  | cons session rest ih => exact (Grows.dropped p session).trans (ih _)

theorem Grows.count_le (grows : Grows p q) (descriptor : Descriptor) :
    (closedFds p).count descriptor ≤ (closedFds q).count descriptor := by
  obtain ⟨more, same⟩ := grows
  simp only [closedFds, same, List.map_append, List.count_append]
  omega

theorem Grows.mem (grows : Grows p q) (closed : descriptor ∈ closedFds p) :
    descriptor ∈ closedFds q := by
  obtain ⟨more, same⟩ := grows
  simp only [closedFds, same, List.map_append, List.mem_append]
  exact Or.inl closed

theorem close_again (closed : descriptor ∈ closedFds p) :
    2 ≤ (closedFds (p.close descriptor)).count descriptor := by
  have once := List.count_pos_iff.mpr closed
  simp only [closedFds, Process.close, List.map_append, List.map_cons, List.map_nil,
    List.count_append, List.count_singleton_self] at once ⊢
  omega

theorem Change.grows (change : Change event p q) : Grows p q := by
  cases change with
  | moved moves files kept => exact Grows.of_eq files.closings
  | released moves files owned kept =>
    exact (Grows.of_eq files.closings).trans (Grows.dropped _ _)
  | stored made => exact Grows.foldl _ _
  | listenFailed failed listens before => exact ⟨_, rfl⟩
  | addFailed refused => exact ⟨_, rfl⟩
  | ended listens clearing cleared => exact ⟨_, rfl⟩
  | _ => exact Grows.of_eq rfl

@[simp] theorem dropped_position (p : Process) (session : Descriptor) :
    (p.dropped session).position = p.position := by
  rcases dropped_eq p session with same | ⟨same, _⟩ <;> rw [same]; rfl

@[simp] theorem dropped_listenFd (p : Process) (session : Descriptor) :
    (p.dropped session).listenFd = p.listenFd := by
  rcases dropped_eq p session with same | ⟨same, _⟩ <;> rw [same]; rfl

@[simp] theorem dropped_acquired (p : Process) (session : Descriptor) :
    (p.dropped session).acquired = p.acquired := by
  rcases dropped_eq p session with same | ⟨same, _⟩ <;> rw [same]; rfl

theorem foldl_dropped_kept (sessions : List Descriptor) (p : Process) :
    (sessions.foldl Process.dropped p).position = p.position ∧
      (sessions.foldl Process.dropped p).listenFd = p.listenFd ∧
      (sessions.foldl Process.dropped p).acquired = p.acquired := by
  induction sessions generalizing p with
  | nil => exact ⟨rfl, rfl, rfl⟩
  | cons session rest ih =>
    have later := ih (p.dropped session)
    simp only [dropped_position, dropped_listenFd, dropped_acquired] at later
    exact later

theorem Change.acquired (change : Change event p q) (known : descriptor ∈ p.acquired) :
    descriptor ∈ q.acquired := by
  cases change with
  | moved moves files kept =>
    rw [moves.acquired]
    exact known
  | released moves files owned kept =>
    rw [dropped_acquired, moves.acquired]
    exact known
  | stored made =>
    rw [Process.store, (foldl_dropped_kept _ _).2.2]
    exact known
  | listened constructed free => exact List.mem_append_left _ known
  | accepted accepting free => exact List.mem_append_left _ known
  | _ => exact known

/-- A descriptor is closed twice, or it will be before the server is gone. -/
inductive Doomed (p : Process) : Prop
  | twice {descriptor : Descriptor} (known : descriptor ∈ p.acquired)
      (again : 2 ≤ (closedFds p).count descriptor)
  | refused {session : Descriptor} (here : p.position = .refused session)
  | abandoned {session : Descriptor} (here : p.position = .abandoned session)
      (closed : session ∈ closedFds p)
  | listens {descriptor : Descriptor} (listens : p.listenFd = some descriptor)
      (live : p.position ≠ .destroyed) (closed : descriptor ∈ closedFds p)

/-- The listening socket is closed already; the destructor closes it again. -/
theorem Change.listening (change : Change event p q) (orderly : Orderly p)
    (listens : p.listenFd = some descriptor) (live : p.position ≠ .destroyed)
    (closed : descriptor ∈ closedFds p) : Doomed q := by
  have still := change.grows.mem closed
  cases change with
  | moved moves files kept =>
    exact .listens (moves.listenFd.trans listens) (fun ends => live (files.destroyed.mp ends)) still
  | released moves files owned kept =>
    apply Doomed.listens ((dropped_listenFd _ _).trans (moves.listenFd.trans listens)) _ still
    rw [dropped_position]
    exact fun ends => live (files.destroyed.mp ends)
  | @stored session made =>
    obtain ⟨position, listenFd, _⟩ := foldl_dropped_kept
      (p.sessions.filter fun other => other.number = session.number)
      (DescriptorOwnership.stored p session)
    exact .listens (listenFd.trans listens) (fun ends => nomatch position.symm.trans ends) still
  | listened constructed free =>
    rw [orderly.start constructed] at listens
    exact nomatch listens
  | accepted accepting free => exact .listens listens FdPosition.noConfusion still
  | listenFailed failed listens' before => exact .listens listens FdPosition.noConfusion still
  | refused failed made => exact .listens listens FdPosition.noConfusion still
  | addFailed refused => exact .listens listens FdPosition.noConfusion still
  | ended listens' clearing cleared =>
    cases Option.some.inj (listens.symm.trans listens')
    exact .twice (orderly.listens _ listens) (close_again (p := { p with position := _ }) closed)
  | endedEarly unset clearing cleared =>
    rw [unset] at listens
    exact nomatch listens
  | otherOpened free => exact .listens listens live still
  | otherClosed found other => exact .listens listens live still

/-- A refused connection is dealt with before the loop goes on; other threads do. -/
theorem failing_step {position : FdPosition} (here : p.position = position)
    (failing : (∃ session, position = .refused session) ∨ ∃ session, position = .abandoned session)
    (stepped : event.step p = some q) :
    q.position = position ∨ event = .closeRefused ∨ event = .nextConnection := by
  cases event with
  | closeRefused => exact Or.inr (Or.inl rfl)
  | nextConnection => exact Or.inr (Or.inr rfl)
  | hold number =>
    apply Or.inl
    simp only [FdEvent.step] at stepped
    split at stepped
    · cases stepped
      exact here
    · cases stepped
      exact here
  | release session =>
    apply Or.inl
    simp only [FdEvent.step, Option.ite_none_right_eq_some, Option.some.injEq] at stepped
    obtain ⟨_, rfl⟩ := stepped
    exact (dropped_position _ _).trans here
  | openOther number =>
    apply Or.inl
    simp only [FdEvent.step, Option.ite_none_right_eq_some, Option.some.injEq] at stepped
    obtain ⟨_, rfl⟩ := stepped
    exact here
  | closeOther number =>
    apply Or.inl
    simp only [FdEvent.step] at stepped
    split at stepped
    · cases stepped
    · simp only [Option.ite_none_right_eq_some, Option.some.injEq] at stepped
      obtain ⟨_, rfl⟩ := stepped
      exact here
  | socket number =>
    rcases failing with ⟨session, rfl⟩ | ⟨session, rfl⟩ <;> cases number <;>
      simp [FdEvent.step, here] at stepped
  | accept number =>
    rcases failing with ⟨session, rfl⟩ | ⟨session, rfl⟩ <;> cases number <;>
      simp [FdEvent.step, here] at stepped
  | bind ok =>
    rcases failing with ⟨session, rfl⟩ | ⟨session, rfl⟩ <;> cases ok <;>
      simp [FdEvent.step, here] at stepped
  | listen ok =>
    rcases failing with ⟨session, rfl⟩ | ⟨session, rfl⟩ <;> cases ok <;>
      simp [FdEvent.step, here] at stepped
  | epollAdd ok =>
    rcases failing with ⟨session, rfl⟩ | ⟨session, rfl⟩ <;> cases ok <;>
      simp [FdEvent.step, here] at stepped
  | _ =>
    rcases failing with ⟨session, rfl⟩ | ⟨session, rfl⟩ <;> simp [FdEvent.step, here] at stepped

/-- The second close of a refused connection. -/
theorem dropped_refused (orderly : Orderly p) (here : p.position = .abandoned session)
    (closed : session ∈ closedFds p) :
    2 ≤ (closedFds (Process.dropped { p with position := .accepting } session)).count session := by
  obtain ⟨unmapped, unheld⟩ := orderly.alone session (by rw [here]; rfl)
  have unowned : session ∉ Process.owners { p with position := .accepting } := by
    simp [mem_owners, FdPosition.stack, unmapped, unheld]
  have last : Process.dropped { p with position := .accepting } session =
      Process.close { p with position := .accepting } session := if_neg unowned
  rw [last]
  exact close_again (p := { p with position := .accepting }) closed

theorem Doomed.step (doomed : Doomed p) (orderly : Orderly p) (stepped : event.step p = some q) :
    Doomed q := by
  have change := step_change orderly stepped
  cases doomed with
  | twice known again =>
    exact .twice (change.acquired known) (Nat.le_trans again (change.grows.count_le _))
  | @refused session here =>
    rcases failing_step here (Or.inl ⟨session, rfl⟩) stepped with still | rfl | rfl
    · exact .refused still
    · simp only [FdEvent.step, here, Option.some.injEq] at stepped
      cases stepped
      apply Doomed.abandoned rfl
      simp [closedFds, Process.close]
    · simp [FdEvent.step, here] at stepped
  | @abandoned session here closed =>
    rcases failing_step here (Or.inr ⟨session, rfl⟩) stepped with still | rfl | rfl
    · exact .abandoned still (change.grows.mem closed)
    · simp [FdEvent.step, here] at stepped
    · have known : session ∈ p.acquired := by
        apply orderly.known
        simp [mem_owners, here, FdPosition.stack]
      have again := dropped_refused orderly here closed
      simp only [FdEvent.step, here, Option.some.injEq] at stepped
      cases stepped
      exact .twice (change.acquired known) again
  | listens listens live closed => exact change.listening orderly listens live closed

/-- A failure dooms a descriptor. -/
theorem failure_dooms (fails : ¬ Succeeds event) (stepped : event.step p = some q) : Doomed q := by
  by_cases bind : event = .bind false
  · subst bind
    simp only [FdEvent.step] at stepped
    split at stepped
    next here listens =>
      cases stepped
      refine .listens listens FdPosition.noConfusion ?_
      simp [closedFds, Process.close]
    next => cases stepped
  · by_cases listen : event = .listen false
    · subst listen
      simp only [FdEvent.step] at stepped
      split at stepped
      next here listens =>
        cases stepped
        refine .listens listens FdPosition.noConfusion ?_
        simp [closedFds, Process.close]
      next => cases stepped
    · by_cases add : event = .epollAdd false
      · subst add
        simp only [FdEvent.step] at stepped
        split at stepped
        next session here =>
          cases stepped
          exact .refused rfl
        next => cases stepped
      · exact absurd ⟨bind, listen, add⟩ fails

theorem Doomed.complete (doomed : Doomed p) (complete : Complete p) : ¬ ClosedOnce p := by
  intro closedOnce
  cases doomed with
  | twice known again =>
    have once := closedOnce.all _ known
    omega
  | refused here => exact nomatch complete.1.symm.trans here
  | abandoned here closed => exact nomatch complete.1.symm.trans here
  | listens listens live closed => exact live complete.1

theorem Sound.complete (sound : Sound p) (orderly : Orderly p) (complete : Complete p) :
    ClosedOnce p := by
  refine ⟨sound.proper, ?_⟩
  intro descriptor known
  apply List.count_eq_one_of_mem sound.proper.once
  apply (sound.settled descriptor known).resolve_left
  have unmapped := orderly.emptied complete.1
  rintro (owned | ⟨live, _⟩)
  · simp [mem_owners, unmapped, complete.1, complete.2, FdPosition.stack] at owned
  · exact live complete.1

end LinuxChat.Guarantees.DescriptorOwnership
