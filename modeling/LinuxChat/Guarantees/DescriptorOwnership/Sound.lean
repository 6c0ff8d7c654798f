import LinuxChat.Guarantees.DescriptorOwnership.Steps

/-!
# Runs without a failure

Order among the references is kept by every change. Where `bind`, `listen` and `epoll_ctl`
succeed, a descriptor in use is also open under its number and was never closed, and every
other descriptor that the server got has been closed.
-/

namespace LinuxChat.Guarantees.DescriptorOwnership

open LinuxChat.Source

variable {event : FdEvent} {p q : Process} {descriptor session : Descriptor} {number : Nat}

/-! ## Order -/

/-- `sessions_` with the session in place of any other of its number. -/
def stored (p : Process) (session : Descriptor) : Process :=
  { p with
    position := .accepting
    sessions := (p.sessions.filter fun other => other.number ≠ session.number) ++ [session] }

theorem mem_stored_owners (made : p.position = .registering session)
    (owned : descriptor ∈ (stored p session).owners) : descriptor ∈ p.owners := by
  simp only [mem_owners, stored, FdPosition.stack, List.mem_append, List.mem_filter,
    List.mem_singleton, made] at owned ⊢
  grind

theorem Orderly.stored (orderly : Orderly p) (made : p.position = .registering session) :
    Orderly (stored p session) where
  known descriptor owned := orderly.known descriptor (mem_stored_owners made owned)
  listens := orderly.listens
  apart descriptor listens owned := orderly.apart descriptor listens (mem_stored_owners made owned)
  fresh := orderly.fresh
  alone other making_ := nomatch making_
  keyed := by
    have others := orderly.keyed.sublist
      ((List.filter_sublist (p := fun other => decide (other.number ≠ session.number))).map
        Descriptor.number)
    simp only [DescriptorOwnership.stored, List.map_append, List.map_cons, List.map_nil]
    apply List.Nodup.append others (List.nodup_singleton _)
    intro number among is
    obtain ⟨other, kept, rfl⟩ := List.mem_map.mp among
    have differs := (List.mem_filter.mp kept).2
    exact absurd (List.mem_singleton.mp is) (of_decide_eq_true differs)
  start constructed := nomatch constructed
  emptied destroyed := nomatch destroyed

theorem Orderly.fresh_opened (orderly : Orderly p) (number : Nat) :
    ∀ descriptor ∈ (p.opened number).acquired, descriptor.file < p.born + 1 := by
  intro descriptor known
  rcases List.mem_append.mp known with old | new
  · exact Nat.lt_succ_of_lt (orderly.fresh descriptor old)
  · cases List.mem_singleton.mp new
    exact Nat.lt_succ_self _

theorem Orderly.foldl_dropped (sessions : List Descriptor) (orderly : Orderly p) :
    Orderly (sessions.foldl Process.dropped p) := by
  induction sessions generalizing p with
  | nil => exact orderly
  | cons session rest ih => exact ih (orderly.dropped session)

theorem Change.orderly (change : Change event p q) (orderly : Orderly p) : Orderly q := by
  cases change with
  | moved moves files kept => exact orderly.moves moves
  | released moves files owned kept => exact (orderly.moves moves).dropped _
  | stored made => exact (orderly.stored made).foldl_dropped _
  | @listened number constructed free =>
    have owners : ∀ descriptor, descriptor ∈ Process.owners
        { p.opened number with listenFd := some ⟨number, p.born⟩, position := .binding } →
        descriptor ∈ p.owners := by
      intro descriptor owned
      simp only [mem_owners, FdPosition.stack, constructed] at owned ⊢
      exact owned
    exact
      { known := fun descriptor owned =>
          List.mem_append_left _ (orderly.known descriptor (owners descriptor owned))
        listens := fun descriptor listens =>
          List.mem_append_right _ (List.mem_singleton.mpr (Option.some.inj listens).symm)
        apart := fun descriptor listens owned => by
          have old := orderly.fresh descriptor (orderly.known descriptor (owners descriptor owned))
          cases Option.some.inj listens
          exact absurd old (Nat.lt_irrefl _)
        fresh := orderly.fresh_opened number
        alone := fun session made => by cases made
        keyed := orderly.keyed
        start := fun constructed => by cases constructed
        emptied := fun destroyed => by cases destroyed }
  | @accepted number accepting free =>
    have owners : ∀ descriptor, descriptor ∈ Process.owners
        { p.opened number with position := .registering ⟨number, p.born⟩ } →
        descriptor ∈ p.owners ∨ descriptor = ⟨number, p.born⟩ := by
      intro descriptor owned
      simp only [mem_owners, FdPosition.stack, accepting, List.mem_singleton] at owned ⊢
      rcases owned with mapped | made | held
      · exact Or.inl (Or.inl mapped)
      · exact Or.inr made
      · exact Or.inl (Or.inr (Or.inr held))
    have unknown : (⟨number, p.born⟩ : Descriptor) ∉ p.acquired := fun known =>
      absurd (orderly.fresh _ known) (Nat.lt_irrefl _)
    exact
      { known := fun descriptor owned =>
          (owners descriptor owned).elim
            (fun old => List.mem_append_left _ (orderly.known descriptor old))
            (fun new => List.mem_append_right _ (List.mem_singleton.mpr new))
        listens := fun descriptor listens =>
          List.mem_append_left _ (orderly.listens descriptor listens)
        apart := fun descriptor listens owned => by
          rcases owners descriptor owned with old | rfl
          · exact orderly.apart descriptor listens old
          · exact unknown (orderly.listens _ listens)
        fresh := orderly.fresh_opened number
        alone := fun session made => by
          cases Option.some.inj made
          exact ⟨fun mapped => unknown (orderly.known _ (mem_owners.mpr (Or.inl mapped))),
            fun held => unknown (orderly.known _ (mem_owners.mpr (Or.inr (Or.inr held))))⟩
        keyed := orderly.keyed
        start := fun constructed => by cases constructed
        emptied := fun destroyed => by cases destroyed }
  | listenFailed failed listens before =>
    apply Orderly.close
    apply orderly.moves
    apply Moves.position orderly <;> simp [FdPosition.stack, making]
  | refused failed made =>
    apply orderly.moves
    apply Moves.position orderly <;> simp [FdPosition.stack, making, made]
  | addFailed refused =>
    apply Orderly.close
    apply orderly.moves
    apply Moves.position orderly <;> simp [FdPosition.stack, making, refused]
  | ended listens clearing cleared =>
    apply Orderly.close
    apply orderly.moves
    apply Moves.position orderly <;> simp [FdPosition.stack, making, cleared]
  | endedEarly listens clearing cleared =>
    apply orderly.moves
    apply Moves.position orderly <;> simp [FdPosition.stack, making, cleared]
  | otherOpened free =>
    exact ⟨orderly.known, orderly.listens, orderly.apart,
      fun descriptor known => Nat.lt_succ_of_lt (orderly.fresh descriptor known), orderly.alone,
      orderly.keyed, orderly.start, orderly.emptied⟩
  | otherClosed found other =>
    exact ⟨orderly.known, orderly.listens, orderly.apart, orderly.fresh, orderly.alone,
      orderly.keyed, orderly.start, orderly.emptied⟩

/-! ## Descriptors in use -/

/-- In use: by a session somebody refers to, or by the server itself. -/
def Live (p : Process) (descriptor : Descriptor) : Prop :=
  descriptor ∈ p.owners ∨ (p.position ≠ .destroyed ∧ p.listenFd = some descriptor)

/-- The invariant of runs without such a failure: a descriptor in use is open under its number and
was never closed, and every other one that the server got has been closed. -/
structure Sound (p : Process) : Prop where
  isOpen : ∀ descriptor, Live p descriptor → p.table descriptor.number = some descriptor.file
  unclosed : ∀ descriptor, Live p descriptor → descriptor ∉ closedFds p
  settled : ∀ descriptor ∈ p.acquired, Live p descriptor ∨ descriptor ∈ closedFds p
  past : ∀ descriptor ∈ closedFds p, descriptor ∈ p.acquired
  below : ∀ number file, p.table number = some file → file < p.born
  proper : Proper p
  calm : ¬ Failing p.position

theorem Orderly.live_acquired (orderly : Orderly p) (live : Live p descriptor) :
    descriptor ∈ p.acquired := by
  rcases live with owned | ⟨_, listens⟩
  · exact orderly.known descriptor owned
  · exact orderly.listens descriptor listens

theorem Sound.same_number (sound : Sound p) (one : Live p descriptor) (two : Live p session)
    (same : descriptor.number = session.number) : descriptor = session := by
  have first := sound.isOpen descriptor one
  have second := sound.isOpen session two
  rw [same, second] at first
  cases descriptor
  cases session
  cases same
  cases first
  rfl

theorem Sound.keep (sound : Sound p) (table : q.table = p.table) (born : q.born = p.born)
    (acquired : q.acquired = p.acquired) (closings : q.closings = p.closings)
    (live : ∀ descriptor, Live q descriptor ↔ Live p descriptor) (calm : ¬ Failing q.position) :
    Sound q := by
  have closed : closedFds q = closedFds p := congrArg (List.map Closing.descriptor) closings
  constructor
  · intro descriptor inUse
    rw [table]
    exact sound.isOpen descriptor ((live descriptor).mp inUse)
  · intro descriptor inUse
    rw [closed]
    exact sound.unclosed descriptor ((live descriptor).mp inUse)
  · intro descriptor known
    rw [closed, live]
    exact sound.settled descriptor (acquired ▸ known)
  · intro descriptor past
    rw [acquired]
    exact sound.past descriptor (closed ▸ past)
  · intro number file
    rw [table, born]
    exact sound.below number file
  · obtain ⟨hit, unowned, once⟩ := sound.proper
    constructor
    · rw [closings]
      exact hit
    · rw [closings]
      exact unowned
    · rw [closed]
      exact once
  · exact calm

/-- The last user of a descriptor closes it. -/
theorem Sound.close (sound : Sound p) (orderly : Orderly p) (table : q.table = p.table)
    (born : q.born = p.born) (acquired : q.acquired = p.acquired)
    (closings : q.closings = p.closings) (was : Live p session) (gone : session ∉ q.owners)
    (live : ∀ descriptor, Live q descriptor ↔ Live p descriptor ∧ descriptor ≠ session)
    (calm : ¬ Failing q.position) : Sound (q.close session) := by
  have closed : closedFds (q.close session) = closedFds p ++ [session] := by
    simp only [closedFds, Process.close, List.map_append, closings, List.map_cons, List.map_nil]
  have found : q.table session.number = some session.file := by
    rw [table]
    exact sound.isOpen session was
  obtain ⟨hit, unowned, once⟩ := sound.proper
  constructor
  · intro descriptor inUse
    obtain ⟨before, differs⟩ := (live descriptor).mp inUse
    have number : descriptor.number ≠ session.number := fun same =>
      differs (sound.same_number before was same)
    simp only [Process.close, Function.update_of_ne number, table]
    exact sound.isOpen descriptor before
  · intro descriptor inUse
    obtain ⟨before, differs⟩ := (live descriptor).mp inUse
    rw [closed]
    intro among
    rcases List.mem_append.mp among with past | now
    · exact sound.unclosed descriptor before past
    · exact differs (List.mem_singleton.mp now)
  · intro descriptor known
    rw [closed]
    by_cases same : descriptor = session
    · exact Or.inr (List.mem_append_right _ (List.mem_singleton.mpr same))
    · rcases sound.settled descriptor (acquired ▸ known) with before | past
      · exact Or.inl ((live descriptor).mpr ⟨before, same⟩)
      · exact Or.inr (List.mem_append_left _ past)
  · intro descriptor among
    change descriptor ∈ q.acquired
    rw [acquired]
    rw [closed] at among
    rcases List.mem_append.mp among with past | now
    · exact sound.past descriptor past
    · cases List.mem_singleton.mp now
      exact orderly.live_acquired was
  · intro number file there
    change file < q.born
    rw [born]
    by_cases same : number = session.number
    · simp [Process.close, same] at there
    · simp only [Process.close, Function.update_of_ne same, table] at there
      exact sound.below number file there
  · constructor
    · intro closing among
      simp only [Process.close, closings] at among
      rcases List.mem_append.mp among with past | now
      · exact hit closing past
      · cases List.mem_singleton.mp now
        exact found
    · intro closing among
      simp only [Process.close, closings] at among
      rcases List.mem_append.mp among with past | now
      · exact unowned closing past
      · cases List.mem_singleton.mp now
        exact decide_eq_false gone
    · rw [closed]
      apply List.Nodup.append once (List.nodup_singleton _)
      intro descriptor past now
      cases List.mem_singleton.mp now
      exact sound.unclosed session was past
  · exact calm

/-- A new descriptor comes into use. -/
theorem Sound.opened (sound : Sound p) (orderly : Orderly p) (free : p.table number = none)
    (table : q.table = (p.opened number).table) (born : q.born = p.born + 1)
    (acquired : q.acquired = (p.opened number).acquired) (closings : q.closings = p.closings)
    (live : ∀ descriptor, Live q descriptor ↔ Live p descriptor ∨ descriptor = ⟨number, p.born⟩)
    (calm : ¬ Failing q.position) : Sound q := by
  have closed : closedFds q = closedFds p := congrArg (List.map Closing.descriptor) closings
  obtain ⟨hit, unowned, once⟩ := sound.proper
  constructor
  · intro descriptor inUse
    rw [table]
    rcases (live descriptor).mp inUse with before | rfl
    · have there := sound.isOpen descriptor before
      have differs : descriptor.number ≠ number := by
        intro same
        rw [same, free] at there
        exact nomatch there
      simp only [Process.opened, Function.update_of_ne differs]
      exact there
    · simp [Process.opened]
  · intro descriptor inUse
    rw [closed]
    rcases (live descriptor).mp inUse with before | rfl
    · exact sound.unclosed descriptor before
    · intro past
      have old := orderly.fresh _ (sound.past _ past)
      exact absurd old (Nat.lt_irrefl _)
  · intro descriptor known
    rw [closed, live]
    rw [acquired] at known
    rcases List.mem_append.mp known with old | new
    · rcases sound.settled descriptor old with before | past
      · exact Or.inl (Or.inl before)
      · exact Or.inr past
    · exact Or.inl (Or.inr (List.mem_singleton.mp new))
  · intro descriptor past
    rw [acquired]
    exact List.mem_append_left _ (sound.past descriptor (closed ▸ past))
  · intro other file there
    rw [born]
    rw [table] at there
    by_cases same : other = number
    · simp only [Process.opened, same, Function.update_self, Option.some.injEq] at there
      omega
    · simp only [Process.opened, Function.update_of_ne same] at there
      exact Nat.lt_succ_of_lt (sound.below other file there)
  · constructor
    · rw [closings]
      exact hit
    · rw [closings]
      exact unowned
    · rw [closed]
      exact once
  · exact calm

/-- Under the number of a new connection there is no other session. -/
theorem Sound.store_eq (sound : Sound p) (orderly : Orderly p)
    (made : p.position = .registering session) : p.store session = stored p session := by
  have replaced : (p.sessions.filter fun other => other.number = session.number) = [] := by
    rw [List.filter_eq_nil_iff]
    intro other mapped same
    have one : Live p other := Or.inl (mem_owners.mpr (Or.inl mapped))
    have two : Live p session := by
      apply Or.inl
      simp [mem_owners, made, FdPosition.stack]
    have equal := sound.same_number one two (of_decide_eq_true same)
    apply (orderly.alone session (by rw [made]; rfl)).1
    rw [← equal]
    exact mapped
  unfold Process.store
  rw [replaced]
  rfl

theorem mem_stored_owners_iff (sound : Sound p)
    (made : p.position = .registering session) :
    descriptor ∈ (stored p session).owners ↔ descriptor ∈ p.owners := by
  constructor
  · exact mem_stored_owners made
  · intro owned
    by_cases same : descriptor = session
    · apply mem_owners.mpr
      apply Or.inl
      exact List.mem_append_right _ (List.mem_singleton.mpr same)
    · have inUse : Live p session := by
        apply Or.inl
        simp [mem_owners, made, FdPosition.stack]
      have differs : descriptor.number ≠ session.number := fun number =>
        same (sound.same_number (Or.inl owned) inUse number)
      simp only [mem_owners, stored, FdPosition.stack, List.mem_append, List.mem_filter,
        List.mem_singleton, made, decide_eq_true_eq] at owned ⊢
      grind

theorem live_iff (owners : descriptor ∈ q.owners ↔ descriptor ∈ p.owners)
    (destroyed : q.position = .destroyed ↔ p.position = .destroyed)
    (listenFd : q.listenFd = p.listenFd) : Live q descriptor ↔ Live p descriptor := by
  unfold Live
  rw [owners, listenFd, ne_eq, ne_eq, destroyed]

theorem Sound.released {session : Descriptor} (sound : Sound p) (orderly : Orderly p)
    (moves : Moves p q) (files : SameFiles p q) (owned : session ∈ p.owners)
    (kept : ∀ descriptor ∈ p.owners, descriptor ∈ q.owners ∨ descriptor = session) :
    Sound (q.dropped session) := by
  have calm : ¬ Failing q.position := fun failing => sound.calm (files.calm failing)
  by_cases stays : session ∈ q.owners
  · have same : q.dropped session = q := if_pos stays
    rw [same]
    apply sound.keep files.table moves.born moves.acquired files.closings _ calm
    intro descriptor
    refine live_iff ⟨moves.owners descriptor, fun before => ?_⟩ files.destroyed moves.listenFd
    rcases kept descriptor before with there | rfl
    · exact there
    · exact stays
  · have closed : q.dropped session = q.close session := if_neg stays
    rw [closed]
    apply sound.close orderly files.table moves.born moves.acquired files.closings (Or.inl owned)
      stays _ calm
    intro descriptor
    unfold Live
    rw [moves.listenFd, ne_eq, files.destroyed]
    constructor
    · rintro (there | listens)
      · refine ⟨Or.inl (moves.owners descriptor there), ?_⟩
        rintro rfl
        exact stays there
      · refine ⟨Or.inr listens, ?_⟩
        rintro rfl
        exact orderly.apart descriptor listens.2 owned
    · rintro ⟨before | listens, differs⟩
      · exact Or.inl ((kept descriptor before).resolve_right differs)
      · exact Or.inr listens

theorem Change.sound (change : Change event p q) (orderly : Orderly p) (sound : Sound p)
    (succeeds : Succeeds event) : Sound q := by
  cases change with
  | moved moves files kept =>
    apply sound.keep files.table moves.born moves.acquired files.closings
    · intro descriptor
      exact live_iff ⟨moves.owners descriptor, kept descriptor⟩ files.destroyed moves.listenFd
    · exact fun failing => sound.calm (files.calm failing)
  | released moves files owned kept => exact sound.released orderly moves files owned kept
  | @stored session made =>
    rw [sound.store_eq orderly made]
    refine sound.keep rfl rfl rfl rfl ?_ ?_
    · intro descriptor
      apply live_iff (mem_stored_owners_iff sound made)
      · simp [DescriptorOwnership.stored, made]
      · rfl
    · exact id
  | listened constructed free =>
    refine sound.opened orderly free rfl rfl rfl rfl ?_ ?_
    · intro descriptor
      have unset := orderly.start constructed
      simp only [Live, mem_owners, FdPosition.stack, constructed, unset, Process.opened]
      grind
    · exact id
  | accepted accepting free =>
    refine sound.opened orderly free rfl rfl rfl rfl ?_ ?_
    · intro descriptor
      simp only [Live, mem_owners, FdPosition.stack, accepting, Process.opened]
      grind
    · exact id
  | listenFailed failed listens before =>
    rcases failed with bind | listen
    · exact absurd bind succeeds.1
    · exact absurd listen succeeds.2.1
  | refused failed made => exact absurd failed succeeds.2.2
  | addFailed refused =>
    apply absurd _ sound.calm
    rw [refused]
    trivial
  | ended listens clearing cleared =>
    have apart := orderly.apart _ listens
    refine sound.close orderly rfl rfl rfl rfl ?_ ?_ ?_ ?_
    · exact Or.inr ⟨by rw [clearing]; exact FdPosition.noConfusion, listens⟩
    · simp only [mem_owners, FdPosition.stack, clearing] at apart ⊢
      exact apart
    · intro descriptor
      simp only [Live, mem_owners, FdPosition.stack, clearing, listens] at apart ⊢
      grind
    · exact id
  | endedEarly listens clearing cleared =>
    refine sound.keep rfl rfl rfl rfl ?_ ?_
    · intro descriptor
      simp only [Live, mem_owners, FdPosition.stack, clearing, listens]
      grind
    · exact id
  | @otherOpened number free =>
    obtain ⟨isOpen, unclosed, settled, past, below, proper, calm⟩ := sound
    refine ⟨?_, unclosed, settled, past, ?_, ⟨proper.hit, proper.unowned, proper.once⟩, calm⟩
    · intro descriptor inUse
      have there := isOpen descriptor inUse
      have differs : descriptor.number ≠ number := by
        intro same
        rw [same, free] at there
        cases there
      simp only [Function.update_of_ne differs]
      exact there
    · intro other file there
      by_cases same : other = number
      · simp only [same, Function.update_self, Option.some.injEq] at there
        change file < p.born + 1
        omega
      · simp only [Function.update_of_ne same] at there
        exact Nat.lt_succ_of_lt (below other file there)
  | @otherClosed number file found other =>
    obtain ⟨isOpen, unclosed, settled, past, below, proper, calm⟩ := sound
    refine ⟨?_, unclosed, settled, past, ?_, ⟨proper.hit, proper.unowned, proper.once⟩, calm⟩
    · intro descriptor inUse
      have there := isOpen descriptor inUse
      have differs : descriptor.number ≠ number := by
        intro same
        rw [same, found] at there
        exact other descriptor (orderly.live_acquired inUse) (Option.some.inj there).symm
      simp only [Function.update_of_ne differs]
      exact there
    · intro place other_ there
      by_cases same : place = number
      · simp [same] at there
      · simp only [Function.update_of_ne same] at there
        exact below place other_ there

end LinuxChat.Guarantees.DescriptorOwnership
