import LinuxChat.Guarantees.Lockout.Cleanup

/-!
# Every step keeps the reserved names covered

One lemma for each action that reserves a name, takes one out, or touches the pending name or
the table of sessions; the other actions keep all that the invariant speaks of.
-/

namespace LinuxChat.Guarantees.Lockout

open LinuxChat.Lib LinuxChat.Source Prog

section
variable {workers t : Nat} {s : Watched} {action : Act} (w : World)

/-- The state after an action of thread `t`. -/
abbrev next (workers t : Nat) (w : World) (action : Act) (s : Watched) : Watched :=
  ((watched workers).exec t w action s).2

theorem next_core : coreOf (next workers t w action s).1 = (coreOf s.1).step t w.dbOk action :=
  coreOf_exec t w action s.1

theorem next_cleanup :
    (next workers t w action s).2 =
      if t = 0 then s.2.follow action (action.exec w s.1.server).1 else s.2 := rfl

theorem next_table :
    (next workers t w action s).1.server.sessions = ((coreOf s.1).step t w.dbOk action).table :=
  congrArg Core.table (next_core w)

theorem next_reservedBy :
    (next workers t w action s).1.aux.reservedBy = ((coreOf s.1).step t w.dbOk action).reservedBy :=
  congrArg Core.reservedBy (next_core w)

theorem next_inProgress :
    (next workers t w action s).1.server.loginInProgress =
      ((coreOf s.1).step t w.dbOk action).inProgress :=
  congrArg Core.inProgress (next_core w)

theorem next_pending (id : Nat) :
    pending (next workers t w action s) id =
      match action with
      | .setPendingLogin x name => if id = x.id then name else pending s id
      | .clearPendingLogin x => if id = x.id then "" else pending s id
      | .storeSession _ _ => if id = s.1.server.nextId then "" else pending s id
      | _ => pending s id :=
  exec_pendingLogin w action s.1.server id

/-- Only these concern the names in the set. -/
def Matters : Act → Prop
  | .reserveForRegister _ => True
  | .reserveForLogin _ => True
  | .releaseReservation _ => True
  | .cleanupLoginReservation _ => True
  | .setPendingLogin _ _ => True
  | .clearPendingLogin _ => True
  | .getPendingLogin _ => True
  | .storeSession _ _ => True
  | .eraseSession _ => True
  | .dropSession _ => True
  | _ => False

/-- What covers the name before and is still there after. -/
theorem Covered.transfer {s s' : Watched} {username : String} (covered : Covered s username)
    (reserved : ∀ t, s.1.aux.reservedBy t = some username → Covered s' username)
    (reachable : ∀ id, Reachable s id → pending s id = username → Covered s' username)
    (holding : s.2 = .holding username → Covered s' username) : Covered s' username := by
  rcases covered with ⟨owner, own⟩ | ⟨id, reach, name⟩ | held
  · exact reserved owner own
  · exact reachable id reach name
  · exact holding held

theorem Reachable.same {s s' : Watched} {id : Nat} (reachable : Reachable s id)
    (table : s'.1.server.sessions = s.1.server.sessions) (cleanup : s'.2 = s.2) :
    Reachable s' id := by
  unfold Reachable
  rw [table, cleanup]
  exact reachable

theorem Covered.same {s s' : Watched} {username : String} (covered : Covered s username)
    (reserved : ∀ t, s.1.aux.reservedBy t = some username → Covered s' username)
    (table : s'.1.server.sessions = s.1.server.sessions) (cleanup : s'.2 = s.2)
    (names : ∀ id, pending s' id = pending s id) : Covered s' username := by
  refine covered.transfer reserved (fun id reachable name => ?_) fun held => ?_
  · exact Or.inr (Or.inl ⟨id, reachable.same table cleanup, (names id).trans name⟩)
  · exact Or.inr (Or.inr (cleanup.trans held))

theorem covered_idle (idle : ¬ Matters action) {username : String}
    (covered : Covered s username) : Covered (next workers t w action s) username := by
  have table := @next_table workers t s action w
  have reserved := @next_reservedBy workers t s action w
  have cleanup := @next_cleanup workers t s action w
  have names := @next_pending workers t s action w
  rw [Core.step_table] at table
  rw [Core.step_reservedBy] at reserved
  cases action with
  | reserveForRegister | reserveForLogin | releaseReservation | cleanupLoginReservation |
    setPendingLogin | clearPendingLogin | getPendingLogin | storeSession | eraseSession |
    dropSession => exact absurd trivial idle
  | _ =>
    refine covered.same (fun owner own => Or.inl ⟨owner, ?_⟩) table (cleanup.trans (ite_self _)) names
    rw [reserved]
    exact own

/-- A thread that has reserved nothing reserves a name. -/
theorem covered_reserve {username : String} (none : s.1.aux.reservedBy t = none)
    (reserves : action = .reserveForRegister username ∨ action = .reserveForLogin username)
    (covers : ∀ name ∈ s.1.server.loginInProgress, Covered s name) (name : String)
    (member : name ∈ (next workers t w action s).1.server.loginInProgress) :
    Covered (next workers t w action s) name := by
  have table : (next workers t w action s).1.server.sessions = s.1.server.sessions := by
    rw [next_table, Core.step_table]
    rcases reserves with rfl | rfl <;> rfl
  have cleanup : (next workers t w action s).2 = s.2 := by
    rw [next_cleanup]
    rcases reserves with rfl | rfl <;> exact ite_self _
  have names : ∀ id, pending (next workers t w action s) id = pending s id := by
    intro id
    rw [next_pending]
    rcases reserves with rfl | rfl <;> rfl
  have fresh : name ∈ s.1.server.loginInProgress ∨
      (next workers t w action s).1.aux.reservedBy t = some name := by
    rw [next_inProgress, Core.step_inProgress] at member
    rw [next_reservedBy, Core.step_reservedBy]
    rcases reserves with rfl | rfl <;>
    · dsimp only at member ⊢
      split at member
      · exact Or.inl member
      next absent =>
        rw [if_neg absent, Function.update_self]
        rcases List.mem_cons.mp member with same | old
        · exact Or.inr (congrArg some same.symm)
        · exact Or.inl old
  rcases fresh with old | own
  · refine (covers name old).same (fun owner own => Or.inl ⟨owner, ?_⟩) table cleanup names
    have differs : owner ≠ t := by
      intro same
      rw [same, none] at own
      cases own
    rw [next_reservedBy, reservedBy_other differs]
    exact own
  · exact Or.inl ⟨t, own⟩

/-- The name leaves the set with its reservation. -/
theorem covered_release {username : String} (owned : s.1.aux.reservedBy t = some username)
    (covers : ∀ name ∈ s.1.server.loginInProgress, Covered s name) (name : String)
    (member : name ∈ (next workers t w (.releaseReservation username) s).1.server.loginInProgress) :
    Covered (next workers t w (.releaseReservation username) s) name := by
  rw [next_inProgress, Core.step_inProgress] at member
  obtain ⟨old, differs⟩ := List.mem_filter.mp member
  refine (covers name old).same (fun owner own => Or.inl ⟨owner, ?_⟩) (by rw [next_table]; rfl)
    (ite_self _) (next_pending w)
  have other : owner ≠ t := by
    intro same
    rw [same, owned] at own
    cases own
    simp at differs
  rw [next_reservedBy, reservedBy_other other]
  exact own

theorem covered_cleanup {username : String} (held : s.2 = .holding username)
    (nonempty : "" ∉ s.1.server.loginInProgress)
    (covers : ∀ name ∈ s.1.server.loginInProgress, Covered s name) (name : String)
    (member : name ∈
      (next workers t w (.cleanupLoginReservation username) s).1.server.loginInProgress) :
    Covered (next workers t w (.cleanupLoginReservation username) s) name := by
  rw [next_inProgress, Core.step_inProgress] at member
  have both : name ∈ s.1.server.loginInProgress ∧ name ≠ username := by
    dsimp only at member
    split at member
    next empty =>
      refine ⟨member, fun same => nonempty ?_⟩
      rw [String.isEmpty_iff] at empty
      rw [← empty, ← same]
      exact member
    · obtain ⟨old, differs⟩ := List.mem_filter.mp member
      exact ⟨old, of_decide_eq_true differs⟩
  refine (covers name both.1).transfer (fun owner own => Or.inl ⟨owner, ?_⟩)
    (fun id reachable pends => ?_) fun other => ?_
  · rw [next_reservedBy, Core.step_reservedBy]
    exact own
  · rcases reachable with live | ⟨x, unread, _⟩
    · refine Or.inr (Or.inl ⟨id, Or.inl ?_, (next_pending w id).trans pends⟩)
      rw [next_table, Core.step_table]
      exact live
    · rw [held] at unread
      cases unread
  · rw [held] at other
    cases other
    exact absurd rfl both.2

/-- The event loop reads the pending name and holds it. -/
theorem covered_getPendingLogin {x : SessionRef} (unread : t = 0 → s.2 = .unread x)
    (nonempty : "" ∉ s.1.server.loginInProgress)
    (covers : ∀ name ∈ s.1.server.loginInProgress, Covered s name) (name : String)
    (member : name ∈ (next workers t w (.getPendingLogin x) s).1.server.loginInProgress) :
    Covered (next workers t w (.getPendingLogin x) s) name := by
  have old : name ∈ s.1.server.loginInProgress := by
    rw [next_inProgress] at member
    exact member
  have table : (next workers t w (.getPendingLogin x) s).1.server.sessions =
      s.1.server.sessions := by
    rw [next_table]
    rfl
  have reserved : ∀ owner, s.1.aux.reservedBy owner = some name →
      Covered (next workers t w (.getPendingLogin x) s) name := by
    intro owner own
    refine Or.inl ⟨owner, ?_⟩
    rw [next_reservedBy]
    exact own
  by_cases loop : t = 0
  · have removed := unread loop
    have reads : (next workers t w (.getPendingLogin x) s).2 =
        if pending s x.id = "" then .idle else .holding (pending s x.id) := if_pos loop
    refine (covers name old).transfer reserved (fun id reachable pends => ?_) fun other => ?_
    · rcases reachable with live | ⟨y, other, own⟩
      · exact Or.inr (Or.inl ⟨id, Or.inl (by rw [table]; exact live), pends⟩)
      · rw [removed] at other
        cases other
        have named : name ≠ "" := by
          intro empty
          rw [empty] at old
          exact nonempty old
        rw [own, pends, if_neg named] at reads
        exact Or.inr (Or.inr reads)
    · rw [removed] at other
      cases other
  · exact (covers name old).same reserved table (if_neg loop) (next_pending w)

/-- The event loop takes the only session with this descriptor out of the table. -/
theorem covered_eraseSession {fd : Nat} (loop : t = 0) (idle : s.2 = .idle)
    (fds : s.1.server.sessions.Pairwise fun x y => x.fd ≠ y.fd)
    (covers : ∀ name ∈ s.1.server.loginInProgress, Covered s name) (name : String)
    (member : name ∈ (next workers t w (.eraseSession fd) s).1.server.loginInProgress) :
    Covered (next workers t w (.eraseSession fd) s) name := by
  have old : name ∈ s.1.server.loginInProgress := by
    rw [next_inProgress, Core.step_inProgress] at member
    exact member
  refine (covers name old).transfer (fun owner own => Or.inl ⟨owner, ?_⟩)
    (fun id reachable pends => ?_) fun other => ?_
  · rw [next_reservedBy, Core.step_reservedBy]
    exact own
  · have pends' := (@next_pending workers t s (.eraseSession fd) w id).trans pends
    rcases reachable with ⟨x, live, own⟩ | ⟨x, unread, _⟩
    · refine Or.inr (Or.inl ⟨id, ?_, pends'⟩)
      by_cases target : x.fd = fd
      · right
        refine ⟨x, ?_, own⟩
        rw [next_cleanup, if_pos loop, exec_eraseSession]
        have found : s.1.server.findByFd fd = some x := by
          rw [← target]
          exact find_of_mem fds live
        rw [found]
        rfl
      · left
        refine ⟨x, ?_, own⟩
        have table : (next workers t w (.eraseSession fd) s).1.server.sessions =
            s.1.server.sessions.filter fun other => other.fd ≠ fd :=
          exec_sessions w (.eraseSession fd) s.1.server
        rw [table]
        exact List.mem_filter.mpr ⟨live, by simpa using target⟩
    · rw [idle] at unread
      cases unread
  · rw [idle] at other
    cases other

theorem covered_storeSession {fd : Nat} {ip : String}
    (free : ∀ x ∈ s.1.server.sessions, x.fd ≠ fd) (kept : Kept s) (name : String)
    (member : name ∈ (next workers t w (.storeSession fd ip) s).1.server.loginInProgress) :
    Covered (next workers t w (.storeSession fd ip) s) name := by
  have old : name ∈ s.1.server.loginInProgress := by
    rw [next_inProgress, Core.step_inProgress] at member
    exact member
  have older : ∀ id, id < s.1.server.nextId →
      pending (next workers t w (.storeSession fd ip) s) id = pending s id := by
    intro id made
    rw [next_pending]
    exact if_neg (Nat.ne_of_lt made)
  have cleanup : (next workers t w (.storeSession fd ip) s).2 = s.2 := ite_self _
  refine (kept.covered name old).transfer (fun owner own => Or.inl ⟨owner, ?_⟩)
    (fun id reachable pends => ?_) fun held => Or.inr (Or.inr (cleanup.trans held))
  · rw [next_reservedBy, Core.step_reservedBy]
    exact own
  · rcases reachable with ⟨x, live, rfl⟩ | ⟨x, unread, rfl⟩
    · refine Or.inr (Or.inl ⟨x.id, Or.inl ⟨x, ?_, rfl⟩, ?_⟩)
      · rw [next_table, Core.step_table]
        exact List.mem_cons_of_mem _ (List.mem_filter.mpr ⟨live, by simpa using free x live⟩)
      · rw [older x.id (kept.numbered.bound x live)]
        exact pends
    · refine Or.inr (Or.inl ⟨x.id, Or.inr ⟨x, cleanup.trans unread, rfl⟩, ?_⟩)
      rw [older x.id (kept.unread x unread)]
      exact pends

/-- The pending name that is overwritten or cleared covered no abandoned name. -/
theorem covered_pending {x : SessionRef} {value : String}
    (writes : action = .setPendingLogin x value ∨ action = .clearPendingLogin x ∧ value = "")
    (allowed : ¬ Abandoned s x.id)
    (covers : ∀ name ∈ s.1.server.loginInProgress, Covered s name) (name : String)
    (member : name ∈ (next workers t w action s).1.server.loginInProgress) :
    Covered (next workers t w action s) name := by
  have old : name ∈ s.1.server.loginInProgress := by
    rw [next_inProgress, Core.step_inProgress] at member
    rcases writes with rfl | ⟨rfl, _⟩ <;> exact member
  have reserved : ∀ owner, s.1.aux.reservedBy owner = some name →
      Covered (next workers t w action s) name := by
    intro owner own
    refine Or.inl ⟨owner, ?_⟩
    rw [next_reservedBy, Core.step_reservedBy]
    rcases writes with rfl | ⟨rfl, _⟩ <;> exact own
  have table : (next workers t w action s).1.server.sessions = s.1.server.sessions := by
    rw [next_table, Core.step_table]
    rcases writes with rfl | ⟨rfl, _⟩ <;> rfl
  have cleanup : (next workers t w action s).2 = s.2 := by
    rw [next_cleanup]
    rcases writes with rfl | ⟨rfl, _⟩ <;> exact ite_self _
  have held : s.2 = .holding name → Covered (next workers t w action s) name :=
    fun held => Or.inr (Or.inr (cleanup.trans held))
  have another : ∀ id, id ≠ x.id → Reachable s id → pending s id = name →
      Covered (next workers t w action s) name := by
    intro id differs reachable pends
    refine Or.inr (Or.inl ⟨id, reachable.same table cleanup, ?_⟩)
    rw [next_pending]
    rcases writes with rfl | ⟨rfl, _⟩ <;> exact (if_neg differs).trans pends
  refine (covers name old).transfer reserved (fun id reachable pends => ?_) held
  by_cases target : id = x.id
  · subst target
    by_contra uncovered
    refine allowed ⟨reachable, ?_, ?_, ?_, ?_⟩
    · rw [pends]
      exact old
    · rw [pends]
      exact fun owner own => uncovered (reserved owner own)
    · rw [pends]
      exact fun id differs reachable pends => uncovered (another id differs reachable pends)
    · rw [pends]
      exact fun holds => uncovered (held holds)
  · exact another id target reachable pends

theorem covered_dropSession {x : SessionRef} (allowed : Recoverable t (.dropSession x) s)
    (covers : ∀ name ∈ s.1.server.loginInProgress, Covered s name) (name : String)
    (member : name ∈ (next workers t w (.dropSession x) s).1.server.loginInProgress) :
    Covered (next workers t w (.dropSession x) s) name := by
  have old : name ∈ s.1.server.loginInProgress := by
    rw [next_inProgress] at member
    exact member
  have table : (next workers t w (.dropSession x) s).1.server.sessions = s.1.server.sessions := by
    rw [next_table]
    rfl
  have cleanup : (next workers t w (.dropSession x) s).2 = s.2 := ite_self _
  have others : ∀ owner, owner ≠ t → s.1.aux.reservedBy owner = some name →
      Covered (next workers t w (.dropSession x) s) name := by
    intro owner differs own
    refine Or.inl ⟨owner, ?_⟩
    rw [next_reservedBy, reservedBy_other differs]
    exact own
  refine (covers name old).same (fun owner own => ?_) table cleanup (next_pending w)
  by_cases actor : owner = t
  · subst actor
    rcases allowed name own old with ⟨other, differs, theirs⟩ | ⟨id, reachable, pends⟩ | held
    · exact others other differs theirs
    · exact Or.inr (Or.inl ⟨id, reachable.same table cleanup, (next_pending w id).trans pends⟩)
    · exact Or.inr (Or.inr (cleanup.trans held))
  · exact others owner actor own

/-- One of the seven actions that touch reservations, pending names or the table, or another one,
which touches none of them. -/
theorem covered_step (kept : Kept s) (sound : Sound t s action) (allowed : Recoverable t action s)
    (name : String) (member : name ∈ (next workers t w action s).1.server.loginInProgress) :
    Covered (next workers t w action s) name := by
  cases action with
  | reserveForRegister username =>
    exact covered_reserve w sound.2 (Or.inl rfl) kept.covered name member
  | reserveForLogin username =>
    exact covered_reserve w sound.2 (Or.inr rfl) kept.covered name member
  | releaseReservation username => exact covered_release w sound kept.covered name member
  | cleanupLoginReservation username =>
    exact covered_cleanup w sound kept.nonempty kept.covered name member
  | setPendingLogin x value => exact covered_pending w (Or.inl rfl) allowed kept.covered name member
  | clearPendingLogin x =>
    exact covered_pending w (Or.inr ⟨rfl, rfl⟩) allowed kept.covered name member
  | getPendingLogin x =>
    exact covered_getPendingLogin w sound kept.nonempty kept.covered name member
  | storeSession fd ip => exact covered_storeSession w sound.2 kept name member
  | eraseSession fd =>
    exact covered_eraseSession w sound.1 sound.2 kept.fds kept.covered name member
  | dropSession x => exact covered_dropSession w allowed kept.covered name member
  | _ =>
    rw [next_inProgress, Core.step_inProgress] at member
    refine covered_idle w ?_ (kept.covered name member)
    exact False.elim

/-- With the rest of the invariant: sessions are numbered, descriptors differ, and no empty name
is reserved. -/
theorem Kept.step (kept : Kept s) (sound : Sound t s action) (allowed : Recoverable t action s) :
    Kept (next workers t w action s) where
  numbered := by
    have numbered := Core.step_numbered (coreOf s.1) t w.dbOk action kept.numbered
    rw [← @next_core workers _ _ _] at numbered
    exact numbered
  fds := by
    rw [next_table]
    exact Core.step_fds (coreOf s.1) t w.dbOk action kept.fds
  unread x unread := by
    have grows : s.1.server.nextId ≤ (next workers t w action s).1.server.nextId := by
      have core := congrArg Core.nextId (@next_core workers t s action w)
      exact Nat.le_trans (Core.nextId_le (coreOf s.1) t w.dbOk action) (Nat.le_of_eq core.symm)
    have older : s.2 = .unread x → x.id < (next workers t w action s).1.server.nextId :=
      fun before => Nat.lt_of_lt_of_le (kept.unread x before) grows
    rw [next_cleanup] at unread
    split at unread
    · cases action with
      | eraseSession fd =>
        rw [exec_eraseSession] at unread
        cases found : s.1.server.findByFd fd with
        | none =>
          rw [found] at unread
          exact older unread
        | some y =>
          rw [found] at unread
          cases unread
          exact Nat.lt_of_lt_of_le (kept.numbered.bound x (List.mem_of_find?_eq_some found)) grows
      | getPendingLogin y =>
        simp only [Cleanup.follow] at unread
        split at unread <;> cases unread
      | cleanupLoginReservation username => cases unread
      | _ => exact older unread
    · exact older unread
  nonempty := by
    rw [next_inProgress, Core.step_inProgress]
    have nonempty : "" ∉ (coreOf s.1).inProgress := kept.nonempty
    cases action with
    | reserveForRegister username | reserveForLogin username =>
      have named := sound.1
      dsimp only
      split
      · exact nonempty
      · exact fun member => (List.mem_cons.mp member).elim (fun same => named same.symm) nonempty
    | releaseReservation username => exact fun member => nonempty (List.mem_filter.mp member).1
    | cleanupLoginReservation username =>
      dsimp only
      split
      · exact nonempty
      · exact fun member => nonempty (List.mem_filter.mp member).1
    | _ => exact nonempty
  covered := covered_step w kept sound allowed
  disconnects := (exec_hasDisconnectHandler w action s.1.server).trans kept.disconnects

theorem keeps_of_sound (kept : Kept s) (sound : Sound t s action)
    (allowed : Recoverable t action s) :
    (lockout workers).Keeps t s (next workers t w action s) := by
  refine ⟨kept.step w sound allowed, fun other differs => ?_⟩
  constructor
  · rw [next_reservedBy]
    exact reservedBy_other differs
  · intro loop
    rw [next_table, Core.step_table]
    cases action with
    | storeSession fd ip => exact absurd (loop.trans sound.1.symm) differs
    | eraseSession fd => exact absurd (loop.trans sound.1.symm) differs
    | _ => rfl
  · intro loop
    rw [next_cleanup]
    exact if_neg fun actor => differs (loop.trans actor.symm)

end

end LinuxChat.Guarantees.Lockout
