import LinuxChat.Guarantees.SerialRuns.Turns

/-!
# The book of the server

`Orderly` ties the session table, the names, the online set, the users table and the queue
together. Whatever leaves the book as it is keeps it; so does every change that a turn makes:
a name given or taken back, a session stored or erased, a task queued or taken.
-/

namespace LinuxChat.Guarantees.SerialRuns

open LinuxChat.Lib LinuxChat.Source Prog Serial

/-! ## The invariant -/

/-- The table, the names, the online set, the users table and the queue agree. -/
structure Orderly (s : Server) : Prop where
  numbered : Numbered s.sessions s.nextId
  fds : s.sessions.Pairwise fun x y => x.fd ≠ y.fd
  distinct : ∀ x ∈ s.sessions, ∀ y ∈ s.sessions, s.name x ≠ "" → s.name x = s.name y → x = y
  online : ∀ u, u ∈ s.onlineUsers ↔ u ≠ "" ∧ ∃ x ∈ s.sessions, s.name x = u
  nodup : s.onlineUsers.Nodup
  rows : ∀ x ∈ s.sessions, s.name x ≠ "" → Has s.db.users (cString (s.name x))
  current : ∀ task ∈ s.tasks, (s.heap task.session.id).generation = task.genAtDispatch →
    task.session ∈ s.sessions
  dated : ∀ task ∈ s.tasks, task.genAtDispatch ≤ s.nextGeneration ∧ task.session.id < s.nextId
  stamped : ∀ x ∈ s.sessions, (s.heap x.id).generation ≤ s.nextGeneration
  registered : s.hasDisconnectHandler = true

theorem Orderly.findByFd {s : Server} {x : SessionRef} (orderly : Orderly s)
    (live : x ∈ s.sessions) : s.findByFd x.fd = some x :=
  findByFd_of_mem orderly.fds live

theorem mem_of_findByFd {s : Server} {fd : Nat} {x : SessionRef}
    (found : s.findByFd fd = some x) : x ∈ s.sessions :=
  List.mem_of_find?_eq_some found

/-- Two servers that differ in nothing the invariant speaks about. -/
structure SameBook (s s' : Server) : Prop where
  sessions : s'.sessions = s.sessions
  username : ∀ id, (s'.heap id).username = (s.heap id).username
  generation : ∀ id, (s'.heap id).generation = (s.heap id).generation
  online : s'.onlineUsers = s.onlineUsers
  users : s'.db.users = s.db.users
  tasks : s'.tasks = s.tasks
  nextId : s'.nextId = s.nextId
  nextGeneration : s'.nextGeneration = s.nextGeneration
  registered : s'.hasDisconnectHandler = s.hasDisconnectHandler

theorem SameBook.refl (s : Server) : SameBook s s :=
  ⟨rfl, fun _ => rfl, fun _ => rfl, rfl, rfl, rfl, rfl, rfl, rfl⟩

theorem SameBook.symm {s s' : Server} (h : SameBook s s') : SameBook s' s where
  sessions := h.sessions.symm
  username id := (h.username id).symm
  generation id := (h.generation id).symm
  online := h.online.symm
  users := h.users.symm
  tasks := h.tasks.symm
  nextId := h.nextId.symm
  nextGeneration := h.nextGeneration.symm
  registered := h.registered.symm

theorem SameBook.trans {s s₁ s₂ : Server} (h : SameBook s s₁) (h' : SameBook s₁ s₂) :
    SameBook s s₂ where
  sessions := h'.sessions.trans h.sessions
  username id := (h'.username id).trans (h.username id)
  generation id := (h'.generation id).trans (h.generation id)
  online := h'.online.trans h.online
  users := h'.users.trans h.users
  tasks := h'.tasks.trans h.tasks
  nextId := h'.nextId.trans h.nextId
  nextGeneration := h'.nextGeneration.trans h.nextGeneration
  registered := h'.registered.trans h.registered

theorem sameBook_told (s : Server) (frames : List (SessionRef × Json)) :
    SameBook s (told s frames) :=
  ⟨rfl, fun _ => rfl, fun _ => rfl, rfl, rfl, rfl, rfl, rfl, rfl⟩

/-- Changing a session's other fields keeps the book. -/
theorem sameBook_modify (s : Server) (x : SessionRef) {f : ClientSession → ClientSession}
    (username : ∀ c, (f c).username = c.username)
    (generation : ∀ c, (f c).generation = c.generation) : SameBook s (s.modify x f) := by
  refine ⟨rfl, ?_, ?_, rfl, rfl, rfl, rfl, rfl, rfl⟩
  · intro id
    rw [modify_heap]
    split
    · exact username _
    · rfl
  · intro id
    rw [modify_heap]
    split
    · exact generation _
    · rfl

theorem sameBook_settled (s : Server) (x : SessionRef) (username : String) :
    SameBook s (settled s x username) := by
  have pending := sameBook_modify s x (f := fun c => { c with pendingLogin := "" })
    (fun _ => rfl) (fun _ => rfl)
  exact pending.trans ⟨rfl, fun _ => rfl, fun _ => rfl, rfl, rfl, rfl, rfl, rfl, rfl⟩

theorem sameBook_reserved (s : Server) (x : SessionRef) (username : String) :
    SameBook s (reserved s x username) := by
  have reserves : SameBook s { s with loginInProgress := username :: s.loginInProgress } :=
    ⟨rfl, fun _ => rfl, fun _ => rfl, rfl, rfl, rfl, rfl, rfl, rfl⟩
  exact reserves.trans (sameBook_modify _ x (fun _ => rfl) (fun _ => rfl))

theorem sameBook_cleaned (s : Server) (x : SessionRef) : SameBook s (cleaned s x) := by
  unfold cleaned
  split
  · exact ⟨rfl, fun _ => rfl, fun _ => rfl, rfl, rfl, rfl, rfl, rfl, rfl⟩
  · have frees : SameBook s { s with
        loginInProgress := s.loginInProgress.filter (· ≠ (s.heap x.id).pendingLogin) } :=
      ⟨rfl, fun _ => rfl, fun _ => rfl, rfl, rfl, rfl, rfl, rfl, rfl⟩
    exact frees.trans (sameBook_modify _ x (fun _ => rfl) (fun _ => rfl))

theorem sameBook_buffered (s : Server) (x : SessionRef) (buf : Bytes) (failures : UInt32) :
    SameBook s (buffered s x buf failures) :=
  sameBook_modify s x (fun _ => rfl) (fun _ => rfl)

theorem sameBook_stored (s : Server) (ok : Bool) (sender toUser content : String) (now : Int) :
    SameBook s { s with db := s.db.storeMessage ok sender toUser content now } := by
  refine ⟨rfl, fun _ => rfl, fun _ => rfl, rfl, ?_, rfl, rfl, rfl, rfl⟩
  cases ok <;> rfl

theorem Orderly.same {s s' : Server} (orderly : Orderly s) (same : SameBook s s') : Orderly s' where
  numbered := by
    rw [same.sessions, same.nextId]
    exact orderly.numbered
  fds := by
    rw [same.sessions]
    exact orderly.fds
  distinct x hx y hy := by
    rw [same.sessions] at hx hy
    simp only [Server.name, same.username]
    exact orderly.distinct x hx y hy
  online u := by
    simp only [Server.name, same.username, same.sessions, same.online]
    exact orderly.online u
  nodup := by
    rw [same.online]
    exact orderly.nodup
  rows x hx := by
    rw [same.sessions] at hx
    simp only [Server.name, same.username, same.users]
    exact orderly.rows x hx
  current task member := by
    rw [same.tasks] at member
    rw [same.generation, same.sessions]
    exact orderly.current task member
  dated task member := by
    rw [same.tasks] at member
    rw [same.nextGeneration, same.nextId]
    exact orderly.dated task member
  stamped x hx := by
    rw [same.sessions] at hx
    rw [same.generation, same.nextGeneration]
    exact orderly.stamped x hx
  registered := same.registered.trans orderly.registered

/-! ## What changes the book -/

theorem named_name (s : Server) (x y : SessionRef) (username : String) :
    (named s x username).name y = if y.id = x.id then username else s.name y := by
  simp only [named, Server.name, modify_heap]
  split <;> rfl

theorem Orderly.apart {s : Server} {x y : SessionRef} (orderly : Orderly s)
    (hx : x ∈ s.sessions) (hy : y ∈ s.sessions) : y.id = x.id ↔ y = x :=
  ⟨fun same => orderly.numbered.apart y hy x hx same, fun same => congrArg SessionRef.id same⟩

/-- A session without a name gets one that no live session has and the users table knows. -/
theorem Orderly.named {s : Server} {x : SessionRef} {username : String} (orderly : Orderly s)
    (live : x ∈ s.sessions) (bare : s.name x = "") (nonempty : username ≠ "")
    (offline : ∀ y ∈ s.sessions, s.name y ≠ username) (row : Has s.db.users (cString username)) :
    Orderly (named s x username) := by
  have fresh : username ∉ s.onlineUsers := by
    intro member
    obtain ⟨_, y, hy, bears⟩ := (orderly.online username).mp member
    exact offline y hy bears
  have set_ : (Serial.named s x username).onlineUsers = username :: s.onlineUsers := by
    simp [Serial.named, fresh]
  have generation : ∀ id, ((Serial.named s x username).heap id).generation =
      (s.heap id).generation := by
    intro id
    simp only [Serial.named, modify_heap]
    split <;> rfl
  refine ⟨orderly.numbered, orderly.fds, ?_, ?_, ?_, ?_, ?_, orderly.dated, ?_,
    orderly.registered⟩
  · intro y hy z hz bears same
    rw [named_name, named_name] at same
    rw [named_name] at bears
    by_cases ownY : y.id = x.id
    · by_cases ownZ : z.id = x.id
      · rw [(orderly.apart live hy).mp ownY, (orderly.apart live hz).mp ownZ]
      · rw [if_pos ownY, if_neg ownZ] at same
        exact absurd same.symm (offline z hz)
    · by_cases ownZ : z.id = x.id
      · rw [if_neg ownY, if_pos ownZ] at same
        exact absurd same (offline y hy)
      · rw [if_neg ownY, if_neg ownZ] at same
        rw [if_neg ownY] at bears
        exact orderly.distinct y hy z hz bears same
  · intro u
    rw [set_, List.mem_cons, orderly.online u]
    constructor
    · rintro (rfl | ⟨filled, y, hy, bears⟩)
      · refine ⟨nonempty, x, live, ?_⟩
        rw [named_name, if_pos rfl]
      · refine ⟨filled, y, hy, ?_⟩
        have other : y.id ≠ x.id := by
          intro own
          rw [(orderly.apart live hy).mp own, bare] at bears
          exact filled bears.symm
        rw [named_name, if_neg other]
        exact bears
    · rintro ⟨filled, y, hy, bears⟩
      rw [named_name] at bears
      split at bears
      · exact Or.inl bears.symm
      · exact Or.inr ⟨filled, y, hy, bears⟩
  · rw [set_]
    exact List.nodup_cons.mpr ⟨fresh, orderly.nodup⟩
  · intro y hy bears
    rw [named_name] at bears ⊢
    split
    · exact row
    next other =>
      rw [if_neg other] at bears
      exact orderly.rows y hy bears
  · intro task member
    rw [generation]
    exact orderly.current task member
  · intro y hy
    rw [generation]
    exact orderly.stamped y hy

/-- More rows in the users table. -/
theorem Orderly.moreUsers {s : Server} (orderly : Orderly s) (more : List (String × String)) :
    Orderly { s with db := { s.db with users := s.db.users ++ more } } := by
  refine ⟨orderly.numbered, orderly.fds, orderly.distinct, orderly.online, orderly.nodup, ?_,
    orderly.current, orderly.dated, orderly.stamped, orderly.registered⟩
  intro x live bears
  obtain ⟨user, member, name⟩ := orderly.rows x live bears
  exact ⟨user, List.mem_append_left more member, name⟩

theorem unnamed_name (s : Server) (x y : SessionRef) (username : String) :
    (unnamed s x username).name y = if y.id = x.id then "" else s.name y := by
  simp only [unnamed, Server.name, modify_heap]
  split <;> rfl

theorem Orderly.unnamed {s : Server} {x : SessionRef} (orderly : Orderly s)
    (live : x ∈ s.sessions) : Orderly (unnamed s x (s.name x)) := by
  have generation : ∀ id, ((Serial.unnamed s x (s.name x)).heap id).generation =
      (s.heap id).generation := by
    intro id
    simp only [Serial.unnamed, modify_heap]
    split <;> rfl
  have bearing : ∀ y, (Serial.unnamed s x (s.name x)).name y ≠ "" →
      y.id ≠ x.id ∧ (Serial.unnamed s x (s.name x)).name y = s.name y := by
    intro y bears
    rw [unnamed_name] at bears ⊢
    by_cases own : y.id = x.id
    · rw [if_pos own] at bears
      exact absurd rfl bears
    · exact ⟨own, if_neg own⟩
  refine ⟨orderly.numbered, orderly.fds, ?_, ?_, orderly.nodup.filter _, ?_, ?_, orderly.dated, ?_,
    orderly.registered⟩
  · intro y hy z hz bears same
    have first := (bearing y bears).2
    have second := (bearing z (same ▸ bears)).2
    rw [first] at bears
    rw [first, second] at same
    exact orderly.distinct y hy z hz bears same
  · intro u
    have filtered : u ∈ (Serial.unnamed s x (s.name x)).onlineUsers ↔
        u ∈ s.onlineUsers ∧ u ≠ s.name x := by
      simp [Serial.unnamed, List.mem_filter]
    rw [filtered, orderly.online u]
    constructor
    · rintro ⟨⟨filled, y, hy, bears⟩, other⟩
      refine ⟨filled, y, hy, ?_⟩
      have apart : y.id ≠ x.id := by
        intro own
        rw [(orderly.apart live hy).mp own] at bears
        exact other bears.symm
      rw [unnamed_name, if_neg apart]
      exact bears
    · rintro ⟨filled, y, hy, bears⟩
      have kept := bearing y (by rw [bears]; exact filled)
      rw [kept.2] at bears
      refine ⟨⟨filled, y, hy, bears⟩, ?_⟩
      intro same
      subst bears
      have equal := orderly.distinct y hy x live filled same
      exact kept.1 (congrArg SessionRef.id equal)
  · intro y hy bears
    have kept := (bearing y bears).2
    rw [kept] at bears ⊢
    exact orderly.rows y hy bears
  · intro task member
    rw [generation]
    exact orderly.current task member
  · intro y hy
    rw [generation]
    exact orderly.stamped y hy

/-- The session leaves the table, without a name; its tasks become stale. -/
theorem Orderly.erased {s : Server} {x : SessionRef} (orderly : Orderly s)
    (live : x ∈ s.sessions) (bare : s.name x = "") : Orderly (s.eraseSession x.fd).2 := by
  have found := orderly.findByFd live
  have after : (s.eraseSession x.fd).2 =
      ({ s with
        sessions := s.sessions.filter fun other => other.fd ≠ x.fd
        nextGeneration := s.nextGeneration + 1 } : Server).modify x
          fun c => { c with generation := s.nextGeneration + 1 } := by
    simp [Server.eraseSession, found]
  have table : ∀ y, y ∈ (s.eraseSession x.fd).2.sessions ↔ y ∈ s.sessions ∧ y.fd ≠ x.fd := by
    intro y
    rw [after]
    simp [Server.modify, List.mem_filter]
  have username : ∀ y, (s.eraseSession x.fd).2.name y = s.name y := by
    intro y
    rw [after]
    simp only [Server.name, modify_heap]
    split <;> rfl
  have generation : ∀ id, ((s.eraseSession x.fd).2.heap id).generation =
      if id = x.id then s.nextGeneration + 1 else (s.heap id).generation := by
    intro id
    rw [after]
    simp only [modify_heap]
    split <;> rfl
  have next : (s.eraseSession x.fd).2.nextGeneration = s.nextGeneration + 1 := by rw [after]; rfl
  have ids : (s.eraseSession x.fd).2.nextId = s.nextId := by rw [after]; rfl
  have online : (s.eraseSession x.fd).2.onlineUsers = s.onlineUsers := by rw [after]; rfl
  have users : (s.eraseSession x.fd).2.db = s.db := by rw [after]; rfl
  have tasks : (s.eraseSession x.fd).2.tasks = s.tasks := by rw [after]; rfl
  have handler : (s.eraseSession x.fd).2.hasDisconnectHandler = s.hasDisconnectHandler := by
    rw [after]; rfl
  have sub : (s.eraseSession x.fd).2.sessions.Sublist s.sessions := by
    rw [after]
    exact List.filter_sublist
  refine ⟨?_, orderly.fds.sublist sub, ?_, ?_, ?_, ?_, ?_, ?_, ?_, handler.trans orderly.registered⟩
  · rw [ids]
    exact orderly.numbered.sublist sub
  · intro y hy z hz
    rw [username, username]
    exact orderly.distinct y (sub.subset hy) z (sub.subset hz)
  · intro u
    rw [online, orderly.online u]
    constructor
    · rintro ⟨filled, y, hy, bears⟩
      refine ⟨filled, y, (table y).mpr ⟨hy, ?_⟩, (username y).trans bears⟩
      intro same
      have back := orderly.findByFd hy
      rw [same, found] at back
      rw [← Option.some.inj back, bare] at bears
      exact filled bears.symm
    · rintro ⟨filled, y, hy, bears⟩
      exact ⟨filled, y, sub.subset hy, (username y).symm.trans bears⟩
  · rw [online]
    exact orderly.nodup
  · intro y hy
    rw [username, users]
    exact orderly.rows y (sub.subset hy)
  · intro task member
    rw [tasks] at member
    rw [generation]
    have made := (orderly.dated task member).1
    split
    · omega
    next other =>
      intro matches_
      have there := orderly.current task member matches_
      refine (table _).mpr ⟨there, ?_⟩
      intro same
      have back := orderly.findByFd there
      rw [same, found] at back
      exact other (congrArg SessionRef.id (Option.some.inj back).symm)
  · intro task member
    rw [tasks] at member
    have made := orderly.dated task member
    rw [next, ids]
    exact ⟨by omega, made.2⟩
  · intro y hy
    have old := orderly.stamped y (sub.subset hy)
    rw [generation, next]
    split <;> omega

/-- A new connection under a free fd. -/
theorem Orderly.stored {s : Server} {fd : Nat} {ip : String} (orderly : Orderly s)
    (free : ∀ x ∈ s.sessions, x.fd ≠ fd) : Orderly (s.storeSession fd ip) := by
  have kept : s.sessions.filter (fun other => other.fd ≠ fd) = s.sessions := by
    apply List.filter_eq_self.mpr
    intro x member
    simpa using free x member
  have table : (s.storeSession fd ip).sessions = ⟨s.nextId, fd, ip⟩ :: s.sessions := by
    simp only [Server.storeSession, kept]
  have heap : ∀ id, (s.storeSession fd ip).heap id =
      if id = s.nextId then { generation := s.nextGeneration } else s.heap id := by
    intro id
    simp only [Server.storeSession]
    by_cases new : id = s.nextId
    · subst new
      simp
    · simp [new]
  have old : ∀ x ∈ s.sessions, (s.storeSession fd ip).heap x.id = s.heap x.id := by
    intro x member
    have less := orderly.numbered.bound x member
    rw [heap, if_neg (by omega)]
  have new : (s.storeSession fd ip).heap s.nextId = { generation := s.nextGeneration } := by
    rw [heap, if_pos rfl]
  refine ⟨?_, ?_, ?_, ?_, orderly.nodup, ?_, ?_, ?_, ?_, orderly.registered⟩
  · rw [table]
    exact orderly.numbered.push fd ip
  · rw [table]
    refine List.pairwise_cons.mpr ⟨?_, orderly.fds⟩
    intro y member same
    exact free y member same.symm
  · rw [table]
    intro x hx y hy bears same
    simp only [Server.name] at bears same
    rcases List.mem_cons.mp hx with rfl | hx
    · simp only [new] at bears
      exact absurd rfl bears
    · rcases List.mem_cons.mp hy with rfl | hy
      · simp only [new] at same
        exact absurd same bears
      · rw [old x hx] at bears same
        rw [old y hy] at same
        exact orderly.distinct x hx y hy bears same
  · intro u
    have same : (s.storeSession fd ip).onlineUsers = s.onlineUsers := rfl
    rw [same, orderly.online u, table]
    constructor
    · rintro ⟨filled, y, hy, bears⟩
      refine ⟨filled, y, List.mem_cons_of_mem _ hy, ?_⟩
      simp only [Server.name, old y hy]
      exact bears
    · rintro ⟨filled, y, hy, bears⟩
      rcases List.mem_cons.mp hy with rfl | hy
      · simp only [Server.name, new] at bears
        exact absurd bears.symm filled
      · simp only [Server.name, old y hy] at bears
        exact ⟨filled, y, hy, bears⟩
  · rw [table]
    intro x hx bears
    simp only [Server.name] at bears ⊢
    rcases List.mem_cons.mp hx with rfl | hx
    · simp only [new] at bears
      exact absurd rfl bears
    · rw [old x hx] at bears ⊢
      exact orderly.rows x hx bears
  · intro task member
    have made := orderly.dated task member
    have same : (s.storeSession fd ip).heap task.session.id = s.heap task.session.id := by
      rw [heap, if_neg (by omega)]
    rw [same, table]
    intro current
    exact List.mem_cons_of_mem _ (orderly.current task member current)
  · intro task member
    have made := orderly.dated task member
    change task.genAtDispatch ≤ s.nextGeneration + 1 ∧ task.session.id < s.nextId + 1
    omega
  · rw [table]
    intro x hx
    change ((s.storeSession fd ip).heap x.id).generation ≤ s.nextGeneration + 1
    rcases List.mem_cons.mp hx with rfl | hx
    · rw [new]
      simp
    · rw [old x hx]
      have less := orderly.stamped x hx
      omega

/-- More tasks of a live session, dated now; or fewer tasks. -/
theorem Orderly.queued {s s' : Server} {x : SessionRef} (orderly : Orderly s)
    (live : x ∈ s.sessions) (queued : Queued s x s') : Orderly s' := by
  obtain ⟨added, rfl, dates⟩ := queued
  refine ⟨orderly.numbered, orderly.fds, orderly.distinct, orderly.online, orderly.nodup,
    orderly.rows, ?_, ?_, orderly.stamped, orderly.registered⟩
  · intro task member
    rcases List.mem_append.mp member with old | new
    · exact orderly.current task old
    · rw [(dates task new).1]
      exact fun _ => live
  · intro task member
    rcases List.mem_append.mp member with old | new
    · exact orderly.dated task old
    · obtain ⟨own, stamp⟩ := dates task new
      rw [own, stamp]
      exact ⟨orderly.stamped x live, orderly.numbered.bound x live⟩

theorem Orderly.dequeued {s : Server} {task : Task} {rest : List Task} (orderly : Orderly s)
    (queued : s.tasks = task :: rest) : Orderly { s with tasks := rest } := by
  have sub : ∀ other ∈ rest, other ∈ s.tasks := by
    intro other member
    rw [queued]
    exact List.mem_cons_of_mem task member
  exact ⟨orderly.numbered, orderly.fds, orderly.distinct, orderly.online, orderly.nodup,
    orderly.rows, fun other member => orderly.current other (sub other member),
    fun other member => orderly.dated other (sub other member), orderly.stamped,
    orderly.registered⟩

end LinuxChat.Guarantees.SerialRuns
