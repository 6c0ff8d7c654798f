import LinuxChat.Source.EpollServer

/-!
# What each action changes

One equation for each part of the server state that an invariant speaks about: its
value after any action, whatever the outside contributes. A proof about an action
rewrites with these and never unfolds `Act.exec`.
-/

namespace LinuxChat.Guarantees

open LinuxChat.Lib LinuxChat.Source

variable (w : World) (action : Act) (s : Server)

theorem exec_sessions :
    (action.exec w s).2.sessions =
      match action with
      | .storeSession fd ip => ⟨s.nextId, fd, ip⟩ :: s.sessions.filter fun other => other.fd ≠ fd
      | .eraseSession fd => s.sessions.filter fun other => other.fd ≠ fd
      | _ => s.sessions := by
  cases action with
  | eraseSession fd =>
    simp only [Act.exec, Server.eraseSession]
    cases found : s.findByFd fd with
    | none =>
      have other : ∀ session ∈ s.sessions, decide (session.fd ≠ fd) = true := by
        intro session member
        have miss := List.find?_eq_none.mp found session member
        simpa using miss
      exact (List.filter_eq_self.mpr other).symm
    | some session => rfl
  | _ => simp only [Act.exec] <;> (repeat' split) <;> rfl

theorem exec_nextId :
    (action.exec w s).2.nextId =
      match action with
      | .storeSession _ _ => s.nextId + 1
      | _ => s.nextId := by
  cases action <;> simp only [Act.exec, Server.eraseSession] <;> (repeat' split) <;> rfl

theorem exec_db :
    (action.exec w s).2.db =
      match action with
      | .registerUser username hash => (s.db.registerUser w.dbOk username hash).2
      | .storeMessage sender toUser content timestamp =>
        s.db.storeMessage w.dbOk sender toUser content timestamp
      | _ => s.db := by
  cases action <;> simp only [Act.exec, Server.eraseSession] <;> (repeat' split) <;> rfl

theorem exec_loginInProgress :
    (action.exec w s).2.loginInProgress =
      match action with
      | .reserveForRegister username =>
        if username ∈ s.loginInProgress then s.loginInProgress else username :: s.loginInProgress
      | .reserveForLogin username =>
        if username ∈ s.loginInProgress then s.loginInProgress
        else if (s.findSession username).isSome then s.loginInProgress
        else username :: s.loginInProgress
      | .releaseReservation username => s.loginInProgress.filter (· ≠ username)
      | .cleanupLoginReservation username =>
        if username.isEmpty then s.loginInProgress else s.loginInProgress.filter (· ≠ username)
      | _ => s.loginInProgress := by
  cases action <;> simp only [Act.exec, Server.eraseSession] <;> (repeat' split) <;> rfl

theorem exec_onlineUsers :
    (action.exec w s).2.onlineUsers =
      match action with
      | .insertOnline username =>
        if username ∈ s.onlineUsers then s.onlineUsers else username :: s.onlineUsers
      | .eraseOnline username => s.onlineUsers.filter (· ≠ username)
      | _ => s.onlineUsers := by
  cases action <;> simp only [Act.exec, Server.eraseSession] <;> (repeat' split) <;> rfl

theorem exec_tasks :
    (action.exec w s).2.tasks =
      match action with
      | .enqueue task => if s.poolStop then s.tasks else s.tasks ++ [task]
      | _ => s.tasks := by
  cases action <;> simp only [Act.exec, Server.eraseSession] <;> (repeat' split) <;> rfl

theorem exec_sent :
    (action.exec w s).2.sent =
      match action with
      | .sendMsg session _ msg => s.sent ++ [(session, msg)]
      | _ => s.sent := by
  cases action <;> simp only [Act.exec, Server.eraseSession] <;> (repeat' split) <;> rfl

theorem exec_loginAttempts :
    (action.exec w s).2.loginAttempts =
      match action with
      | .isRateLimited ip => (isRateLimited s.loginAttempts w.steady ip).2
      | .recordFailedLogin ip => recordFailedLogin s.loginAttempts w.steady ip
      | .clearLoginAttempts ip => clearLoginAttempts s.loginAttempts ip
      | _ => s.loginAttempts := by
  cases action <;> simp only [Act.exec, Server.eraseSession] <;> (repeat' split) <;> rfl

theorem exec_nextGeneration :
    (action.exec w s).2.nextGeneration =
      match action with
      | .storeSession _ _ => s.nextGeneration + 1
      | .eraseSession fd => if (s.findByFd fd).isSome then s.nextGeneration + 1 else s.nextGeneration
      | _ => s.nextGeneration := by
  cases action with
  | eraseSession fd =>
    simp only [Act.exec, Server.eraseSession]
    cases s.findByFd fd <;> rfl
  | _ => simp only [Act.exec] <;> (repeat' split) <;> rfl

theorem exec_poolStop : (action.exec w s).2.poolStop = s.poolStop := by
  cases action <;> simp only [Act.exec, Server.eraseSession] <;> (repeat' split) <;> rfl

theorem exec_hasMessageHandler :
    (action.exec w s).2.hasMessageHandler = s.hasMessageHandler := by
  cases action <;> simp only [Act.exec, Server.eraseSession] <;> (repeat' split) <;> rfl

theorem exec_hasDisconnectHandler :
    (action.exec w s).2.hasDisconnectHandler = s.hasDisconnectHandler := by
  cases action <;> simp only [Act.exec, Server.eraseSession] <;> (repeat' split) <;> rfl

/-- A session of the table is found by its fd, if fds are unique there. -/
theorem find_of_mem {table : List SessionRef} {session : SessionRef}
    (unique : table.Pairwise fun x y => x.fd ≠ y.fd) (member : session ∈ table) :
    (table.find? fun x => x.fd = session.fd) = some session := by
  induction table with
  | nil => cases member
  | cons head rest ih =>
    rcases List.mem_cons.mp member with first | later
    · subst first
      simp
    · have other : head.fd ≠ session.fd := (List.pairwise_cons.mp unique).1 session later
      rw [List.find?_cons_of_neg (by simpa using other)]
      exact ih (List.pairwise_cons.mp unique).2 later

theorem findByFd_of_mem {s : Server} {session : SessionRef}
    (unique : s.sessions.Pairwise fun x y => x.fd ≠ y.fd) (member : session ∈ s.sessions) :
    s.findByFd session.fd = some session :=
  find_of_mem unique member

theorem findSession_name {s : Server} {username : String} {target : SessionRef}
    (h : s.findSession username = some target) : s.name target = username := by
  simpa using List.find?_some h

/-- Session objects are numbered by `nextId`: those of a table are told apart by it. -/
structure Numbered (table : List SessionRef) (nextId : Nat) : Prop where
  bound : ∀ x ∈ table, x.id < nextId
  apart : ∀ x ∈ table, ∀ y ∈ table, x.id = y.id → x = y

theorem Numbered.sublist {table table' : List SessionRef} {nextId : Nat}
    (numbered : Numbered table nextId) (sub : table'.Sublist table) : Numbered table' nextId where
  bound x member := numbered.bound x (sub.subset member)
  apart x hx y hy := numbered.apart x (sub.subset hx) y (sub.subset hy)

theorem Numbered.push {table : List SessionRef} {nextId : Nat} (numbered : Numbered table nextId)
    (fd : Nat) (ip : String) : Numbered (⟨nextId, fd, ip⟩ :: table) (nextId + 1) where
  bound x member := by
    rcases List.mem_cons.mp member with new | old
    · subst new
      exact Nat.lt_succ_self nextId
    · exact Nat.lt_succ_of_lt (numbered.bound x old)
  apart x hx y hy same := by
    rcases List.mem_cons.mp hx with newX | oldX
    · rcases List.mem_cons.mp hy with newY | oldY
      · rw [newX, newY]
      · have less := numbered.bound y oldY
        rw [← same, newX] at less
        exact absurd less (Nat.lt_irrefl nextId)
    · rcases List.mem_cons.mp hy with newY | oldY
      · have less := numbered.bound x oldX
        rw [same, newY] at less
        exact absurd less (Nat.lt_irrefl nextId)
      · exact numbered.apart x oldX y oldY same

/-! ## The users table -/

/-- The table has a row for this C string. -/
def Has (users : List (String × String)) (name : String) : Prop :=
  ∃ user ∈ users, user.1 = name

/-- `INSERT OR IGNORE` by C string. -/
theorem registerUser_taken {db : Database} {username : String} (hash : String)
    (taken : Has db.users (cString username)) : db.registerUser true username hash = (false, db) := by
  obtain ⟨user, member, same⟩ := taken
  have found : (db.users.any fun user => user.1 = cString username) = true :=
    List.any_eq_true.mpr ⟨user, member, by simpa using same⟩
  unfold Database.registerUser
  rw [found]
  simp

theorem registerUser_free {db : Database} {username : String} (hash : String)
    (nonempty : username ≠ "") (free : ¬ Has db.users (cString username)) :
    db.registerUser true username hash =
      (true, { db with users := db.users ++ [(cString username, cString hash)] }) := by
  have missing : ¬ (db.users.any fun user => user.1 = cString username) = true := by
    intro found
    obtain ⟨user, member, same⟩ := List.any_eq_true.mp found
    exact free ⟨user, member, by simpa using same⟩
  unfold Database.registerUser
  rw [if_neg missing]
  simp [nonempty]

theorem registerUser_cases (ok : Bool) (db : Database) (username hash : String) :
    db.registerUser ok username hash = (false, db) ∨
      (¬ Has db.users (cString username) ∧ db.registerUser ok username hash =
        (true, { db with users := db.users ++ [(cString username, cString hash)] })) := by
  by_cases free : Has db.users (cString username)
  · cases ok with
    | true => exact Or.inl (registerUser_taken hash free)
    | false => simp [Database.registerUser]
  · by_cases nonempty : username = ""
    · simp [Database.registerUser, nonempty]
    · cases ok with
      | true => exact Or.inr ⟨free, registerUser_free hash nonempty free⟩
      | false => simp [Database.registerUser]

theorem has_of_getStoredHash {ok : Bool} {db : Database} {username : String}
    (stored : db.getStoredHash ok username ≠ "") : Has db.users (cString username) := by
  unfold Database.getStoredHash at stored
  cases ok with
  | false => simp at stored
  | true =>
    cases found : db.users.lookup (cString username) with
    | none => simp [found] at stored
    | some hash =>
      obtain ⟨before, after, table, _⟩ := List.lookup_eq_some_iff.mp found
      exact ⟨(cString username, hash), by simp [table], rfl⟩

/-! ## Session objects -/

theorem isAuthenticated_iff (c : ClientSession) : c.isAuthenticated = true ↔ c.username ≠ "" := by
  simp [ClientSession.isAuthenticated]

theorem modify_heap (session : SessionRef) (f : ClientSession → ClientSession) (id : Nat) :
    (s.modify session f).heap id = if id = session.id then f (s.heap id) else s.heap id := by
  unfold Server.modify
  by_cases same : id = session.id
  · subst same
    simp
  · simp [same]

/-- A call of `recv_msgs` touches the buffer and the failure counter only. -/
theorem recvMsgs_kept (parse : Bytes → Parsed) (c : ClientSession) (results : List RecvResult) :
    ∃ buf failures, (recvMsgs parse c results).2 =
      { c with recvBuf := buf, consecutiveParseFailures := failures } := by
  unfold recvMsgs
  cases receive c.recvBuf results with
  | mk buf received =>
    cases received with
    | drained => exact ⟨_, _, rfl⟩
    | peerClosed =>
      dsimp only
      split <;> exact ⟨_, _, rfl⟩
    | failed => exact ⟨buf, c.consecutiveParseFailures, rfl⟩

theorem exec_username (id : Nat) :
    ((action.exec w s).2.heap id).username =
      match action with
      | .setUsername session name => if id = session.id then name else (s.heap id).username
      | .clearUsername session => if id = session.id then "" else (s.heap id).username
      | .storeSession _ _ => if id = s.nextId then "" else (s.heap id).username
      | _ => (s.heap id).username := by
  cases action with
  | setUsername session name => simp only [Act.exec, modify_heap]; split <;> rfl
  | clearUsername session => simp only [Act.exec, modify_heap]; split <;> rfl
  | setPendingLogin session name => simp only [Act.exec, modify_heap]; split <;> rfl
  | clearPendingLogin session => simp only [Act.exec, modify_heap]; split <;> rfl
  | storeSession fd ip =>
    simp only [Act.exec, Server.storeSession]
    by_cases same : id = s.nextId
    · subst same
      simp
    · simp [same]
  | eraseSession fd =>
    simp only [Act.exec, Server.eraseSession]
    split
    · rfl
    · simp only [modify_heap]
      split <;> rfl
  | recvMsgs session =>
    simp only [Act.exec, modify_heap]
    split
    next same =>
      subst same
      obtain ⟨buf, failures, kept⟩ := recvMsgs_kept w.parse (s.heap session.id) w.recvs
      rw [kept]
    · rfl
  | _ => simp only [Act.exec] <;> (repeat' split) <;> rfl

theorem exec_generation (id : Nat) :
    ((action.exec w s).2.heap id).generation =
      match action with
      | .storeSession _ _ => if id = s.nextId then s.nextGeneration else (s.heap id).generation
      | .eraseSession fd =>
        match s.findByFd fd with
        | some x => if id = x.id then s.nextGeneration + 1 else (s.heap id).generation
        | none => (s.heap id).generation
      | _ => (s.heap id).generation := by
  cases action with
  | setUsername session name => simp only [Act.exec, modify_heap]; split <;> rfl
  | clearUsername session => simp only [Act.exec, modify_heap]; split <;> rfl
  | setPendingLogin session name => simp only [Act.exec, modify_heap]; split <;> rfl
  | clearPendingLogin session => simp only [Act.exec, modify_heap]; split <;> rfl
  | storeSession fd ip =>
    simp only [Act.exec, Server.storeSession]
    by_cases same : id = s.nextId
    · subst same
      simp
    · simp [same]
  | eraseSession fd =>
    simp only [Act.exec, Server.eraseSession]
    cases s.findByFd fd with
    | none => rfl
    | some x => simp only [modify_heap]; split <;> rfl
  | recvMsgs session =>
    simp only [Act.exec, modify_heap]
    split
    next same =>
      subst same
      obtain ⟨buf, failures, kept⟩ := recvMsgs_kept w.parse (s.heap session.id) w.recvs
      rw [kept]
    · rfl
  | _ => simp only [Act.exec] <;> (repeat' split) <;> rfl

theorem exec_pendingLogin (id : Nat) :
    ((action.exec w s).2.heap id).pendingLogin =
      match action with
      | .setPendingLogin session name =>
        if id = session.id then name else (s.heap id).pendingLogin
      | .clearPendingLogin session => if id = session.id then "" else (s.heap id).pendingLogin
      | .storeSession _ _ => if id = s.nextId then "" else (s.heap id).pendingLogin
      | _ => (s.heap id).pendingLogin := by
  cases action with
  | setUsername session name => simp only [Act.exec, modify_heap]; split <;> rfl
  | clearUsername session => simp only [Act.exec, modify_heap]; split <;> rfl
  | setPendingLogin session name => simp only [Act.exec, modify_heap]; split <;> rfl
  | clearPendingLogin session => simp only [Act.exec, modify_heap]; split <;> rfl
  | storeSession fd ip =>
    simp only [Act.exec, Server.storeSession]
    by_cases same : id = s.nextId
    · subst same
      simp
    · simp [same]
  | eraseSession fd =>
    simp only [Act.exec, Server.eraseSession]
    split
    · rfl
    · simp only [modify_heap]
      split <;> rfl
  | recvMsgs session =>
    simp only [Act.exec, modify_heap]
    split
    next same =>
      subst same
      obtain ⟨buf, failures, kept⟩ := recvMsgs_kept w.parse (s.heap session.id) w.recvs
      rw [kept]
    · rfl
  | _ => simp only [Act.exec] <;> (repeat' split) <;> rfl

end LinuxChat.Guarantees
