import LinuxChat.Guarantees.Effects
import Mathlib.Data.List.Basic

/-!
# The core of the running server

The part of the shared state that logins, logouts and disconnects are about: the
session table with the names and generations of the session objects, the online
set, the reservations, the users table, the task queue, and which job and which
reservation each thread has. `Core.step` says what an action does to it and
`coreOf_exec` that the server's threads do just that. All other actions are neutral.
-/

namespace LinuxChat.Guarantees

open LinuxChat.Lib LinuxChat.Source

/-- What the invariants of logins depend on: the session table, the names of the sessions, the
reservations, and which thread is at work on what. An action changes it in a way that does not
depend on anything else of the server. -/
structure Core where
  table : List SessionRef
  nextId : Nat
  nextGeneration : Nat
  name : Nat → String
  generation : Nat → Nat
  online : List String
  inProgress : List String
  users : List (String × String)
  queue : List Task
  stopped : Bool
  disconnects : Bool
  job : Nat → Option Job
  reservedBy : Nat → Option String

/-- The core of a state. -/
def coreOf (s : Shared) : Core where
  table := s.server.sessions
  nextId := s.server.nextId
  nextGeneration := s.server.nextGeneration
  name id := (s.server.heap id).username
  generation id := (s.server.heap id).generation
  online := s.server.onlineUsers
  inProgress := s.server.loginInProgress
  users := s.server.db.users
  queue := s.server.tasks
  stopped := s.server.poolStop
  disconnects := s.server.hasDisconnectHandler
  job := s.aux.job
  reservedBy := s.aux.reservedBy

namespace Core

/-- A session object with this id is in the table. -/
def Live (c : Core) (id : Nat) : Prop := ∃ x ∈ c.table, x.id = id

/-- The name is reserved, by the thread. -/
def reserve (c : Core) (t : Nat) (username : String) : Core :=
  { c with
    inProgress := username :: c.inProgress
    reservedBy := Function.update c.reservedBy t (some username) }

/-- Another session of the table has this name. -/
def taken (c : Core) (username : String) : Bool :=
  (c.table.find? fun x => c.name x.id = username).isSome

/-- The session leaves the table, its generation is raised, and the thread removes it. -/
def erase (c : Core) (t : Nat) (x : SessionRef) : Core :=
  { c with
    table := c.table.filter fun other => other.fd ≠ x.fd
    nextGeneration := c.nextGeneration + 1
    generation := Function.update c.generation x.id (c.nextGeneration + 1)
    job := Function.update c.job t (some (.removal x)) }

/-- A connection has been accepted under this descriptor. -/
def store (c : Core) (fd : Nat) (ip : String) : Core :=
  { c with
    table := ⟨c.nextId, fd, ip⟩ :: c.table.filter fun other => other.fd ≠ fd
    nextId := c.nextId + 1
    nextGeneration := c.nextGeneration + 1
    name := Function.update c.name c.nextId ""
    generation := Function.update c.generation c.nextId c.nextGeneration }

/-- What an action of thread `t` does; the outside decides whether SQLite works. -/
def step (c : Core) (t : Nat) (dbOk : Bool) : Act → Core
  | .setUsername session name => { c with name := Function.update c.name session.id name }
  | .clearUsername session => { c with name := Function.update c.name session.id "" }
  | .reserveForRegister username =>
    if username ∈ c.inProgress then c else c.reserve t username
  | .reserveForLogin username =>
    if username ∈ c.inProgress then c else if c.taken username then c else c.reserve t username
  | .releaseReservation username =>
    { c with
      inProgress := c.inProgress.filter (· ≠ username)
      reservedBy := Function.update c.reservedBy t none }
  | .cleanupLoginReservation username =>
    if username.isEmpty then c else { c with inProgress := c.inProgress.filter (· ≠ username) }
  | .insertOnline username =>
    if username ∈ c.online then c else { c with online := username :: c.online }
  | .eraseOnline username => { c with online := c.online.filter (· ≠ username) }
  | .registerUser username hash =>
    { c with users := (Database.registerUser dbOk { users := c.users } username hash).2.users }
  | .storeSession fd ip => c.store fd ip
  | .eraseSession fd =>
    match c.table.find? fun x => x.fd = fd with
    | some x => c.erase t x
    | none => c
  | .enqueue task => if c.stopped then c else { c with queue := c.queue ++ [task] }
  | .checkGeneration task =>
    if c.generation task.session.id = task.genAtDispatch then
      { c with job := Function.update c.job t (some (.task task)) }
    else c
  | .dropSession _ =>
    { c with
      job := Function.update c.job t none
      reservedBy := Function.update c.reservedBy t none }
  | _ => c

end Core

/-! ## What a step changes -/

section
variable (c : Core) (t : Nat) (dbOk : Bool) (action : Act)

attribute [local simp] Core.step

theorem Core.step_table :
    (c.step t dbOk action).table =
      match action with
      | .storeSession fd ip => ⟨c.nextId, fd, ip⟩ :: c.table.filter fun other => other.fd ≠ fd
      | .eraseSession fd =>
        Option.elim (c.table.find? fun x => x.fd = fd) c.table fun x =>
          c.table.filter fun other => other.fd ≠ x.fd
      | _ => c.table := by
  cases action with
  | eraseSession fd =>
    simp only [Core.step]
    cases c.table.find? fun x => x.fd = fd <;> rfl
  | _ => simp only [Core.step, Core.reserve, Core.store] <;> (repeat' split) <;> rfl

theorem Core.step_numbered (h : Numbered c.table c.nextId) :
    Numbered (c.step t dbOk action).table (c.step t dbOk action).nextId := by
  rw [Core.step_table]
  cases action with
  | storeSession fd ip => exact (h.sublist List.filter_sublist).push fd ip
  | eraseSession fd =>
    simp only [Core.step]
    cases c.table.find? fun x => x.fd = fd with
    | none => exact h
    | some x => exact h.sublist List.filter_sublist
  | _ =>
    simp only [Core.step, Core.reserve]
    (repeat' split) <;> exact h

theorem Core.step_fds (h : c.table.Pairwise fun x y => x.fd ≠ y.fd) :
    (c.step t dbOk action).table.Pairwise fun x y => x.fd ≠ y.fd := by
  rw [Core.step_table]
  cases action with
  | storeSession fd ip =>
    refine List.pairwise_cons.mpr ⟨fun other member same => ?_, h.filter _⟩
    have differs := (List.mem_filter.mp member).2
    rw [← same] at differs
    simp at differs
  | eraseSession fd =>
    dsimp only
    cases c.table.find? fun x => x.fd = fd with
    | none => exact h
    | some x => exact h.filter _
  | _ => exact h

theorem Core.step_name :
    (c.step t dbOk action).name =
      match action with
      | .setUsername session name => Function.update c.name session.id name
      | .clearUsername session => Function.update c.name session.id ""
      | .storeSession _ _ => Function.update c.name c.nextId ""
      | _ => c.name := by
  cases action <;> simp only [Core.step, Core.reserve, Core.erase, Core.store] <;>
    (repeat' split) <;> rfl

theorem Core.step_reservedBy :
    (c.step t dbOk action).reservedBy =
      match action with
      | .reserveForRegister username =>
        if username ∈ c.inProgress then c.reservedBy
        else Function.update c.reservedBy t (some username)
      | .reserveForLogin username =>
        if username ∈ c.inProgress ∨ c.taken username then c.reservedBy
        else Function.update c.reservedBy t (some username)
      | .releaseReservation _ => Function.update c.reservedBy t none
      | .dropSession _ => Function.update c.reservedBy t none
      | _ => c.reservedBy := by
  cases action with
  | reserveForLogin username =>
    simp only [Core.step, Core.reserve]
    by_cases held : username ∈ c.inProgress <;> by_cases live : c.taken username = true <;>
      simp [held, live]
  | _ =>
    simp only [Core.step, Core.reserve, Core.erase, Core.store] <;> (repeat' split) <;> rfl

theorem Core.step_inProgress :
    (c.step t dbOk action).inProgress =
      match action with
      | .reserveForRegister username =>
        if username ∈ c.inProgress then c.inProgress else username :: c.inProgress
      | .reserveForLogin username =>
        if username ∈ c.inProgress ∨ c.taken username then c.inProgress
        else username :: c.inProgress
      | .releaseReservation username => c.inProgress.filter (· ≠ username)
      | .cleanupLoginReservation username =>
        if username.isEmpty then c.inProgress else c.inProgress.filter (· ≠ username)
      | _ => c.inProgress := by
  cases action with
  | reserveForLogin username =>
    simp only [Core.step, Core.reserve]
    by_cases held : username ∈ c.inProgress <;> by_cases live : c.taken username = true <;>
      simp [held, live]
  | _ =>
    simp only [Core.step, Core.reserve, Core.erase, Core.store] <;> (repeat' split) <;> rfl

theorem Core.step_nextId :
    (c.step t dbOk action).nextId =
      match action with
      | .storeSession _ _ => c.nextId + 1
      | _ => c.nextId := by
  cases action <;> simp only [Core.step, Core.reserve, Core.erase, Core.store] <;>
    (repeat' split) <;> rfl

theorem Core.nextId_le : c.nextId ≤ (c.step t dbOk action).nextId := by
  rw [Core.step_nextId]
  cases action with
  | storeSession fd ip => exact Nat.le_succ c.nextId
  | _ => exact Nat.le_refl c.nextId

theorem Core.step_online :
    (c.step t dbOk action).online =
      match action with
      | .insertOnline username =>
        if username ∈ c.online then c.online else username :: c.online
      | .eraseOnline username => c.online.filter (· ≠ username)
      | _ => c.online := by
  cases action <;> simp only [Core.step, Core.reserve, Core.erase, Core.store] <;>
    (repeat' split) <;> rfl

theorem Core.step_disconnects : (c.step t dbOk action).disconnects = c.disconnects := by
  cases action <;> simp only [Core.step, Core.reserve, Core.erase, Core.store] <;>
    (repeat' split) <;> rfl

theorem Core.nextGeneration_le : c.nextGeneration ≤ (c.step t dbOk action).nextGeneration := by
  cases action <;> simp only [Core.step, Core.reserve, Core.erase, Core.store] <;>
    (repeat' split) <;> first | exact Nat.le_refl _ | exact Nat.le_succ _

/-- A generation changes only to a new one: that of a new session object, or one
above all earlier ones when the object leaves the table. -/
theorem Core.step_generation (id : Nat) :
    (c.step t dbOk action).generation id = c.generation id ∨
      (∃ fd ip, action = .storeSession fd ip ∧ id = c.nextId ∧
        (c.step t dbOk action).generation id = c.nextGeneration) ∨
      ∃ x ∈ c.table, action = .eraseSession x.fd ∧ id = x.id ∧
        (c.step t dbOk action).generation id = c.nextGeneration + 1 := by
  cases action with
  | storeSession fd ip =>
    by_cases new : id = c.nextId
    · subst new
      exact Or.inr (Or.inl ⟨fd, ip, rfl, rfl, Function.update_self _ _ _⟩)
    · exact Or.inl (Function.update_of_ne new _ _)
  | eraseSession fd =>
    simp only [Core.step]
    cases found : c.table.find? fun x => x.fd = fd with
    | none => exact Or.inl rfl
    | some x =>
      have own : x.fd = fd := by simpa using List.find?_some found
      by_cases gone : id = x.id
      · subst gone
        exact Or.inr (Or.inr ⟨x, List.mem_of_find?_eq_some found, by rw [own], rfl,
          Function.update_self _ _ _⟩)
      · exact Or.inl (Function.update_of_ne gone _ _)
  | _ =>
    left
    simp only [Core.step, Core.reserve] <;> (repeat' split) <;> rfl

theorem Core.step_queue :
    (c.step t dbOk action).queue =
      match action with
      | .enqueue task => if c.stopped then c.queue else c.queue ++ [task]
      | _ => c.queue := by
  cases action <;> simp only [Core.step, Core.reserve, Core.erase, Core.store] <;>
    (repeat' split) <;> rfl

theorem Core.step_job :
    (c.step t dbOk action).job =
      match action with
      | .eraseSession fd =>
        Option.elim (c.table.find? fun x => x.fd = fd) c.job fun x =>
          Function.update c.job t (some (.removal x))
      | .checkGeneration task =>
        if c.generation task.session.id = task.genAtDispatch then
          Function.update c.job t (some (.task task))
        else c.job
      | .dropSession _ => Function.update c.job t none
      | _ => c.job := by
  cases action with
  | eraseSession fd =>
    simp only [Core.step]
    cases c.table.find? fun x => x.fd = fd <;> rfl
  | _ => simp only [Core.step, Core.reserve, Core.store] <;> (repeat' split) <;> rfl

/-- Rows are never removed. -/
theorem Core.step_users {name : String} (h : Has c.users name) :
    Has (c.step t dbOk action).users name := by
  cases action with
  | registerUser username hash =>
    obtain ⟨user, member, same⟩ := h
    simp only [Core.step, Database.registerUser]
    (repeat' split) <;> exact ⟨user, by simp [member], same⟩
  | _ =>
    simp only [Core.step, Core.reserve, Core.erase, Core.store]
    (repeat' split) <;> exact h

end

/-! ## Session objects in use -/

/-- Session objects in the table, in the queue and at work have been made. -/
structure Allocated (c : Core) : Prop where
  table : ∀ x ∈ c.table, x.id < c.nextId
  queue : ∀ task ∈ c.queue, task.session.id < c.nextId
  jobs : ∀ t j, c.job t = some j → j.session.id < c.nextId

/-- The tasks an action hands on are those of sessions in use. -/
def Placed (c : Core) : Act → Prop
  | .enqueue task => task.session.id < c.nextId
  | .checkGeneration task => task.session.id < c.nextId
  | _ => True

theorem job_cases {c : Core} {t other : Nat} {dbOk : Bool} {action : Act} {j : Job}
    (busy : (c.step t dbOk action).job other = some j) :
    c.job other = some j ∨ other = t ∧
      ((∃ task, action = .checkGeneration task ∧ j = .task task ∧
          c.generation task.session.id = task.genAtDispatch) ∨
        ∃ x, action = .eraseSession x.fd ∧ j = .removal x ∧ x ∈ c.table) := by
  have updated : ∀ value, Function.update c.job t value other = some j →
      c.job other = some j ∨ other = t ∧ value = some j := by
    intro value same
    by_cases actor : other = t
    · subst actor
      rw [Function.update_self] at same
      exact Or.inr ⟨rfl, same⟩
    · rw [Function.update_of_ne actor] at same
      exact Or.inl same
  rw [Core.step_job] at busy
  cases action with
  | eraseSession fd =>
    dsimp only at busy
    cases found : c.table.find? fun x => x.fd = fd with
    | none =>
      rw [found] at busy
      exact Or.inl busy
    | some x =>
      rw [found] at busy
      refine (updated _ busy).imp_right fun ⟨actor, same⟩ => ⟨actor, Or.inr ⟨x, ?_, ?_, ?_⟩⟩
      · have own : x.fd = fd := by simpa using List.find?_some found
        rw [own]
      · exact (Option.some.inj same).symm
      · exact List.mem_of_find?_eq_some found
  | checkGeneration task =>
    dsimp only at busy
    split at busy
    next current =>
      refine (updated _ busy).imp_right fun ⟨actor, same⟩ => ⟨actor, Or.inl ⟨task, rfl, ?_, current⟩⟩
      exact (Option.some.inj same).symm
    · exact Or.inl busy
  | dropSession x => exact (updated _ busy).imp_right fun ⟨_, same⟩ => nomatch same
  | _ => exact Or.inl busy

theorem Allocated.step {c : Core} (allocated : Allocated c) (t : Nat) (dbOk : Bool) {action : Act}
    (placed : Placed c action) : Allocated (c.step t dbOk action) := by
  have grows := Core.nextId_le c t dbOk action
  refine ⟨fun x member => ?_, fun task member => ?_, fun other j busy => ?_⟩
  · rw [Core.step_table] at member
    have older : x ∈ c.table → x.id < (c.step t dbOk action).nextId :=
      fun old => Nat.lt_of_lt_of_le (allocated.table x old) grows
    cases action with
    | storeSession fd ip =>
      rcases List.mem_cons.mp member with new | old
      · rw [new]
        exact Nat.lt_succ_self c.nextId
      · exact older (List.mem_filter.mp old).1
    | eraseSession fd =>
      dsimp only at member
      cases found : c.table.find? fun y => y.fd = fd with
      | none =>
        rw [found] at member
        exact older member
      | some y =>
        rw [found] at member
        exact older (List.mem_filter.mp member).1
    | _ => exact older member
  · rw [Core.step_queue] at member
    have older : task ∈ c.queue → task.session.id < (c.step t dbOk action).nextId :=
      fun old => Nat.lt_of_lt_of_le (allocated.queue task old) grows
    cases action with
    | enqueue new =>
      dsimp only at member
      split at member
      · exact older member
      · rcases List.mem_append.mp member with old | last
        · exact older old
        · rw [List.mem_singleton.mp last]
          exact Nat.lt_of_lt_of_le placed grows
    | _ => exact older member
  · refine Nat.lt_of_lt_of_le ?_ grows
    rcases job_cases busy with old | ⟨_, ⟨task, rfl, rfl, _⟩ | ⟨x, _, rfl, member⟩⟩
    · exact allocated.jobs other j old
    · exact placed
    · exact allocated.table x member

theorem job_other {c : Core} {t other : Nat} {dbOk : Bool} {action : Act} (differs : other ≠ t) :
    (c.step t dbOk action).job other = c.job other := by
  rw [Core.step_job]
  cases action with
  | eraseSession fd =>
    dsimp only
    cases c.table.find? fun x => x.fd = fd with
    | none => rfl
    | some x => exact Function.update_of_ne differs _ _
  | checkGeneration task =>
    dsimp only
    split
    · exact Function.update_of_ne differs _ _
    · rfl
  | dropSession x => exact Function.update_of_ne differs _ _
  | _ => rfl

/-- Actions that leave the core alone. -/
def Neutral : Act → Prop
  | .setUsername _ _ => False
  | .clearUsername _ => False
  | .reserveForRegister _ => False
  | .reserveForLogin _ => False
  | .releaseReservation _ => False
  | .cleanupLoginReservation _ => False
  | .insertOnline _ => False
  | .eraseOnline _ => False
  | .registerUser _ _ => False
  | .storeSession _ _ => False
  | .eraseSession _ => False
  | .enqueue _ => False
  | .checkGeneration _ => False
  | .dropSession _ => False
  | _ => True

theorem Core.step_neutral {action : Act} (h : Neutral action) (c : Core) (t : Nat) (dbOk : Bool) :
    c.step t dbOk action = c := by
  cases action with
  | setUsername | clearUsername | reserveForRegister | reserveForLogin | releaseReservation |
    cleanupLoginReservation | insertOnline | eraseOnline | registerUser | storeSession |
    eraseSession | enqueue | checkGeneration | dropSession => cases h
  | _ => rfl

/-- Which job and which reservation the threads have after an action. -/
theorem record_job (aux : Aux) (t : Nat) (s : Server) (action : Act) (result : action.Res) :
    (aux.record t s action result).job =
      match action, result with
      | .checkGeneration task, current =>
        if current then Function.update aux.job t (some (.task task)) else aux.job
      | .eraseSession _, removed =>
        Option.elim removed aux.job fun x => Function.update aux.job t (some (.removal x))
      | .dropSession _, _ => Function.update aux.job t none
      | _, _ => aux.job := by
  cases action with
  | checkGeneration task => simp only [Aux.record, Aux.beginTask]; split <;> rfl
  | eraseSession fd => cases result <;> rfl
  | isAuthenticated session => simp only [Aux.record, Aux.passGate]; (repeat' split) <;> rfl
  | reserveForRegister => simp only [Aux.record, Aux.reserve]; split <;> rfl
  | reserveForLogin => simp only [Aux.record, Aux.reserve]; split <;> rfl
  | sendMsg session locked msg => simp only [Aux.record]; split <;> rfl
  | _ => rfl

theorem record_reservedBy (aux : Aux) (t : Nat) (s : Server) (action : Act) (result : action.Res) :
    (aux.record t s action result).reservedBy =
      match action, result with
      | .reserveForRegister username, reserved =>
        if reserved then Function.update aux.reservedBy t (some username) else aux.reservedBy
      | .reserveForLogin username, outcome =>
        if ReserveOutcome.isReserved outcome then Function.update aux.reservedBy t (some username)
        else aux.reservedBy
      | .releaseReservation _, _ => Function.update aux.reservedBy t none
      | .dropSession _, _ => Function.update aux.reservedBy t none
      | _, _ => aux.reservedBy := by
  cases action with
  | checkGeneration task => simp only [Aux.record, Aux.beginTask]; split <;> rfl
  | eraseSession fd => cases result <;> rfl
  | isAuthenticated session => simp only [Aux.record, Aux.passGate]; (repeat' split) <;> rfl
  | reserveForRegister => simp only [Aux.record, Aux.reserve]; split <;> rfl
  | reserveForLogin => simp only [Aux.record, Aux.reserve]; split <;> rfl
  | sendMsg session locked msg => simp only [Aux.record]; split <;> rfl
  | _ => rfl

theorem taken_eq (s : Shared) (username : String) :
    (coreOf s).taken username = (s.server.findSession username).isSome := rfl

theorem find_eq (s : Shared) (fd : Nat) :
    ((coreOf s).table.find? fun x => x.fd = fd) = s.server.findByFd fd := rfl

theorem exec_eraseSession (w : World) (fd : Nat) (s : Server) :
    (Act.exec w (.eraseSession fd) s).1 = s.findByFd fd := by
  simp only [Act.exec, Server.eraseSession]
  cases s.findByFd fd <;> rfl

theorem ite_eq_update {α : Type} (f : Nat → α) (k : Nat) (v : α) :
    (fun id => if id = k then v else f id) = Function.update f k v :=
  funext fun id => (Function.update_apply f k v id).symm

/-- The threads of the server act on the core as `Core.step` says. -/
theorem coreOf_exec (t : Nat) (w : World) (action : Act) (s : Shared) :
    coreOf (execShared t w action s).2 = (coreOf s).step t w.dbOk action := by
  have names := funext fun id => exec_username w action s.server id
  have generations := funext fun id => exec_generation w action s.server id
  unfold coreOf execShared
  dsimp only
  rw [exec_sessions, exec_nextId, exec_nextGeneration, names, generations, exec_onlineUsers,
    exec_loginInProgress, exec_db, exec_tasks, exec_poolStop, exec_hasDisconnectHandler,
    record_job, record_reservedBy]
  clear names generations
  cases action with
  | setUsername session name =>
    simp only [ite_eq_update, Core.step]
  | clearUsername session =>
    simp only [ite_eq_update, Core.step]
  | reserveForRegister username =>
    simp only [Act.exec, Core.step, Core.reserve]
    by_cases held : username ∈ s.server.loginInProgress <;> simp [held]
  | reserveForLogin username =>
    have taken := taken_eq s username
    unfold coreOf at taken
    simp only [Act.exec, Core.step, Core.reserve, taken]
    by_cases held : username ∈ s.server.loginInProgress
    · simp [held, ReserveOutcome.isReserved]
    · by_cases found : (s.server.findSession username).isSome = true <;>
        simp [held, found, ReserveOutcome.isReserved]
  | cleanupLoginReservation username =>
    simp only [Core.step]
    split <;> rfl
  | insertOnline username =>
    simp only [Core.step]
    split <;> rfl
  | registerUser username hash =>
    simp only [Core.step, Database.registerUser]
    (repeat' split) <;> rfl
  | storeMessage sender toUser content timestamp =>
    simp only [Core.step, Database.storeMessage]
    split <;> rfl
  | storeSession fd ip =>
    simp only [ite_eq_update, Core.step, Core.store]
  | eraseSession fd =>
    have removed := exec_eraseSession w fd s.server
    have found := find_eq s fd
    unfold coreOf at found
    simp only [Core.step, Core.erase, removed, found]
    cases scan : s.server.findByFd fd with
    | none =>
      have other : ∀ x ∈ s.server.sessions, ¬ x.fd = fd := by
        intro x member
        simpa using List.find?_eq_none.mp scan x member
      simpa using other
    | some x =>
      have own : x.fd = fd := by simpa using List.find?_some scan
      subst own
      simp [ite_eq_update]
  | enqueue task =>
    simp only [Core.step]
    split <;> rfl
  | checkGeneration task =>
    simp only [Core.step, Act.exec]
    by_cases current : (s.server.heap task.session.id).generation = task.genAtDispatch <;>
      simp [current]
  | _ => rfl

end LinuxChat.Guarantees
