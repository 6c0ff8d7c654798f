import LinuxChat.Lib.LockOrder
import LinuxChat.Source.EpollServer

/-!
# The mutexes of the server

Every action of a server program as the code that performs it, with each acquisition and
release of a mutex, and the programs of the running server made of these. The blocks are
those of server/include/client_session.h:45-91, message_router.cpp, epoll_server.cpp,
database.cpp and thread_pool.cpp. A session is destroyed with its last `shared_ptr`,
possibly under a mutex; its destructor closes a descriptor and acquires none.
-/

namespace LinuxChat.Source

open LinuxChat.Lib Prog

/-- The mutexes of the server, each named after what it guards; a session has three, the pool one.
-/
inductive Mutex where
  -- MessageRouter
  | login
  | online
  | rateLimit
  -- EpollServer
  | sessions
  -- Database; the only one that is also taken shared
  | db
  -- ThreadPool
  | pool
  -- ClientSession
  | send (id : Nat)
  | username (id : Nat)
  | pendingLogin (id : Nat)
  deriving DecidableEq

/-- What is done between two operations on mutexes: a whole action, or a part of one
whose block has others inside. -/
inductive Inner where
  | act (action : Act)
  | isInProgress (username : String)
  | insertInProgress (username : String)
  | table
  | popTask

/-- The result of a part. -/
@[reducible] def Inner.Res : Inner → Type
  | act action => action.Res
  | isInProgress _ => Bool
  | insertInProgress _ => Unit
  | table => List SessionRef
  | popTask => Option Task

/-- What a part does to the server; the parts of a block together do what the block does as one
action. -/
def Inner.exec (w : World) : (inner : Inner) → Server → inner.Res × Server
  | act action, s => action.exec w s
  | isInProgress username, s => (decide (username ∈ s.loginInProgress), s)
  | insertInProgress username, s =>
    ((), { s with loginInProgress := username :: s.loginInProgress })
  | table, s => (s.sessions, s)
  | popTask, s =>
    match s.tasks with
    | [] => (none, s)
    | task :: rest => (some task, { s with tasks := rest })

/-- Programs whose actions are parts and the taking and giving of mutexes. -/
abbrev LockProc := Prog (lockInterface ⟨Inner, Inner.Res⟩ Mutex) Exn

/-- One part, and its result. -/
abbrev doing (inner : Inner) : LockProc inner.Res := .act (.act inner) .ret

/-- The mutex that an action takes around the whole of what it does, and whether shared. -/
def Act.mutex : Act → Option (Mutex × Bool)
  | isAuthenticated session => some (.username session.id, false)
  | getUsername session => some (.username session.id, false)
  | setUsername session _ => some (.username session.id, false)
  | clearUsername session => some (.username session.id, false)
  | getPendingLogin session => some (.pendingLogin session.id, false)
  | setPendingLogin session _ => some (.pendingLogin session.id, false)
  | clearPendingLogin session => some (.pendingLogin session.id, false)
  | releaseReservation _ => some (.login, false)
  | cleanupLoginReservation username => if username.isEmpty then none else some (.login, false)
  | insertOnline _ => some (.online, false)
  | eraseOnline _ => some (.online, false)
  | listOnline => some (.online, false)
  | isRateLimited _ => some (.rateLimit, false)
  | recordFailedLogin _ => some (.rateLimit, false)
  | clearLoginAttempts _ => some (.rateLimit, false)
  | registerUser username _ => if username.isEmpty then none else some (.db, false)
  | getStoredHash _ => some (.db, true)
  | storeMessage _ _ _ _ => some (.db, false)
  | getHistory _ _ _ => some (.db, true)
  | storeSession _ _ => some (.sessions, false)
  | findByFd _ => some (.sessions, false)
  | eraseSession _ => some (.sessions, false)
  | enqueue _ => some (.pool, false)
  | sendMsg session locked _ => if locked then some (.send session.id, false) else none
  | _ => none

/-- An action under the mutex it takes, if it takes one. -/
def guarded (action : Act) : LockProc action.Res :=
  match action.mutex with
  | some (mutex, shared) => within mutex shared (doing (.act action))
  | none => doing (.act action)

/-! ## Blocks with others inside -/

/-- The loop of `find_session`. -/
def scanNames (username : String) : List SessionRef → LockProc (Option SessionRef)
  | [] => .ret none
  | session :: rest => do
    let name : String ← guarded (.getUsername session)
    if name = username then pure (some session) else scanNames username rest

/-- `find_session`. -/
def findSessionBlock (username : String) : LockProc (Option SessionRef) :=
  within .sessions false do
    let table : List SessionRef ← doing .table
    scanNames username table

/-- The loop of `broadcast` that selects its targets. -/
def scanTargets (excludeUsername : String) : List SessionRef → LockProc (List SessionRef)
  | [] => .ret []
  | session :: rest => do
    let authenticated : Bool ← guarded (.isAuthenticated session)
    if !authenticated then scanTargets excludeUsername rest
    else if excludeUsername.isEmpty then
      let targets ← scanTargets excludeUsername rest
      pure (session :: targets)
    else
      let name : String ← guarded (.getUsername session)
      let targets ← scanTargets excludeUsername rest
      pure (if name = excludeUsername then targets else session :: targets)

/-- The scan of `broadcast`, which copies the recipients while it has `sessions_mutex_`. -/
def broadcastTargetsBlock (excludeUsername : String) : LockProc (List SessionRef) :=
  within .sessions false do
    let table : List SessionRef ← doing .table
    scanTargets excludeUsername table

/-- The block of `handle_register`; a refusal is answered before `login_mutex_` is released. -/
def reserveForRegisterBlock (username : String) : LockProc Bool :=
  .act (.acquire .login false) fun _ => do
    let busy : Bool ← doing (.isInProgress username)
    if busy then pure false
    else
      doing (.insertInProgress username)
      .act (.release .login) fun _ => pure true

/-- The block of `handle_login`. -/
def reserveForLoginBlock (username : String) : LockProc ReserveOutcome :=
  .act (.acquire .login false) fun _ => do
    let busy : Bool ← doing (.isInProgress username)
    if busy then pure .inProgress
    else
      let found ← findSessionBlock username
      if found.isSome then pure .alreadyOnline
      else
        doing (.insertInProgress username)
        .act (.release .login) fun _ => pure .reserved

/-- The blocks that take further mutexes inside, part by part; any other action is one part under
its mutex. -/
def block : (action : Act) → LockProc action.Res
  | .findSession username => findSessionBlock username
  | .broadcastTargets excludeUsername => broadcastTargetsBlock excludeUsername
  | .reserveForRegister username => reserveForRegisterBlock username
  | .reserveForLogin username => reserveForLoginBlock username
  | action => guarded action

/-! ## Programs -/

/-- The action leaves `login_mutex_` with its thread. -/
def refuses : (action : Act) → action.Res → Bool
  | .reserveForRegister _, reserved => !reserved
  | .reserveForLogin _, outcome => !ReserveOutcome.isReserved outcome
  | _, _ => false

/-- Before it goes on the program gives up `login_mutex_`, if it still has it. -/
def releaseOwed {α : Type} (owed : Bool) (p : LockProc α) : LockProc α :=
  if owed then .act (.release .login) fun _ => p else p

/-- The program with its mutexes. `owed`: a refused reservation still has `login_mutex_`,
up to the end of the answer. -/
def expand {α : Type} : Bool → Proc α → LockProc α
  | owed, .ret value => releaseOwed owed (.ret value)
  | owed, .raise error => releaseOwed owed (.raise error)
  | owed, .act action next =>
    (block action).bind fun result =>
      releaseOwed owed (expand (refuses action result) (next result))

/-- A worker from one wait on its condition variable to the next. -/
def workerRound : LockProc Unit :=
  (within .pool false (doing .popTask)).bind fun taken : Option Task =>
    match taken with
    | none => .ret ()
    | some task => expand false (runTask task)

/-- What an idle thread may start; a worker may also wake up for nothing. -/
inductive LockStart (workers : Nat) :
    Nat → LockProc Unit → Server × Locks Mutex → Server × Locks Mutex → Prop
  | event (e : Event) (s : Server × Locks Mutex) (possible : e.possible s.1) :
      LockStart workers 0 (expand false e.program) s s
  | round {t : Nat} (s : Server × Locks Mutex) (worker : 0 < t) (inPool : t ≤ workers) :
      LockStart workers t workerRound s s

/-- The threads of the server, with every acquisition of a mutex a step of its own. -/
def lockMachine (workers : Nat) :
    Machine (lockInterface ⟨Inner, Inner.Res⟩ Mutex) Exn (Server × Locks Mutex) World where
  exec := locking fun _ => Inner.exec
  spawn := LockStart workers

/-- No mutex is held, and no thread has anything to do. -/
def lockBoot (db : Database) :
    Config (lockInterface ⟨Inner, Inner.Res⟩ Mutex) Exn (Server × Locks Mutex) where
  shared := ({ db := db }, fun _ => [])
  thread := fun _ => .ret ()

end LinuxChat.Source
