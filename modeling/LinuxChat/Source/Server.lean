import LinuxChat.Lib.RelyGuarantee
import LinuxChat.Source.Protocol
import LinuxChat.Source.Database

/-!
# Server state and atomic actions

The data members of `EpollServer` (server/include/epoll_server.h:68-88) and
`MessageRouter` (server/include/message_router.h:75-98) with the heap of
`ClientSession` objects and the database, and the atomic actions on them: each
mutex-protected block, each accessor of a session, each database call, each send
and each call to the outside. `server_` is never null here, as main.cpp sets it
before `run()`. Generations are unbounded counters. `sent` records every frame
handed to `send_msg`, in order, whether or not the peer gets it.
-/

namespace LinuxChat.Source

open LinuxChat.Lib

/-! ## Rate limiting: message_router.cpp:163-205 -/

/-- Times of the steady clock are nanoseconds since its epoch; a default
`time_point` is 0. -/
def seconds (n : Nat) : Nat := n * 10 ^ 9

/-- The record of an address (server/include/message_router.h:89-98): how many failures, since
when, and until when it is blocked. A new one is not blocked: zero is the epoch. -/
structure LoginAttempt where
  count : Nat := 0
  firstAttempt : Nat := 0
  blockedUntil : Nat := 0
  deriving DecidableEq, Repr

/-- The records of all addresses that have one. -/
abbrev LoginAttempts := String → Option LoginAttempt

/-- The failures that lead to a block. -/
def maxLoginAttempts : Nat := 5

/-- How long a block lasts, in seconds. -/
def blockDurationSec : Nat := 300

/-- `MessageRouter::is_rate_limited` (server/src/message_router.cpp:163-178), which also drops a
record whose block is over. -/
def isRateLimited (attempts : LoginAttempts) (now : Nat) (ip : String) : Bool × LoginAttempts :=
  match attempts ip with
  | none => (false, attempts)
  | some attempt =>
    if now > attempt.blockedUntil then (false, Function.update attempts ip none)
    else (attempt.count ≥ maxLoginAttempts, attempts)

/-- `MessageRouter::record_failed_login` (server/src/message_router.cpp:180-200): a failure more
than a minute after the first begins a new count. -/
def recordFailedLogin (attempts : LoginAttempts) (now : Nat) (ip : String) : LoginAttempts :=
  let attempt := (attempts ip).getD {}
  let attempt :=
    if attempt.count > 0 ∧ now - attempt.firstAttempt > seconds 60 then { attempt with count := 0 }
    else attempt
  let attempt := if attempt.count = 0 then { attempt with firstAttempt := now } else attempt
  let attempt := { attempt with count := attempt.count + 1 }
  let attempt :=
    if attempt.count ≥ maxLoginAttempts then
      { attempt with blockedUntil := now + seconds blockDurationSec }
    else attempt
  Function.update attempts ip (some attempt)

/-- `MessageRouter::clear_login_attempts`, after a login that succeeded. -/
def clearLoginAttempts (attempts : LoginAttempts) (ip : String) : LoginAttempts :=
  Function.update attempts ip none

/-! ## State -/

/-- A task of the pool: the captures of the worker lambda. -/
structure Task where
  session : SessionRef
  genAtDispatch : Nat
  msg : Json

/-- The members of the server, the router, the database and the pool that the handlers work on,
and every frame sent so far. -/
structure Server where
  heap : Nat → ClientSession := fun _ => {}
  nextId : Nat := 0
  sessions : List SessionRef := []
  nextGeneration : Nat := 1
  hasMessageHandler : Bool := true
  hasDisconnectHandler : Bool := true
  tasks : List Task := []
  poolStop : Bool := false
  onlineUsers : List String := []
  loginInProgress : List String := []
  loginAttempts : LoginAttempts := fun _ => none
  db : Database := {}
  sent : List (SessionRef × Json) := []

/-- Exactly `n` octets. -/
structure Octets (n : Nat) where
  bytes : List UInt8
  length_eq : bytes.length = n

/-- All of them zero. -/
def Octets.zeros (n : Nat) : Octets n := ⟨List.replicate n 0, List.length_replicate⟩

/-- What the outside contributes to one action: the clocks, OpenSSL, SQLite, the
socket and the JSON parser. -/
structure World where
  now : Int
  steady : Nat
  sha256 : String → Option (Octets 32)
  rand : Option (Octets 16)
  dbOk : Bool
  order : OrderBy
  recvs : List RecvResult
  parse : Bytes → Parsed
  sendOk : Bool

/-- An outside that delivers nothing and refuses nothing but random octets. -/
instance : Inhabited World where
  default :=
    { now := 0
      steady := 0
      sha256 := fun _ => none
      rand := none
      dbOk := true
      order := .stable
      recvs := []
      parse := fun _ => .parseError
      sendOk := true }

/-- How the reservation of `handle_login` ends: another login of the name is under way, the name
is online, or it is reserved now. -/
inductive ReserveOutcome where
  | inProgress
  | alreadyOnline
  | reserved
  deriving DecidableEq, Repr

/-! ## Actions -/

/-- What the programs of the server do in one step. An action that takes a mutex is one because it
does so around all it reads and writes. -/
inductive Act where
  -- client_session.h
  | isAuthenticated (session : SessionRef)
  | getUsername (session : SessionRef)
  | setUsername (session : SessionRef) (name : String)
  | clearUsername (session : SessionRef)
  | getPendingLogin (session : SessionRef)
  | setPendingLogin (session : SessionRef) (name : String)
  | clearPendingLogin (session : SessionRef)
  -- blocks under login_mutex_
  | reserveForRegister (username : String)
  | reserveForLogin (username : String)
  | releaseReservation (username : String)
  | cleanupLoginReservation (username : String)
  -- blocks under online_mutex_
  | insertOnline (username : String)
  | eraseOnline (username : String)
  | listOnline
  -- blocks under rate_limit_mutex_
  | isRateLimited (ipAddress : String)
  | recordFailedLogin (ipAddress : String)
  | clearLoginAttempts (ipAddress : String)
  -- database calls
  | registerUser (username passwordHash : String)
  | getStoredHash (username : String)
  | storeMessage (sender toUser content : String) (timestamp : Int)
  | getHistory (requestor target : String) (limit : Int)
  -- blocks under sessions_mutex_
  | storeSession (fd : Nat) (ipAddress : String)
  | findByFd (fd : Nat)
  | eraseSession (fd : Nat)
  | findSession (username : String)
  | broadcastTargets (excludeUsername : String)
  -- event loop and pool
  | recvMsgs (session : SessionRef)
  | hasMessageHandler
  | hasDisconnectHandler
  | generation (session : SessionRef)
  | enqueue (task : Task)
  | checkGeneration (task : Task)
  | dropSession (session : SessionRef)
  -- a send, with or without the session's send_mutex_
  | sendMsg (session : SessionRef) (locked : Bool) (msg : Json)
  -- the outside
  | nowTimestamp
  | randBytes
  | sha256 (input : String)

/-- The result of an action. -/
@[reducible] def Act.Res : Act → Type
  | isAuthenticated _ => Bool
  | getUsername _ => String
  | setUsername _ _ => Unit
  | clearUsername _ => Unit
  | getPendingLogin _ => String
  | setPendingLogin _ _ => Unit
  | clearPendingLogin _ => Unit
  | reserveForRegister _ => Bool
  | reserveForLogin _ => ReserveOutcome
  | releaseReservation _ => Unit
  | cleanupLoginReservation _ => Unit
  | insertOnline _ => Unit
  | eraseOnline _ => Unit
  | listOnline => List String
  | isRateLimited _ => Bool
  | recordFailedLogin _ => Unit
  | clearLoginAttempts _ => Unit
  | registerUser _ _ => Bool
  | getStoredHash _ => String
  | storeMessage _ _ _ _ => Unit
  | getHistory _ _ _ => List Json
  | storeSession _ _ => Unit
  | findByFd _ => Option SessionRef
  | eraseSession _ => Option SessionRef
  | findSession _ => Option SessionRef
  | broadcastTargets _ => List SessionRef
  | recvMsgs _ => Except Exn (Option (List Json))
  | hasMessageHandler => Bool
  | hasDisconnectHandler => Bool
  | generation _ => Nat
  | enqueue _ => Bool
  | checkGeneration _ => Bool
  | dropSession _ => Unit
  | sendMsg _ _ _ => Bool
  | nowTimestamp => Int
  | randBytes => Option (Octets 16)
  | sha256 _ => Option (Octets 32)

/-- The actions with their results. -/
abbrev serverInterface : Interface := ⟨Act, Act.Res⟩

/-- A program of the server, which may end with a C++ exception. -/
abbrev Proc := Prog serverInterface Exn

namespace Server

/-- A change to one session object. -/
def modify (s : Server) (session : SessionRef) (f : ClientSession → ClientSession) : Server :=
  { s with heap := Function.update s.heap session.id (f (s.heap session.id)) }

/-- The username of a session object. -/
def name (s : Server) (session : SessionRef) : String := (s.heap session.id).username

/-- The entry of the table for a descriptor. -/
def findByFd (s : Server) (fd : Nat) : Option SessionRef :=
  s.sessions.find? fun session => session.fd = fd

/-- `EpollServer::find_session`: the first session in the table with that name. -/
def findSession (s : Server) (username : String) : Option SessionRef :=
  s.sessions.find? fun session => s.name session = username

/-- The recipients of `broadcast`. -/
def broadcastTargets (s : Server) (excludeUsername : String) : List SessionRef :=
  s.sessions.filter fun session =>
    (s.heap session.id).isAuthenticated &&
      (excludeUsername.isEmpty || s.name session ≠ excludeUsername)

/-- `next_generation_++` and the new session object, stored under its fd. -/
def storeSession (s : Server) (fd : Nat) (ipAddress : String) : Server :=
  let session : SessionRef := ⟨s.nextId, fd, ipAddress⟩
  { s with
    heap := Function.update s.heap s.nextId { generation := s.nextGeneration }
    nextId := s.nextId + 1
    nextGeneration := s.nextGeneration + 1
    sessions := session :: s.sessions.filter fun other => other.fd ≠ fd }

/-- Erase the session and bump its generation: the block of `remove_client`. -/
def eraseSession (s : Server) (fd : Nat) : Option SessionRef × Server :=
  match s.findByFd fd with
  | none => (none, s)
  | some session =>
    let s := { s with
      sessions := s.sessions.filter fun other => other.fd ≠ fd
      nextGeneration := s.nextGeneration + 1 }
    (some session, s.modify session fun c => { c with generation := s.nextGeneration })

end Server

/-- What each action does. A refused reservation is answered in the next action
of its handler, although the code still holds login_mutex_ there. -/
def Act.exec (w : World) : (action : Act) → Server → action.Res × Server
  | isAuthenticated session, s => ((s.heap session.id).isAuthenticated, s)
  | getUsername session, s => (s.name session, s)
  | setUsername session name, s => ((), s.modify session fun c => { c with username := name })
  | clearUsername session, s => ((), s.modify session fun c => { c with username := "" })
  | getPendingLogin session, s => ((s.heap session.id).pendingLogin, s)
  | setPendingLogin session name, s =>
    ((), s.modify session fun c => { c with pendingLogin := name })
  | clearPendingLogin session, s =>
    ((), s.modify session fun c => { c with pendingLogin := "" })
  | reserveForRegister username, s =>
    if username ∈ s.loginInProgress then (false, s)
    else (true, { s with loginInProgress := username :: s.loginInProgress })
  | reserveForLogin username, s =>
    if username ∈ s.loginInProgress then (.inProgress, s)
    else if (s.findSession username).isSome then (.alreadyOnline, s)
    else (.reserved, { s with loginInProgress := username :: s.loginInProgress })
  | releaseReservation username, s =>
    ((), { s with loginInProgress := s.loginInProgress.filter (· ≠ username) })
  | cleanupLoginReservation username, s =>
    if username.isEmpty then ((), s)
    else ((), { s with loginInProgress := s.loginInProgress.filter (· ≠ username) })
  | insertOnline username, s =>
    ((), { s with
      onlineUsers :=
        if username ∈ s.onlineUsers then s.onlineUsers else username :: s.onlineUsers })
  | eraseOnline username, s =>
    ((), { s with onlineUsers := s.onlineUsers.filter (· ≠ username) })
  | listOnline, s => (s.onlineUsers, s)
  | isRateLimited ipAddress, s =>
    let (limited, attempts) := Source.isRateLimited s.loginAttempts w.steady ipAddress
    (limited, { s with loginAttempts := attempts })
  | recordFailedLogin ipAddress, s =>
    ((), { s with loginAttempts := Source.recordFailedLogin s.loginAttempts w.steady ipAddress })
  | clearLoginAttempts ipAddress, s =>
    ((), { s with loginAttempts := Source.clearLoginAttempts s.loginAttempts ipAddress })
  | registerUser username passwordHash, s =>
    let (inserted, db) := s.db.registerUser w.dbOk username passwordHash
    (inserted, { s with db := db })
  | getStoredHash username, s => (s.db.getStoredHash w.dbOk username, s)
  | storeMessage sender toUser content timestamp, s =>
    ((), { s with db := s.db.storeMessage w.dbOk sender toUser content timestamp })
  | getHistory requestor target limit, s =>
    (s.db.getHistory w.order w.dbOk requestor target limit, s)
  | storeSession fd ipAddress, s => ((), s.storeSession fd ipAddress)
  | findByFd fd, s => (s.findByFd fd, s)
  | eraseSession fd, s => s.eraseSession fd
  | findSession username, s => (s.findSession username, s)
  | broadcastTargets excludeUsername, s => (s.broadcastTargets excludeUsername, s)
  | recvMsgs session, s =>
    let (result, after) := Source.recvMsgs w.parse (s.heap session.id) w.recvs
    (result, s.modify session fun _ => after)
  | hasMessageHandler, s => (s.hasMessageHandler, s)
  | hasDisconnectHandler, s => (s.hasDisconnectHandler, s)
  | generation session, s => ((s.heap session.id).generation, s)
  | enqueue task, s =>
    if s.poolStop then (false, s) else (true, { s with tasks := s.tasks ++ [task] })
  | checkGeneration task, s =>
    (decide ((s.heap task.session.id).generation = task.genAtDispatch), s)
  | dropSession _, s => ((), s)
  | sendMsg session _ msg, s => (w.sendOk, { s with sent := s.sent ++ [(session, msg)] })
  | nowTimestamp, s => (w.now, s)
  | randBytes, s => (w.rand, s)
  | sha256 input, s => (w.sha256 input, s)

end LinuxChat.Source
