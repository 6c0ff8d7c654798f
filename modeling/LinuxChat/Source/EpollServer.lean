import LinuxChat.Source.MessageRouter

/-!
# Event loop, worker tasks and the running server

server/src/epoll_server.cpp and the handlers that server/main.cpp:89-102
registers. Thread 0 is the event loop of `run()`, every other thread a pool
worker that takes the oldest task (server/src/thread_pool.cpp:11-35). The event loop
may meet any event at any time: an accept, readable bytes or a hang-up on any fd,
the heartbeat. An exception that leaves the event loop's program leaves `run()`;
such a thread starts nothing any more.

`Aux` holds history variables. They are written next to the actions and read by
no program: which job a thread is doing, the name its connection had when `route`
admitted the message, whether it has read its sender name yet, which name it has
put into `login_in_progress_` and not yet taken out, and the chat rows and frames
it produced.
-/

namespace LinuxChat.Source

open LinuxChat.Lib

/-! ## Event loop -/

/-- The disconnect handler of main.cpp. -/
def disconnectHandler (session : SessionRef) : Proc Unit := do
  let pending : String ← perform (.getPendingLogin session)
  if !pending.isEmpty then
    perform (.cleanupLoginReservation pending)
    perform (.clearPendingLogin session)
  handleLogout session

/-- `EpollServer::remove_client` (server/src/epoll_server.cpp:309-352): the session leaves the
table, its generation is raised, and the disconnect handler of `main` runs. -/
def removeClient (fd : Nat) : Proc Unit := do
  let removed : Option SessionRef ← perform (.eraseSession fd)
  match removed with
  | none => pure ()
  | some session =>
    let registered : Bool ← perform .hasDisconnectHandler
    if registered then (disconnectHandler session).tryCatch fun _ => pure ()
    -- the reads of the log line
    let authenticated : Bool ← perform (.isAuthenticated session)
    if authenticated then
      let _ ← perform (.getUsername session)
    perform (.dropSession session)

/-- `ThreadPool::enqueue` (server/src/thread_pool.cpp:48-58): it throws once the pool is stopping.
-/
def enqueueTask (task : Task) : Proc Unit := do
  let accepted : Bool ← perform (.enqueue task)
  if accepted then pure ()
  else .raise (.runtimeError "ThreadPool: enqueue called after stop")

/-- One round of the dispatch loop: the diagnostic for unauthenticated sessions
reads the type, outside any handler. -/
def dispatchOne (session : SessionRef) (msg : Json) : Proc Unit := do
  let authenticated : Bool ← perform (.isAuthenticated session)
  if !authenticated then
    let _ ← valueOf msg "type" ""
  let registered : Bool ← perform .hasMessageHandler
  if registered then
    let genAtDispatch : Nat ← perform (.generation session)
    enqueueTask ⟨session, genAtDispatch, msg⟩

/-- The dispatch loop of `handle_client_event` (server/src/epoll_server.cpp:278-306), message by
message. -/
def dispatch (session : SessionRef) : List Json → Proc Unit
  | [] => pure ()
  | msg :: rest => do
    dispatchOne session msg
    dispatch session rest

/-- `EpollServer::handle_client_event` (server/src/epoll_server.cpp:257-307): the messages of one
`recv_msgs` are dispatched; where it gives up, the client is removed. -/
def handleClientEvent (fd : Nat) : Proc Unit := do
  let found : Option SessionRef ← perform (.findByFd fd)
  match found with
  | none => pure ()
  | some session =>
    let received : Except Exn (Option (List Json)) ← perform (.recvMsgs session)
    let msgs ← .ofExcept received
    match msgs with
    | none => removeClient fd
    | some msgs => dispatch session msgs

/-- One accepted connection of `handle_new_connection`. -/
def handleNewConnection (fd : Nat) (ipAddress : String) : Proc Unit :=
  perform (.storeSession fd ipAddress)

/-- The PING that `run()` sends to all connections when `epoll_wait` has timed out. -/
def heartbeat : Proc Unit :=
  broadcast (.object [("type", .string "PING")]) ""

/-- The worker lambda, up to the destruction of its captures. -/
def runTask (task : Task) : Proc Unit := do
  let current : Bool ← perform (.checkGeneration task)
  if current then (route task.session task.msg).tryCatch fun _ => pure ()
  perform (.dropSession task.session)

/-- What `run()` can meet (server/src/epoll_server.cpp:164-195): a connection to accept, a client
with input or an error, and the time for a heartbeat. -/
inductive Event where
  | newConnection (fd : Nat) (ipAddress : String)
  | client (fd : Nat)
  | heartbeat

/-- What `run()` executes for the event. -/
def Event.program : Event → Proc Unit
  | newConnection fd ipAddress => handleNewConnection fd ipAddress
  | client fd => handleClientEvent fd
  | heartbeat => Source.heartbeat

/-! ## History variables -/

/-- What a thread is working on, for whom: a task of a worker, or the removal of a client by the
event loop. -/
inductive Job where
  | task (task : Task)
  | removal (session : SessionRef)

/-- The session that the job is about. -/
def Job.session : Job → SessionRef
  | .task work => work.session
  | .removal removed => removed

/-- A chat message stored or sent, under which name, and the name that the session had when its
gate was passed. -/
structure Emission where
  sender : String
  admittedAs : Option String

/-- Per thread: its job, the name at the gate of its task, whether it has read the sender since,
and the name it has reserved; and all that was emitted. No program reads any of it. -/
structure Aux where
  job : Nat → Option Job := fun _ => none
  admitted : Nat → Option String := fun _ => none
  senderRead : Nat → Bool := fun _ => false
  reservedBy : Nat → Option String := fun _ => none
  emitted : List Emission := []

/-- The `type` of a message, empty where it is missing or not readable. -/
def Json.typeOf (msg : Json) : String :=
  match msg.value "type" "" with
  | .ok type => type
  | .error _ => ""

/-- The `from` of a frame. -/
def Json.senderOf (msg : Json) : String :=
  match msg.value "from" "" with
  | .ok sender => sender
  | .error _ => ""

/-- The reservation was made. -/
def ReserveOutcome.isReserved : ReserveOutcome → Bool
  | .reserved => true
  | _ => false

/-- The types of the frames that carry what a user wrote. -/
def isChatType (type : String) : Bool := type = "BROADCAST" || type = "PRIVATE"

/-- The types of the requests that change who a session belongs to. -/
def isAuthType (type : String) : Bool :=
  type = "LOGIN" || type = "REGISTER" || type = "LOGOUT"

namespace Aux

/-- One more emission of the thread, under this name. -/
def emit (aux : Aux) (t : Nat) (sender : String) : Aux :=
  { aux with emitted := aux.emitted ++ [⟨sender, aux.admitted t⟩] }

/-- A worker whose generation check passed handles the task. -/
def beginTask (aux : Aux) (t : Nat) (task : Task) (current : Bool) : Aux :=
  if current then
    { aux with
      job := Function.update aux.job t (some (.task task))
      admitted := Function.update aux.admitted t none
      senderRead := Function.update aux.senderRead t false }
  else aux

/-- A removal is under way if the descriptor was in the table. -/
def beginRemoval (aux : Aux) (t : Nat) : Option SessionRef → Aux
  | some session => { aux with job := Function.update aux.job t (some (.removal session)) }
  | none => aux

/-- The first `is_authenticated` of a task is the gate of `route`. -/
def passGate (aux : Aux) (t : Nat) (name : String) (authenticated : Bool) : Aux :=
  match aux.job t, aux.admitted t with
  | some (.task _), none =>
    if authenticated then { aux with admitted := Function.update aux.admitted t (some name) }
    else aux
  | _, _ => aux

/-- The thread has reserved the name, if the reservation was made. -/
def reserve (aux : Aux) (t : Nat) (username : String) (reserved : Bool) : Aux :=
  if reserved then { aux with reservedBy := Function.update aux.reservedBy t (some username) }
  else aux

/-- Nothing is reserved by the thread any more. -/
def unreserve (aux : Aux) (t : Nat) : Aux :=
  { aux with reservedBy := Function.update aux.reservedBy t none }

/-- A thread is done with its job. -/
def finish (aux : Aux) (t : Nat) : Aux :=
  { aux with
    job := Function.update aux.job t none
    admitted := Function.update aux.admitted t none
    reservedBy := Function.update aux.reservedBy t none }

/-- History of an action of thread `t`, from its result and the state before it. -/
def record (aux : Aux) (t : Nat) (s : Server) : (action : Act) → action.Res → Aux
  | .checkGeneration task, current => aux.beginTask t task current
  | .eraseSession _, removed => aux.beginRemoval t removed
  | .dropSession _, _ => aux.finish t
  | .isAuthenticated session, authenticated => aux.passGate t (s.name session) authenticated
  | .getUsername _, _ => { aux with senderRead := Function.update aux.senderRead t true }
  | .reserveForRegister username, reserved => aux.reserve t username reserved
  | .reserveForLogin username, outcome =>
    aux.reserve t username (ReserveOutcome.isReserved outcome)
  | .releaseReservation _, _ => aux.unreserve t
  | .storeMessage sender _ _ _, _ => aux.emit t sender
  | .sendMsg _ _ msg, _ => if isChatType msg.typeOf then aux.emit t msg.senderOf else aux
  | _, _ => aux

end Aux

/-! ## The running server -/

/-- The state that all threads share: the server, and the history variables beside it. -/
structure Shared where
  server : Server := {}
  aux : Aux := {}

/-- An action of thread `t`: what it does to the server, and the record of it. -/
def execShared (t : Nat) (w : World) (action : Act) (s : Shared) : action.Res × Shared :=
  let out := action.exec w s.server
  (out.1, ⟨out.2, s.aux.record t s.server action out.1⟩)

/-- `accept` returns a descriptor that no open connection has. -/
def Event.possible (s : Server) : Event → Prop
  | newConnection fd _ => ∀ session ∈ s.sessions, session.fd ≠ fd
  | _ => True

/-- What an idle thread may start: thread 0 any event; a worker the oldest task. -/
inductive Start (workers : Nat) : Nat → Proc Unit → Shared → Shared → Prop
  | event (e : Event) (s : Shared) (possible : e.possible s.server) :
      Start workers 0 e.program s s
  | task {t : Nat} {s : Shared} {task : Task} {rest : List Task}
      (worker : 0 < t) (inPool : t ≤ workers) (queued : s.server.tasks = task :: rest) :
      Start workers t (runTask task) s { s with server := { s.server with tasks := rest } }

/-- The server with `workers` pool threads. -/
def machine (workers : Nat) : Machine serverInterface Exn Shared World where
  exec := execShared
  spawn := Start workers

/-- What main.cpp starts from: no connection, an existing database. -/
def boot (db : Database) : Config serverInterface Exn Shared where
  shared := { server := { db := db } }
  thread := fun _ => .ret ()

end LinuxChat.Source
