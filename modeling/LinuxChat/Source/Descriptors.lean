import Mathlib.Data.List.Basic
import Mathlib.Logic.Function.Basic

/-!
# Descriptors of the server

server/src/epoll_server.cpp:75-135, 187-352 and server/include/client_session.h:32-43 as far
as they open, own and close the descriptors of `socket` and `accept4`. A session lives as long
as a reference to it: in `sessions_`, on the stack of the event loop, or with a task or a
sender; the last one closes its `fd`. The rest of the process opens and closes descriptors of
its own at any time. `main` calls `run` once and catches what it throws, so that the
destructor follows. Memory does not run out.
-/

namespace LinuxChat.Source

/-- The number that `socket` or `accept4` returned, and which file it opened; there is one
`ClientSession` for every accepted file. -/
structure Descriptor where
  number : Nat
  file : Nat
  deriving DecidableEq, Repr

/-- Where the thread of `run` and of the destructor is. -/
inductive FdPosition where
  | constructed
  | binding
  | listening
  | polling
  | accepting
  -- handle_new_connection has made the session
  | registering (session : Descriptor)
  | refused (session : Descriptor)
  | abandoned (session : Descriptor)
  -- handle_client_event
  | handling (session : Descriptor)
  | removing (session : Descriptor) (removed : Option Descriptor)
  | leaving (session : Descriptor)
  | returned
  | clearing
  | destroyed
  deriving DecidableEq, Repr

/-- The sessions that the local variables refer to. -/
def FdPosition.stack : FdPosition → List Descriptor
  | registering session => [session]
  | refused session => [session]
  | abandoned session => [session]
  | handling session => [session]
  | removing session removed => session :: removed.toList
  | leaving session => [session]
  | _ => []

/-- A call of `close`: for which descriptor, what the number stood for, and whether somebody
still referred to the session. -/
structure Closing where
  descriptor : Descriptor
  found : Option Nat
  owned : Bool
  deriving DecidableEq, Repr

/-- The server as far as descriptors go: the files it has open, the sessions that own one, where
the event loop is, and what has been closed. Files are counted, so that a number that is used
again is another file. -/
structure Process where
  -- the open files by number, and the next file
  table : Nat → Option Nat := fun _ => none
  born : Nat := 0
  position : FdPosition := .constructed
  listenFd : Option Descriptor := none
  -- sessions_
  sessions : List Descriptor := []
  -- the references of tasks and senders
  held : List Descriptor := []
  -- history
  acquired : List Descriptor := []
  closings : List Closing := []

namespace Process

/-- The sessions that something still refers to: the table, the event loop's own variables, or a
worker. -/
def owners (p : Process) : List Descriptor := p.sessions ++ p.position.stack ++ p.held

/-- The next descriptor, under a number that is not open. -/
def opened (p : Process) (number : Nat) : Process :=
  { p with
    table := Function.update p.table number (some p.born)
    born := p.born + 1
    acquired := p.acquired ++ [⟨number, p.born⟩] }

/-- `close(descriptor.number)`. -/
def close (p : Process) (descriptor : Descriptor) : Process :=
  { p with
    table := Function.update p.table descriptor.number none
    closings := p.closings ++
      [⟨descriptor, p.table descriptor.number, decide (descriptor ∈ p.owners)⟩] }

/-- A reference is gone; `~ClientSession` runs where it was the last. -/
def dropped (p : Process) (session : Descriptor) : Process :=
  if session ∈ p.owners then p else p.close session

/-- `sessions_[client_fd] = std::move(session)`. -/
def store (p : Process) (session : Descriptor) : Process :=
  let replaced := p.sessions.filter fun other => other.number = session.number
  let stored :=
    { p with
      position := .accepting
      sessions := (p.sessions.filter fun other => other.number ≠ session.number) ++ [session] }
  replaced.foldl dropped stored

/-- The session in the table for a descriptor number. -/
def find (p : Process) (number : Nat) : Option Descriptor :=
  p.sessions.find? fun session => session.number = number

end Process

/-- What happens to descriptors, one event for each call or block that opens, hands on or gives up
one; the arguments are the answers of the kernel. -/
inductive FdEvent where
  -- run
  | socket (number : Option Nat)
  | bind (ok : Bool)
  | listen (ok : Bool)
  | leaveLoop
  -- handle_new_connection
  | newConnection
  | accept (number : Option Nat)
  | epollAdd (ok : Bool)
  | closeRefused
  | nextConnection
  -- handle_client_event; an exception leaves run
  | clientEvent (number : Nat)
  | dispatch
  | removeClient
  | endRemove
  | endClientEvent (raised : Bool)
  -- tasks and senders
  | hold (number : Nat)
  | release (session : Descriptor)
  -- ~EpollServer
  | destroy
  | clear (session : Descriptor)
  | closeListen
  -- the rest of the process
  | openOther (number : Nat)
  | closeOther (number : Nat)
  deriving DecidableEq, Repr

open Process FdPosition

/-- The next state, or none where the event cannot happen. -/
def FdEvent.step (event : FdEvent) (p : Process) : Option Process :=
  match event with
  | .socket none =>
    if p.position = .constructed then some { p with position := .returned } else none
  | .socket (some number) =>
    if p.position = .constructed ∧ p.table number = none then
      some { p.opened number with listenFd := some ⟨number, p.born⟩, position := .binding }
    else none
  | .bind true => if p.position = .binding then some { p with position := .listening } else none
  | .bind false =>
    match p.position, p.listenFd with
    | .binding, some listenFd => some (close { p with position := .returned } listenFd)
    | _, _ => none
  | .listen true => if p.position = .listening then some { p with position := .polling } else none
  | .listen false =>
    match p.position, p.listenFd with
    | .listening, some listenFd => some (close { p with position := .returned } listenFd)
    | _, _ => none
  | .leaveLoop => if p.position = .polling then some { p with position := .returned } else none
  | .newConnection =>
    if p.position = .polling then some { p with position := .accepting } else none
  | .accept none =>
    if p.position = .accepting then some { p with position := .polling } else none
  | .accept (some number) =>
    if p.position = .accepting ∧ p.table number = none then
      some { p.opened number with position := .registering ⟨number, p.born⟩ }
    else none
  | .epollAdd true =>
    match p.position with
    | .registering session => some (p.store session)
    | _ => none
  | .epollAdd false =>
    match p.position with
    | .registering session => some { p with position := .refused session }
    | _ => none
  | .closeRefused =>
    match p.position with
    | .refused session => some (close { p with position := .abandoned session } session)
    | _ => none
  | .nextConnection =>
    match p.position with
    | .abandoned session => some (dropped { p with position := .accepting } session)
    | _ => none
  | .clientEvent number =>
    if p.position = .polling then
      match p.find number with
      | none => some p
      | some session => some { p with position := .handling session }
    else none
  | .dispatch =>
    match p.position with
    | .handling session => some { p with held := session :: p.held }
    | _ => none
  | .removeClient =>
    match p.position with
    | .handling session =>
      some { p with
        position := .removing session (p.find session.number)
        sessions := p.sessions.filter fun other => other.number ≠ session.number }
    | _ => none
  | .endRemove =>
    match p.position with
    | .removing session none => some { p with position := .leaving session }
    | .removing session (some removed) =>
      some (dropped { p with position := .leaving session } removed)
    | _ => none
  | .endClientEvent raised =>
    match p.position with
    | .handling session =>
      some (dropped { p with position := if raised then .returned else .polling } session)
    | .leaving session => some (dropped { p with position := .polling } session)
    | _ => none
  | .hold number =>
    match p.find number with
    | none => some p
    | some session => some { p with held := session :: p.held }
  | .release session =>
    if session ∈ p.held then some (dropped { p with held := p.held.erase session } session)
    else none
  | .destroy =>
    if p.position = .constructed ∨ p.position = .returned then some { p with position := .clearing }
    else none
  | .clear session =>
    if p.position = .clearing ∧ session ∈ p.sessions then
      some (dropped { p with sessions := p.sessions.filter (· ≠ session) } session)
    else none
  | .closeListen =>
    if p.position = .clearing ∧ p.sessions = [] then
      match p.listenFd with
      | none => some { p with position := .destroyed }
      | some listenFd => some (close { p with position := .destroyed } listenFd)
    else none
  | .openOther number =>
    if p.table number = none then
      some { p with table := Function.update p.table number (some p.born), born := p.born + 1 }
    else none
  | .closeOther number =>
    match p.table number with
    | none => none
    | some file =>
      if ∀ descriptor ∈ p.acquired, descriptor.file ≠ file then
        some { p with table := Function.update p.table number none }
      else none

/-- A run of such events, as long as each of them is possible where it comes. -/
def runFds : List FdEvent → Process → Option Process
  | [], p => some p
  | event :: rest, p =>
    match event.step p with
    | none => none
    | some next => runFds rest next

end LinuxChat.Source
