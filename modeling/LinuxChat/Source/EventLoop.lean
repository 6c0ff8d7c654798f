import Mathlib.Data.List.Basic

/-!
# The event loop and how it is stopped

`EpollServer::run` and `stop` (server/src/epoll_server.cpp:103-206) and the signal handler
that calls `stop` (server/main.cpp:30-37). Once the handler is installed it may be called at
any moment and on any thread, also before `run` sets `running_`, so calls of `stop` are
interleaved with the loop and with each other, line by line. Of the work for a ready
descriptor only that it may raise is kept. Nothing is ever read from the wakeup pipe.
-/

namespace LinuxChat.Source

/-- What `epoll_wait` reports. -/
inductive Ready where
  | wakeup
  | heartbeat
  | listening
  | client (fd : Nat)
  deriving DecidableEq, Repr

/-- What `epoll_wait` can return: ready descriptors, an interruption, or another failure. -/
inductive Polled where
  | events (ready : List Ready)
  -- EINTR
  | interrupted
  | failed
  deriving DecidableEq, Repr

/-- Where `run()` is, line by line as far as `stop()` and the wakeup pipe are concerned. -/
inductive LoopPosition where
  -- up to `running_ = true`
  | starting
  -- at `while (running_)`
  | checking
  | waiting
  | handling (ready : List Ready)
  | exited
  deriving DecidableEq, Repr

/-- Where a call of `stop` is; `found` is what it read of `running_`. -/
inductive StopCall where
  | testing
  | clearing
  | writing
  | finished (found : Bool)
  deriving DecidableEq, Repr

/-- The state that `run()` and `stop()` share: the flag, the octets in the wakeup pipe, and where
each of them is. -/
structure EventLoop where
  position : LoopPosition := .starting
  running : Bool := false
  -- octets in the wakeup pipe
  pipe : Nat := 0
  stops : List StopCall := []
  deriving DecidableEq, Repr

/-- The capacity of a pipe on Linux. -/
def pipeCapacity : Nat := 65536

/-- `MAX_EVENTS`: how many descriptors one `epoll_wait` reports at most. -/
def maxEvents : Nat := 64

/-- A move of `run()`, of a caller of `stop()`, or of the kernel. -/
inductive LoopMove where
  -- the listening socket is set up, or that throws
  | start (ok : Bool)
  | check
  | wait (polled : Polled)
  | handle (raised : Bool)
  -- a signal, and the next line of a call of `stop`
  | signal
  | stop (call : Nat)
  deriving DecidableEq, Repr

/-- A move of the thread of `run`. -/
def LoopMove.main : LoopMove → Bool
  | signal => false
  | stop _ => false
  | _ => true

namespace EventLoop

/-- `epoll_wait` reports at least one descriptor, and the wakeup pipe only when there is
something in it. -/
def reports (loop : EventLoop) (ready : List Ready) : Bool :=
  1 ≤ ready.length && ready.length ≤ maxEvents && (!ready.contains .wakeup || 0 < loop.pipe)

/-- The return of `epoll_wait`, which reports nothing that is not ready. -/
def poll (loop : EventLoop) : Polled → Option EventLoop
  | .events ready =>
    if loop.reports ready then some { loop with position := .handling ready } else none
  | .interrupted => some { loop with position := .checking }
  | .failed => some { loop with position := .exited }

/-- One round of the `for` loop. -/
def round (loop : EventLoop) (raised : Bool) : List Ready → EventLoop
  | [] => { loop with position := .checking }
  | .wakeup :: _ => { loop with running := false, position := .checking }
  | _ :: rest =>
    { loop with position := if raised then .exited else .handling rest }

/-- One line of a call of `stop`. -/
def stopLine (loop : EventLoop) (call : Nat) : StopCall → Option EventLoop
  | .testing =>
    some { loop with
      stops := loop.stops.set call (if loop.running then .clearing else .finished false) }
  | .clearing => some { loop with running := false, stops := loop.stops.set call .writing }
  | .writing =>
    some { loop with
      pipe := if loop.pipe < pipeCapacity then loop.pipe + 1 else loop.pipe
      stops := loop.stops.set call (.finished true) }
  | .finished _ => none

/-- One move, if it is possible where the loop is. -/
def step (loop : EventLoop) (move : LoopMove) : Option EventLoop :=
  match move, loop.position with
  | .start ok, .starting =>
    some (if ok then { loop with running := true, position := .checking }
      else { loop with position := .exited })
  | .check, .checking =>
    some { loop with position := if loop.running then .waiting else .exited }
  | .wait polled, .waiting => loop.poll polled
  | .handle raised, .handling ready => some (loop.round raised ready)
  | .signal, _ => some { loop with stops := loop.stops ++ [.testing] }
  | .stop call, _ => loop.stops[call]? >>= loop.stopLine call
  | _, _ => none

/-- Moves one after the other, in any interleaving of `run()` and `stop()`. -/
def run (moves : List LoopMove) (loop : EventLoop) : Option EventLoop :=
  moves.foldlM step loop

end EventLoop

end LinuxChat.Source
