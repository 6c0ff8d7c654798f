import Mathlib.Logic.Function.Basic

/-!
# Thread pool

server/src/thread_pool.cpp:6-58, statement by statement, for `n` workers and callers
of `enqueue` on any threads. A thread that waits for `mutex_` can go on once it is free;
`cv_.wait` gives the mutex up and goes to sleep in one step; a sleeping worker may wake up
without a notification. Tasks return normally. `Step true` are the steps a thread takes by
itself; the others are such a wakeup and the beginning of a call. `Record` is a history variable: tasks are
numbered in the order in which they enter the queue.
-/

namespace LinuxChat.Source.ThreadPool

/-- Who can have the mutex. -/
inductive Owner (n : Nat) where
  | worker (w : Fin n)
  | caller (k : Nat)
  | destructor
  deriving DecidableEq

/-- Where a worker is in its loop. -/
inductive WorkerAt (α : Type) where
  | start
  -- evaluates the predicate of `cv_.wait`, under the lock
  | checking
  | blocked
  | woken
  -- past `cv_.wait`, under the lock
  | granted
  -- the task is popped, and the lock still held
  | took (number : Nat) (task : α)
  | running (number : Nat) (task : α)
  | exited

/-- Where a caller of `enqueue` is. -/
inductive CallAt (α : Type) where
  | idle
  | calling (task : α)
  | inside (task : α)
  -- the task is in the queue, and the lock still held
  | pushed (number : Nat) (task : α)
  | notifying (number : Nat) (task : α)
  | threw

/-- Where the destructor is; it joins the workers in their order. -/
inductive DestructorAt where
  | idle
  | calling
  | inside
  -- `stop_` is set, and the lock still held
  | stopping
  | notifying
  | joining (next : Nat)
  | returned
  deriving DecidableEq

/-- What has become of the tasks so far. No step reads it. -/
structure Record (n : Nat) (α : Type) where
  -- every task that entered the queue, in this order
  pushed : List α := []
  -- who took the first, the second, .. task
  taken : List (Fin n) := []
  started : List Nat := []
  finished : List Nat := []
  -- the calls of `enqueue` that have returned
  returned : List (Nat × α) := []

/-- The pool with all its threads: the mutex, the queue, `stop_`, and where everybody is. -/
structure State (n : Nat) (α : Type) where
  mutex : Option (Owner n) := none
  tasks : List α := []
  stop : Bool := false
  workers : Fin n → WorkerAt α := fun _ => .start
  calls : Nat → CallAt α := fun _ => .idle
  destructor : DestructorAt := .idle
  record : Record n α := {}

variable {n : Nat} {α : Type}

/-- `notify_all`. -/
def wakeAll (workers : Fin n → WorkerAt α) : Fin n → WorkerAt α := fun w =>
  match workers w with
  | .blocked => .woken
  | place => place

/-- One step of one thread. -/
inductive Step : Bool → State n α → State n α → Prop
  -- a worker
  | lock {s : State n α} {w : Fin n} (free : s.mutex = none)
      (place : s.workers w = .start ∨ s.workers w = .woken) :
      Step true s
        { s with
          mutex := some (.worker w)
          workers := Function.update s.workers w .checking }
  | proceed {s : State n α} {w : Fin n} (place : s.workers w = .checking)
      (holds : s.stop = true ∨ s.tasks ≠ []) :
      Step true s { s with workers := Function.update s.workers w .granted }
  | block {s : State n α} {w : Fin n} (place : s.workers w = .checking) (running : s.stop = false)
      (empty : s.tasks = []) :
      Step true s { s with mutex := none, workers := Function.update s.workers w .blocked }
  | wake {s : State n α} {w : Fin n} (place : s.workers w = .blocked) :
      Step false s { s with workers := Function.update s.workers w .woken }
  | leave {s : State n α} {w : Fin n} (place : s.workers w = .granted) (stopped : s.stop = true)
      (empty : s.tasks = []) :
      Step true s { s with mutex := none, workers := Function.update s.workers w .exited }
  | take {s : State n α} {w : Fin n} {task : α} {rest : List α} (place : s.workers w = .granted)
      (queued : s.tasks = task :: rest) :
      Step true s
        { s with
          tasks := rest
          workers := Function.update s.workers w (.took s.record.taken.length task)
          record := { s.record with taken := s.record.taken ++ [w] } }
  | run {s : State n α} {w : Fin n} {number : Nat} {task : α}
      (place : s.workers w = .took number task) :
      Step true s
        { s with
          mutex := none
          workers := Function.update s.workers w (.running number task)
          record := { s.record with started := s.record.started ++ [number] } }
  | finish {s : State n α} {w : Fin n} {number : Nat} {task : α}
      (place : s.workers w = .running number task) :
      Step true s
        { s with
          workers := Function.update s.workers w .start
          record := { s.record with finished := s.record.finished ++ [number] } }
  -- a caller of `enqueue`
  | call {s : State n α} {k : Nat} (task : α) (place : s.calls k = .idle ∨ s.calls k = .threw) :
      Step false s { s with calls := Function.update s.calls k (.calling task) }
  | lockCall {s : State n α} {k : Nat} {task : α} (free : s.mutex = none)
      (place : s.calls k = .calling task) :
      Step true s
        { s with
          mutex := some (.caller k)
          calls := Function.update s.calls k (.inside task) }
  | throw {s : State n α} {k : Nat} {task : α} (place : s.calls k = .inside task)
      (stopped : s.stop = true) :
      Step true s { s with mutex := none, calls := Function.update s.calls k .threw }
  | push {s : State n α} {k : Nat} {task : α} (place : s.calls k = .inside task)
      (running : s.stop = false) :
      Step true s
        { s with
          tasks := s.tasks ++ [task]
          calls := Function.update s.calls k (.pushed s.record.pushed.length task)
          record := { s.record with pushed := s.record.pushed ++ [task] } }
  | unlockCall {s : State n α} {k number : Nat} {task : α}
      (place : s.calls k = .pushed number task) :
      Step true s
        { s with mutex := none, calls := Function.update s.calls k (.notifying number task) }
  | notifyOne {s : State n α} {k number : Nat} {task : α} {w : Fin n}
      (place : s.calls k = .notifying number task) (asleep : s.workers w = .blocked) :
      Step true s
        { s with
          workers := Function.update s.workers w .woken
          calls := Function.update s.calls k .idle
          record := { s.record with returned := s.record.returned ++ [(number, task)] } }
  | notifyNone {s : State n α} {k number : Nat} {task : α}
      (place : s.calls k = .notifying number task) (awake : ∀ w, s.workers w ≠ .blocked) :
      Step true s
        { s with
          calls := Function.update s.calls k .idle
          record := { s.record with returned := s.record.returned ++ [(number, task)] } }
  -- the destructor
  | destroy {s : State n α} (place : s.destructor = .idle) :
      Step false s { s with destructor := .calling }
  | lockDestructor {s : State n α} (free : s.mutex = none) (place : s.destructor = .calling) :
      Step true s { s with mutex := some .destructor, destructor := .inside }
  | setStop {s : State n α} (place : s.destructor = .inside) :
      Step true s { s with stop := true, destructor := .stopping }
  | unlockDestructor {s : State n α} (place : s.destructor = .stopping) :
      Step true s { s with mutex := none, destructor := .notifying }
  | notifyAll {s : State n α} (place : s.destructor = .notifying) :
      Step true s { s with workers := wakeAll s.workers, destructor := .joining 0 }
  | join {s : State n α} {w : Fin n} (place : s.destructor = .joining w)
      (ended : s.workers w = .exited) : Step true s { s with destructor := .joining (w + 1) }
  | returns {s : State n α} (place : s.destructor = .joining n) :
      Step true s { s with destructor := .returned }

/-- A pool that has just been constructed, and any steps. -/
inductive Reaches : State n α → Prop
  | init : Reaches {}
  | tail {own : Bool} {s s' : State n α} (run : Reaches s) (step : Step own s s') : Reaches s'

end LinuxChat.Source.ThreadPool
