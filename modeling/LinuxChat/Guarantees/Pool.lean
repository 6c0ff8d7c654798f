import LinuxChat.Source.ThreadPool
import Mathlib.Data.List.Nodup

/-!
# What the thread pool delivers

For any number of workers and callers and in every interleaving of
server/src/thread_pool.cpp:6-58. Tasks leave the queue in the order in which they
entered it, each into the hands of one worker, and are run once; a queue that is not empty
has either a caller that is about to notify or a worker that is awake; and the destructor
returns only once every task has been run.
-/

namespace LinuxChat.Source.ThreadPool

variable {α : Type}

/-- The worker has the lock. -/
def WorkerAt.holds : WorkerAt α → Bool
  | .checking => true
  | .granted => true
  | .took _ _ => true
  | _ => false

/-- The worker is neither asleep nor gone. -/
def WorkerAt.active : WorkerAt α → Bool
  | .blocked => false
  | .exited => false
  | _ => true

/-- The task a worker has in hand, with its number. -/
def WorkerAt.hand : WorkerAt α → Option (Nat × α)
  | .took number task => some (number, task)
  | .running number task => some (number, task)
  | _ => none

/-- The caller has the lock. -/
def CallAt.holds : CallAt α → Bool
  | .inside _ => true
  | .pushed _ _ => true
  | _ => false

/-- The task of a call that stands between the push and the notification. -/
def CallAt.placed : CallAt α → Option (Nat × α)
  | .pushed number task => some (number, task)
  | .notifying number task => some (number, task)
  | _ => none

/-- The destructor has the lock. -/
def DestructorAt.holds : DestructorAt → Bool
  | .inside => true
  | .stopping => true
  | _ => false

/-- `stop_` is set. -/
def DestructorAt.stopped : DestructorAt → Bool
  | .stopping => true
  | .notifying => true
  | .joining _ => true
  | .returned => true
  | _ => false

/-- `notify_all` is over. -/
def DestructorAt.notified : DestructorAt → Bool
  | .joining _ => true
  | .returned => true
  | _ => false

end LinuxChat.Source.ThreadPool

namespace LinuxChat.Guarantees.Pool

open LinuxChat.Source.ThreadPool

variable {n : Nat} {α : Type} {s s' : State n α} {own : Bool}

attribute [local grind] WorkerAt.holds CallAt.holds DestructorAt.holds WorkerAt.hand CallAt.placed
  DestructorAt.stopped DestructorAt.notified wakeAll
attribute [local grind =] Function.update_apply

/-! ## The lock -/

/-- The mutex is with the thread that is inside. -/
structure Locked (s : State n α) : Prop where
  worker : ∀ w, (s.workers w).holds = true ↔ s.mutex = some (.worker w)
  caller : ∀ k, (s.calls k).holds = true ↔ s.mutex = some (.caller k)
  destructor : s.destructor.holds = true ↔ s.mutex = some .destructor

theorem Locked.step (locked : Locked s) (step : Step own s s') : Locked s' := by
  obtain ⟨worker, caller, destructor⟩ := locked
  cases step <;> constructor <;> grind

/-! ## Closing -/

theorem stopped_of_notified {d : DestructorAt} (h : d.notified = true) : d.stopped = true := by
  cases d with
  | joining | returned => rfl
  | _ => cases h

/-- A worker leaves a stopped and empty queue only. -/
structure Leaving (s : State n α) : Prop where
  granted : ∀ w, s.workers w = .granted → s.stop = true ∨ s.tasks ≠ []
  exited : ∀ w, s.workers w = .exited → s.stop = true ∧ s.tasks = []

theorem Leaving.step (locked : Locked s) (leaving : Leaving s) (step : Step own s s') :
    Leaving s' := by
  obtain ⟨worker, caller, destructor⟩ := locked
  obtain ⟨granted, exited⟩ := leaving
  cases step <;> constructor <;> grind

/-- No worker falls asleep once the destructor has notified them. -/
structure Stopping (s : State n α) : Prop where
  stopped : s.stop = s.destructor.stopped
  awake : s.destructor.notified = true → ∀ w, s.workers w ≠ .blocked

theorem awake_update {workers : Fin n → WorkerAt α} (awake : ∀ v, workers v ≠ .blocked) (w : Fin n)
    {place : WorkerAt α} (up : place ≠ .blocked) :
    ∀ v, Function.update workers w place v ≠ .blocked := by
  intro v
  by_cases same : v = w
  · subst same
    rw [Function.update_self]
    exact up
  · rw [Function.update_of_ne same]
    exact awake v

theorem awake_wakeAll (workers : Fin n → WorkerAt α) : ∀ v, wakeAll workers v ≠ .blocked := by
  intro v
  unfold wakeAll
  cases place : workers v with
  | blocked => exact fun h => nomatch h
  | _ => exact fun h => nomatch h

theorem Stopping.step (stopping : Stopping s) (step : Step own s s') : Stopping s' := by
  obtain ⟨stopped, awake⟩ := stopping
  cases step with
  | lock | proceed | wake | leave | take | run | finish | notifyOne =>
    exact ⟨stopped, fun notified => awake_update (awake notified) _ (fun h => nomatch h)⟩
  | block _ running =>
    constructor
    · exact stopped
    · intro notified
      have stop := stopped_of_notified notified
      rw [← stopped, running] at stop
      cases stop
  | destroy place | lockDestructor _ place =>
    rw [place] at stopped
    exact ⟨stopped, fun notified => nomatch notified⟩
  | setStop => exact ⟨rfl, fun notified => nomatch notified⟩
  | unlockDestructor place =>
    rw [place] at stopped
    exact ⟨stopped, fun notified => nomatch notified⟩
  | notifyAll place =>
    rw [place] at stopped
    exact ⟨stopped, fun _ => awake_wakeAll _⟩
  | join place | returns place =>
    rw [place] at stopped awake
    exact ⟨stopped, fun _ => awake rfl⟩
  | call | lockCall | throw | push | unlockCall | notifyNone => exact ⟨stopped, awake⟩

/-- The destructor joins the workers one after the other. -/
structure Joining (s : State n α) : Prop where
  bound : ∀ i, s.destructor = .joining i → i ≤ n
  joined : ∀ i, s.destructor = .joining i → ∀ w : Fin n, w < i → s.workers w = .exited
  ended : s.destructor = .returned → ∀ w, s.workers w = .exited

/-- A worker that has left does not come back. -/
theorem stays_exited (step : Step own s s') {w : Fin n} (left : s.workers w = .exited) :
    s'.workers w = .exited := by
  cases step <;> grind

theorem Joining.step (joining : Joining s) (step : Step own s s') : Joining s' := by
  have stays := fun w => @stays_exited n α s s' own step w
  obtain ⟨bound, joined, ended⟩ := joining
  cases step with
  | destroy | lockDestructor | setStop | unlockDestructor =>
    constructor
    · intro i place
      cases place
    · intro i place
      cases place
    · intro place
      cases place
  | notifyAll =>
    constructor
    · intro i place
      cases place
      exact Nat.zero_le n
    · intro i place w before
      cases place
      exact absurd before (Nat.not_lt_zero _)
    · intro place
      cases place
  | @join _ w place exits =>
    constructor
    · intro i same
      cases same
      exact w.isLt
    · intro i same v before
      cases same
      rcases Nat.lt_succ_iff_lt_or_eq.mp before with earlier | last
      · exact joined w place v earlier
      · rw [Fin.ext last]
        exact exits
    · intro same
      cases same
  | returns place =>
    constructor
    · intro i same
      cases same
    · intro i same
      cases same
    · exact fun _ w => joined n place w w.isLt
  | _ =>
    exact ⟨bound, fun i place w before => stays w (joined i place w before),
      fun place w => stays w (ended place w)⟩

/-! ## No lost wakeup -/

/-- For a queue that is not empty a caller is about to notify or a worker is awake. -/
def Attended (s : State n α) : Prop :=
  s.tasks ≠ [] → (∃ k, (s.calls k).placed.isSome = true) ∨ ∃ w, (s.workers w).active = true

theorem active_update (workers : Fin n → WorkerAt α) (w : Fin n) {place : WorkerAt α}
    (active : place.active = true) : ∃ v, (Function.update workers w place v).active = true := by
  refine ⟨w, ?_⟩
  rw [Function.update_self]
  exact active

theorem placed_update (calls : Nat → CallAt α) (k : Nat) {place : CallAt α}
    (placed : place.placed.isSome = true) :
    ∃ j, (Function.update calls k place j).placed.isSome = true := by
  refine ⟨k, ?_⟩
  rw [Function.update_self]
  exact placed

theorem placed_other {calls : Nat → CallAt α} {k : Nat} (place : CallAt α)
    (other : (calls k).placed = none) (h : ∃ j, (calls j).placed.isSome = true) :
    ∃ j, (Function.update calls k place j).placed.isSome = true := by
  obtain ⟨j, placed⟩ := h
  have differs : j ≠ k := by
    rintro rfl
    rw [other] at placed
    cases placed
  refine ⟨j, ?_⟩
  rw [Function.update_of_ne differs]
  exact placed

theorem Attended.step (workers : 0 < n) (leaving : Leaving s) (attended : Attended s)
    (step : Step own s s') : Attended s' := by
  intro queued
  cases step with
  | lock => exact Or.inr (active_update _ _ rfl)
  | proceed => exact Or.inr (active_update _ _ rfl)
  | block _ _ empty => exact absurd empty queued
  | wake => exact Or.inr (active_update _ _ rfl)
  | leave _ _ empty => exact absurd empty queued
  | take => exact Or.inr (active_update _ _ rfl)
  | run => exact Or.inr (active_update _ _ rfl)
  | finish => exact Or.inr (active_update _ _ rfl)
  | call task place =>
    refine (attended queued).imp_left (placed_other _ ?_)
    rcases place with place | place <;> rw [place] <;> rfl
  | lockCall _ place =>
    refine (attended queued).imp_left (placed_other _ ?_)
    rw [place]
    rfl
  | throw place =>
    refine (attended queued).imp_left (placed_other _ ?_)
    rw [place]
    rfl
  | push => exact Or.inl (placed_update _ _ rfl)
  | unlockCall => exact Or.inl (placed_update _ _ rfl)
  | notifyOne => exact Or.inr (active_update _ _ rfl)
  | notifyNone _ awake =>
    -- nobody is asleep, and nobody has left a queue that is not empty
    have stays : s.workers ⟨0, workers⟩ ≠ .exited := fun left => queued (leaving.exited _ left).2
    refine Or.inr ⟨⟨0, workers⟩, ?_⟩
    cases place : s.workers ⟨0, workers⟩ with
    | blocked => exact absurd place (awake _)
    | exited => exact absurd place stays
    | _ => rfl
  | notifyAll =>
    refine (attended queued).imp_right fun ⟨w, active⟩ => ⟨w, ?_⟩
    simp only [wakeAll]
    cases place : s.workers w with
    | blocked => rfl
    | exited =>
      rw [place] at active
      cases active
    | _ => rfl
  | _ => exact attended queued

/-! ## Accounts -/

/-- The tasks that have left the queue are the first ones that entered it; each is in the
hand of the worker that took it, or finished. -/
structure Works (s : State n α) : Prop where
  queue : s.tasks = s.record.pushed.drop s.record.taken.length
  within : s.record.taken.length ≤ s.record.pushed.length
  hand : ∀ w i task, (s.workers w).hand = some (i, task) →
    s.record.taken[i]? = some w ∧ s.record.pushed[i]? = some task ∧ i ∉ s.record.finished
  fresh : ∀ w i task, s.workers w = .took i task → i ∉ s.record.started
  under : ∀ w i task, s.workers w = .running i task → i ∈ s.record.started
  startedOnce : s.record.started.Nodup
  finishedOnce : s.record.finished.Nodup
  ended : ∀ i ∈ s.record.finished, i ∈ s.record.started
  begun : ∀ i ∈ s.record.started, i < s.record.taken.length
  complete : ∀ i w, s.record.taken[i]? = some w →
    i ∈ s.record.finished ∨ (s.workers w).hand.map Prod.fst = some i

theorem Works.step (works : Works s) (step : Step own s s') : Works s' := by
  obtain ⟨queue, within, hand, fresh, under, startedOnce, finishedOnce, ended, begun, complete⟩ :=
    works
  cases step with
  | @take _ w task rest place queued =>
    have front : s.record.pushed.drop s.record.taken.length = task :: rest := queue.symm.trans queued
    have inside : s.record.taken.length < s.record.pushed.length := by
      by_contra outside
      rw [List.drop_eq_nil_of_le (Nat.le_of_not_lt outside)] at front
      cases front
    have first : s.record.pushed[s.record.taken.length]? = some task := by
      rw [← List.head?_drop, front]
      rfl
    have left : rest = s.record.pushed.drop (s.record.taken ++ [w]).length := by
      rw [List.length_append, ← List.drop_drop, front]
      rfl
    have longer : (s.record.taken ++ [w]).length ≤ s.record.pushed.length := by
      rw [List.length_append]
      exact inside
    constructor <;> grind
  | call | lockCall | throw | unlockCall | notifyNone | destroy | lockDestructor | setStop
  | unlockDestructor | join | returns =>
    exact ⟨queue, within, hand, fresh, under, startedOnce, finishedOnce, ended, begun, complete⟩
  | _ => constructor <;> grind

/-- Every call that has placed a task has a number of its own. -/
structure Numbers (s : State n α) : Prop where
  placed : ∀ k i task, (s.calls k).placed = some (i, task) →
    s.record.pushed[i]? = some task ∧ ∀ entry ∈ s.record.returned, entry.1 ≠ i
  apart : ∀ k j i task task', (s.calls k).placed = some (i, task) →
    (s.calls j).placed = some (i, task') → k = j
  returned : ∀ entry ∈ s.record.returned, s.record.pushed[entry.1]? = some entry.2
  once : (s.record.returned.map Prod.fst).Nodup

theorem Numbers.step (numbers : Numbers s) (step : Step own s s') : Numbers s' := by
  obtain ⟨placed, apart, returned, once⟩ := numbers
  cases step with
  | call | lockCall | throw | push | unlockCall | notifyOne | notifyNone => constructor <;> grind
  | _ => exact ⟨placed, apart, returned, once⟩

/-- The invariants together. -/
structure Sound (s : State n α) : Prop where
  locked : Locked s
  leaving : Leaving s
  stopping : Stopping s
  joining : Joining s
  attended : Attended s
  works : Works s
  numbers : Numbers s

theorem sound_init : Sound ({} : State n α) where
  locked := by constructor <;> simp [WorkerAt.holds, CallAt.holds, DestructorAt.holds]
  leaving := by constructor <;> simp
  stopping := by constructor <;> simp [DestructorAt.stopped, DestructorAt.notified]
  joining := by constructor <;> simp
  attended := fun queued => absurd rfl queued
  works := by constructor <;> simp [WorkerAt.hand]
  numbers := by constructor <;> simp [CallAt.placed]

/-- The invariant holds at any point of any run of workers, producers and destructor. -/
theorem sound_reached (workers : 0 < n) (run : Reaches s) : Sound s := by
  induction run with
  | init => exact sound_init
  | tail _ step ih =>
    exact
      { locked := ih.locked.step step
        leaving := ih.leaving.step ih.locked step
        stopping := ih.stopping.step step
        joining := ih.joining.step step
        attended := ih.attended.step workers ih.leaving step
        works := ih.works.step step
        numbers := ih.numbers.step step }

/-! ## Nobody is stuck -/

/-- No thread can go on by itself. -/
def Resting (s : State n α) : Prop := ∀ s', ¬ Step true s s'

/-- Whoever has the lock can go on. -/
theorem Resting.free (resting : Resting s) (sound : Sound s) : s.mutex = none := by
  have locked := sound.locked
  cases held : s.mutex with
  | none => rfl
  | some owner =>
    cases owner with
    | worker w =>
      have holds := (locked.worker w).mpr held
      cases place : s.workers w with
      | checking =>
        by_cases empty : s.tasks = []
        · cases stop : s.stop with
          | true => exact absurd (.proceed place (Or.inl stop)) (resting _)
          | false => exact absurd (.block place stop empty) (resting _)
        · exact absurd (.proceed place (Or.inr empty)) (resting _)
      | granted =>
        cases queued : s.tasks with
        | nil =>
          rcases sound.leaving.granted w place with stopped | nonempty
          · exact absurd (.leave place stopped queued) (resting _)
          · exact absurd queued nonempty
        | cons task rest => exact absurd (.take place queued) (resting _)
      | took number task => exact absurd (.run place) (resting _)
      | _ =>
        rw [place] at holds
        cases holds
    | caller k =>
      have holds := (locked.caller k).mpr held
      cases place : s.calls k with
      | inside task =>
        cases stop : s.stop with
        | true => exact absurd (.throw place stop) (resting _)
        | false => exact absurd (.push place stop) (resting _)
      | pushed number task => exact absurd (.unlockCall place) (resting _)
      | _ =>
        rw [place] at holds
        cases holds
    | destructor =>
      have holds := locked.destructor.mpr held
      cases place : s.destructor with
      | inside => exact absurd (.setStop place) (resting _)
      | stopping => exact absurd (.unlockDestructor place) (resting _)
      | _ =>
        rw [place] at holds
        cases holds

theorem Resting.worker (resting : Resting s) (sound : Sound s) (w : Fin n) :
    s.workers w = .blocked ∨ s.workers w = .exited := by
  have free := resting.free sound
  have unheld : (s.workers w).holds = false := by
    rw [← Bool.not_eq_true, sound.locked.worker w, free]
    exact nofun
  cases place : s.workers w with
  | start => exact absurd (.lock free (Or.inl place)) (resting _)
  | woken => exact absurd (.lock free (Or.inr place)) (resting _)
  | running number task => exact absurd (.finish place) (resting _)
  | blocked => exact Or.inl rfl
  | exited => exact Or.inr rfl
  | _ =>
    rw [place] at unheld
    cases unheld

theorem Resting.call (resting : Resting s) (sound : Sound s) (k : Nat) :
    s.calls k = .idle ∨ s.calls k = .threw := by
  have free := resting.free sound
  have unheld : (s.calls k).holds = false := by
    rw [← Bool.not_eq_true, sound.locked.caller k, free]
    exact nofun
  cases place : s.calls k with
  | calling task => exact absurd (.lockCall free place) (resting _)
  | notifying number task =>
    by_cases asleep : ∃ w, s.workers w = .blocked
    · obtain ⟨w, asleep⟩ := asleep
      exact absurd (.notifyOne place asleep) (resting _)
    · exact absurd (.notifyNone place fun w blocked => asleep ⟨w, blocked⟩) (resting _)
  | idle => exact Or.inl rfl
  | threw => exact Or.inr rfl
  | _ =>
    rw [place] at unheld
    cases unheld

theorem Resting.destructor (resting : Resting s) (sound : Sound s) :
    s.destructor = .idle ∨ s.destructor = .returned := by
  have free := resting.free sound
  have unheld : s.destructor.holds = false := by
    rw [← Bool.not_eq_true, sound.locked.destructor, free]
    exact nofun
  cases place : s.destructor with
  | idle => exact Or.inl rfl
  | returned => exact Or.inr rfl
  | calling => exact absurd (.lockDestructor free place) (resting _)
  | notifying => exact absurd (.notifyAll place) (resting _)
  | joining i =>
    rcases Nat.lt_or_eq_of_le (sound.joining.bound i place) with next | last
    · have awake := sound.stopping.awake (by rw [place]; rfl) ⟨i, next⟩
      rcases resting.worker sound ⟨i, next⟩ with blocked | exited
      · exact absurd blocked awake
      · exact absurd (.join (w := ⟨i, next⟩) place exited) (resting _)
    · subst last
      exact absurd (.returns place) (resting _)
  | _ =>
    rw [place] at unheld
    cases unheld

theorem Resting.empty (resting : Resting s) (sound : Sound s) : s.tasks = [] := by
  by_contra queued
  rcases sound.attended queued with ⟨k, placed⟩ | ⟨w, active⟩
  · rcases resting.call sound k with place | place <;> rw [place] at placed <;> cases placed
  · rcases resting.worker sound w with place | place <;> rw [place] at active <;> cases active

/-- With an empty queue and nothing in hand, all is finished. -/
theorem Sound.finished (sound : Sound s) (empty : s.tasks = [])
    (free : ∀ w, (s.workers w).hand = none) : ∀ i < s.record.pushed.length, i ∈ s.record.finished := by
  intro i entered
  have left := sound.works.queue
  rw [empty] at left
  have all : s.record.pushed.length ≤ s.record.taken.length := List.drop_eq_nil_iff.mp left.symm
  have took := List.getElem?_eq_getElem (Nat.lt_of_lt_of_le entered all)
  rcases sound.works.complete i _ took with done | inHand
  · exact done
  · rw [free] at inHand
    cases inHand

/-! ## What is delivered -/

/-- Between the push of a task, or the setting of `stop_`, and its notification. -/
def Notifies (s : State n α) : Prop :=
  (∃ k, (s.calls k).placed.isSome = true) ∨ s.destructor = .stopping ∨ s.destructor = .notifying

/-- What the pool is for: a task whose `enqueue` returned is taken once, in the order of the
queue, run once, and not left behind by the destructor. -/
structure Delivers (s : State n α) : Prop where
  /-- Every call that has returned has put a task of its own into the queue. -/
  accepted : ∀ entry ∈ s.record.returned, s.record.pushed[entry.1]? = some entry.2
  numbered : (s.record.returned.map Prod.fst).Nodup
  /-- Those taken are the first that entered, `taken` has the one worker of each. -/
  fifo : s.tasks = s.record.pushed.drop s.record.taken.length ∧
    s.record.taken.length ≤ s.record.pushed.length
  inHand : ∀ w i task, (s.workers w).hand = some (i, task) →
    s.record.taken[i]? = some w ∧ s.record.pushed[i]? = some task ∧ i ∉ s.record.finished
  kept : ∀ i w, s.record.taken[i]? = some w →
    i ∈ s.record.finished ∨ (s.workers w).hand.map Prod.fst = some i
  /-- No task is run twice. -/
  once : s.record.started.Nodup ∧ s.record.finished.Nodup ∧
    (∀ i ∈ s.record.finished, i ∈ s.record.started) ∧
    ∀ i ∈ s.record.started, i < s.record.taken.length
  /-- An `enqueue` that sees `stop_` throws and adds nothing; any other adds its task. -/
  refused : ∀ own s', Step own s s' → ∀ k task, s.calls k = .inside task →
    s'.calls k ≠ .inside task →
      if s.stop then s'.calls k = .threw ∧ s'.tasks = s.tasks ∧ s'.record = s.record
      else s'.calls k = .pushed s.record.pushed.length task ∧ s'.tasks = s.tasks ++ [task]
  wakeful : ¬ Notifies s → s.tasks ≠ [] → ∃ w, s.workers w ≠ .blocked ∧ s.workers w ≠ .exited
  drained : s.destructor = .returned →
    s.tasks = [] ∧ ∀ i < s.record.pushed.length, i ∈ s.record.finished
  /-- Where no thread can go on by itself, nothing is left to do. -/
  rest : Resting s → (∀ i < s.record.pushed.length, i ∈ s.record.finished) ∧
    (s.destructor = .idle ∨ s.destructor = .returned)

theorem refused_step {k : Nat} {task : α} (step : Step own s s')
    (inside : s.calls k = .inside task) (moves : s'.calls k ≠ .inside task) :
    if s.stop then s'.calls k = .threw ∧ s'.tasks = s.tasks ∧ s'.record = s.record
    else s'.calls k = .pushed s.record.pushed.length task ∧ s'.tasks = s.tasks ++ [task] := by
  cases step <;> grind

/-- Every task whose `enqueue` returned goes to one worker and is run once, in the order
of the queue, and none is left when the destructor returns. -/
theorem delivers (workers : 0 < n) (run : Reaches s) : Delivers s := by
  have sound := sound_reached workers run
  obtain ⟨queue, within, hand, _, _, startedOnce, finishedOnce, ended, begun, complete⟩ :=
    sound.works
  refine ⟨sound.numbers.returned, sound.numbers.once, ⟨queue, within⟩, hand, complete,
    ⟨startedOnce, finishedOnce, ended, begun⟩, ?_, ?_, ?_, ?_⟩
  · exact fun own s' step k task inside moves => refused_step step inside moves
  · intro quiet queued
    rcases sound.attended queued with placed | ⟨w, active⟩
    · exact absurd (Or.inl placed) quiet
    · refine ⟨w, ?_, ?_⟩ <;> intro place <;> rw [place] at active <;> cases active
  · intro returned
    have gone := sound.joining.ended returned
    have empty := (sound.leaving.exited ⟨0, workers⟩ (gone _)).2
    refine ⟨empty, sound.finished empty fun w => ?_⟩
    rw [gone w]
    rfl
  · intro resting
    refine ⟨sound.finished (resting.empty sound) fun w => ?_, resting.destructor sound⟩
    rcases resting.worker sound w with place | place <;> rw [place] <;> rfl

/-! ## Two workers -/

/-- Two workers fall asleep, two callers wake them, and the second task is over before the
first. -/
theorem two_tasks_reached :
    ∃ s : State 2 String, Reaches s ∧ s.destructor = .returned ∧
      s.record.returned = [(0, "a"), (1, "b")] ∧ s.record.taken = [0, 1] ∧
        s.record.finished = [1, 0] := by
  have start : Reaches ({} : State 2 String) := .init
  have asleep := start.tail (.lock (w := 0) rfl (Or.inl rfl))
    |>.tail (.block (w := 0) rfl rfl rfl) |>.tail (.lock (w := 1) rfl (Or.inl rfl))
    |>.tail (.block (w := 1) rfl rfl rfl)
  have queued := asleep.tail (.call (k := 0) "a" (Or.inl rfl)) |>.tail (.call (k := 1) "b" (Or.inl rfl))
    |>.tail (.lockCall (k := 0) rfl rfl) |>.tail (.push (k := 0) rfl rfl)
    |>.tail (.unlockCall (k := 0) rfl) |>.tail (.notifyOne (k := 0) (w := 0) rfl rfl)
    |>.tail (.lockCall (k := 1) rfl rfl) |>.tail (.push (k := 1) rfl rfl)
    |>.tail (.unlockCall (k := 1) rfl) |>.tail (.notifyOne (k := 1) (w := 1) rfl rfl)
  have took := queued.tail (.lock (w := 0) rfl (Or.inr rfl))
    |>.tail (.proceed (w := 0) rfl (Or.inr nofun)) |>.tail (.take (w := 0) rfl rfl)
    |>.tail (.run (w := 0) rfl) |>.tail (.lock (w := 1) rfl (Or.inr rfl))
    |>.tail (.proceed (w := 1) rfl (Or.inr nofun)) |>.tail (.take (w := 1) rfl rfl)
    |>.tail (.run (w := 1) rfl)
  have stopped := took.tail (.destroy rfl) |>.tail (.finish (w := 1) rfl)
    |>.tail (.lockDestructor rfl rfl) |>.tail (.setStop rfl) |>.tail (.unlockDestructor rfl)
    |>.tail (.notifyAll rfl) |>.tail (.finish (w := 0) rfl)
  have gone := stopped.tail (.lock (w := 1) rfl (Or.inl rfl))
    |>.tail (.proceed (w := 1) rfl (Or.inl rfl)) |>.tail (.leave (w := 1) rfl rfl rfl)
    |>.tail (.lock (w := 0) rfl (Or.inl rfl)) |>.tail (.proceed (w := 0) rfl (Or.inl rfl))
    |>.tail (.leave (w := 0) rfl rfl rfl)
  have joined := gone.tail (.join (w := 0) rfl rfl) |>.tail (.join (w := 1) rfl rfl)
    |>.tail (.returns rfl)
  exact ⟨_, joined, rfl, rfl, rfl, rfl⟩

/-- Two workers take two tasks and finish them the other way round; the destructor returns with
both done. -/
theorem delivers_two :
    ∃ s : State 2 String, s.destructor = .returned ∧ s.record.taken = [0, 1] ∧
      s.record.finished = [1, 0] ∧ Delivers s := by
  obtain ⟨s, run, returned, _, taken, finished⟩ := two_tasks_reached
  exact ⟨s, returned, taken, finished, delivers (by decide) run⟩

end LinuxChat.Guarantees.Pool
