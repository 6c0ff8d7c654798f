import LinuxChat.Source.Main
import LinuxChat.Guarantees.Generations

/-!
# The workers at scope exit

`~ThreadPool` drains the queue, but it runs after the router, `on_message_` and
`sessions_` have been destroyed (server/main.cpp:84-117,
server/include/epoll_server.h:68-88). From the return of `run()` on no worker uses
any of them too late, whatever the schedule, exactly when at that moment no worker is
inside `on_message_` and no task waiting for its generation check would pass it.
-/

namespace LinuxChat.Guarantees.ScopeExit

open LinuxChat.Lib LinuxChat.Source Prog Generations

/-! ## Where a worker is -/

/-- A worker that has this much of `on_message_` left. -/
def inside (rest : Proc Unit) (task : Task) : Proc Unit :=
  (rest.tryCatch fun _ => .ret ()).bind fun _ => dropped task

/-- A worker inside `on_message_`. -/
def Handles (p : Proc Unit) : Prop :=
  ∃ task rest, ¬ rest.Halted ∧ rest.Forall InRoute ∧ p = inside rest task

/-- A worker is idle, about to check its task, about to let its captures go, or inside
`on_message_`. -/
def Works (p : Proc Unit) : Prop :=
  p = .ret () ∨ (∃ task, p = runTask task) ∨ (∃ task, p = dropped task) ∨ Handles p

theorem works_inside {rest : Proc Unit} (h : rest.Forall InRoute) (task : Task) :
    Works (inside rest task) := by
  cases rest with
  | ret value => exact Or.inr (Or.inr (Or.inl ⟨task, rfl⟩))
  | raise error => exact Or.inr (Or.inr (Or.inl ⟨task, rfl⟩))
  | act action next => exact Or.inr (Or.inr (Or.inr ⟨task, .act action next, id, h, rfl⟩))

theorem works_act {action : Act} {next : action.Res → Proc Unit} (works : Works (.act action next))
    (result : action.Res) : Works (next result) := by
  rcases works with idle | ⟨task, same⟩ | ⟨task, same⟩ | ⟨task, rest, busy, inRoute, same⟩
  · cases idle
  · rw [runTask_cases] at same
    cases same
    cases result with
    | true => exact works_inside (forall_route inRoute_routing _ _) task
    | false => exact Or.inr (Or.inr (Or.inl ⟨task, rfl⟩))
  · cases same
    exact Or.inl rfl
  · cases rest with
    | ret value => exact absurd trivial busy
    | raise error => exact absurd trivial busy
    | act action' next' =>
      cases same
      exact works_inside (inRoute.2 result) task

/-- Inside `on_message_` there are no checks and no ends. -/
theorem Handles.act {action : Act} {next : action.Res → Proc Unit} (h : Handles (.act action next)) :
    InRoute action := by
  obtain ⟨task, rest, busy, inRoute, same⟩ := h
  cases rest with
  | ret value => exact absurd trivial busy
  | raise error => exact absurd trivial busy
  | act action' next' =>
    cases same
    exact inRoute.1

theorem not_handles_ret : ¬ Handles (.ret ()) := by
  rintro ⟨task, rest, busy, inRoute, same⟩
  cases rest with
  | ret value => exact busy trivial
  | raise error => exact busy trivial
  | act action next => cases same

theorem not_handles_runTask (task : Task) : ¬ Handles (runTask task) := by
  rw [runTask_cases]
  exact fun h => h.act

theorem not_handles_dropped (task : Task) : ¬ Handles (dropped task) :=
  fun h => h.act

variable {workers : Nat}

/-- At any point of any run the workers are at work inside their programs, or done. -/
theorem works_reached {db : Database} {c : Config serverInterface Exn Shared}
    (run : (machine workers).Reaches Machine.unrestricted (boot db) c) {t : Nat} (worker : t ≠ 0) :
    Works (c.thread t) := by
  have idle : ∀ t, t ≠ 0 → Works ((boot db).thread t) := fun _ _ => Or.inl rfl
  refine run.programs _ (T := fun t p => t ≠ 0 → Works p) idle ?_ ?_ t worker
  · exact fun t action next works result worker => works_act (works worker) result
  · intro t p s s' start worker
    cases start with
    | event e => exact absurd rfl worker
    | task => exact Or.inr (Or.inl ⟨_, rfl⟩)

/-! ## A safe exit -/

/-- The task would not pass its check. -/
def Stale (task : Task) (s : Shared) : Prop :=
  (s.server.heap task.session.id).generation ≠ task.genAtDispatch

/-- No worker has used a destroyed object, and none is inside `on_message_` once the
router is gone. -/
structure Safe (e : Exit) : Prop where
  uses : e.late = false
  handlers : e.phase.router = true → ∀ t, t ≠ 0 → ¬ Handles (e.config.thread t)

/-- Nothing of `on_message_` is going on or will come. -/
structure Quiet (c : Config serverInterface Exn Shared) : Prop where
  handlers : ∀ t, t ≠ 0 → ¬ Handles (c.thread t)
  taken : ∀ t task, t ≠ 0 → c.thread t = runTask task → Stale task c.shared
  queued : ∀ task ∈ c.shared.server.tasks, Stale task c.shared

/-! ## Quiet is enough -/

/-- The worker is idle, at the end of a task, or has a stale one. -/
def Ends (s : Shared) (p : Proc Unit) : Prop :=
  p = .ret () ∨ (∃ task, p = runTask task ∧ Stale task s) ∨ ∃ task, p = dropped task

/-- What a quiet return keeps up: no late use so far, every worker idle, at the end of its task or
with a stale one, and only stale tasks in the queue. -/
structure Settled (e : Exit) : Prop where
  uses : e.late = false
  workers : ∀ t, t ≠ 0 → Ends e.config.shared (e.config.thread t)
  queued : ∀ task ∈ e.config.shared.server.tasks, Stale task e.config.shared

theorem Settled.safe {e : Exit} (settled : Settled e) : Safe e where
  uses := settled.uses
  handlers _ t worker handles := by
    rcases settled.workers t worker with idle | ⟨task, own, _⟩ | ⟨task, own⟩
    · rw [idle] at handles
      exact not_handles_ret handles
    · rw [own] at handles
      exact not_handles_runTask task handles
    · rw [own] at handles
      exact not_handles_dropped task handles

theorem Ends.congr {s s' : Shared} {p : Proc Unit} (same : s'.server.heap = s.server.heap)
    (ends : Ends s p) : Ends s' p := by
  refine ends.imp_right (Or.imp_left fun ⟨task, own, stale⟩ => ⟨task, own, ?_⟩)
  unfold Stale
  rw [same]
  exact stale

/-- A step that leaves the session objects alone, with one worker at an end after it. -/
theorem Settled.move {e : Exit} (settled : Settled e) {s : Shared} {t : Nat} {p : Proc Unit}
    (same : s.server.heap = e.config.shared.server.heap) (ends : Ends s p)
    (tasks : ∀ task ∈ s.server.tasks, task ∈ e.config.shared.server.tasks) :
    (∀ u, u ≠ 0 → Ends s (Function.update e.config.thread t p u)) ∧
      ∀ task ∈ s.server.tasks, Stale task s := by
  constructor
  · intro u worker
    by_cases actor : u = t
    · subst actor
      rw [Function.update_self]
      exact ends
    · rw [Function.update_of_ne actor]
      exact (settled.workers u worker).congr same
  · intro task member
    unfold Stale
    rw [same]
    exact settled.queued task (tasks task member)

theorem Settled.step {e e' : Exit} (settled : Settled e) (step : ExitStep workers e e') :
    Settled e' := by
  cases step with
  | @act t action next w worker running =>
    rcases settled.workers t worker with idle | ⟨task, own, stale⟩ | ⟨task, own⟩
    · rw [running] at idle
      cases idle
    · rw [running, runTask_cases] at own
      cases own
      have fails : (execShared t w (.checkGeneration task) e.config.shared).1 = false :=
        decide_eq_false stale
      obtain ⟨workers, queued⟩ := @Settled.move e settled
        (execShared t w (.checkGeneration task) e.config.shared).2 t (dropped task) rfl
        (Or.inr (Or.inr ⟨task, rfl⟩)) fun _ member => member
      rw [fails]
      refine ⟨?_, workers, queued⟩
      rw [settled.uses]
      rfl
    · rw [running] at own
      cases own
      obtain ⟨workers, queued⟩ := @Settled.move e settled
        (execShared t w (.dropSession task.session) e.config.shared).2 t (.ret ()) rfl
        (Or.inl rfl) fun _ member => member
      refine ⟨?_, workers, queued⟩
      rw [settled.uses]
      rfl
  | @take t p s worker idle start =>
    cases start with
    | event => exact absurd rfl worker
    | @task _ _ task rest _ inPool queued =>
      have first : task ∈ e.config.shared.server.tasks := by
        rw [queued]
        exact List.mem_cons_self
      have tail : ∀ other ∈ rest, other ∈ e.config.shared.server.tasks := by
        intro other member
        rw [queued]
        exact List.mem_cons_of_mem _ member
      obtain ⟨workers, queued⟩ := @Settled.move e settled
        { e.config.shared with server := { e.config.shared.server with tasks := rest } } t
        (runTask task) rfl (Or.inr (Or.inl ⟨task, rfl, settled.queued task first⟩)) tail
      exact ⟨settled.uses, workers, queued⟩
  | destroy => exact ⟨settled.uses, settled.workers, settled.queued⟩
  | close => exact ⟨settled.uses, settled.workers, settled.queued⟩
  | stopPool => exact ⟨settled.uses, settled.workers, settled.queued⟩
  | join => exact ⟨settled.uses, settled.workers, settled.queued⟩

theorem Settled.run {e e' : Exit} (settled : Settled e) (run : Exits workers e e') :
    Settled e' := by
  induction run with
  | refl => exact settled
  | tail _ step ih => exact ih.step step

/-- How `main` leaves `run()`. -/
def leaving (c : Config serverInterface Exn Shared) : Exit := { config := c }

theorem Quiet.settled {c : Config serverInterface Exn Shared} (quiet : Quiet c)
    (works : ∀ t, t ≠ 0 → Works (c.thread t)) : Settled (leaving c) where
  uses := rfl
  workers t worker := by
    rcases works t worker with idle | ⟨task, own⟩ | ended | handles
    · exact Or.inl idle
    · exact Or.inr (Or.inl ⟨task, own, quiet.taken t task worker own⟩)
    · exact Or.inr (Or.inr ended)
    · exact absurd handles (quiet.handlers t worker)
  queued := quiet.queued

/-! ## Quiet is necessary -/

/-- Whatever happens from here on is safe. -/
def AllSafe (workers : Nat) (e : Exit) : Prop := ∀ e', Exits workers e e' → Safe e'

theorem Exits.trans {e₁ e₂ e₃ : Exit} (first : Exits workers e₁ e₂) (second : Exits workers e₂ e₃) :
    Exits workers e₁ e₃ := by
  induction second with
  | refl => exact first
  | tail _ step ih => exact ih.tail step

theorem AllSafe.step {e e' : Exit} (all : AllSafe workers e) (step : ExitStep workers e e') :
    AllSafe workers e' :=
  fun _ run => all _ (Exits.trans (.tail .refl step) run)

/-- Once the router is gone, a task that passes its check is a late use. -/
theorem AllSafe.stale {e : Exit} (all : AllSafe workers e) (gone : e.phase.router = true) {t : Nat}
    {task : Task} (worker : t ≠ 0) (own : e.config.thread t = runTask task) :
    Stale task e.config.shared := by
  intro current
  rw [runTask_cases] at own
  have safe := (all.step (.act default worker own)) _ .refl
  have passes : (execShared t default (.checkGeneration task) e.config.shared).1 = true :=
    decide_eq_true current
  have used := safe.uses
  dsimp only at used
  rw [passes] at used
  simp [lateUse, gone] at used

/-- A worker that has nothing of `on_message_` left ends its task. -/
theorem AllSafe.idle {e : Exit} (all : AllSafe workers e) (gone : e.phase.router = true) {t : Nat}
    (worker : t ≠ 0) (works : Works (e.config.thread t)) :
    ∃ e', AllSafe workers e' ∧ e'.phase.router = true ∧ e'.config.thread t = .ret () ∧
      e'.config.shared.server = e.config.shared.server := by
  have ended : ∀ e : Exit, AllSafe workers e → e.phase.router = true →
      (∃ task, e.config.thread t = dropped task) →
      ∃ e', AllSafe workers e' ∧ e'.phase.router = true ∧ e'.config.thread t = .ret () ∧
        e'.config.shared.server = e.config.shared.server := by
    rintro e all gone ⟨task, own⟩
    exact ⟨_, all.step (.act default worker own), gone, Function.update_self _ _ _, rfl⟩
  rcases works with idle | ⟨task, own⟩ | atEnd | handles
  · exact ⟨e, all, gone, idle, rfl⟩
  · have stale := all.stale gone worker own
    have fails : (execShared t default (.checkGeneration task) e.config.shared).1 = false :=
      decide_eq_false stale
    rw [runTask_cases] at own
    obtain ⟨e', all', gone', idle, same⟩ := ended _ (all.step (.act default worker own)) gone
      ⟨task, by
        dsimp only
        rw [Function.update_self, fails]
        rfl⟩
    exact ⟨e', all', gone', idle, same⟩
  · exact ended e all gone atEnd
  · exact absurd handles ((all e .refl).handlers gone t worker)

/-- An idle worker takes the queue task by task. -/
theorem AllSafe.queued {e : Exit} (all : AllSafe workers e) (gone : e.phase.router = true) {t : Nat}
    (worker : 0 < t ∧ t ≤ workers) (idle : e.config.thread t = .ret ()) {tasks : List Task}
    (queue : e.config.shared.server.tasks = tasks) :
    ∀ task ∈ tasks, Stale task e.config.shared := by
  have busy : t ≠ 0 := Nat.ne_of_gt worker.1
  induction tasks generalizing e with
  | nil => exact fun _ member => absurd member List.not_mem_nil
  | cons first rest ih =>
    have took := all.step (.take busy idle (.task worker.1 worker.2 queue))
    have own : Function.update e.config.thread t (runTask first) t = runTask first :=
      Function.update_self _ _ _
    have stale : Stale first e.config.shared := took.stale gone busy own
    obtain ⟨e', all', gone', idle', same⟩ := took.idle gone busy (Or.inr (Or.inl ⟨first, own⟩))
    have later := ih all' gone' idle' (by rw [same])
    intro task member
    rcases List.mem_cons.mp member with rfl | member
    · exact stale
    · have after := later task member
      unfold Stale at after
      rw [same] at after
      exact after

theorem quiet_of_allSafe {c : Config serverInterface Exn Shared} (several : 0 < workers)
    (works : ∀ t, t ≠ 0 → Works (c.thread t)) (all : AllSafe workers (leaving c)) : Quiet c := by
  have destroyed := all.step (.destroy .destroyRouter)
  have own := (destroyed _ .refl).handlers rfl
  refine ⟨own, fun t task worker running => destroyed.stale rfl worker running, ?_⟩
  obtain ⟨e, all', gone, idle, same⟩ := destroyed.idle rfl Nat.one_ne_zero (works 1 Nat.one_ne_zero)
  have stale := all'.queued gone ⟨Nat.one_pos, several⟩ idle rfl
  intro task member
  have queued : task ∈ e.config.shared.server.tasks := by
    rw [same]
    exact member
  have after := stale task queued
  unfold Stale at after
  rw [same] at after
  exact after

/-- From the moment `run()` returns, all that can happen is safe exactly if it returns
into quiet. -/
theorem exit_safe_iff (workers : Nat) (several : 0 < workers) (db : Database)
    (c : Config serverInterface Exn Shared)
    (run : (machine workers).Reaches Machine.unrestricted (boot db) c) :
    (∀ e, Exits workers (leaving c) e → Safe e) ↔ Quiet c := by
  have works : ∀ t, t ≠ 0 → Works (c.thread t) := fun t worker => works_reached run worker
  constructor
  · exact fun all => quiet_of_allSafe several works all
  · exact fun quiet e exits => ((quiet.settled works).run exits).safe

/-! ## With and without work left -/

/-- A LOGIN is in the queue, and its connection has been closed since. -/
def closed : Shared :=
  after 0 hangUp (handleClientEvent 5)
    (after 0 (deliver loginAlice) (handleClientEvent 5)
      (after 0 steadyWorld (handleNewConnection 5 "10.0.0.1") (boot aliceDb).shared))

theorem closed_reached :
    (machine 1).Reaches Machine.unrestricted (boot aliceDb) ⟨closed, fun _ => .ret ()⟩ := by
  have start : (machine 1).Reaches Machine.unrestricted (boot aliceDb) (boot aliceDb) := .refl
  have accepts := serve_event (.newConnection 5 "10.0.0.1") steadyWorld start
    (fun _ member => nomatch member) (Machine.permitted_unrestricted _ _ _ _ _) rfl
  have reads := serve_event (.client 5) (deliver loginAlice) accepts trivial
    (Machine.permitted_unrestricted _ _ _ _ _) (by decide +kernel)
  exact serve_event (.client 5) hangUp reads trivial (Machine.permitted_unrestricted _ _ _ _ _)
    (by decide +kernel)

/-- The task that is left goes by its check, whenever the worker takes it. -/
theorem exit_safe_closed :
    closed.server.tasks.map (fun task => task.session.fd) = [5] ∧
      ∀ e, Exits 1 (leaving ⟨closed, fun _ => .ret ()⟩) e → Safe e := by
  refine ⟨by decide +kernel, (exit_safe_iff 1 Nat.one_pos aliceDb _ closed_reached).mpr ⟨?_, ?_, ?_⟩⟩
  · exact fun t _ => not_handles_ret
  · intro t task _ own
    rw [runTask_cases] at own
    cases own
  · have stale : ∀ task ∈ closed.server.tasks,
        (closed.server.heap task.session.id).generation ≠ task.genAtDispatch := by
      have all : (closed.server.tasks.all fun task =>
          decide ((closed.server.heap task.session.id).generation ≠ task.genAtDispatch)) = true := by
        decide +kernel
      exact fun task member => of_decide_eq_true (List.all_eq_true.mp all task member)
    exact stale

/-- The event loop is between two events, and a task in the queue would pass its check. -/
def pending (c : Config serverInterface Exn Shared) : Bool :=
  decide ((c.thread 0).Halted) &&
    c.shared.server.tasks.any fun task =>
      decide ((c.shared.server.heap task.session.id).generation = task.genAtDispatch)

/-- A message is still in the queue when `run()` returns; a worker handles it when the
router is gone. -/
theorem handler_outlives_router :
    ¬ ∀ workers, 0 < workers → ∀ db c, (machine workers).Reaches Machine.unrestricted (boot db) c →
      (c.thread 0).Halted → ∀ e, Exits workers (leaving c) e → Safe e := by
  intro always
  have passes : (play 1 (accept 5 ++ read 5 loginAlice) (boot aliceDb)).any pending = true := by
    decide +kernel
  obtain ⟨c, run, waiting⟩ := reaches_of_play passes
  obtain ⟨ended, some⟩ := Bool.and_eq_true_iff.mp waiting
  have works : ∀ t, t ≠ 0 → Works (c.thread t) := fun t worker => works_reached run worker
  have all := always 1 Nat.one_pos aliceDb c run (of_decide_eq_true ended)
  obtain ⟨task, member, current⟩ := List.any_eq_true.mp some
  exact (quiet_of_allSafe Nat.one_pos works all).queued task member (of_decide_eq_true current)

end LinuxChat.Guarantees.ScopeExit
