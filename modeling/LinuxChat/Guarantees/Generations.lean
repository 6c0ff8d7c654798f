import LinuxChat.Guarantees.Generations.Invariant

/-!
# The generation check

`handle_client_event` captures the generation of its session for each task it enqueues;
`remove_client` gives the session a new one, and a worker runs a task only while the
session still has the one captured (server/src/epoll_server.cpp:227-333). `Removals` is a
history variable: the session objects whose generation `remove_client` has bumped. In
every run, a task passes its check exactly when its session object is not among them.
-/

namespace LinuxChat.Guarantees.Generations

open LinuxChat.Lib LinuxChat.Source Prog

/-! ## The check -/

/-- What is left of a task once it is checked: `on_message_` and the end of the lambda,
or the end alone. -/
def handled (task : Task) : Proc Unit :=
  ((route task.session task.msg).tryCatch fun _ => .ret ()).bind fun _ =>
    .act (.dropSession task.session) .ret

/-- The end of a task, which gives up the captured session. -/
def dropped (task : Task) : Proc Unit := .act (.dropSession task.session) .ret

theorem runTask_cases (task : Task) :
    runTask task = .act (.checkGeneration task) fun current =>
      if current then handled task else dropped task := runTask_eq task

/-- No generation check. -/
def Unchecking : Act → Prop
  | .checkGeneration _ => False
  | _ => True

theorem unchecking_serving : Serving Unchecking where
  clock := trivial
  list := trivial
  scan _ := trivial
  find _ := trivial
  users _ _ _ := trivial
  notify _ _ _ := trivial
  gate _ := trivial
  name _ := trivial
  offline _ := trivial
  unname _ := trivial
  erase _ := trivial
  registered := trivial
  pending _ := trivial
  cleanup _ := trivial
  unpend _ := trivial
  drop _ := trivial
  store _ _ := trivial
  receive _ := trivial
  handler := trivial
  stamp _ := trivial
  enqueue _ := trivial
  ping _ := trivial

theorem unchecking_rest {task : Task} {action : Act} {next : action.Res → Proc Unit}
    (same : .act action next = runTask task) (result : action.Res) :
    (next result).Forall Unchecking := by
  rw [runTask_cases] at same
  cases same
  have routed : (route task.session task.msg).Forall Unchecking :=
    forall_route_of (fun action inRoute => by
      cases action with
      | checkGeneration => exact inRoute
      | _ => trivial) _ _
  dsimp only
  split
  · have caught : ((route task.session task.msg).tryCatch fun _ => .ret ()).Forall Unchecking :=
      routed.tryCatch fun _ => trivial
    exact caught.bind fun _ => ⟨trivial, fun _ => trivial⟩
  · exact ⟨trivial, fun _ => trivial⟩

section
variable {workers : Nat} {db : Database} {c : Config serverInterface Exn Dated}
  (run : (dated workers).Reaches Machine.unrestricted (datedBoot db) c)
include run

/-- What a thread has still to do keeps to the monitor, at any point of any run. -/
theorem meets_reached (t : Nat) : Dispatches (c.thread t) (viewOf c.shared t) := by
  have idle : ∀ t, Dispatches ((datedBoot db).thread t) (viewOf (datedBoot db).shared t) :=
    fun _ => trivial
  exact (follows workers).reaches idle run t

/-- The invariant holds at any point of any run. -/
theorem sound_reached : Sound c.shared := by
  have idle : ∀ t, Dispatches ((datedBoot db).thread t) (viewOf (datedBoot db).shared t) :=
    fun _ => trivial
  refine (follows workers).invariant idle (P := Sound) (sound_boot db) ?_ ?_ run
  · exact fun t w action s sound ok _ => sound_step w sound ok
  · intro t p s s' sound start
    obtain ⟨shared, removals⟩ := s'
    obtain ⟨started, takes⟩ := start
    replace takes : removals = s.2.take t s.1.server.tasks := takes
    subst takes
    exact sound_spawn sound started

theorem exact_of_checking {t : Nat} {task : Task} {next : Bool → Proc Unit}
    (checking : c.thread t = .act (.checkGeneration task) next) : Exact task c.shared := by
  have meets := meets_reached run t
  rw [checking] at meets
  exact (sound_reached run).taken t task meets.1

/-- The check is the first action of the worker lambda, and comes nowhere else. -/
theorem runTask_of_checking {t : Nat} {task : Task} {next : Bool → Proc Unit}
    (checking : c.thread t = .act (.checkGeneration task) next) : c.thread t = runTask task := by
  have texts : (∃ task, c.thread t = runTask task) ∨ (c.thread t).Forall Unchecking := by
    have idle : ∀ t, (∃ task, (datedBoot db).thread t = runTask task) ∨
        ((datedBoot db).thread t).Forall Unchecking := fun _ => Or.inr trivial
    refine run.programs _ (T := fun _ p => (∃ task, p = runTask task) ∨ p.Forall Unchecking)
      idle ?_ ?_ t
    · rintro t action next (⟨task, same⟩ | plain) result
      · exact Or.inr (unchecking_rest same result)
      · exact Or.inr (plain.2 result)
    · intro t p s s' start
      obtain ⟨shared, removals⟩ := s'
      obtain ⟨started, _⟩ := start
      dsimp only at started
      cases started with
      | start h =>
        cases h with
        | event e => exact Or.inr (forall_event unchecking_serving e)
        | task => exact Or.inl ⟨_, rfl⟩
      | anyFd fd ip => exact Or.inr ⟨trivial, fun _ => trivial⟩
      | refused => exact Or.inr trivial
  rcases texts with ⟨other, same⟩ | plain
  · rw [checking, runTask_eq] at same
    cases same
    rw [checking, runTask_eq]
  · rw [checking] at plain
    exact plain.1.elim

end

/-- A task passes its check exactly while its own session object has not been removed,
whichever other sessions were and whatever descriptors were given out again; it calls
`on_message_` if it passes, and does nothing else if it does not. -/
theorem check_passes_iff (workers : Nat) (db : Database) (c : Config serverInterface Exn Dated)
    (run : (dated workers).Reaches Machine.unrestricted (datedBoot db) c) (t : Nat) (task : Task)
    (next : Bool → Proc Unit) (checking : c.thread t = .act (.checkGeneration task) next)
    (w : World) :
    ((Act.exec w (.checkGeneration task) c.shared.1.server).1 = true ↔
      task.session.id ∉ c.shared.2.removed) ∧
    next (Act.exec w (.checkGeneration task) c.shared.1.server).1 =
      if task.session.id ∈ c.shared.2.removed then dropped task else handled task := by
  have passes : (Act.exec w (.checkGeneration task) c.shared.1.server).1 = true ↔
      task.session.id ∉ c.shared.2.removed := by
    simp only [Act.exec, decide_eq_true_eq]
    exact (exact_of_checking run checking).current
  have whole := runTask_of_checking run checking
  rw [checking, runTask_cases] at whole
  cases whole
  refine ⟨passes, ?_⟩
  by_cases removed : task.session.id ∈ c.shared.2.removed
  · have fails := mt passes.mp (not_not.mpr removed)
    rw [if_pos removed]
    exact if_neg fails
  · rw [if_neg removed]
    exact if_pos (passes.mpr removed)

/-! ## A descriptor given out again -/

/-- The same history over the server's own machine, whose runs are among those above. -/
def removingHere (workers : Nat) : History (machine workers) Removals where
  record := (removing workers).record
  start := (removing workers).start

theorem dated_of_machine {workers : Nat} {c : Config serverInterface Exn Dated} {db : Database}
    (run : ((machine workers).recording (removingHere workers)).Reaches Machine.unrestricted
      (datedBoot db) c) :
    (dated workers).Reaches Machine.unrestricted (datedBoot db) c := by
  have more : ∀ t p s s', ((machine workers).recording (removingHere workers)).spawn t p s s' →
      (dated workers).spawn t p s s' := fun _ _ _ _ start => ⟨.start start.1, start.2⟩
  exact run.of_spawns rfl more

/-- A connection sends a message and hangs up, and its descriptor goes to another one
before a worker takes the message. -/
def reusing : List Turn :=
  accept 5 ++ read 5 loginAlice ++ [.event (.client 5), .act 0 30 hangUp] ++ accept 5 ++ [.take 1]

/-- A task of a removed session is about to be checked, and its descriptor is in use again. -/
def reused (c : Recorded Removals) : Bool :=
  match c.thread 1 with
  | .act (.checkGeneration task) _ =>
    decide (task.session.id ∈ c.shared.2.removed ∧
      ∃ x ∈ c.shared.1.server.sessions, x.fd = task.session.fd)
  | _ => false

/-- The descriptor of a removed session is that of a new one in the table; a task of the removed
session is dropped nevertheless. -/
theorem check_fails_reused :
    ∃ c, (dated 1).Reaches Machine.unrestricted (datedBoot aliceDb) c ∧
      ∃ task next, c.thread 1 = .act (.checkGeneration task) next ∧
        (∃ x ∈ c.shared.1.server.sessions, x.fd = task.session.fd) ∧
        next (Act.exec default (.checkGeneration task) c.shared.1.server).1 = dropped task := by
  have passes : (replay (removingHere 1) reusing (datedBoot aliceDb)).any reused = true := by
    decide +kernel
  obtain ⟨c, run, taken⟩ := reaches_of_replay passes
  have recorded := dated_of_machine run
  unfold reused at taken
  split at taken
  next task next checking =>
    obtain ⟨removed, other⟩ := of_decide_eq_true taken
    refine ⟨c, recorded, task, next, checking, other, ?_⟩
    have rest := (check_passes_iff 1 aliceDb c recorded 1 task next checking default).2
    rwa [if_pos removed] at rest
  · cases taken

end LinuxChat.Guarantees.Generations
