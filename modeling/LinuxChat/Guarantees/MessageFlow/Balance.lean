import LinuxChat.Guarantees.MessageFlow.Books
import LinuxChat.Guarantees.Effects

/-!
# The balance

What was received is what is still to be dispatched, what is queued and what was taken; what was
taken is what was handled, dropped or is in hand; and only messages of sessions that left the
table were dropped. Each part is kept by every step.
-/

namespace LinuxChat.Guarantees.MessageFlow

open LinuxChat.Lib LinuxChat.Source Prog

/-! ## The balance -/

/-- Messages of the tasks that workers have taken and not checked yet. -/
def inHand (workers : Nat) (hand : Nat → Hand) : List Arrival :=
  (List.range (workers + 1)).filterMap fun t => (hand t).task.map arrivalOf

/-- While the session is in the table, its generation is the one captured. -/
structure Stamped (s : Server) (x : SessionRef) (g : Nat) : Prop where
  made : x.id < s.nextId
  current : x ∈ s.sessions → (s.heap x.id).generation = g

/-- The session was there and is not any more. -/
structure Gone (s : Server) (x : SessionRef) : Prop where
  made : x.id < s.nextId
  absent : x ∉ s.sessions

/-- The invariant: the messages received are those taken, those in the queue and those still in
the event loop's hands, in this order; and those taken were handled, were dropped with their
session, or are in a worker's hands. -/
structure Balanced (workers : Nat) (s : Traced) : Prop where
  numbered : Numbered s.1.server.sessions s.1.server.nextId
  handler : s.1.server.hasMessageHandler = true
  running : s.1.server.poolStop = false
  fifo : s.2.received = s.2.taken ++ s.1.server.tasks.map arrivalOf ++ (s.2.hand 0).pending
  checked : s.2.taken.Perm (s.2.handled ++ s.2.stale ++ inHand workers s.2.hand)
  pool : ∀ t task, (s.2.hand t).task = some task → t ≤ workers
  found : ∀ x, (s.2.hand 0).session = some x → x.id < s.1.server.nextId
  captured : ∀ x g, (s.2.hand 0).stamp = some (x, g) → Stamped s.1.server x g
  queued : ∀ task ∈ s.1.server.tasks, Stamped s.1.server task.session task.genAtDispatch
  held : ∀ t task, (s.2.hand t).task = some task →
    Stamped s.1.server task.session task.genAtDispatch
  dropped : ∀ a ∈ s.2.stale, Gone s.1.server a.session

/-- One entry fewer. -/
theorem filterMap_cleared {α : Type} {l : List Nat} (nodup : l.Nodup) {t : Nat} (member : t ∈ l)
    {f g : Nat → Option α} {a : α} (own : f t = some a) (cleared : g t = none)
    (same : ∀ u, u ≠ t → g u = f u) : (l.filterMap f).Perm (a :: l.filterMap g) := by
  induction l with
  | nil => cases member
  | cons u rest ih =>
    have apart := List.nodup_cons.mp nodup
    by_cases here : u = t
    · subst here
      have others : rest.filterMap g = rest.filterMap f := by
        refine List.filterMap_congr fun v inside => same v ?_
        intro equal
        rw [equal] at inside
        exact apart.1 inside
      rw [List.filterMap_cons_some own, List.filterMap_cons_none cleared, others]
    · have later := ih apart.2 ((List.mem_cons.mp member).resolve_left fun back => here back.symm)
      cases entry : f u with
      | none =>
        rw [List.filterMap_cons_none entry, List.filterMap_cons_none ((same u here).trans entry)]
        exact later
      | some b =>
        rw [List.filterMap_cons_some entry, List.filterMap_cons_some ((same u here).trans entry)]
        exact (later.cons b).trans (List.Perm.swap a b _)

section
variable {workers t : Nat} {s : Traced} {action : Act} (w : World)

/-- The state after an action of thread `t`. -/
abbrev next (workers t : Nat) (w : World) (action : Act) (s : Traced) : Traced :=
  ((traced workers).exec t w action s).2

theorem next_server : (next workers t w action s).1.server = (action.exec w s.1.server).2 := rfl

theorem next_own : (next workers t w action s).2.hand t =
    (s.2.hand t).follow action (action.exec w s.1.server).1 :=
  Function.update_self _ _ _

theorem next_other {u : Nat} (differs : u ≠ t) :
    (next workers t w action s).2.hand u = s.2.hand u :=
  Function.update_of_ne differs _ _

theorem nextId_le : s.1.server.nextId ≤ (next workers t w action s).1.server.nextId := by
  rw [next_server, exec_nextId]
  cases action with
  | storeSession => exact Nat.le_succ _
  | _ => exact Nat.le_refl _

/-- A session of the table was there before, or is the newest object. -/
theorem table_cases {x : SessionRef} (member : x ∈ (next workers t w action s).1.server.sessions) :
    x ∈ s.1.server.sessions ∨ x.id = s.1.server.nextId := by
  rw [next_server, exec_sessions] at member
  cases action with
  | storeSession fd ip =>
    rcases List.mem_cons.mp member with new | old
    · exact Or.inr (congrArg SessionRef.id new)
    · exact Or.inl (List.mem_of_mem_filter old)
  | eraseSession fd => exact Or.inl (List.mem_of_mem_filter member)
  | _ => exact Or.inl member

/-- As long as a session stays in the table its generation stays. -/
theorem Stamped.step {x : SessionRef} {g : Nat}
    (numbered : Numbered s.1.server.sessions s.1.server.nextId) (stamped : Stamped s.1.server x g) :
    Stamped (next workers t w action s).1.server x g where
  made := Nat.lt_of_lt_of_le stamped.made (nextId_le w)
  current := by
    intro member
    have older := stamped.made
    rcases table_cases w member with old | new
    · have before := stamped.current old
      rw [next_server, exec_generation]
      cases action with
      | storeSession fd ip =>
        dsimp only
        rw [if_neg (by omega)]
        exact before
      | eraseSession fd =>
        dsimp only
        cases found : s.1.server.findByFd fd with
        | none => exact before
        | some y =>
          dsimp only
          split
          next same =>
            -- the session that is erased is not in the table any more
            have own : y.fd = fd := by simpa using List.find?_some found
            have equal := numbered.apart x old y (List.mem_of_find?_eq_some found) same
            rw [next_server, exec_sessions] at member
            have differs := (List.mem_filter.mp member).2
            rw [equal, own] at differs
            simp at differs
          · exact before
      | _ => exact before
    · omega

theorem Gone.step {x : SessionRef} (gone : Gone s.1.server x) :
    Gone (next workers t w action s).1.server x where
  made := Nat.lt_of_lt_of_le gone.made (nextId_le w)
  absent := by
    intro member
    have older := gone.made
    rcases table_cases w member with old | new
    · exact gone.absent old
    · omega

theorem numbered_step (balanced : Balanced workers s) :
    Numbered (next workers t w action s).1.server.sessions
      (next workers t w action s).1.server.nextId := by
  rw [next_server, exec_sessions, exec_nextId]
  cases action with
  | storeSession fd ip => exact (balanced.numbered.sublist List.filter_sublist).push fd ip
  | eraseSession fd => exact balanced.numbered.sublist List.filter_sublist
  | _ => exact balanced.numbered

/-- What an action does to the messages on their way to the queue. -/
theorem fifo_step (balanced : Balanced workers s) (ok : carrying.ok (viewOf s t) action) :
    (next workers t w action s).2.received =
      (next workers t w action s).2.taken ++
        (next workers t w action s).1.server.tasks.map arrivalOf ++
        ((next workers t w action s).2.hand 0).pending := by
  have before := balanced.fifo
  have received : (next workers t w action s).2.received =
      Flow.receive s.2.received action (action.exec w s.1.server).1 := rfl
  have taken : (next workers t w action s).2.taken = s.2.taken := rfl
  rw [received, taken, next_server, exec_tasks]
  by_cases loop : t = 0
  · subst loop
    rw [next_own]
    cases action with
    | recvMsgs session =>
      simp only [Flow.receive, Hand.follow]
      rw [before, List.append_assoc]
    | hasMessageHandler =>
      have registered : (Act.hasMessageHandler.exec w s.1.server).1 = true := balanced.handler
      simp only [Flow.receive, Hand.follow]
      rw [registered, if_pos rfl]
      exact before
    | enqueue task =>
      obtain ⟨_, _, rest, batch⟩ := ok
      replace batch : (s.2.hand 0).pending = arrivalOf task :: rest := batch
      have accepted : (Act.exec w (.enqueue task) s.1.server).1 = true := by
        simp only [Act.exec, balanced.running]
        rfl
      simp only [Flow.receive, Hand.follow]
      rw [accepted, balanced.running, if_pos rfl, before, batch]
      simp
    | _ => exact before
  · rw [next_other w (Ne.symm loop)]
    cases action with
    | recvMsgs => exact absurd (of_decide_eq_true ok) loop
    | enqueue => exact absurd (of_decide_eq_true ok.1) loop
    | _ => exact before

/-- A check is the only action that takes a task out of a hand. -/
theorem task_kept (unchecked : ∀ task, action ≠ .checkGeneration task) (u : Nat) :
    ((next workers t w action s).2.hand u).task = (s.2.hand u).task := by
  by_cases actor : u = t
  · subst actor
    rw [next_own]
    cases action with
    | checkGeneration task => exact absurd rfl (unchecked task)
    | hasMessageHandler | enqueue =>
      simp only [Hand.follow]
      split <;> rfl
    | _ => rfl
  · rw [next_other w actor]

theorem task_before {u : Nat} {task : Task}
    (own : ((next workers t w action s).2.hand u).task = some task) :
    (s.2.hand u).task = some task := by
  by_cases checks : ∃ checked, action = .checkGeneration checked
  · obtain ⟨checked, rfl⟩ := checks
    by_cases actor : u = t
    · subst actor
      rw [next_own] at own
      cases own
    · rwa [next_other w actor] at own
  · rwa [task_kept w fun task same => checks ⟨task, same⟩] at own

theorem checked_step (balanced : Balanced workers s) (ok : carrying.ok (viewOf s t) action) :
    (next workers t w action s).2.taken.Perm
      ((next workers t w action s).2.handled ++ (next workers t w action s).2.stale ++
        inHand workers (next workers t w action s).2.hand) := by
  have before := balanced.checked
  have handled : (next workers t w action s).2.handled =
      Flow.check true s.2.handled action (action.exec w s.1.server).1 := rfl
  have stale : (next workers t w action s).2.stale =
      Flow.check false s.2.stale action (action.exec w s.1.server).1 := rfl
  have taken : (next workers t w action s).2.taken = s.2.taken := rfl
  rw [handled, stale, taken]
  by_cases checks : ∃ task, action = .checkGeneration task
  · obtain ⟨task, rfl⟩ := checks
    have own : (s.2.hand t).task = some task := ok.2
    have inPool := balanced.pool t task own
    have cleared : (inHand workers s.2.hand).Perm (arrivalOf task ::
        inHand workers (next workers t w (.checkGeneration task) s).2.hand) := by
      apply filterMap_cleared List.nodup_range (List.mem_range.mpr (Nat.lt_succ_of_le inPool))
      · rw [own]
        rfl
      · rw [next_own]
        rfl
      · intro u other
        rw [next_other w other]
    have moved := before.trans (cleared.append_left (s.2.handled ++ s.2.stale))
    simp only [Flow.check]
    cases (Act.exec w (.checkGeneration task) s.1.server).1 with
    | true =>
      simp only [if_true, Bool.true_eq_false, if_false]
      exact moved.trans List.perm_middle
    | false =>
      simp only [if_true, Bool.false_eq_true, if_false]
      refine moved.trans ?_
      rw [List.append_assoc, List.append_assoc]
      exact List.perm_middle.append_left s.2.handled
  · have unchecked : ∀ task, action ≠ .checkGeneration task := fun task same => checks ⟨task, same⟩
    have same : inHand workers (next workers t w action s).2.hand = inHand workers s.2.hand :=
      List.filterMap_congr fun u _ => by rw [task_kept w unchecked u]
    rw [same]
    cases action with
    | checkGeneration task => exact absurd rfl (unchecked task)
    | _ => exact before

theorem found_step (balanced : Balanced workers s) (x : SessionRef)
    (found : ((next workers t w action s).2.hand 0).session = some x) :
    x.id < (next workers t w action s).1.server.nextId := by
  refine Nat.lt_of_lt_of_le ?_ (nextId_le w)
  by_cases loop : 0 = t
  · subst loop
    rw [next_own] at found
    cases action with
    | findByFd fd => exact balanced.numbered.bound x (List.mem_of_find?_eq_some found)
    | hasMessageHandler | enqueue =>
      simp only [Hand.follow] at found
      split at found <;> exact balanced.found x found
    | _ => exact balanced.found x found
  · rw [next_other w loop] at found
    exact balanced.found x found

theorem captured_step (balanced : Balanced workers s) (ok : carrying.ok (viewOf s t) action)
    (x : SessionRef) (g : Nat)
    (captured : ((next workers t w action s).2.hand 0).stamp = some (x, g)) :
    Stamped (next workers t w action s).1.server x g := by
  refine Stamped.step w balanced.numbered ?_
  by_cases loop : 0 = t
  · subst loop
    rw [next_own] at captured
    cases action with
    | generation session =>
      cases captured
      exact ⟨balanced.found x ok, fun _ => rfl⟩
    | hasMessageHandler | enqueue =>
      simp only [Hand.follow] at captured
      split at captured <;> exact balanced.captured x g captured
    | _ => exact balanced.captured x g captured
  · rw [next_other w loop] at captured
    exact balanced.captured x g captured

theorem queued_step (balanced : Balanced workers s) (ok : carrying.ok (viewOf s t) action) :
    ∀ task ∈ (next workers t w action s).1.server.tasks,
      Stamped (next workers t w action s).1.server task.session task.genAtDispatch := by
  intro task member
  refine Stamped.step w balanced.numbered ?_
  rw [next_server, exec_tasks] at member
  cases action with
  | enqueue new =>
    dsimp only at member
    rw [balanced.running] at member
    rcases List.mem_append.mp member with old | last
    · exact balanced.queued task old
    · rw [List.mem_singleton.mp last]
      have loop : t = 0 := of_decide_eq_true ok.1
      subst loop
      exact balanced.captured _ _ ok.2.1
  | _ => exact balanced.queued task member

/-- A check fails only for a session that has left the table. -/
theorem dropped_step (balanced : Balanced workers s) (ok : carrying.ok (viewOf s t) action) :
    ∀ a ∈ (next workers t w action s).2.stale,
      Gone (next workers t w action s).1.server a.session := by
  intro a member
  refine Gone.step w ?_
  have stale : (next workers t w action s).2.stale =
      Flow.check false s.2.stale action (action.exec w s.1.server).1 := rfl
  rw [stale] at member
  cases action with
  | checkGeneration task =>
    have stamped := balanced.held t task ok.2
    have result : (Act.exec w (.checkGeneration task) s.1.server).1 =
      decide ((s.1.server.heap task.session.id).generation = task.genAtDispatch) := rfl
    simp only [Flow.check] at member
    cases check : (Act.exec w (.checkGeneration task) s.1.server).1 with
    | true =>
      rw [check] at member
      exact balanced.dropped a member
    | false =>
      rw [check] at member result
      rcases List.mem_cons.mp member with new | old
      · rw [new]
        have differs := of_decide_eq_false result.symm
        exact ⟨stamped.made, fun inside => differs (stamped.current inside)⟩
      · exact balanced.dropped a old
  | _ => exact balanced.dropped a member

/-- Part by part, for an action of a thread that keeps to the monitor. -/
theorem balanced_step (balanced : Balanced workers s) (ok : carrying.ok (viewOf s t) action) :
    Balanced workers (next workers t w action s) where
  numbered := numbered_step w balanced
  handler := by
    rw [next_server, exec_hasMessageHandler]
    exact balanced.handler
  running := by
    rw [next_server, exec_poolStop]
    exact balanced.running
  fifo := fifo_step w balanced ok
  checked := checked_step w balanced ok
  pool u task own := balanced.pool u task (task_before w own)
  found := found_step w balanced
  captured := captured_step w balanced ok
  queued := queued_step w balanced ok
  held u task own := (balanced.held u task (task_before w own)).step w balanced.numbered
  dropped := dropped_step w balanced ok

end

/-- A worker takes the oldest task with an empty hand. -/
theorem balanced_take {workers t : Nat} {s : Traced} {task : Task} {rest : List Task}
    (balanced : Balanced workers s) (idle : (s.2.hand t).task = none) (worker : 0 < t)
    (inPool : t ≤ workers) (queued : s.1.server.tasks = task :: rest) :
    Balanced workers ({ s.1 with server := { s.1.server with tasks := rest } },
      s.2.take t s.1.server.tasks) := by
  have busy : t ≠ 0 := Nat.ne_of_gt worker
  have stamped := balanced.queued
  have fifo := balanced.fifo
  have takes : s.2.take t s.1.server.tasks = { s.2 with
      taken := s.2.taken ++ [arrivalOf task]
      hand := Function.update s.2.hand t { s.2.hand t with task := some task } } := by
    unfold Flow.take
    rw [if_neg busy, queued]
    rfl
  rw [queued] at stamped fifo
  rw [takes]
  have own : Function.update s.2.hand t { s.2.hand t with task := some task } t =
      { s.2.hand t with task := some task } := Function.update_self _ _ _
  have loop : Function.update s.2.hand t { s.2.hand t with task := some task } 0 = s.2.hand 0 :=
    Function.update_of_ne busy.symm _ _
  have cases_of : ∀ u held,
      (Function.update s.2.hand t { s.2.hand t with task := some task } u).task = some held →
      (u = t ∧ held = task) ∨ (s.2.hand u).task = some held := by
    intro u held has
    by_cases actor : u = t
    · subst actor
      rw [own] at has
      cases has
      exact Or.inl ⟨rfl, rfl⟩
    · rw [Function.update_of_ne actor] at has
      exact Or.inr has
  have fuller : (inHand workers
      (Function.update s.2.hand t { s.2.hand t with task := some task })).Perm
        (arrivalOf task :: inHand workers s.2.hand) := by
    apply filterMap_cleared List.nodup_range (List.mem_range.mpr (Nat.lt_succ_of_le inPool))
    · rw [own]
      rfl
    · rw [idle]
      rfl
    · intro u other
      rw [Function.update_of_ne other]
  exact {
    numbered := balanced.numbered
    handler := balanced.handler
    running := balanced.running
    fifo := by
      dsimp only
      rw [loop, fifo]
      simp
    checked := by
      have grown := (balanced.checked.append_right [arrivalOf task]).trans
        (List.perm_append_singleton _ _)
      have placed : (arrivalOf task :: (s.2.handled ++ s.2.stale ++ inHand workers s.2.hand)).Perm
          (s.2.handled ++ s.2.stale ++ (arrivalOf task :: inHand workers s.2.hand)) :=
        List.perm_middle.symm
      exact (grown.trans placed).trans (fuller.symm.append_left _)
    pool := fun u held has => by
      rcases cases_of u held has with ⟨same, _⟩ | old
      · omega
      · exact balanced.pool u held old
    found := fun x found => by
      dsimp only at found
      rw [loop] at found
      exact balanced.found x found
    captured := fun x g captured => by
      dsimp only at captured
      rw [loop] at captured
      obtain ⟨made, current⟩ := balanced.captured x g captured
      exact ⟨made, current⟩
    queued := fun later member => by
      obtain ⟨made, current⟩ := stamped later (List.mem_cons_of_mem task member)
      exact ⟨made, current⟩
    held := fun u held has => by
      have before : Stamped s.1.server held.session held.genAtDispatch := by
        rcases cases_of u held has with ⟨_, same⟩ | old
        · rw [same]
          exact stamped task List.mem_cons_self
        · exact balanced.held u held old
      exact ⟨before.made, before.current⟩
    dropped := fun a member => by
      obtain ⟨made, absent⟩ := balanced.dropped a member
      exact ⟨made, absent⟩ }

theorem balanced_spawn {workers t : Nat} {p : Proc Unit} {s : Traced} {shared : Shared}
    (balanced : Balanced workers s) (idle : (s.2.hand t).task = none)
    (start : Start workers t p s.1 shared) :
    Balanced workers (shared, s.2.take t s.1.server.tasks) := by
  cases start with
  | event e =>
    have same : s.2.take 0 s.1.server.tasks = s.2 := if_pos rfl
    rw [same]
    exact balanced
  | task worker inPool queued => exact balanced_take balanced idle worker inPool queued

theorem balanced_boot (workers : Nat) (db : Database) : Balanced workers (tracedBoot db).shared where
  numbered := ⟨fun _ member => (nomatch member), fun _ member => (nomatch member)⟩
  handler := rfl
  running := rfl
  fifo := rfl
  checked := by
    have nothing : inHand workers (tracedBoot db).shared.2.hand = [] :=
      List.filterMap_eq_nil_iff.mpr fun _ _ => rfl
    rw [nothing]
    exact List.Perm.nil
  pool _ _ own := nomatch own
  found _ found := nomatch found
  captured _ _ captured := nomatch captured
  queued _ member := nomatch member
  held _ _ own := nomatch own
  dropped _ member := nomatch member

end LinuxChat.Guarantees.MessageFlow
