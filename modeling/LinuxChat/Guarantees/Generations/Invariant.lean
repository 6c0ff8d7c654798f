import LinuxChat.Guarantees.Generations.Programs
import LinuxChat.Guarantees.Effects

/-!
# Generations and removals

A session that was not removed has the generation it was accepted with, and a task carries it;
a removed one has a later generation. So what is captured, queued and taken is exact.
-/

namespace LinuxChat.Guarantees.Generations

open LinuxChat.Lib LinuxChat.Source Prog

/-- A session object that exists and has not been removed. -/
def Present (id : Nat) (s : Dated) : Prop := id < s.1.server.nextId ∧ id ∉ s.2.removed

/-- The task's generation is that of its session exactly while this is not removed. -/
structure Exact (task : Task) (s : Dated) : Prop where
  made : task.session.id < s.1.server.nextId
  issued : task.genAtDispatch ≤ s.1.server.nextGeneration
  current : (s.1.server.heap task.session.id).generation = task.genAtDispatch ↔
    task.session.id ∉ s.2.removed

/-- The invariant: no session in the table is a removed one, a task that is queued or taken has
the generation of its session exactly while this is not removed, and what the event loop has in
hand is still there. -/
structure Sound (s : Dated) : Prop where
  numbered : Numbered s.1.server.sessions s.1.server.nextId
  table : ∀ x ∈ s.1.server.sessions, x.id ∉ s.2.removed
  removed : ∀ id ∈ s.2.removed, id < s.1.server.nextId
  stamps : ∀ id, (s.1.server.heap id).generation ≤ s.1.server.nextGeneration
  queued : ∀ task ∈ s.1.server.tasks, Exact task s
  taken : ∀ t task, (s.2.inHand t).task = some task → Exact task s
  found : ∀ x, (s.2.inHand 0).session = some x → Present x.id s
  captured : ∀ x g, (s.2.inHand 0).stamp = some (x, g) →
    Present x.id s ∧ (s.1.server.heap x.id).generation = g

section
variable {workers t : Nat} {s : Dated} {action : Act} (w : World)

/-- The state after an action of thread `t`. -/
abbrev next (workers t : Nat) (w : World) (action : Act) (s : Dated) : Dated :=
  ((dated workers).exec t w action s).2

theorem next_removed : (next workers t w action s).2.removed =
    match action with
    | .eraseSession fd => ((s.1.server.findByFd fd).map SessionRef.id).toList ++ s.2.removed
    | _ => s.2.removed := by
  have bumped : (next workers t w action s).2.removed =
      Removals.bump s.2.removed action (action.exec w s.1.server).1 := rfl
  rw [bumped]
  cases action with
  | eraseSession fd =>
    simp only [Removals.bump, Act.exec, Server.eraseSession]
    cases s.1.server.findByFd fd <;> rfl
  | _ => rfl

theorem next_server : (next workers t w action s).1.server = (action.exec w s.1.server).2 := rfl

theorem next_own : (next workers t w action s).2.inHand t =
    (s.2.inHand t).follow action (action.exec w s.1.server).1 :=
  Function.update_self _ _ _

theorem next_other {u : Nat} (differs : u ≠ t) :
    (next workers t w action s).2.inHand u = s.2.inHand u :=
  Function.update_of_ne differs _ _

theorem nextId_le : s.1.server.nextId ≤ (next workers t w action s).1.server.nextId := by
  rw [next_server, exec_nextId]
  cases action with
  | storeSession => exact Nat.le_succ _
  | _ => exact Nat.le_refl _

theorem nextGeneration_le :
    s.1.server.nextGeneration ≤ (next workers t w action s).1.server.nextGeneration := by
  rw [next_server, exec_nextGeneration]
  cases action with
  | storeSession => exact Nat.le_succ _
  | eraseSession fd =>
    dsimp only
    split
    · exact Nat.le_succ _
    · exact Nat.le_refl _
  | _ => exact Nat.le_refl _

/-- `remove_client` finds this session under the descriptor. -/
def Removes (s : Dated) (id : Nat) : Act → Prop
  | .eraseSession fd => ∃ x, s.1.server.findByFd fd = some x ∧ x.id = id
  | _ => False

/-- A session object is bumped when it is removed, and only then. -/
theorem generation_cases {id : Nat} (made : id < s.1.server.nextId) :
    (Removes s id action ∧ id ∈ (next workers t w action s).2.removed ∧
      ((next workers t w action s).1.server.heap id).generation =
        s.1.server.nextGeneration + 1) ∨
    (¬ Removes s id action ∧
      (id ∈ (next workers t w action s).2.removed ↔ id ∈ s.2.removed) ∧
      ((next workers t w action s).1.server.heap id).generation =
        (s.1.server.heap id).generation) := by
  rw [next_removed, next_server, exec_generation]
  cases action with
  | storeSession fd ip => exact Or.inr ⟨False.elim, Iff.rfl, if_neg (Nat.ne_of_lt made)⟩
  | eraseSession fd =>
    dsimp only [Removes]
    cases s.1.server.findByFd fd with
    | none => exact Or.inr ⟨by simp, Iff.rfl, rfl⟩
    | some x =>
      by_cases own : id = x.id
      · subst own
        exact Or.inl ⟨⟨x, rfl, rfl⟩, List.mem_cons_self, if_pos rfl⟩
      · refine Or.inr ⟨?_, ?_, if_neg own⟩
        · rintro ⟨y, same, rfl⟩
          cases same
          exact own rfl
        · simp [own]
  | _ => exact Or.inr ⟨False.elim, Iff.rfl, rfl⟩

theorem Present.step {id : Nat} (present : Present id s) (stays : ¬ Removes s id action) :
    Present id (next workers t w action s) ∧
      ((next workers t w action s).1.server.heap id).generation =
        (s.1.server.heap id).generation := by
  rcases @generation_cases workers t s action w id present.1 with
    ⟨removes, _, _⟩ | ⟨_, kept, same⟩
  · exact absurd removes stays
  · exact ⟨⟨Nat.lt_of_lt_of_le present.1 (nextId_le w), mt kept.mp present.2⟩, same⟩

theorem Exact.step {task : Task} (exact' : Exact task s) :
    Exact task (next workers t w action s) where
  made := Nat.lt_of_lt_of_le exact'.made (nextId_le w)
  issued := Nat.le_trans exact'.issued (nextGeneration_le w)
  current := by
    rcases @generation_cases workers t s action w _ exact'.made with
      ⟨_, gone, bumped⟩ | ⟨_, kept, same⟩
    · rw [bumped]
      have issued := exact'.issued
      constructor
      · intro equal
        omega
      · intro present
        exact absurd gone present
    · rw [same, kept]
      exact exact'.current

theorem table_cases {x : SessionRef} (sound : Sound s)
    (member : x ∈ (next workers t w action s).1.server.sessions) :
    (x ∈ s.1.server.sessions ∧ ¬ Removes s x.id action) ∨
      ∃ fd ip, action = .storeSession fd ip ∧ x.id = s.1.server.nextId := by
  rw [next_server, exec_sessions] at member
  cases action with
  | storeSession fd ip =>
    rcases List.mem_cons.mp member with new | old
    · exact Or.inr ⟨fd, ip, rfl, congrArg SessionRef.id new⟩
    · exact Or.inl ⟨List.mem_of_mem_filter old, False.elim⟩
  | eraseSession fd =>
    have old := List.mem_of_mem_filter member
    refine Or.inl ⟨old, ?_⟩
    rintro ⟨y, found, own⟩
    have same := sound.numbered.apart y (List.mem_of_find?_eq_some found) x old own
    have at_fd : y.fd = fd := by simpa using List.find?_some found
    rw [same] at at_fd
    simp [at_fd] at member
  | _ => exact Or.inl ⟨member, False.elim⟩

theorem Sound.present (sound : Sound s) {x : SessionRef} (member : x ∈ s.1.server.sessions) :
    Present x.id s :=
  ⟨sound.numbered.bound x member, sound.table x member⟩

theorem removed_step (sound : Sound s) :
    ∀ id ∈ (next workers t w action s).2.removed,
      id < (next workers t w action s).1.server.nextId := by
  intro id member
  refine Nat.lt_of_lt_of_le ?_ (nextId_le w)
  rw [next_removed] at member
  cases action with
  | eraseSession fd =>
    rcases List.mem_append.mp member with new | old
    · obtain ⟨x, found, rfl⟩ := Option.map_eq_some_iff.mp (Option.mem_toList.mp new)
      exact sound.numbered.bound x (List.mem_of_find?_eq_some found)
    · exact sound.removed id old
  | _ => exact sound.removed id member

theorem stamps_step (sound : Sound s) (id : Nat) :
    ((next workers t w action s).1.server.heap id).generation ≤
      (next workers t w action s).1.server.nextGeneration := by
  have before := sound.stamps id
  rw [next_server, exec_generation, exec_nextGeneration]
  cases action with
  | storeSession fd ip =>
    dsimp only
    split <;> omega
  | eraseSession fd =>
    dsimp only
    cases s.1.server.findByFd fd with
    | none => exact before
    | some x =>
      simp only [Option.isSome_some, if_true]
      split <;> omega
  | _ => exact before

/-- What the event loop has captured is not out of date when it enqueues. -/
theorem exact_of_captured (sound : Sound s) {task : Task}
    (captured : (s.2.inHand 0).stamp = some (task.session, task.genAtDispatch)) :
    Exact task s := by
  obtain ⟨present, same⟩ := sound.captured _ _ captured
  refine ⟨present.1, ?_, fun _ => present.2, fun _ => same⟩
  rw [← same]
  exact sound.stamps _

theorem queued_step (sound : Sound s) (ok : dispatching.ok (viewOf s t) action) :
    ∀ task ∈ (next workers t w action s).1.server.tasks,
      Exact task (next workers t w action s) := by
  intro task member
  refine Exact.step w ?_
  rw [next_server, exec_tasks] at member
  cases action with
  | enqueue new =>
    dsimp only at member
    split at member
    · exact sound.queued task member
    · rcases List.mem_append.mp member with old | last
      · exact sound.queued task old
      · rw [List.mem_singleton.mp last]
        have loop : t = 0 := of_decide_eq_true ok.1
        subst loop
        exact exact_of_captured sound ok.2
  | _ => exact sound.queued task member

theorem taken_step (sound : Sound s) (u : Nat) (task : Task)
    (own : ((next workers t w action s).2.inHand u).task = some task) :
    Exact task (next workers t w action s) := by
  refine Exact.step w ?_
  by_cases actor : u = t
  · subst actor
    rw [next_own] at own
    cases action with
    | checkGeneration => cases own
    | _ => exact sound.taken u task own
  · rw [next_other w actor] at own
    exact sound.taken u task own

/-- Only the event loop removes, and then it has nothing in hand. -/
theorem stays_of_ok (ok : dispatching.ok (viewOf s t) action)
    (inHand : ((next workers t w action s).2.inHand 0).session.isSome ∨
      ((next workers t w action s).2.inHand 0).stamp.isSome) (id : Nat) :
    ¬ Removes s id action := by
  cases action with
  | eraseSession fd =>
    have loop : t = 0 := of_decide_eq_true ok
    subst loop
    rw [next_own] at inHand
    rcases inHand with held | held <;> cases held
  | _ => exact False.elim

theorem found_step (sound : Sound s) (ok : dispatching.ok (viewOf s t) action) (x : SessionRef)
    (found : ((next workers t w action s).2.inHand 0).session = some x) :
    Present x.id (next workers t w action s) := by
  have stays := stays_of_ok w ok (Or.inl (Option.isSome_of_eq_some found)) x.id
  refine (Present.step w ?_ stays).1
  by_cases actor : 0 = t
  · subst actor
    rw [next_own] at found
    cases action with
    | findByFd fd => exact sound.present (List.mem_of_find?_eq_some found)
    | eraseSession => cases found
    | _ => exact sound.found x found
  · rw [next_other w actor] at found
    exact sound.found x found

theorem captured_step (sound : Sound s) (ok : dispatching.ok (viewOf s t) action) (x : SessionRef)
    (g : Nat) (captured : ((next workers t w action s).2.inHand 0).stamp = some (x, g)) :
    Present x.id (next workers t w action s) ∧
      ((next workers t w action s).1.server.heap x.id).generation = g := by
  have stays := stays_of_ok w ok (Or.inr (Option.isSome_of_eq_some captured)) x.id
  have before : Present x.id s ∧ (s.1.server.heap x.id).generation = g := by
    by_cases actor : 0 = t
    · subst actor
      rw [next_own] at captured
      cases action with
      | findByFd | eraseSession => cases captured
      | generation session =>
        cases captured
        exact ⟨sound.found _ ok.2, rfl⟩
      | _ => exact sound.captured x g captured
    · rw [next_other w actor] at captured
      exact sound.captured x g captured
  obtain ⟨present, same⟩ := before.1.step w stays
  exact ⟨present, same.trans before.2⟩

/-- Part by part. Only the event loop removes a session, and it does so only to one it has found
in the table. -/
theorem sound_step (sound : Sound s) (ok : dispatching.ok (viewOf s t) action) :
    Sound (next workers t w action s) where
  numbered := by
    rw [next_server, exec_sessions, exec_nextId]
    cases action with
    | storeSession fd ip => exact (sound.numbered.sublist List.filter_sublist).push fd ip
    | eraseSession fd => exact sound.numbered.sublist List.filter_sublist
    | _ => exact sound.numbered
  table x member := by
    rcases table_cases w sound member with ⟨old, stays⟩ | ⟨fd, ip, rfl, new⟩
    · exact ((sound.present old).step w stays).1.2
    · rw [new]
      exact fun removed => Nat.lt_irrefl _ (sound.removed _ removed)
  removed := removed_step w sound
  stamps := stamps_step w sound
  queued := queued_step w sound ok
  taken := taken_step w sound
  found := found_step w sound ok
  captured := captured_step w sound ok

end

/-- Starting a thread gives it no more than the oldest task of the queue. -/
theorem sound_spawn {workers t : Nat} {p : Proc Unit} {s : Dated} {shared : Shared}
    (sound : Sound s) (start : Accepting workers t p s.1 shared) :
    Sound (shared, s.2.take t s.1.server.tasks) := by
  have idle : s.2.take 0 s.1.server.tasks = s.2 := if_pos rfl
  cases start with
  | start h =>
    cases h with
    | event e =>
      rw [idle]
      exact sound
    | @task _ _ task rest worker inPool queued =>
      have busy : t ≠ 0 := Nat.ne_of_gt worker
      unfold Removals.take
      rw [if_neg busy, queued]
      have tasks := sound.queued
      rw [queued] at tasks
      exact {
        numbered := sound.numbered
        table := sound.table
        removed := sound.removed
        stamps := sound.stamps
        queued := fun task' member => by
          obtain ⟨made, issued, current⟩ := tasks task' (List.mem_cons_of_mem _ member)
          exact ⟨made, issued, current⟩
        taken := fun u task' own => by
          dsimp only at own
          have exact' : Exact task' s := by
            by_cases actor : u = t
            · subst actor
              rw [Function.update_self] at own
              cases own
              exact tasks task List.mem_cons_self
            · rw [Function.update_of_ne actor] at own
              exact sound.taken u task' own
          exact ⟨exact'.made, exact'.issued, exact'.current⟩
        found := fun x found => by
          dsimp only at found
          rw [Function.update_of_ne busy.symm] at found
          exact sound.found x found
        captured := fun x g captured => by
          dsimp only at captured
          rw [Function.update_of_ne busy.symm] at captured
          exact sound.captured x g captured }
  | anyFd fd ip =>
    rw [idle]
    exact sound
  | refused =>
    rw [idle]
    have later : ∀ task, Exact task s → Exact task
        ({ s.1 with server := { s.1.server with
          nextGeneration := s.1.server.nextGeneration + 1 } }, s.2) :=
      fun task h => ⟨h.made, Nat.le_succ_of_le h.issued, h.current⟩
    exact {
      numbered := sound.numbered
      table := sound.table
      removed := sound.removed
      stamps := fun id => Nat.le_succ_of_le (sound.stamps id)
      queued := fun task member => later task (sound.queued task member)
      taken := fun u task own => later task (sound.taken u task own)
      found := sound.found
      captured := sound.captured }

theorem sound_boot (db : Database) : Sound (datedBoot db).shared where
  numbered := ⟨fun _ member => (nomatch member), fun _ member => (nomatch member)⟩
  table _ member := nomatch member
  removed _ member := nomatch member
  stamps _ := Nat.zero_le _
  queued _ member := nomatch member
  taken _ _ own := nomatch own
  found _ found := nomatch found
  captured _ _ captured := nomatch captured

end LinuxChat.Guarantees.Generations
