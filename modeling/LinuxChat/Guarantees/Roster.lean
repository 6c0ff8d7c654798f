import LinuxChat.Guarantees.Reservations

/-!
# Names, the online set and the session table

Between a session's name, its entry in `online_users_` and its place in `sessions_`
there are always steps (server/src/message_router.cpp:207-233, 413-441;
server/src/epoll_server.cpp:309-352). The invariant lets the three differ for a
session that some thread is at work on. Work means a LOGIN, REGISTER or LOGOUT task
whose generation check passed, or a removal.
-/

namespace LinuxChat.Guarantees

open LinuxChat.Lib LinuxChat.Source

/-- Jobs that name, unname or remove their session. -/
def Job.isWork : Job → Bool
  | .task work => isAuthType work.msg.typeOf
  | .removal _ => true

/-- Thread `t` is at work on the session object. -/
def Busy (c : Core) (t id : Nat) : Prop :=
  ∃ j, c.job t = some j ∧ Job.isWork j = true ∧ j.session.id = id

/-- Every session object, in the table or not. -/
abbrev everyone : Core → Nat → Prop := fun _ _ => True

/-- The task's session is in the table, or the task is stale. -/
structure Dated (task : Task) (c : Core) : Prop where
  issued : task.genAtDispatch ≤ c.nextGeneration
  current : c.Live task.session.id ∨ c.generation task.session.id ≠ task.genAtDispatch

/-- The invariant of names and the online list: but for the sessions that a thread is at work on,
every name borne is online and its session in the table; and no two threads are at work on one
session. -/
structure Roster (c : Core) : Prop where
  allocated : Allocated c
  fds : c.table.Pairwise fun x y => x.fd ≠ y.fd
  held : Held c
  distinct : Distinct everyone c
  stamps : ∀ id, c.generation id ≤ c.nextGeneration
  dated : ∀ task ∈ c.queue, Dated task c
  alone : ∀ t t' id, Busy c t id → Busy c t' id → t = t'
  present : ∀ t task, c.job t = some (.task task) → isAuthType task.msg.typeOf = true →
    c.Live task.session.id
  bearers : ∀ u ∈ c.online, u ≠ "" ∧ ∃ id, c.name id = u
  listed : ∀ id, c.name id ≠ "" → c.name id ∈ c.online ∨ ∃ t, Busy c t id
  seated : ∀ id, c.name id ≠ "" → c.Live id ∨ ∃ t, Busy c t id
  disconnects : c.disconnects = true

/-- What a thread must know before an action on the roster. -/
def Proper (t : Nat) (c : Core) : Act → Prop
  | .setUsername session _ => Busy c t session.id ∧ c.name session.id = ""
  | .clearUsername session => Busy c t session.id ∧ c.name session.id ∉ c.online
  | .insertOnline username => username ≠ "" ∧ ∃ id, Busy c t id ∧ c.name id = username
  | .eraseOnline username => ∃ id, Busy c t id ∧ c.name id = username
  | .storeSession fd _ => t = 0 ∧ ∀ x ∈ c.table, x.fd ≠ fd
  | .eraseSession fd => t = 0 ∧ c.job t = none ∧ ∀ x ∈ c.table, x.fd = fd →
    ∀ other, other ≠ t → ¬ Busy c other x.id
  | .enqueue task => Dated task c
  | .checkGeneration task => Dated task c ∧ c.job t = none ∧
    (isAuthType task.msg.typeOf = true →
      c.generation task.session.id = task.genAtDispatch →
        ∀ other, other ≠ t → ¬ Busy c other task.session.id)
  | .dropSession _ => ∀ id, Busy c t id → c.name id ≠ "" → c.name id ∈ c.online ∧ c.Live id
  | _ => True

variable {c : Core} {t : Nat} {dbOk : Bool} {action : Act}

/-! ## The jobs -/

theorem busy_other {other id : Nat} (differs : other ≠ t) :
    Busy (c.step t dbOk action) other id ↔ Busy c other id := by
  unfold Busy
  rw [job_other differs]

/-- Only these end or begin a job. -/
def BeginsOrEnds : Act → Prop
  | .eraseSession _ => True
  | .checkGeneration _ => True
  | .dropSession _ => True
  | _ => False

theorem job_same (h : ¬ BeginsOrEnds action) : (c.step t dbOk action).job = c.job := by
  rw [Core.step_job]
  cases action with
  | eraseSession | checkGeneration | dropSession => exact absurd trivial h
  | _ => rfl

theorem busy_same (h : ¬ BeginsOrEnds action) {other id : Nat} :
    Busy (c.step t dbOk action) other id ↔ Busy c other id := by
  unfold Busy
  rw [job_same h]

/-- Whoever is busy after a step was so before, or has just begun. -/
theorem busy_cases {other id : Nat} (busy : Busy (c.step t dbOk action) other id) :
    Busy c other id ∨ other = t ∧
      ((∃ task, action = .checkGeneration task ∧ isAuthType task.msg.typeOf = true ∧
          task.session.id = id ∧ c.generation task.session.id = task.genAtDispatch) ∨
        ∃ x ∈ c.table, action = .eraseSession x.fd ∧ x.id = id) := by
  obtain ⟨j, job, work, own⟩ := busy
  rcases job_cases job with old | ⟨actor, ⟨task, made, rfl, current⟩ | ⟨x, made, rfl, member⟩⟩
  · exact Or.inl ⟨j, old, work, own⟩
  · exact Or.inr ⟨actor, Or.inl ⟨task, made, work, own, current⟩⟩
  · exact Or.inr ⟨actor, Or.inr ⟨x, member, made, own⟩⟩

/-- A thread without a job is not busy. -/
theorem not_busy (idle : c.job t = none) (id : Nat) : ¬ Busy c t id := by
  rintro ⟨j, job, _⟩
  rw [idle] at job
  cases job

theorem Roster.alone_step (roster : Roster c) (proper : Proper t c action) (t₁ t₂ id : Nat)
    (busy₁ : Busy (c.step t dbOk action) t₁ id) (busy₂ : Busy (c.step t dbOk action) t₂ id) :
    t₁ = t₂ := by
  -- no other thread is busy with a session whose work begins
  have begins : ∀ other, other ≠ t → Busy c other id →
      ((∃ task, action = .checkGeneration task ∧ isAuthType task.msg.typeOf = true ∧
          task.session.id = id ∧ c.generation task.session.id = task.genAtDispatch) ∨
        ∃ x ∈ c.table, action = .eraseSession x.fd ∧ x.id = id) → False := by
    rintro other differs busy (⟨task, rfl, auth, own, current⟩ | ⟨x, member, rfl, own⟩)
    · exact proper.2.2 auth current other differs (own.symm ▸ busy)
    · exact proper.2.2 x member rfl other differs (own.symm ▸ busy)
  rcases busy_cases busy₁ with old₁ | ⟨actor₁, new₁⟩
  · rcases busy_cases busy₂ with old₂ | ⟨actor₂, new₂⟩
    · exact roster.alone t₁ t₂ id old₁ old₂
    · by_contra differs
      rw [actor₂] at differs
      exact begins t₁ differs old₁ new₂
  · rcases busy_cases busy₂ with old₂ | ⟨actor₂, _⟩
    · by_contra differs
      rw [actor₁] at differs
      exact begins t₂ (fun same => differs same.symm) old₂ new₁
    · rw [actor₁, actor₂]

/-! ## The table -/

/-- An object that has not been made has no name. -/
theorem Roster.nameless_beyond (roster : Roster c) {id : Nat} (beyond : c.nextId ≤ id) :
    c.name id = "" := by
  by_contra named
  rcases roster.seated id named with ⟨x, member, own⟩ | ⟨other, j, job, _, own⟩
  · have made := roster.allocated.table x member
    omega
  · have made := roster.allocated.jobs other j job
    omega

/-- A session leaves the table only into its removal. -/
theorem live_cases (dbOk : Bool) {id : Nat} (live : c.Live id) (proper : Proper t c action) :
    (c.step t dbOk action).Live id ∨
      ∃ x ∈ c.table, action = .eraseSession x.fd ∧ x.id = id := by
  obtain ⟨x, member, own⟩ := live
  have table := Core.step_table c t dbOk action
  cases action with
  | storeSession fd ip =>
    left
    refine ⟨x, ?_, own⟩
    rw [table]
    exact List.mem_cons_of_mem _ (List.mem_filter.mpr ⟨member, by simpa using proper.2 x member⟩)
  | eraseSession fd =>
    dsimp only at table
    cases found : c.table.find? fun y => y.fd = fd with
    | none =>
      rw [found] at table
      left
      refine ⟨x, ?_, own⟩
      rw [table]
      exact member
    | some y =>
      have fdY : y.fd = fd := by simpa using List.find?_some found
      by_cases same : x.fd = y.fd
      · exact Or.inr ⟨x, member, by rw [same, fdY], own⟩
      · rw [found] at table
        left
        refine ⟨x, ?_, own⟩
        rw [table]
        exact List.mem_filter.mpr ⟨member, by simpa using same⟩
  | _ =>
    left
    refine ⟨x, ?_, own⟩
    rw [table]
    exact member

theorem Roster.step_erase (roster : Roster c) {x : SessionRef} (member : x ∈ c.table) :
    c.step t dbOk (.eraseSession x.fd) = c.erase t x := by
  simp only [Core.step, find_of_mem roster.fds member]

theorem Roster.stamps_step (roster : Roster c) (id : Nat) :
    (c.step t dbOk action).generation id ≤ (c.step t dbOk action).nextGeneration := by
  have grows := Core.nextGeneration_le c t dbOk action
  rcases Core.step_generation c t dbOk action id with same | ⟨_, _, _, _, new⟩ | ⟨x, member, rfl, _, new⟩
  · rw [same]
    exact Nat.le_trans (roster.stamps id) grows
  · rw [new]
    exact grows
  · rw [new, roster.step_erase member]
    exact Nat.le_refl _

/-- A dated task stays dated: a removal gives its session a generation that no task has. -/
theorem Roster.dated_step (roster : Roster c) (proper : Proper t c action) {task : Task}
    (made : task.session.id < c.nextId) (dated : Dated task c) :
    Dated task (c.step t dbOk action) where
  issued := Nat.le_trans dated.issued (Core.nextGeneration_le c t dbOk action)
  current := by
    have newer : ∀ g, g = c.nextGeneration + 1 → g ≠ task.genAtDispatch := by
      intro g new same
      have issued := dated.issued
      omega
    rcases dated.current with live | stale
    · rcases live_cases (t := t) dbOk live proper with still | ⟨x, member, rfl, own⟩
      · exact Or.inl still
      · right
        rw [roster.step_erase member, ← own]
        exact newer _ (Function.update_self _ _ _)
    · right
      rcases Core.step_generation c t dbOk action task.session.id with
        same | ⟨_, _, _, new, _⟩ | ⟨_, _, _, _, new⟩
      · rw [same]
        exact stale
      · exact absurd new (Nat.ne_of_lt made)
      · exact newer _ new

theorem Roster.queue_step (roster : Roster c) (proper : Proper t c action)
    (placed : Placed c action) (task : Task) (member : task ∈ (c.step t dbOk action).queue) :
    Dated task (c.step t dbOk action) := by
  rw [Core.step_queue] at member
  have older : task ∈ c.queue → Dated task (c.step t dbOk action) := fun old =>
    roster.dated_step proper (roster.allocated.queue task old) (roster.dated task old)
  cases action with
  | enqueue new =>
    dsimp only at member
    split at member
    · exact older member
    · rcases List.mem_append.mp member with old | last
      · exact older old
      · rw [List.mem_singleton.mp last]
        exact roster.dated_step proper placed proper
  | _ => exact older member

/-- A task whose check passes has its session in the table. -/
theorem Roster.present_step (roster : Roster c) (proper : Proper t c action) (other : Nat)
    (task : Task) (job : (c.step t dbOk action).job other = some (.task task))
    (auth : isAuthType task.msg.typeOf = true) : (c.step t dbOk action).Live task.session.id := by
  rcases job_cases job with old | ⟨actor, ⟨made, rfl, same, current⟩ | ⟨_, _, same, _⟩⟩
  · have live := roster.present other task old auth
    rcases live_cases (t := t) dbOk live proper with still | ⟨x, member, rfl, own⟩
    · exact still
    · exfalso
      have busy : Busy c other x.id := ⟨_, old, auth, own.symm⟩
      by_cases actor : other = t
      · rw [actor, proper.2.1] at old
        cases old
      · exact proper.2.2 x member rfl other actor busy
  · cases same
    rcases proper.1.current with live | stale
    · rcases live_cases (t := t) dbOk live proper with still | ⟨_, _, other, _⟩
      · exact still
      · cases other
    · exact absurd current stale
  · cases same

/-! ## Names and the online set -/

variable (dbOk) in
/-- Nothing but a new name for an old session changes a name that is not empty. -/
theorem Roster.name_kept (roster : Roster c) (proper : Proper t c action) {id : Nat}
    (named : c.name id ≠ "") :
    (c.step t dbOk action).name id = c.name id ∨ ∃ x, action = .clearUsername x ∧ x.id = id := by
  rw [Core.step_name]
  cases action with
  | setUsername x username =>
    have differs : id ≠ x.id := by
      intro same
      rw [same] at named
      exact named proper.2
    exact Or.inl (Function.update_of_ne differs _ _)
  | clearUsername x =>
    by_cases same : x.id = id
    · exact Or.inr ⟨x, rfl, same⟩
    · exact Or.inl (Function.update_of_ne (fun back => same back.symm) _ _)
  | storeSession fd ip =>
    have differs : id ≠ c.nextId := by
      intro same
      rw [same] at named
      exact named (roster.nameless_beyond (Nat.le_refl _))
    exact Or.inl (Function.update_of_ne differs _ _)
  | _ => exact Or.inl rfl

/-- Only these write a name. -/
def Renames : Act → Prop
  | .setUsername _ _ => True
  | .clearUsername _ => True
  | .storeSession _ _ => True
  | _ => False

theorem name_same (h : ¬ Renames action) : (c.step t dbOk action).name = c.name := by
  rw [Core.step_name]
  cases action with
  | setUsername | clearUsername | storeSession => exact absurd trivial h
  | _ => rfl

theorem online_cases {u : String} (member : u ∈ (c.step t dbOk action).online) :
    u ∈ c.online ∨ action = .insertOnline u := by
  rw [Core.step_online] at member
  cases action with
  | insertOnline username =>
    dsimp only at member
    split at member
    · exact Or.inl member
    · rcases List.mem_cons.mp member with new | old
      · exact Or.inr (by rw [new])
      · exact Or.inl old
  | eraseOnline username => exact Or.inl (List.mem_filter.mp member).1
  | _ => exact Or.inl member

variable (t dbOk action) in
theorem online_kept {u : String} (member : u ∈ c.online) :
    u ∈ (c.step t dbOk action).online ∨ action = .eraseOnline u := by
  rw [Core.step_online]
  cases action with
  | insertOnline username =>
    dsimp only
    split
    · exact Or.inl member
    · exact Or.inl (List.mem_cons_of_mem _ member)
  | eraseOnline username =>
    by_cases same : u = username
    · exact Or.inr (by rw [same])
    · exact Or.inl (List.mem_filter.mpr ⟨member, by simpa using same⟩)
  | _ => exact Or.inl member

variable (dbOk) in
/-- Work ends only with the thread's last reference. -/
theorem busy_kept (proper : Proper t c action) {other id : Nat} (busy : Busy c other id) :
    Busy (c.step t dbOk action) other id ∨ other = t ∧ ∃ x, action = .dropSession x := by
  by_cases actor : other = t
  · subst actor
    cases action with
    | dropSession x => exact Or.inr ⟨rfl, x, rfl⟩
    | eraseSession fd => exact absurd busy (not_busy proper.2.1 id)
    | checkGeneration task => exact absurd busy (not_busy proper.2.1 id)
    | _ => exact Or.inl ((busy_same (by exact not_false)).mpr busy)
  · exact Or.inl ((busy_other actor).mpr busy)

theorem Roster.bearers_step (roster : Roster c) (proper : Proper t c action) (u : String)
    (member : u ∈ (c.step t dbOk action).online) :
    u ≠ "" ∧ ∃ id, (c.step t dbOk action).name id = u := by
  rcases online_cases member with old | rfl
  · obtain ⟨nonempty, id, bears⟩ := roster.bearers u old
    have named : c.name id ≠ "" := bears.symm ▸ nonempty
    rcases roster.name_kept dbOk proper named with same | ⟨x, rfl, target⟩
    · exact ⟨nonempty, id, same.trans bears⟩
    · have unlisted := proper.2
      rw [target, bears] at unlisted
      exact absurd old unlisted
  · obtain ⟨nonempty, id, _, bears⟩ := proper
    refine ⟨nonempty, id, ?_⟩
    rw [Core.step_name]
    exact bears

theorem Roster.listed_step (roster : Roster c) (proper : Proper t c action) (id : Nat)
    (named : (c.step t dbOk action).name id ≠ "") :
    (c.step t dbOk action).name id ∈ (c.step t dbOk action).online ∨
      ∃ other, Busy (c.step t dbOk action) other id := by
  obtain ⟨_, kept | ⟨x, given, target⟩⟩ := seen_cases visible_all (i := id) trivial named
  · rw [← kept] at named ⊢
    rcases roster.listed id named with listed | ⟨other, busy⟩
    · rcases online_kept t dbOk action listed with still | erased
      · exact Or.inl still
      · subst erased
        obtain ⟨owner, busy, bears⟩ := proper
        have same := roster.distinct.unique id owner trivial trivial named bears.symm
        rw [same]
        exact Or.inr ⟨t, (busy_same (by exact not_false)).mpr busy⟩
    · rcases busy_kept dbOk proper busy with still | ⟨actor, x, rfl⟩
      · exact Or.inr ⟨other, still⟩
      · rw [actor] at busy
        rw [Core.step_online]
        exact Or.inl (proper id busy named).1
  · rw [given] at proper ⊢
    rw [← target]
    exact Or.inr ⟨t, (busy_same (by exact not_false)).mpr proper.1⟩

theorem Roster.seated_step (roster : Roster c) (proper : Proper t c action) (id : Nat)
    (named : (c.step t dbOk action).name id ≠ "") :
    (c.step t dbOk action).Live id ∨ ∃ other, Busy (c.step t dbOk action) other id := by
  obtain ⟨_, kept | ⟨x, given, target⟩⟩ := seen_cases visible_all (i := id) trivial named
  · rw [← kept] at named
    rcases roster.seated id named with live | ⟨other, busy⟩
    · rcases live_cases (t := t) dbOk live proper with still | ⟨x, member, rfl, own⟩
      · exact Or.inl still
      · right
        refine ⟨t, .removal x, ?_, rfl, own⟩
        rw [roster.step_erase member]
        exact Function.update_self _ _ _
    · rcases busy_kept dbOk proper busy with still | ⟨actor, x, rfl⟩
      · exact Or.inr ⟨other, still⟩
      · rw [actor] at busy
        exact Or.inl (proper id busy named).2
  · rw [given] at proper ⊢
    rw [← target]
    exact Or.inr ⟨t, (busy_same (by exact not_false)).mpr proper.1⟩

/-- Proper and careful actions keep the roster. -/
theorem Roster.step (roster : Roster c) (proper : Proper t c action) (placed : Placed c action)
    (careful : Careful everyone t c action) : Roster (c.step t dbOk action) where
  allocated := roster.allocated.step t dbOk placed
  fds := Core.step_fds c t dbOk action roster.fds
  held := roster.held.step careful
  distinct := roster.distinct.step visible_all careful
  stamps := roster.stamps_step
  dated := roster.queue_step proper placed
  alone := roster.alone_step proper
  present := roster.present_step proper
  bearers := roster.bearers_step proper
  listed := roster.listed_step proper
  seated := roster.seated_step proper
  disconnects := (Core.step_disconnects c t dbOk action).trans roster.disconnects

/-! ## What the other threads leave alone -/

/-- Only the event loop changes the table. -/
structure SameTable (c c' : Core) : Prop where
  table : c'.table = c.table
  generation : c'.generation = c.generation
  nextGeneration : c'.nextGeneration = c.nextGeneration

theorem sameTable_step (proper : Proper t c action) (worker : t ≠ 0) :
    SameTable c (c.step t dbOk action) := by
  cases action with
  | storeSession fd ip => exact absurd proper.1 worker
  | eraseSession fd => exact absurd proper.1 worker
  | _ =>
    refine ⟨?_, ?_, ?_⟩ <;> simp only [Core.step, Core.reserve] <;> (repeat' split) <;> rfl

/-- What a thread relies on while it is at work. -/
structure Awaits (t : Nat) (c c' : Core) : Prop where
  respects : Respects everyone t c c'
  job : c'.job t = c.job t
  names : ∀ id, Busy c t id → c'.name id = c.name id
  entries : ∀ id, Busy c t id → (c.name id ∈ c'.online ↔ c.name id ∈ c.online)
  dated : ∀ task : Task, task.session.id < c.nextId → Dated task c → Dated task c'
  nextId : c.nextId ≤ c'.nextId
  loop : t = 0 → SameTable c c'

theorem Awaits.refl (t : Nat) (c : Core) : Awaits t c c where
  respects := Respects.refl t c
  job := rfl
  names _ _ := rfl
  entries _ _ := Iff.rfl
  dated _ _ dated := dated
  nextId := Nat.le_refl _
  loop _ := ⟨rfl, rfl, rfl⟩

theorem Awaits.busy {c' : Core} (awaits : Awaits t c c') (id : Nat) :
    Busy c' t id ↔ Busy c t id := by
  unfold Busy
  rw [awaits.job]

theorem Awaits.trans {c' c'' : Core} (h : Awaits t c c') (h' : Awaits t c' c'') :
    Awaits t c c'' where
  respects := h.respects.trans h'.respects
  job := h'.job.trans h.job
  names id busy := (h'.names id ((h.busy id).mpr busy)).trans (h.names id busy)
  entries id busy := by
    have second := h'.entries id ((h.busy id).mpr busy)
    rw [h.names id busy] at second
    exact second.trans (h.entries id busy)
  dated task made dated := h'.dated task (Nat.lt_of_lt_of_le made h.nextId) (h.dated task made dated)
  nextId := Nat.le_trans h.nextId h'.nextId
  loop first := by
    have same := h.loop first
    have same' := h'.loop first
    exact ⟨same'.table.trans same.table, same'.generation.trans same.generation,
      same'.nextGeneration.trans same.nextGeneration⟩

theorem Roster.awaits (roster : Roster c) (proper : Proper t c action)
    (careful : Careful everyone t c action) {other : Nat} (differs : other ≠ t) :
    Awaits other c (c.step t dbOk action) where
  respects := roster.held.respects visible_all careful differs
  job := job_other differs
  names id busy := by
    have apart : ∀ id', Busy c t id' → id ≠ id' := by
      intro id' mine same
      subst same
      exact differs (roster.alone other t id busy mine)
    rw [Core.step_name]
    cases action with
    | setUsername x username => exact Function.update_of_ne (apart x.id proper.1) _ _
    | clearUsername x => exact Function.update_of_ne (apart x.id proper.1) _ _
    | storeSession fd ip =>
      obtain ⟨j, job, _, own⟩ := busy
      have made := roster.allocated.jobs other j job
      exact Function.update_of_ne (by omega) _ _
    | _ => rfl
  entries id busy := by
    have apart : c.name id ≠ "" → ∀ id', Busy c t id' → c.name id' ≠ c.name id := by
      intro named id' mine same
      have ids := roster.distinct.unique id id' trivial trivial named same.symm
      subst ids
      exact differs (roster.alone other t id busy mine)
    constructor
    · intro member
      rcases online_cases member with old | rfl
      · exact old
      · obtain ⟨named, id', mine, bears⟩ := proper
        exact absurd bears (apart named id' mine)
    · intro member
      rcases online_kept t dbOk action member with still | rfl
      · exact still
      · obtain ⟨id', mine, bears⟩ := proper
        exact absurd bears (apart (roster.bearers _ member).1 id' mine)
  dated task made dated := roster.dated_step proper made dated
  nextId := Core.nextId_le c t dbOk action
  loop first := sameTable_step proper fun actor => differs (first.trans actor.symm)

/-- A name that no session of the table has can only be that of a session on its way out. -/
theorem Roster.leaving (roster : Roster c) {id : Nat} (named : c.name id ≠ "")
    (gone : ¬ c.Live id) : ∃ t x, c.job t = some (.removal x) ∧ x.id = id := by
  rcases roster.seated id named with live | ⟨t, j, job, work, own⟩
  · exact absurd live gone
  · cases j with
    | task task =>
      have live := roster.present t task job work
      rw [show task.session.id = id from own] at live
      exact absurd live gone
    | removal x => exact ⟨t, x, job, own⟩

end LinuxChat.Guarantees
