import LinuxChat.Guarantees.OnlineList.Stages
import LinuxChat.Guarantees.Playback

/-!
# The threads and the roster

Workers and the event loop, program by program: each ends with no session under work, and in
between everything unfinished is its own.
-/

namespace LinuxChat.Guarantees.OnlineList

open LinuxChat.Lib LinuxChat.Source Prog

variable {workers : Nat} {t : Nat} {s : Shared}

section
variable {α : Type} {P : Core → Prop}

/-- What the other threads cannot change, actions that leave the core alone keep. -/
theorem wp_neutral {p : Proc α} (stable : ∀ c c', Awaits t c c' → P c → P c')
    (neutral : p.Forall Neutral) (h : P (coreOf s)) :
    (listing workers).wp t (fun _ s => P (coreOf s)) (fun _ s => P (coreOf s)) p s := by
  refine Discipline.wp_of_forall (fun s s' awaits => stable (coreOf s) (coreOf s') awaits)
    (fun action neutral s₁ h₁ inv _ w => ⟨keeps_of_neutral w inv neutral, ?_⟩)
    (fun _ _ h => h) (fun _ _ h => h) neutral h
  have same := coreOf_neutral neutral w (t := t) (s := s₁)
  exact same.symm ▸ h₁

/-- The rule for one action that leaves the core alone. -/
theorem wp_look {action : Act} {next : action.Res → Proc α} {Q : α → Shared → Prop}
    {X : Exn → Shared → Prop} (neutral : Neutral action)
    (stable : ∀ c c', Awaits t c c' → P c → P c') (h : P (coreOf s))
    (go : ∀ w s₁, Roster (coreOf s₁) → P (coreOf s₁) → ∀ s₂, coreOf s₂ = coreOf s₁ →
      (listing workers).wp t Q X (next (execShared t w action s₁).1) s₂) :
    (listing workers).wp t Q X (.act action next) s := by
  intro s₁ awaits inv _ w
  refine ⟨keeps_of_neutral w inv neutral, ?_⟩
  exact go w s₁ inv (stable _ _ awaits h) _ (coreOf_neutral neutral w)

end

/-- A thread between two programs. -/
def Idle (t : Nat) (c : Core) : Prop := c.job t = none

theorem Idle.awaited {c c' : Core} (awaits : Awaits t c c') (idle : Idle t c) : Idle t c' :=
  awaits.job.trans idle

/-- What `done` says of a thread. -/
def Rests (t : Nat) (s : Shared) : Prop := Idle t (coreOf s)

/-- A handler of a message that is about nobody's login. -/
theorem forall_route_chat (session : SessionRef) (msg : Json)
    (chat : isAuthType msg.typeOf = false) : (route session msg).Forall Neutral := by
  rw [route_eq]
  unfold valueOf
  cases read : msg.value "type" "" with
  | error e => trivial
  | ok type =>
    have own : msg.typeOf = type := by
      unfold Json.typeOf
      rw [read]
    rw [own] at chat
    simp only [isAuthType, Bool.or_eq_false_iff, decide_eq_false_iff_not] at chat
    obtain ⟨⟨noLogin, noRegister⟩, noLogout⟩ := chat
    refine ⟨trivial, fun authenticated => ?_⟩
    cases authenticated with
    | true =>
      change (routeAuthenticated session msg type).Forall Neutral
      unfold routeAuthenticated
      rw [if_neg noLogout]
      split
      · trivial
      · split
        · exact forall_handleBroadcast Outline.neutral_chatting session msg
        · split
          · exact forall_handlePrivate Outline.neutral_chatting session msg
          · split
            · exact forall_handleHistoryReq Outline.neutral_chatting session msg
            · exact forall_sendError trivial
    | false =>
      change (routeUnauthenticated session msg type).Forall Neutral
      unfold routeUnauthenticated
      rw [if_neg noRegister, if_neg noLogin]
      split
      · trivial
      · exact forall_sendError trivial

/-- The last reference goes when there is nothing left to do about the session. -/
theorem wp_drop {session : SessionRef} {X : Exn → Shared → Prop} {P : Core → Prop}
    (stable : ∀ c c', Awaits t c c' → P c → P c') (h : P (coreOf s))
    (settled : ∀ c, Roster c → P c → Proper t c (.dropSession session)) :
    (listing workers).wp t (fun _ => Rests t) X (.act (.dropSession session) .ret) s := by
  intro s₁ awaits inv _ w
  have proper := settled _ inv (stable _ _ awaits h)
  refine ⟨keeps_of_proper w inv proper trivial trivial, ?_⟩
  have job := congrArg (fun c => c.job t) (coreOf_exec t w (.dropSession session) s₁)
  exact job.trans (Function.update_self _ _ _)

/-! ## Workers -/

/-- A worker has taken the task and not looked at it yet. -/
structure Took (t : Nat) (task : Task) (c : Core) : Prop where
  idle : Idle t c
  made : task.session.id < c.nextId
  dated : Dated task c

theorem Took.awaited {task : Task} {c c' : Core} (awaits : Awaits t c c') (took : Took t task c) :
    Took t task c' where
  idle := took.idle.awaited awaits
  made := Nat.lt_of_lt_of_le took.made awaits.nextId
  dated := awaits.dated task took.made took.dated

/-- The end of work on a session whose name is in the list if it has one. -/
theorem proper_drop {job : Job} {c : Core} {session : SessionRef} (works : Works t job c)
    (entered : c.name job.session.id ≠ "" → c.name job.session.id ∈ c.online)
    (live : c.name job.session.id ≠ "" → c.Live job.session.id) :
    Proper t c (.dropSession session) := by
  rintro id ⟨j, same, _, own⟩ named
  rw [works.doing] at same
  cases same
  subst own
  exact ⟨entered named, live named⟩

/-- A worker that has taken a task of its own generation enters or leaves on its session's behalf,
and has finished with it at the end. -/
theorem wp_runTask (task : Task) (took : Took t task (coreOf s)) :
    (listing workers).wp t (fun _ => Rests t) (fun _ => Rests t) (runTask task) s := by
  rw [runTask_eq]
  intro s₁ awaits inv allowed w
  have took₁ := took.awaited awaits
  have proper : Proper t (coreOf s₁) (.checkGeneration task) :=
    ⟨took₁.dated, took₁.idle, allowed⟩
  refine ⟨keeps_of_proper w inv proper took₁.made trivial, ?_⟩
  have core := coreOf_exec t w (.checkGeneration task) s₁
  have result : ((machine workers).exec t w (.checkGeneration task) s₁).1 =
      decide ((s₁.server.heap task.session.id).generation = task.genAtDispatch) := rfl
  change coreOf ((machine workers).exec t w (.checkGeneration task) s₁).2 = _ at core
  generalize ((machine workers).exec t w (.checkGeneration task) s₁).2 = s₂ at core ⊢
  rw [result]
  have job : (coreOf s₂).job = if (s₁.server.heap task.session.id).generation = task.genAtDispatch
      then Function.update (coreOf s₁).job t (some (.task task)) else (coreOf s₁).job := by
    rw [core, Core.step_job]
    rfl
  by_cases current : (s₁.server.heap task.session.id).generation = task.genAtDispatch
  · simp only [current, decide_true, if_true]
    have begun : (coreOf s₂).job t = some (.task task) := by
      rw [job, if_pos current]
      exact Function.update_self _ _ _
    cases auth : isAuthType task.msg.typeOf with
    | true =>
      have works : Works t (.task task) (coreOf s₂) := ⟨begun, auth⟩
      -- nobody else is at work on the session, so its name is in the list
      have entered : Entry task.session.id .settled (coreOf s₂) := by
        rw [core]
        intro named
        rw [name_same (by exact not_false)] at named ⊢
        rw [Core.step_online]
        rcases inv.listed task.session.id named with listed | ⟨other, busy⟩
        · exact listed
        · by_cases actor : other = t
          · rw [actor] at busy
            exact absurd busy (not_busy took₁.idle _)
          · exact absurd busy (allowed auth current other actor)
      have handled := (handling workers t (.task task)).wp_guardedRoute (X := fun _ => Rests t)
        task.msg ⟨works, entered, trivial⟩
      refine Discipline.wp_seq handled (fun _ s₃ done => ?_) fun _ _ h => h
      refine wp_drop (P := fun c => Works t (.task task) c ∧ Entry task.session.id .over c)
        (fun c c' awaits h => ⟨h.1.awaited awaits, h.2.awaited awaits h.1.busy⟩)
        ⟨done.1, done.2.1⟩ fun c roster h => ?_
      exact proper_drop h.1 h.2 fun _ => roster.present t task h.1.doing auth
    | false =>
      have chats := @wp_neutral workers t s₂ Unit (fun c => c.job t = some (.task task)) _
        (fun c c' awaits same => awaits.job.trans same)
        (forall_route_chat task.session task.msg auth) begun
      have caught := (Discipline.wp_tryCatch (X := fun _ => Rests t) _ (fun _ => .ret ()) s₂).mpr chats
      refine Discipline.wp_seq caught (fun _ s₃ same => ?_) fun _ _ h => h
      refine wp_drop (P := fun c => c.job t = some (.task task))
        (fun c c' awaits same => awaits.job.trans same) same fun c _ same id mine => ?_
      obtain ⟨j, own, work, _⟩ := mine
      rw [same] at own
      cases own
      exact absurd (work.symm.trans auth) (by decide)
  · simp only [current, decide_false, if_false, Bool.false_eq_true]
    have still : Idle t (coreOf s₂) := by
      unfold Idle
      rw [job, if_neg current]
      exact took₁.idle
    exact wp_drop (fun c c' => Idle.awaited) still fun c _ idle id mine =>
      absurd mine (not_busy idle id)

/-! ## The event loop -/

/-- The event loop has found the session in the table. -/
structure Attends (session : SessionRef) (c : Core) : Prop where
  idle : Idle 0 c
  member : session ∈ c.table

theorem Attends.awaited {session : SessionRef} {c c' : Core} (awaits : Awaits 0 c c')
    (attends : Attends session c) : Attends session c' where
  idle := attends.idle.awaited awaits
  member := by
    rw [(awaits.loop rfl).table]
    exact attends.member

theorem attends_next {session : SessionRef} {action : Act} (w : World)
    (goesOn : ¬ BeginsOrEnds action) (stores : ∀ fd ip, action ≠ .storeSession fd ip)
    (attends : Attends session (coreOf s)) :
    Attends session (coreOf (execShared 0 w action s).2) := by
  rw [coreOf_exec]
  refine ⟨?_, ?_⟩
  · unfold Idle
    rw [job_same goesOn]
    exact attends.idle
  · rw [Core.step_table]
    cases action with
    | storeSession fd ip => exact absurd rfl (stores fd ip)
    | eraseSession fd => exact absurd trivial goesOn
    | _ => exact attends.member

theorem wp_stampAndEnqueue (session : SessionRef) (msg : Json)
    (attends : Attends session (coreOf s)) :
    (listing workers).wp 0 (fun _ s => Attends session (coreOf s))
      (fun _ s => Attends session (coreOf s)) (stampAndEnqueue session msg) s := by
  unfold stampAndEnqueue
  simp only [enqueueTask_eq]
  intro s₁ awaits inv _ w
  have attends₁ := attends.awaited awaits
  refine ⟨keeps_of_neutral w inv trivial, ?_⟩
  intro s₂ awaits₂ inv₂ _ w₂
  have attends₂ := attends₁.awaited awaits₂
  have stamp : ((machine workers).exec 0 w (.generation session) s₁).1 =
      (coreOf s₂).generation session.id := by
    rw [(awaits₂.loop rfl).generation]
    rfl
  have dated : Dated ⟨session, (coreOf s₂).generation session.id, msg⟩ (coreOf s₂) :=
    ⟨inv₂.stamps session.id, Or.inl ⟨session, attends₂.member, rfl⟩⟩
  rw [stamp]
  refine ⟨keeps_of_proper w₂ inv₂ dated (inv₂.allocated.table session attends₂.member) trivial, ?_⟩
  have after : ∀ task, Attends session (coreOf (execShared 0 w₂ (.enqueue task) s₂).2) :=
    fun task => attends_next w₂ not_false nofun attends₂
  dsimp only
  split
  · exact after _
  · exact after _

theorem wp_dispatch (session : SessionRef) (msgs : List Json)
    (attends : Attends session (coreOf s)) :
    (listing workers).wp 0 (fun _ s => Attends session (coreOf s))
      (fun _ s => Attends session (coreOf s)) (dispatch session msgs) s := by
  have enqueues : ∀ msg s, Attends session (coreOf s) →
      (listing workers).wp 0 (fun _ s => Attends session (coreOf s))
        (fun _ s => Attends session (coreOf s)) (.act .hasMessageHandler fun registered =>
          if registered then stampAndEnqueue session msg else .ret ()) s := by
    intro msg s attends
    refine wp_look (P := Attends session) trivial (fun _ _ => Attends.awaited) attends ?_
    intro w s₁ _ attends₁ s₂ same
    rw [← same] at attends₁
    split
    · exact wp_stampAndEnqueue session msg attends₁
    · exact attends₁
  induction msgs generalizing s with
  | nil => exact attends
  | cons msg rest ih =>
    refine Discipline.wp_seq (R := fun _ s => Attends session (coreOf s)) ?_
      (fun _ s₁ attends₁ => ih attends₁) fun _ _ h => h
    rw [dispatchOne_eq]
    refine wp_look (P := Attends session) trivial (fun _ _ => Attends.awaited) attends ?_
    intro w s₁ _ attends₁ s₂ same
    rw [← same] at attends₁
    dsimp only
    split
    · refine Discipline.wp_seq (wp_neutral (fun _ _ => Attends.awaited)
        (forall_valueOf msg "type" "") attends₁) (fun _ s₃ => enqueues msg s₃) fun _ _ h => h
    · exact enqueues msg s₂ attends₁

/-- The event loop has taken the session out of the table, with its name in the list. -/
structure Removes (session : SessionRef) (c : Core) : Prop where
  works : Works 0 (.removal session) c
  entry : Entry session.id .settled c

theorem Removes.awaited {session : SessionRef} {c c' : Core} (awaits : Awaits 0 c c')
    (removes : Removes session c) : Removes session c' where
  works := removes.works.awaited awaits
  entry := removes.entry.awaited awaits removes.works.busy

theorem wp_handleLogout (session : SessionRef) (removes : Removes session (coreOf s)) :
    (listing workers).wp 0
      (fun _ => (handling workers 0 (.removal session)).holds .nameless)
      (fun _ => (handling workers 0 (.removal session)).holds .nameless)
      (handleLogout session) s :=
  (handling workers 0 (.removal session)).leads_handleLogout s
    ⟨removes.works, removes.entry, trivial⟩

theorem wp_disconnectHandler (session : SessionRef) (removes : Removes session (coreOf s)) :
    (listing workers).wp 0
      (fun _ => (handling workers 0 (.removal session)).holds .nameless)
      (fun _ => (handling workers 0 (.removal session)).holds .nameless)
      (disconnectHandler session) s := by
  rw [disconnectHandler_eq]
  refine wp_look (P := Removes session) trivial (fun _ _ => Removes.awaited) removes ?_
  intro w s₁ _ removes₁ s₂ same
  rw [← same] at removes₁
  dsimp only
  split
  · intro s₃ awaits inv allowed w₃
    have removes₃ := removes₁.awaited awaits
    refine ⟨keeps_of_proper w₃ inv trivial trivial allowed, ?_⟩
    have core := coreOf_exec 0 w₃
      (.cleanupLoginReservation ((machine workers).exec 0 w (.getPendingLogin session) s₁).1) s₃
    have removes₄ : Removes session ((coreOf s₃).step 0 w₃.dbOk (.cleanupLoginReservation
        ((machine workers).exec 0 w (.getPendingLogin session) s₁).1)) := by
      refine ⟨⟨(congrFun (job_same (by exact not_false)) 0).trans removes₃.works.doing, rfl⟩, ?_⟩
      intro named
      rw [name_same (by exact not_false)] at named ⊢
      rw [Core.step_online]
      exact removes₃.entry named
    rw [← core] at removes₄
    refine wp_look (P := Removes session) trivial (fun _ _ => Removes.awaited) removes₄ ?_
    intro w₅ s₅ _ removes₅ s₆ same₆
    rw [← same₆] at removes₅
    exact wp_handleLogout session removes₅
  · exact wp_handleLogout session removes₁

theorem wp_endRemoval (session : SessionRef)
    (gone : (handling workers 0 (.removal session)).holds .nameless s) :
    (listing workers).wp 0 (fun _ => Rests 0) (fun _ => Rests 0) (endRemoval session) s := by
  -- the session has lost its name, and nobody else is at work on it
  have stable : ∀ c c', Awaits 0 c c' →
      Works 0 (.removal session) c ∧ Entry session.id .nameless c →
        Works 0 (.removal session) c' ∧ Entry session.id .nameless c' :=
    fun c c' awaits h => ⟨h.1.awaited awaits, h.2.awaited awaits h.1.busy⟩
  have drops : ∀ s, Works 0 (.removal session) (coreOf s) ∧ Entry session.id .nameless (coreOf s) →
      (listing workers).wp 0 (fun _ => Rests 0) (fun _ => Rests 0)
        (.act (.dropSession session) .ret) s := by
    intro s h
    refine wp_drop stable h fun c _ h => ?_
    exact proper_drop h.1 (fun named => absurd h.2 named) fun named => absurd h.2 named
  unfold endRemoval
  refine wp_look trivial stable ⟨gone.1, gone.2.1⟩ ?_
  intro w s₁ _ h₁ s₂ same
  rw [← same] at h₁
  dsimp only
  split
  · refine wp_look trivial stable h₁ ?_
    intro w₃ s₃ _ h₃ s₄ same₄
    rw [← same₄] at h₃
    exact drops s₄ h₃
  · exact drops s₂ h₁

theorem wp_removeClient (fd : Nat) (idle : Idle 0 (coreOf s)) :
    (listing workers).wp 0 (fun _ => Rests 0) (fun _ => Rests 0) (removeClient fd) s := by
  rw [removeClient_eq]
  intro s₁ awaits inv allowed w
  have idle₁ := idle.awaited awaits
  have proper : Proper 0 (coreOf s₁) (.eraseSession fd) := ⟨rfl, idle₁, allowed⟩
  refine ⟨keeps_of_proper w inv proper trivial trivial, ?_⟩
  have core := coreOf_exec 0 w (.eraseSession fd) s₁
  have result : ((machine workers).exec 0 w (.eraseSession fd) s₁).1 = s₁.server.findByFd fd :=
    exec_eraseSession w fd s₁.server
  change coreOf ((machine workers).exec 0 w (.eraseSession fd) s₁).2 = _ at core
  generalize ((machine workers).exec 0 w (.eraseSession fd) s₁).2 = s₂ at core ⊢
  rw [result]
  rw [← find_eq] at *
  cases found : (coreOf s₁).table.find? fun x => x.fd = fd with
  | none =>
    have same : (coreOf s₁).step 0 w.dbOk (.eraseSession fd) = coreOf s₁ := by
      simp only [Core.step, found]
    rw [same] at core
    change Idle 0 (coreOf s₂)
    rw [core]
    exact idle₁
  | some session =>
    have own : session.fd = fd := by simpa using List.find?_some found
    have member : session ∈ (coreOf s₁).table := List.mem_of_find?_eq_some found
    have erased : (coreOf s₁).step 0 w.dbOk (.eraseSession fd) = (coreOf s₁).erase 0 session := by
      simp only [Core.step, found]
    have removes : Removes session (coreOf s₂) := by
      rw [core, erased]
      have doing : ((coreOf s₁).erase 0 session).job 0 = some (.removal session) := by
        simp [Core.erase]
      refine ⟨⟨doing, rfl⟩, fun named => ?_⟩
      rcases inv.listed session.id named with listed | ⟨other, busy⟩
      · exact listed
      · by_cases actor : other = 0
        · rw [actor] at busy
          exact absurd busy (not_busy idle₁ _)
        · exact absurd busy (allowed session member own other actor)
    refine wp_look (P := Removes session) trivial (fun _ _ => Removes.awaited) removes ?_
    intro w₃ s₃ inv₃ removes₃ s₄ same
    rw [← same] at removes₃
    have registered : ((execShared 0 w₃ .hasDisconnectHandler s₃).1 : Bool) = true :=
      inv₃.disconnects
    rw [registered, if_pos rfl]
    have handler := @wp_disconnectHandler workers s₄ session removes₃
    have caught := (Discipline.wp_tryCatch (X := fun _ => Rests 0) _ (fun _ => .ret ()) s₄).mpr
      handler
    exact Discipline.wp_seq caught (fun _ s₅ gone => wp_endRemoval session gone) fun _ _ h => h

/-- The event loop has finished with a session it removes before it turns to the next event. -/
theorem wp_event (e : Event) (possible : e.possible s.server) (idle : Idle 0 (coreOf s)) :
    (listing workers).wp 0 (fun _ => Rests 0) (fun _ => Rests 0) e.program s := by
  cases e with
  | newConnection fd ip =>
    intro s₁ awaits inv _ w
    have unused : ∀ x ∈ (coreOf s₁).table, x.fd ≠ fd := by
      rw [(awaits.loop rfl).table]
      exact possible
    refine ⟨keeps_of_proper w inv ⟨rfl, unused⟩ trivial trivial, ?_⟩
    have job := congrArg (fun c => c.job 0) (coreOf_exec 0 w (.storeSession fd ip) s₁)
    exact job.trans ((congrFun (job_same (by exact not_false)) 0).trans (idle.awaited awaits))
  | heartbeat =>
    exact wp_neutral (P := Idle 0) (fun _ _ => Idle.awaited)
      (forall_broadcast trivial fun _ => trivial) idle
  | client fd =>
    change (listing workers).wp 0 _ _ (handleClientEvent fd) s
    rw [handleClientEvent_eq]
    intro s₁ awaits inv _ w
    have idle₁ := idle.awaited awaits
    refine ⟨keeps_of_neutral w inv trivial, ?_⟩
    have result : ((machine workers).exec 0 w (.findByFd fd) s₁).1 = s₁.server.findByFd fd := rfl
    have same := @coreOf_neutral 0 s₁ (.findByFd fd) trivial w
    change coreOf ((machine workers).exec 0 w (.findByFd fd) s₁).2 = _ at same
    generalize ((machine workers).exec 0 w (.findByFd fd) s₁).2 = s₂ at same ⊢
    rw [result]
    cases found : s₁.server.findByFd fd with
    | none =>
      change Idle 0 (coreOf s₂)
      rw [same]
      exact idle₁
    | some session =>
      have attends : Attends session (coreOf s₂) := by
        rw [same]
        exact ⟨idle₁, List.mem_of_find?_eq_some found⟩
      refine wp_look (P := Attends session) trivial (fun _ _ => Attends.awaited) attends ?_
      intro w₃ s₃ _ attends₃ s₄ same₄
      rw [← same₄] at attends₃
      cases (execShared 0 w₃ (.recvMsgs session) s₃).1 with
      | error e => exact attends₃.idle
      | ok msgs =>
        cases msgs with
        | none => exact wp_removeClient fd attends₃.idle
        | some msgs =>
          exact Discipline.wp_mono (wp_dispatch session msgs attends₃)
            (fun _ _ h => h.idle) fun _ _ h => h.idle

/-- All programs keep to the discipline, and every thread rests in between. -/
theorem listing_verified (workers : Nat) : (listing workers).Verified Rests where
  stable t s s' awaits idle := idle.awaited awaits
  spawn t p s s' inv idle start := by
    cases start with
    | event e _ possible =>
      exact ⟨⟨inv, fun other _ => Awaits.refl other _⟩, wp_event e possible idle⟩
    | @task _ _ task rest worker inPool queued =>
      have member : task ∈ (coreOf s).queue := by
        change task ∈ s.server.tasks
        rw [queued]
        exact List.mem_cons_self
      have later : ∀ other ∈ rest, other ∈ (coreOf s).queue := by
        intro other inside
        change other ∈ s.server.tasks
        rw [queued]
        exact List.mem_cons_of_mem _ inside
      refine ⟨⟨?_, fun other _ => ?_⟩, ?_⟩
      · exact { inv with
          allocated := ⟨inv.allocated.table, fun other inside =>
            inv.allocated.queue other (later other inside), inv.allocated.jobs⟩
          held := ⟨inv.held.present, inv.held.single, inv.held.nonempty⟩
          distinct := ⟨inv.distinct.unique, inv.distinct.rows⟩
          dated := fun other inside =>
            ⟨(inv.dated other (later other inside)).issued,
              (inv.dated other (later other inside)).current⟩ }
      · exact ⟨⟨rfl, fun _ _ unused => unused, fun _ row => row⟩, rfl, fun _ _ => rfl,
          fun _ _ => Iff.rfl, fun _ _ dated => ⟨dated.issued, dated.current⟩, Nat.le_refl _,
          fun _ => ⟨rfl, rfl, rfl⟩⟩
      · exact wp_runTask task ⟨idle, inv.allocated.queue task member,
          ⟨(inv.dated task member).issued, (inv.dated task member).current⟩⟩

theorem roster_boot (db : Database) : Roster (coreOf (boot db).shared) where
  allocated := ⟨fun _ member => absurd member List.not_mem_nil,
    fun _ member => absurd member List.not_mem_nil, fun _ _ busy => nomatch busy⟩
  fds := List.Pairwise.nil
  held := ⟨fun _ _ own => (nomatch own), fun _ _ _ own => (nomatch own), fun _ _ own => (nomatch own)⟩
  distinct := ⟨fun _ _ _ _ named => absurd rfl named, fun _ _ named => absurd rfl named⟩
  stamps _ := Nat.zero_le _
  dated _ member := absurd member List.not_mem_nil
  alone _ _ _ busy := absurd busy (not_busy rfl _)
  present _ _ job := nomatch job
  bearers _ member := absurd member List.not_mem_nil
  listed _ named := absurd rfl named
  seated _ named := absurd rfl named
  disconnects := rfl

end LinuxChat.Guarantees.OnlineList
