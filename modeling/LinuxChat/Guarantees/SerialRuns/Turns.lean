import LinuxChat.Guarantees.Serial

/-!
# Turns of one handler at a time

Accepts, readable connections, disconnects and queued tasks, each executed from start to end
before the next one begins. `TurnEnd` says what a turn can do to the server.
-/

namespace LinuxChat.Guarantees.SerialRuns

open LinuxChat.Lib LinuxChat.Source Prog Serial

variable {E : World → Prop}

/-! ## Removing a client -/

/-- The server once the disconnect handler has dealt with a pending login. -/
def cleaned (s : Server) (x : SessionRef) : Server :=
  if (s.heap x.id).pendingLogin = "" then s
  else
    { s with
      loginInProgress := s.loginInProgress.filter (· ≠ (s.heap x.id).pendingLogin) }.modify x
        fun c => { c with pendingLogin := "" }

/-- The server after the disconnect handler and the frames it sent. -/
inductive Disconnected (s : Server) (x : SessionRef) : Server → Prop
  | stranger (bare : s.name x = "") : Disconnected s x (cleaned s x)
  | user (now now' : Int) (bears : s.name x ≠ "") :
      Disconnected s x (told (unnamed (cleaned s x) x (s.name x))
        (logoutFrames (unnamed (cleaned s x) x (s.name x)) (s.name x) now now'))

theorem cleaned_name (s : Server) (x y : SessionRef) : (cleaned s x).name y = s.name y := by
  unfold cleaned
  split
  · rfl
  · simp only [Server.name, modify_heap]
    split <;> rfl

theorem returns_disconnectHandler (x : SessionRef) (s : Server) :
    Always Act.exec E (disconnectHandler x) s (Returns fun _ s' => Disconnected s x s') := by
  have logout : ∀ s₁, s₁ = cleaned s x →
      Always Act.exec E (handleLogout x) s₁ (Returns fun _ s' => Disconnected s x s') := by
    intro s₁ same
    subst same
    refine (returns_handleLogout x (cleaned s x)).mono ?_
    intro o s' h
    cases o with
    | error e => exact h
    | ok value =>
      rcases h with ⟨bare, state⟩ | ⟨bears, now, now', state⟩
      · rw [cleaned_name] at bare
        rw [state]
        exact .stranger bare
      · rw [cleaned_name] at bears state
        rw [state]
        exact .user now now' bears
  rw [disconnectHandler_eq]
  refine (always_act _ _ _ _).mpr ?_
  intro w _
  by_cases blank : (s.heap x.id).pendingLogin = ""
  · have empty : (s.heap x.id).pendingLogin.isEmpty = true := by simp [blank]
    simp only [Act.exec, empty, Bool.not_true, Bool.false_eq_true, if_false]
    apply logout
    rw [cleaned, if_pos blank]
  · have nonempty : (s.heap x.id).pendingLogin.isEmpty = false := by simpa using blank
    simp only [Act.exec, nonempty, Bool.not_false, if_true]
    refine (always_act _ _ _ _).mpr ?_
    intro w₁ _
    refine (always_act _ _ _ _).mpr ?_
    intro w₂ _
    apply logout
    simp only [cleaned, blank, if_false, Act.exec, nonempty, Bool.false_eq_true]

theorem returns_endRemoval (x : SessionRef) (s : Server) :
    Always Act.exec E (endRemoval x) s (Returns fun _ s' => s' = s) := by
  refine (always_act _ _ _ _).mpr ?_
  intro w _
  cases authenticated : (s.heap x.id).isAuthenticated with
  | true =>
    simp only [Act.exec, authenticated, if_true]
    refine (always_act _ _ _ _).mpr ?_
    intro w₁ _
    refine (always_act _ _ _ _).mpr ?_
    intro w₂ _
    exact (always_ret _ _ _).mpr rfl
  | false =>
    simp only [Act.exec, authenticated, Bool.false_eq_true, if_false]
    refine (always_act _ _ _ _).mpr ?_
    intro w₁ _
    exact (always_ret _ _ _).mpr rfl

/-- `remove_client` on an fd of the table, the disconnect handler being registered. -/
theorem returns_removeClient {fd : Nat} {s : Server} {x : SessionRef}
    (found : s.findByFd fd = some x) (registered : s.hasDisconnectHandler = true) :
    Always Act.exec E (removeClient fd) s
      (Returns fun _ s' => Disconnected (s.eraseSession fd).2 x s') := by
  have erased : (s.eraseSession fd).1 = some x := by simp [Server.eraseSession, found]
  have kept : (s.eraseSession fd).2.hasDisconnectHandler = true := by
    simp [Server.eraseSession, found, Server.modify, registered]
  rw [removeClient_eq]
  refine (always_act _ _ _ _).mpr ?_
  intro w _
  simp only [Act.exec, erased]
  refine (always_act _ _ _ _).mpr ?_
  intro w₁ _
  simp only [Act.exec, kept, if_true]
  have handler : Always Act.exec E ((disconnectHandler x).tryCatch fun _ => .ret ())
      (s.eraseSession fd).2 (Returns fun _ s' => Disconnected (s.eraseSession fd).2 x s') := by
    rw [always_tryCatch]
    refine (returns_disconnectHandler x _).mono ?_
    intro o s' h
    cases o with
    | ok value => exact h
    | error e => exact h.elim
  refine always_then handler ?_
  intro _ s₁ gone
  refine (returns_endRemoval x s₁).mono ?_
  intro o s' h
  cases o with
  | error e => exact h
  | ok value =>
    have same : s' = s₁ := h
    rw [same]
    exact gone

/-! ## Receiving -/

/-- The server with other octets buffered for a session. -/
def buffered (s : Server) (x : SessionRef) (buf : Bytes) (failures : UInt32) : Server :=
  s.modify x fun c => { c with recvBuf := buf, consecutiveParseFailures := failures }

/-- The server with more tasks queued, all of one session and dated now. -/
def Queued (s : Server) (x : SessionRef) (s' : Server) : Prop :=
  ∃ added : List Task, s' = { s with tasks := s.tasks ++ added } ∧
    ∀ task ∈ added, task.session = x ∧ task.genAtDispatch = (s.heap x.id).generation

theorem Queued.trans {s s₁ s₂ : Server} {x : SessionRef} (h : Queued s x s₁)
    (h' : Queued s₁ x s₂) : Queued s x s₂ := by
  obtain ⟨added, rfl, dated⟩ := h
  obtain ⟨added', rfl, dated'⟩ := h'
  refine ⟨added ++ added', by simp, ?_⟩
  intro task member
  rcases List.mem_append.mp member with first | second
  · exact dated task first
  · exact dated' task second

theorem queued_refl (s : Server) (x : SessionRef) : Queued s x s :=
  ⟨[], by simp, by simp⟩

theorem queued_dispatchOne (x : SessionRef) (msg : Json) (s : Server) :
    Always Act.exec E (dispatchOne x msg) s fun _ s' => Queued s x s' := by
  have enqueues : Always Act.exec E (Prog.act .hasMessageHandler fun registered =>
      if registered then stampAndEnqueue x msg else .ret () : Proc Unit) s
      fun _ s' => Queued s x s' := by
    refine (always_act _ _ _ _).mpr ?_
    intro w _
    cases registered : s.hasMessageHandler with
    | false =>
      simp only [Act.exec, registered, Bool.false_eq_true, if_false]
      exact (always_ret _ _ _).mpr (queued_refl s x)
    | true =>
      simp only [Act.exec, registered, if_true]
      refine (always_act _ _ _ _).mpr ?_
      intro w₁ _
      refine (always_act _ _ _ _).mpr ?_
      intro w₂ _
      have closed : ∀ accepted : Bool, Always Act.exec E (if accepted = true then .ret ()
          else .raise (.runtimeError "ThreadPool: enqueue called after stop") : Proc Unit) s
          fun _ s' => Queued s x s' := by
        intro accepted
        cases accepted with
        | true => exact (always_ret _ _ _).mpr (queued_refl s x)
        | false => exact (always_raise _ _ _).mpr (queued_refl s x)
      cases stopped : s.poolStop with
      | true =>
        simp only [Act.exec, stopped, if_true]
        exact closed false
      | false =>
        simp only [Act.exec, stopped, Bool.false_eq_true, if_false]
        refine (always_ret _ _ _).mpr ⟨[⟨x, (s.heap x.id).generation, msg⟩],
          by simp only [stopped], ?_⟩
        intro task member
        rw [List.mem_singleton.mp member]
        exact ⟨rfl, rfl⟩
  rw [dispatchOne_eq]
  refine (always_act _ _ _ _).mpr ?_
  intro w _
  cases authenticated : (s.heap x.id).isAuthenticated with
  | true =>
    simp only [Act.exec, authenticated, Bool.not_true, Bool.false_eq_true, if_false]
    exact enqueues
  | false =>
    simp only [Act.exec, authenticated, Bool.not_false, if_true]
    unfold valueOf
    cases msg.value "type" "" with
    | error e => exact (always_raise _ _ _).mpr (queued_refl s x)
    | ok type => exact enqueues

theorem queued_dispatch (x : SessionRef) (msgs : List Json) (s : Server) :
    Always Act.exec E (dispatch x msgs) s fun _ s' => Queued s x s' := by
  induction msgs generalizing s with
  | nil => exact (always_ret _ _ _).mpr (queued_refl s x)
  | cons msg rest ih =>
    change Always Act.exec E ((dispatchOne x msg).bind fun _ => dispatch x rest) s _
    rw [always_bind]
    refine (queued_dispatchOne x msg s).mono ?_
    intro o s₁ first
    cases o with
    | error e => exact first
    | ok value =>
      refine (ih s₁).mono ?_
      intro o s' later
      exact first.trans later

/-! ## Turns -/

/-- One accept, readable connection or heartbeat, or the oldest task of the queue,
executed from start to end. -/
inductive SerialTurn (E : World → Prop) (s : Server) : Server → Prop
  | event {e : Event} {o : Except Exn Unit} {s' : Server} (possible : e.possible s)
      (ran : Runs Act.exec E e.program s o s') : SerialTurn E s s'
  | task {task : Task} {rest : List Task} {o : Except Exn Unit} {s' : Server}
      (queued : s.tasks = task :: rest)
      (ran : Runs Act.exec E (runTask task) { s with tasks := rest } o s') : SerialTurn E s s'

/-- What a server with an existing database comes to, one turn at a time. -/
inductive SerialRun (E : World → Prop) (db : Database) : Server → Prop
  | boot : SerialRun E db { db := db }
  | turn {s s' : Server} (run : SerialRun E db s) (step : SerialTurn E s s') : SerialRun E db s'

/-- A PING. -/
def pingFrame : Json := .object [("type", .string "PING")]

/-- The state a turn leaves. -/
inductive TurnEnd (E : World → Prop) (s : Server) : Server → Prop
  | idle : TurnEnd E s s
  | accepted (fd : Nat) (ip : String) (free : ∀ x ∈ s.sessions, x.fd ≠ fd) :
      TurnEnd E s (s.storeSession fd ip)
  | pinged : TurnEnd E s (told s (toAll pingFrame (s.broadcastTargets "")))
  | received (x : SessionRef) (live : s.findByFd x.fd = some x) (buf : Bytes) (failures : UInt32)
      (s' : Server) (queued : Queued (buffered s x buf failures) x s') : TurnEnd E s s'
  | removed (x : SessionRef) (live : s.findByFd x.fd = some x) (buf : Bytes) (failures : UInt32)
      (s' : Server)
      (gone : Disconnected ((buffered s x buf failures).eraseSession x.fd).2 x s') :
      TurnEnd E s s'
  | stale (task : Task) (rest : List Task) (queued : s.tasks = task :: rest) :
      TurnEnd E s { s with tasks := rest }
  | handled (task : Task) (rest : List Task) (queued : s.tasks = task :: rest)
      (current : (s.heap task.session.id).generation = task.genAtDispatch)
      (o : Except Exn Unit) (s' : Server)
      (ended : Handled E task.session task.msg { s with tasks := rest } o s') : TurnEnd E s s'

theorem fd_of_findByFd {s : Server} {fd : Nat} {x : SessionRef} (found : s.findByFd fd = some x) :
    x.fd = fd := by
  have test := List.find?_some found
  simpa using test

theorem ends_handleClientEvent (fd : Nat) (s : Server) (registered : s.hasDisconnectHandler = true) :
    Always Act.exec E (handleClientEvent fd) s fun _ s' => TurnEnd E s s' := by
  rw [handleClientEvent_eq]
  refine (always_act _ _ _ _).mpr ?_
  intro w _
  simp only [Act.exec]
  cases found : s.findByFd fd with
  | none => exact (always_ret _ _ _).mpr .idle
  | some x =>
    have own := fd_of_findByFd found
    subst own
    refine (always_act _ _ _ _).mpr ?_
    intro w₁ _
    obtain ⟨buf, failures, kept⟩ := recvMsgs_kept w₁.parse (s.heap x.id) w₁.recvs
    have after : (Act.exec w₁ (.recvMsgs x) s).2 = buffered s x buf failures := by
      have state : (Act.exec w₁ (.recvMsgs x) s).2 =
        s.modify x fun _ => (recvMsgs w₁.parse (s.heap x.id) w₁.recvs).2 := rfl
      rw [state, kept]
      rfl
    have still : (buffered s x buf failures).findByFd x.fd = some x := found
    rw [after]
    generalize (Act.exec w₁ (.recvMsgs x) s).1 = result
    cases result with
    | error e =>
      exact (always_raise _ _ _).mpr (.received x found buf failures _ (queued_refl _ x))
    | ok msgs =>
      cases msgs with
      | none =>
        refine (returns_removeClient still registered).mono ?_
        intro o s' h
        cases o with
        | error e => exact h.elim
        | ok value => exact .removed x found buf failures s' h
      | some msgs =>
        refine (queued_dispatch x msgs _).mono ?_
        intro o s' queued
        exact .received x found buf failures s' queued

theorem ends_runTask {task : Task} {rest : List Task} {s : Server}
    (queued : s.tasks = task :: rest) :
    Always Act.exec E (runTask task) { s with tasks := rest } fun _ s' => TurnEnd E s s' := by
  rw [runTask_eq]
  refine (always_act _ _ _ _).mpr ?_
  intro w _
  by_cases current : (s.heap task.session.id).generation = task.genAtDispatch
  · simp only [Act.exec, current, decide_true, if_true]
    rw [always_bind, always_tryCatch]
    refine (handled_route task.session task.msg _).mono ?_
    intro o s₁ ended
    have drops : ∀ o', o' = o → Always Act.exec E (Prog.act (.dropSession task.session) .ret : Proc Unit)
        s₁ fun _ s' => TurnEnd E s s' := by
      intro o' same
      subst same
      refine (always_act _ _ _ _).mpr ?_
      intro w₁ _
      exact (always_ret _ _ _).mpr (.handled task rest queued current _ _ ended)
    cases o with
    | ok value => exact drops _ rfl
    | error e => exact (always_ret _ _ _).mpr (drops _ rfl)
  · simp only [Act.exec, current, decide_false, Bool.false_eq_true, if_false]
    refine (always_act _ _ _ _).mpr ?_
    intro w₁ _
    exact (always_ret _ _ _).mpr (.stale task rest queued)

theorem SerialTurn.ends {s s' : Server} (turn : SerialTurn E s s')
    (registered : s.hasDisconnectHandler = true) : TurnEnd E s s' := by
  cases turn with
  | @event e o _ possible ran =>
    cases e with
    | newConnection fd ip =>
      have always : Always Act.exec E (handleNewConnection fd ip) s fun _ s' => TurnEnd E s s' := by
        refine (always_act _ _ _ _).mpr ?_
        intro w _
        exact (always_ret _ _ _).mpr (.accepted fd ip possible)
      exact always _ _ ran
    | client fd => exact ends_handleClientEvent fd s registered _ _ ran
    | heartbeat =>
      have sent := returns_broadcast pingFrame "" s _ _ ran
      cases o with
      | error e => exact sent.elim
      | ok value =>
        have state : s' = told s (toAll pingFrame (s.broadcastTargets "")) := sent
        rw [state]
        exact .pinged
  | task queued ran => exact ends_runTask queued _ _ ran

end LinuxChat.Guarantees.SerialRuns
