import LinuxChat.Guarantees.ChatService.Presence

/-!
# The server is a chat room

Every turn of a server that works on one message at a time is one event of `Lib.ChatRoom`, or
none, and sends that event's notices: what the users are told of one another is what the room
lets them know, whatever they send and however their connections end.
-/

namespace LinuxChat.Guarantees.ChatService

open LinuxChat.Lib LinuxChat.Lib.ChatRoom LinuxChat.Source Prog Serial SerialRuns SerialPlayback
open FanOut

variable {s s' : Server} {x : SessionRef} {username : String}

/-! ## Turns -/

theorem serves_route (orderly : Orderly s) (member : x ∈ s.sessions) (msg : Json) :
    Always Act.exec Works (route x msg) s fun _ s' => Serves s s' := by
  by_cases bare : s.name x = ""
  · intro o s' ran
    have ended := handled_route x msg s o s' ran
    have anonymous : (s.heap x.id).isAuthenticated = false := by
      by_contra authenticated
      exact (isAuthenticated_iff _).mp (by simpa using authenticated) bare
    have enters : Always Act.exec Works (route x msg) s fun _ s' => Enters x s s' := by
      rw [route_eq]
      unfold valueOf
      cases msg.value "type" "" with
      | error e => exact (always_raise _ s _).mpr (enters_refl x s)
      | ok type =>
        refine (always_act _ _ _ _).mpr ?_
        intro w _
        simp only [Act.exec, anonymous, Bool.false_eq_true, if_false]
        unfold routeUnauthenticated
        split
        · exact keeps_handleRegister msg s (enters_refl x s)
        · split
          · exact keeps_handleLogin msg s (enters_refl x s)
          · split
            · exact (always_ret _ s _).mpr (enters_refl x s)
            · exact keeps_sendError _ _ s (enters_refl x s)
    exact serves_entrance orderly member bare ended (enters o s' ran)
  · have inside : x ∈ live s := mem_live.mpr ⟨member, bare⟩
    have authenticated : (s.heap x.id).isAuthenticated = true := (isAuthenticated_iff _).mpr bare
    rw [route_eq]
    refine serves_valueOf fun type => ?_
    refine (always_act _ _ _ _).mpr ?_
    intro w _
    simp only [Act.exec, authenticated, if_true]
    unfold routeAuthenticated
    split
    · exact (always_ret _ s _).mpr (serves_refl s)
    · split
      · exact serves_handleBroadcast orderly inside msg
      · split
        · exact serves_handlePrivate orderly inside msg
        · split
          · exact serves_handleHistoryReq orderly inside msg
          · split
            · exact serves_handleLogout orderly inside
            · exact serves_sendError _ _

theorem roomOf_storeSession (orderly : Orderly s) {fd : Nat} {ip : String}
    (free : ∀ y ∈ s.sessions, y.fd ≠ fd) : roomOf (s.storeSession fd ip) = roomOf s := by
  have kept : s.sessions.filter (fun other => other.fd ≠ fd) = s.sessions := by
    apply List.filter_eq_self.mpr
    intro y member
    simpa using free y member
  have table : (s.storeSession fd ip).sessions = ⟨s.nextId, fd, ip⟩ :: s.sessions := by
    simp only [Server.storeSession, kept]
  have db : (s.storeSession fd ip).db = s.db := rfl
  have heap : ∀ id, ((s.storeSession fd ip).heap id).username =
      if id = s.nextId then "" else (s.heap id).username := by
    intro id
    simp only [Server.storeSession]
    by_cases new : id = s.nextId
    · subst new
      simp
    · simp [new]
  have unknown : (⟨s.nextId, fd, ip⟩ : SessionRef) ∉ s.sessions := by
    intro member
    have less := orderly.numbered.bound _ member
    exact absurd less (Nat.lt_irrefl _)
  unfold roomOf
  rw [db, table]
  congr 1
  funext y
  simp only [Server.name, heap, List.mem_cons]
  by_cases new : y = ⟨s.nextId, fd, ip⟩
  · subst new
    simp [unknown]
  · by_cases there : y ∈ s.sessions
    · have less := orderly.numbered.bound y there
      have other : y.id ≠ s.nextId := by omega
      simp [there, other]
    · simp [new, there]

theorem serves_runTask {task : Task} {rest : List Task} (orderly : Orderly s)
    (queued : s.tasks = task :: rest) :
    Always Act.exec Works (runTask task) { s with tasks := rest } fun _ s' => Serves s s' := by
  rw [runTask_eq]
  refine (always_act _ _ _ _).mpr ?_
  intro w _
  by_cases current : (s.heap task.session.id).generation = task.genAtDispatch
  · simp only [Act.exec, current, decide_true, if_true]
    have member : task.session ∈ s.sessions := by
      apply orderly.current task _ current
      rw [queued]
      exact List.mem_cons_self
    rw [always_bind, always_tryCatch]
    refine (serves_route (orderly.dequeued queued) member task.msg).mono ?_
    intro o s₁ serves
    have drops : Always Act.exec Works (Prog.act (.dropSession task.session) .ret : Proc Unit) s₁
        fun _ s' => Serves s s' := by
      refine (always_act _ _ _ _).mpr ?_
      intro w₁ _
      exact (always_ret _ _ _).mpr serves
    cases o with
    | ok value => exact drops
    | error e => exact (always_ret _ _ _).mpr drops
  · simp only [Act.exec, current, decide_false, Bool.false_eq_true, if_false]
    refine (always_act _ _ _ _).mpr ?_
    intro w₁ _
    exact (always_ret _ _ _).mpr (serves_same rfl rfl)

/-- The event loop takes no tasks. -/
theorem tasks_of_event {E : World → Prop} {e : Event} {o : Except Exn Unit}
    (ran : Runs Act.exec E e.program s o s') : s.tasks <+: s'.tasks := by
  have keeps : ∀ action : Act, True → ∀ s₁ : Server, s.tasks <+: s₁.tasks → ∀ w, E w →
      s.tasks <+: (action.exec w s₁).2.tasks := by
    intro action _ s₁ kept w _
    rw [exec_tasks]
    cases action with
    | enqueue task =>
      dsimp only
      split
      · exact kept
      · exact kept.trans (List.prefix_append _ _)
    | _ => exact kept
  have always : Always Act.exec E e.program s fun _ s₁ => s.tasks <+: s₁.tasks :=
    always_of_forall keeps (forall_true e.program) List.prefix_rfl
  exact always o s' ran

theorem serves_event {e : Event} {o : Except Exn Unit} (orderly : Orderly s)
    (possible : e.possible s) (ran : Runs Act.exec Works e.program s o s') : Serves s s' := by
  have tasks := tasks_of_event ran
  have turn : SerialTurn Works s s' := .event possible ran
  cases turn.ends orderly.registered with
  | idle => exact serves_refl s
  | accepted fd ip free => exact serves_same (roomOf_storeSession orderly free) rfl
  | pinged =>
    refine serves_silent (roomOf_told s _) rfl ?_
    intro told member
    obtain ⟨target, _, rfl⟩ := List.mem_map.mp member
    exact notice_ping
  | received y there buf failures _ queued =>
    obtain ⟨added, rfl, _⟩ := queued
    have same := roomOf_same (sameBook_buffered s y buf failures) rfl
    exact serves_same same rfl
  | removed y there buf failures _ gone =>
    have book := sameBook_buffered s y buf failures
    obtain ⟨frames, sent, step⟩ :=
      serves_disconnected (orderly.same book) (mem_of_findByFd there) gone
    refine ⟨frames, sent, ?_⟩
    rw [← roomOf_same book rfl]
    exact step
  | stale task rest queued => exact serves_same rfl rfl
  | handled task rest queued current o _ ended =>
    have fewer : s'.tasks = rest := by cases ended <;> rfl
    have lengths := tasks.length_le
    rw [fewer, queued, List.length_cons] at lengths
    omega

theorem serves_turn (orderly : Orderly s) (turn : SerialTurn Works s s') : Serves s s' := by
  cases turn with
  | event possible ran => exact serves_event orderly possible ran
  | task queued ran => exact serves_runTask orderly queued _ _ ran

/-- Turn by turn, the frames sent are the notices of a run of the room. -/
theorem serves_the_room {db : Database} {s : Server} (run : SerialRun Works db s) :
    ChatRoom.Run service (roomOf { db := db }) (notices s.sent) (roomOf s) := by
  induction run with
  | boot => exact .empty
  | @turn s s' run turn ih =>
    obtain ⟨frames, sent, step⟩ := serves_turn (orderly_of_run run) turn
    rw [sent, notices_append]
    exact ih.step step

/-- Alice is welcomed, shown the room and listed; then Bob is, and Alice is told. -/
theorem serves_the_room_registered :
    (notices aliceAndBob.sent).length = 8 ∧
      ChatRoom.Run service (roomOf {})
        (notices aliceAndBob.sent)
        (roomOf aliceAndBob) :=
  ⟨by decide +kernel, serves_the_room (run_aliceAndBob works_telling)⟩

end LinuxChat.Guarantees.ChatService
