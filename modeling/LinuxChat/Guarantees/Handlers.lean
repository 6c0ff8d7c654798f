import LinuxChat.Guarantees.Handlers.Requests

/-!
# The programs of the server in action form

The event loop and the workers, laid out like the handlers they call. Arguments about the server
use these footprints and equations and never unfold a handler again.
-/

namespace LinuxChat.Guarantees

open LinuxChat.Lib LinuxChat.Source Prog

variable {P : Act → Prop}

/-- The actions of the event loop's programs. -/
structure Serving (P : Act → Prop) : Prop extends Leaving P where
  store : ∀ fd ip, P (.storeSession fd ip)
  receive : ∀ session, P (.recvMsgs session)
  handler : P .hasMessageHandler
  stamp : ∀ session, P (.generation session)
  enqueue : ∀ task, P (.enqueue task)
  ping : ∀ target, P (.sendMsg target true (.object [("type", .string "PING")]))

theorem enqueueTask_eq (task : Task) :
    enqueueTask task = .act (.enqueue task) fun accepted =>
      if accepted then .ret ()
      else .raise (.runtimeError "ThreadPool: enqueue called after stop") := rfl

/-- The end of a dispatch round, where a message handler is registered. -/
def stampAndEnqueue (session : SessionRef) (msg : Json) : Proc Unit :=
  .act (.generation session) fun genAtDispatch => enqueueTask ⟨session, genAtDispatch, msg⟩

theorem dispatchOne_eq (session : SessionRef) (msg : Json) :
    dispatchOne session msg =
      .act (.isAuthenticated session) fun authenticated =>
        let enqueues : Proc Unit := .act .hasMessageHandler fun registered =>
          if registered then stampAndEnqueue session msg else .ret ()
        if !authenticated then (valueOf msg "type" "").bind fun _ => enqueues else enqueues := rfl

theorem handleClientEvent_eq (fd : Nat) :
    handleClientEvent fd =
      .act (.findByFd fd) fun found =>
        match found with
        | none => .ret ()
        | some session =>
          .act (.recvMsgs session) fun received =>
            (Prog.ofExcept received).bind fun msgs =>
              match msgs with
              | none => removeClient fd
              | some msgs => dispatch session msgs := by
  unfold handleClientEvent
  simp only [bind_eq, act_bind, ret_bind]
  congr 1
  funext found
  cases found with
  | none => rfl
  | some session => rfl

theorem runTask_eq (task : Task) :
    runTask task =
      .act (.checkGeneration task) fun current =>
        if current then
          ((route task.session task.msg).tryCatch fun _ => .ret ()).bind fun _ =>
            .act (.dropSession task.session) .ret
        else .act (.dropSession task.session) .ret := rfl

theorem forall_runTask {task : Task} (routed : ∀ action, InRoute action → P action)
    (check : P (.checkGeneration task)) (drop : P (.dropSession task.session)) :
    (runTask task).Forall P := by
  have caught := (forall_route_of routed task.session task.msg).tryCatch (h := fun _ => .ret ())
    fun _ => trivial
  rw [runTask_eq]
  refine ⟨check, fun current => ?_⟩
  cases current with
  | false => exact ⟨drop, fun _ => trivial⟩
  | true => exact caught.bind fun _ => ⟨drop, fun _ => trivial⟩

/-- A dispatch enqueues tasks of one session only. -/
theorem forall_dispatch {session : SessionRef} (gate : P (.isAuthenticated session))
    (handler : P .hasMessageHandler) (stamp : P (.generation session))
    (enqueue : ∀ genAtDispatch msg, P (.enqueue ⟨session, genAtDispatch, msg⟩)) (msgs : List Json) :
    (dispatch session msgs).Forall P := by
  have enqueues : ∀ msg, (Prog.act .hasMessageHandler fun registered =>
      if registered then stampAndEnqueue session msg else .ret () : Proc Unit).Forall P := by
    intro msg
    refine ⟨handler, fun registered => ?_⟩
    dsimp only
    split
    · refine ⟨stamp, fun genAtDispatch => ?_⟩
      dsimp only
      rw [enqueueTask_eq]
      refine ⟨enqueue genAtDispatch msg, fun accepted => ?_⟩
      cases accepted <;> trivial
    · trivial
  have round : ∀ msg, (dispatchOne session msg).Forall P := by
    intro msg
    rw [dispatchOne_eq]
    refine ⟨gate, fun authenticated => ?_⟩
    dsimp only
    split
    · exact (forall_valueOf msg _ _).bind fun _ => enqueues msg
    · exact enqueues msg
  induction msgs with
  | nil => trivial
  | cons msg rest ih => exact (round msg).bind fun _ => ih

theorem forall_handleClientEvent (h : Serving P) (fd : Nat) : (handleClientEvent fd).Forall P := by
  rw [handleClientEvent_eq]
  refine ⟨h.find fd, fun found => ?_⟩
  cases found with
  | none => trivial
  | some session =>
    refine ⟨h.receive session, fun received => ?_⟩
    refine (forall_ofExcept (I := serverInterface) P received).bind fun msgs => ?_
    cases msgs with
    | none => exact forall_removeClient h.toLeaving fd
    | some msgs =>
      exact forall_dispatch (h.gate session) h.handler (h.stamp session)
        (fun _ _ => h.enqueue _) msgs

theorem forall_event (h : Serving P) (e : Event) : e.program.Forall P := by
  cases e with
  | newConnection fd ip => exact ⟨h.store fd ip, fun _ => trivial⟩
  | client fd => exact forall_handleClientEvent h fd
  | heartbeat => exact forall_broadcast (h.scan "") h.ping

end LinuxChat.Guarantees
