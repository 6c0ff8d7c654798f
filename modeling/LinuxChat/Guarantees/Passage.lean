import LinuxChat.Guarantees.Handlers.Composed

/-!
# An assertion across the server's programs

A guarantee that is about logins, logouts and chat messages and about nothing else holds
one assertion across everything in between. `Passage` is such an assertion: the plain
actions keep it, and the pieces of `finish_login`, `handle_logout` and the chat
handlers have proofs of their own. Then every task and every event keeps it.
-/

namespace LinuxChat.Guarantees

open LinuxChat.Lib LinuxChat.Source Prog

/-- The actions of the event loop outside `handle_logout`. -/
structure Looping (P : Act → Prop) : Prop where
  store : ∀ fd ip, P (.storeSession fd ip)
  find : ∀ fd, P (.findByFd fd)
  receive : ∀ session, P (.recvMsgs session)
  gate : ∀ session, P (.isAuthenticated session)
  name : ∀ session, P (.getUsername session)
  erase : ∀ fd, P (.eraseSession fd)
  registered : P .hasDisconnectHandler
  pending : ∀ session, P (.getPendingLogin session)
  cleanup : ∀ username, P (.cleanupLoginReservation username)
  unpend : ∀ session, P (.clearPendingLogin session)
  drop : ∀ session, P (.dropSession session)
  handler : P .hasMessageHandler
  stamp : ∀ session, P (.generation session)
  enqueue : ∀ task, P (.enqueue task)
  scan : P (.broadcastTargets "")
  ping : ∀ target, P (.sendMsg target true (.object [("type", .string "PING")]))

/-- An assertion that a thread keeps up through the handlers: it is stable, plain actions keep it,
and so do the end of a login and a logout. -/
structure Passage {σ : Type} {M : Machine serverInterface Exn σ World} (D : Discipline M)
    (t : Nat) where
  holds : σ → Prop
  plain : Act → Prop
  stable : D.Stable t holds
  frame : ∀ {action : Act} {s : σ} (w : World), plain action → holds s → D.inv s →
    D.allowed t action s →
      D.Keeps t s (M.exec t w action s).2 ∧ holds (M.exec t w action s).2
  preparing : Preparing plain
  login : ∀ session username s, holds s →
    D.wp t (fun _ => holds) (fun _ => holds) (finishLogin session username) s
  logout : ∀ session s, holds s →
    D.wp t (fun _ => holds) (fun _ => holds) (handleLogout session) s

namespace Passage

variable {σ : Type} {M : Machine serverInterface Exn σ World} {D : Discipline M} {t : Nat}
  (passage : Passage D t) {α β : Type}

/-- The assertion holds wherever the program ends, if it holds at its start. -/
def Stays (p : Proc α) : Prop :=
  ∀ s, passage.holds s → D.wp t (fun _ => passage.holds) (fun _ => passage.holds) p s

variable {passage}

theorem Stays.ret (value : α) : passage.Stays (.ret value : Proc α) := fun _ h => h

theorem Stays.act {action : Act} {next : action.Res → Proc α} (plain : passage.plain action)
    (rest : ∀ result, passage.Stays (next result)) : passage.Stays (.act action next) := by
  intro s h
  refine Discipline.wp_act passage.stable h fun s₁ h₁ inv allowed w => ?_
  obtain ⟨keeps, after⟩ := passage.frame w plain h₁ inv allowed
  exact ⟨keeps, rest _ _ after⟩

theorem Stays.bind {p : Proc α} {f : α → Proc β} (first : passage.Stays p)
    (rest : ∀ value, passage.Stays (f value)) : passage.Stays (p.bind f) :=
  fun s h => Discipline.wp_seq (first s h) (fun value s₁ => rest value s₁) fun _ _ h => h

theorem Stays.tryCatch {p : Proc α} {handler : Exn → Proc α} (first : passage.Stays p)
    (rest : ∀ error, passage.Stays (handler error)) : passage.Stays (p.tryCatch handler) :=
  fun s h => (Discipline.wp_tryCatch _ _ s).mpr
    (Discipline.wp_mono (first s h) (fun _ _ h => h) fun error s₁ => rest error s₁)

/-- The assertion goes through everything else of a task by composition. -/
theorem stays_composed : Composed passage.plain fun _ => passage.Stays where
  ret := Stays.ret
  raise _ := fun _ h => h
  act := Stays.act
  bind := Stays.bind
  tryCatch := Stays.tryCatch

theorem stays_of_forall {p : Proc α} (plain : p.Forall passage.plain) : passage.Stays p :=
  stays_composed.of_forall plain

/-! ## Tasks and events -/

/-- The chat handlers are the caller's part. -/
theorem stays_route (broadcasts : ∀ session msg, passage.Stays (handleBroadcast session msg))
    (privates : ∀ session msg, passage.Stays (handlePrivate session msg))
    (histories : ∀ session msg, passage.Stays (handleHistoryReq session msg))
    (session : SessionRef) (msg : Json) : passage.Stays (route session msg) :=
  stays_composed.route passage.preparing (fun session username _ => passage.login session username)
    passage.logout broadcasts privates histories session msg

theorem stays_runTask {task : Task} (routes : passage.Stays (route task.session task.msg)) :
    passage.Stays (runTask task) :=
  stays_composed.runTask passage.preparing routes

theorem stays_removeClient (loops : Looping passage.plain) (fd : Nat) :
    passage.Stays (removeClient fd) := by
  have departs : ∀ session, passage.Stays (handleLogout session) := passage.logout
  have ends : ∀ session, passage.Stays (endRemoval session) := by
    intro session
    refine Stays.act (loops.gate session) fun authenticated => ?_
    dsimp only
    split
    · exact Stays.act (loops.name session) fun _ => Stays.act (loops.drop session) fun _ => Stays.ret _
    · exact Stays.act (loops.drop session) fun _ => Stays.ret _
  rw [removeClient_eq]
  refine Stays.act (loops.erase fd) fun removed => ?_
  cases removed with
  | none => exact Stays.ret _
  | some session =>
    refine Stays.act loops.registered fun registered => ?_
    have handler : passage.Stays (disconnectHandler session) := by
      rw [disconnectHandler_eq]
      refine Stays.act (loops.pending session) fun pending => ?_
      dsimp only
      split
      · exact Stays.act (loops.cleanup _) fun _ => Stays.act (loops.unpend session) fun _ =>
          departs session
      · exact departs session
    cases registered with
    | true => exact (handler.tryCatch fun _ => Stays.ret _).bind fun _ => ends session
    | false => exact ends session

theorem stays_event (loops : Looping passage.plain) (e : Event) : passage.Stays e.program := by
  cases e with
  | newConnection fd ip => exact Stays.act (loops.store fd ip) fun _ => Stays.ret _
  | client fd =>
    change passage.Stays (handleClientEvent fd)
    rw [handleClientEvent_eq]
    refine Stays.act (loops.find fd) fun found => ?_
    cases found with
    | none => exact Stays.ret _
    | some session =>
      refine Stays.act (loops.receive session) fun received => ?_
      cases received with
      | error e => exact fun _ h => h
      | ok msgs =>
        cases msgs with
        | none => exact stays_removeClient loops fd
        | some msgs =>
          exact stays_of_forall (forall_dispatch (loops.gate session) loops.handler
            (loops.stamp session) (fun _ _ => loops.enqueue _) msgs)
  | heartbeat => exact stays_of_forall (forall_broadcast loops.scan loops.ping)

end Passage

end LinuxChat.Guarantees
