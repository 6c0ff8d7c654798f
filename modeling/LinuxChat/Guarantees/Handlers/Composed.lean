import LinuxChat.Guarantees.Handlers

/-!
# Properties of programs that compose

Many arguments go through the handlers in the same way: plain actions have the property, so has a
program of which every part has it, and only `finish_login`, `handle_logout` and the chat handlers
need proofs of their own. `Composed` is such a property; then every task has it.
-/

namespace LinuxChat.Guarantees

open LinuxChat.Lib LinuxChat.Source Prog

/-- The actions around a login: checks, reservations, passwords, refusals. -/
structure Preparing (P : Act → Prop) : Prop where
  gate : ∀ session, P (.isAuthenticated session)
  limit : ∀ ip, P (.isRateLimited ip)
  count : ∀ ip, P (.recordFailedLogin ip)
  uncount : ∀ ip, P (.clearLoginAttempts ip)
  reserveNew : ∀ username, P (.reserveForRegister username)
  reserveOld : ∀ username, P (.reserveForLogin username)
  release : ∀ username, P (.releaseReservation username)
  pend : ∀ session username, P (.setPendingLogin session username)
  unpend : ∀ session, P (.clearPendingLogin session)
  row : ∀ username hash, P (.registerUser username hash)
  record : ∀ username, P (.getStoredHash username)
  draw : P .randBytes
  hash : ∀ input, P (.sha256 input)
  error : ∀ session code content, P (.sendMsg session false (errorFrame code content))
  check : ∀ task, P (.checkGeneration task)
  drop : ∀ session, P (.dropSession session)

/-- A property of programs that composes, and that programs of plain actions have. -/
structure Composed (plain : Act → Prop) (S : (α : Type) → Proc α → Prop) : Prop where
  ret : ∀ {α : Type} (value : α), S α (.ret value)
  raise : ∀ {α : Type} (error : Exn), S α (.raise error)
  act : ∀ {α : Type} {action : Act} {next : action.Res → Proc α}, plain action →
    (∀ result, S α (next result)) → S α (.act action next)
  bind : ∀ {α β : Type} {p : Proc α} {f : α → Proc β}, S α p → (∀ value, S β (f value)) →
    S β (p.bind f)
  tryCatch : ∀ {α : Type} {p : Proc α} {handler : Exn → Proc α}, S α p →
    (∀ error, S α (handler error)) → S α (p.tryCatch handler)

namespace Composed

variable {plain : Act → Prop} {S : (α : Type) → Proc α → Prop} (composed : Composed plain S)
include composed

theorem of_forall {α : Type} {p : Proc α} (h : p.Forall plain) : S α p := by
  induction p with
  | ret value => exact composed.ret value
  | raise error => exact composed.raise error
  | act action next ih => exact composed.act h.1 fun result => ih result (h.2 result)

theorem valueOf (msg : Json) (key default : String) : S String (valueOf msg key default) :=
  composed.of_forall (forall_valueOf msg key default)

variable (prepares : Preparing plain)
include prepares

theorem sendError (session : SessionRef) (code content : String) :
    S Unit (sendError session code content) :=
  composed.of_forall (forall_sendError (prepares.error _ _ _))

theorem closeFailed (session : SessionRef) (username code content : String) :
    S Unit (closeFailed session username code content) :=
  composed.of_forall (forall_closeFailed (prepares.release _) (prepares.unpend _)
    (prepares.error _ _ _))

/-! ## LOGIN and REGISTER -/

section
variable (login : ∀ session username, username ≠ "" → S Unit (finishLogin session username))
include login

theorem closeLogin (session : SessionRef) {username : String} (nonempty : username ≠ "") :
    S Unit (closeLogin session username) :=
  composed.bind (login session username nonempty) fun _ =>
    composed.act (prepares.unpend session) fun _ =>
      composed.act (prepares.release username) fun _ => composed.ret _

theorem handleRegister (session : SessionRef) (msg : Json) :
    S Unit (handleRegister session msg) := by
  rw [handleRegister_eq]
  refine composed.bind (composed.valueOf _ _ _) fun username =>
    composed.bind (composed.valueOf _ _ _) fun password => ?_
  cases checks : credentialError username password with
  | some content => exact composed.sendError prepares session _ _
  | none =>
    refine composed.act (prepares.reserveNew username) fun reserved => ?_
    cases reserved with
    | false => exact composed.sendError prepares session _ _
    | true =>
      refine composed.act (prepares.pend session username) fun _ => ?_
      have hashes : S String (hashPassword password) := composed.of_forall
        (forall_hashPassword password prepares.draw prepares.hash)
      refine composed.bind hashes fun hash => ?_
      rw [completeRegister_eq]
      refine composed.act (prepares.row username hash) fun registered => ?_
      cases registered with
      | true => exact composed.closeLogin prepares login session (credentials_nonempty checks)
      | false => exact composed.closeFailed prepares session username _ _

theorem reservedLogin (session : SessionRef) {username : String} (nonempty : username ≠ "")
    (password : String) : S Unit (reservedLogin session username password) := by
  rw [reservedLogin_eq]
  refine composed.act (prepares.reserveOld username) fun outcome => ?_
  cases outcome with
  | inProgress => exact composed.sendError prepares session _ _
  | alreadyOnline => exact composed.sendError prepares session _ _
  | reserved =>
    refine composed.act (prepares.pend session username) fun _ => ?_
    refine composed.act (prepares.record username) fun record => ?_
    have checks : S Bool (passwordAccepted password record) := composed.of_forall
      (forall_passwordAccepted password record prepares.hash)
    refine composed.bind checks fun accepted => ?_
    cases accepted with
    | true =>
      rw [if_pos rfl, acceptLogin_eq]
      have closes := composed.closeLogin prepares login session nonempty
      split
      · exact composed.act (prepares.uncount _) fun _ => closes
      · exact closes
    | false =>
      exact composed.of_forall (forall_rejectLogin (prepares.count _) (prepares.release _)
        (prepares.unpend _) (prepares.error _ _ _))

theorem handleLogin (session : SessionRef) (msg : Json) : S Unit (handleLogin session msg) := by
  rw [handleLogin_eq]
  refine composed.bind (composed.valueOf _ _ _) fun username =>
    composed.bind (composed.valueOf _ _ _) fun password => ?_
  cases checks : credentialError username password with
  | some content => exact composed.sendError prepares session _ _
  | none =>
    have asks : S Bool (rateLimited session) := composed.of_forall
      (forall_rateLimited session (prepares.limit _))
    refine composed.bind asks fun limited => ?_
    cases limited with
    | true => exact composed.sendError prepares session _ _
    | false =>
      exact composed.reservedLogin prepares login session (credentials_nonempty checks) password

theorem routeUnauthenticated (session : SessionRef) (msg : Json) (type : String) :
    S Unit (routeUnauthenticated session msg type) := by
  unfold Source.routeUnauthenticated
  split
  · exact composed.handleRegister prepares login session msg
  · split
    · exact composed.handleLogin prepares login session msg
    · split
      · exact composed.ret _
      · exact composed.sendError prepares session _ _

/-! ## Tasks -/

/-- The chat handlers and the logout are the caller's part. -/
theorem route (logout : ∀ session, S Unit (handleLogout session))
    (broadcasts : ∀ session msg, S Unit (handleBroadcast session msg))
    (privates : ∀ session msg, S Unit (handlePrivate session msg))
    (histories : ∀ session msg, S Unit (handleHistoryReq session msg))
    (session : SessionRef) (msg : Json) : S Unit (route session msg) := by
  rw [route_eq]
  refine composed.bind (composed.valueOf _ _ _) fun type =>
    composed.act (prepares.gate session) fun authenticated => ?_
  cases authenticated with
  | false => exact composed.routeUnauthenticated prepares login session msg type
  | true =>
    rw [if_pos rfl]
    unfold routeAuthenticated
    split
    · exact composed.ret _
    · split
      · exact broadcasts session msg
      · split
        · exact privates session msg
        · split
          · exact histories session msg
          · split
            · exact logout session
            · exact composed.sendError prepares session _ _

end

theorem runTask {task : Task} (routes : S Unit (Source.route task.session task.msg)) :
    S Unit (runTask task) := by
  have drops : S Unit (.act (.dropSession task.session) .ret) :=
    composed.act (prepares.drop _) fun _ => composed.ret _
  rw [runTask_eq]
  refine composed.act (prepares.check task) fun current => ?_
  cases current with
  | true =>
    have caught : S Unit ((Source.route task.session task.msg).tryCatch fun _ => .ret ()) :=
      composed.tryCatch routes fun _ => composed.ret _
    exact composed.bind caught fun _ => drops
  | false => exact drops

end Composed

end LinuxChat.Guarantees
