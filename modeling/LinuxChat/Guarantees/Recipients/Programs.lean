import LinuxChat.Guarantees.Recipients.Record
import LinuxChat.Guarantees.Handlers

/-!
# What the programs send

Every handler, the callback of a disconnect and every event of the loop sends only what the
monitor allows it. A fact about what the thread has in hand is kept by whatever else the
program sends on the way, so one lemma for each function is enough.
-/

namespace LinuxChat.Guarantees.Recipients

open LinuxChat.Lib LinuxChat.Source Prog

/-! ## Sending -/

/-- Changes nothing that `posts` looks at. -/
def Still : Act → Prop
  | .isAuthenticated _ | .setUsername _ _ | .findSession _ | .findByFd _ | .eraseSession _
  | .storeSession _ _ | .broadcastTargets _ | .dropSession _ | .enqueue _ | .sendMsg _ _ _ => False
  | _ => True

theorem meets_still {α : Type} {p : Proc α} (still : p.Forall Still) (h : Bool × Custody) :
    p.Meets posts (fun _ h' => h' = h) h := by
  apply meets_of_forall (J := fun h' => h' = h) ?_ still rfl
  rintro action still _ rfl
  cases action with
  | isAuthenticated | setUsername | findSession | findByFd | eraseSession | storeSession
  | broadcastTargets | dropSession | enqueue | sendMsg => cases still
  | _ => exact ⟨trivial, fun _ => rfl⟩

/-- What sending cannot change. -/
structure Lasting (J : Bool × Custody → Prop) : Prop where
  finds : ∀ h found, J h → J (h.1, { h.2 with found := found })
  lists : ∀ h recipients, J h → J (h.1, { h.2 with recipients := recipients })

section
variable {J : Bool × Custody → Prop} {h : Bool × Custody}

/-- The program keeps `J`, wherever it ends. -/
abbrev Keeps {α : Type} (J : Bool × Custody → Prop) (p : Proc α) (h : Bool × Custody) : Prop :=
  p.Meets posts (fun _ h' => J h') h

theorem keeps_still {α : Type} {p : Proc α} (still : p.Forall Still) (holds : J h) : Keeps J p h :=
  (meets_still still h).mono fun _ _ same => same.symm ▸ holds

theorem Keeps.bind {α β : Type} {p : Proc α} {f : α → Proc β} (first : Keeps J p h)
    (second : ∀ value h', J h' → Keeps J (f value) h') : Keeps J (p.bind f) h :=
  Meets.bind first (fun value h' holds => second value h' holds) fun _ _ holds => holds

theorem keeps_sendEach {frame : Json} (type : isPublic frame.typeOf = true)
    (targets : List SessionRef) (listed : ∀ x ∈ targets, x ∈ h.2.recipients) (holds : J h) :
    Keeps J (sendEach frame targets) h := by
  induction targets with
  | nil => exact holds
  | cons x rest ih =>
    refine ⟨.announces type (listed x List.mem_cons_self), fun _ => ?_⟩
    exact ih fun y member => listed y (List.mem_cons_of_mem x member)

theorem keeps_broadcast (lasting : Lasting J) {frame : Json} (type : isPublic frame.typeOf = true)
    (excludeUsername : String) (holds : J h) : Keeps J (broadcast frame excludeUsername) h :=
  ⟨trivial, fun targets =>
    keeps_sendEach type targets (fun _ member => member) (lasting.lists h targets holds)⟩

theorem keeps_broadcastUserList (lasting : Lasting J) (holds : J h) :
    Keeps J broadcastUserList h :=
  ⟨trivial, fun _ => ⟨trivial, fun _ => keeps_broadcast lasting rfl "" holds⟩⟩

theorem keeps_notify (lasting : Lasting J) (content excludeUsername : String) (holds : J h) :
    Keeps J ((notifyMsg content).bind fun notify => broadcast notify excludeUsername) h :=
  ⟨trivial, fun _ => keeps_broadcast lasting rfl excludeUsername holds⟩

/-- `send_to_fd` to the descriptor of `y`, where `J` makes whoever is found there due. -/
theorem keeps_sendToFd (lasting : Lasting J) {frame : Json} (y : SessionRef)
    (due : ∀ h x, J h → FoundAs h.2 x y → Sends h.2 x frame) (holds : J h) :
    Keeps J (sendToFd y.fd frame) h := by
  refine ⟨trivial, fun found => ?_⟩
  have kept := lasting.finds h (found.map fun session => (y.fd, session)) holds
  cases found with
  | none => exact kept
  | some x => exact ⟨due _ x kept rfl, fun _ => kept⟩

theorem keeps_announceLogout (lasting : Lasting J) (username : String) (holds : J h) :
    Keeps J (announceLogout username) h :=
  (keeps_broadcastUserList lasting holds).bind fun _ _ holds =>
    keeps_notify lasting _ _ holds

end

/-! ## Handlers -/

/-- The thread handles a message of this session. -/
def Serves (session : SessionRef) (h : Bool × Custody) : Prop := h.2.origin = some session

/-- And has seen or given a name of it. -/
def Knows (session : SessionRef) (h : Bool × Custody) : Prop :=
  Serves session h ∧ h.2.admitted = true

theorem lasting_serves (session : SessionRef) : Lasting (Serves session) where
  finds _ _ serves := serves
  lists _ _ serves := serves

theorem lasting_knows (session : SessionRef) : Lasting (Knows session) where
  finds _ _ knows := knows
  lists _ _ knows := knows

section
variable {session : SessionRef} {h : Bool × Custody}

theorem Keeps.weaken {α : Type} {J J' : Bool × Custody → Prop} {p : Proc α} (keeps : Keeps J p h)
    (weaker : ∀ h, J h → J' h) : Keeps J' p h :=
  Meets.mono keeps fun _ h' holds => weaker h' holds

theorem keeps_valueOf {α : Type} {J : Bool × Custody → Prop} {msg : Json} {key default : String}
    {next : String → Proc α} (holds : J h) (reads : ∀ found, Keeps J (next found) h) :
    Keeps J ((valueOf msg key default).bind next) h := by
  unfold valueOf
  cases msg.value key default with
  | error e => exact holds
  | ok found => exact reads found

theorem keeps_sendError (code content : String) (serves : Serves session h) :
    Keeps (Serves session) (sendError session code content) h :=
  ⟨.refuses rfl serves, fun _ => serves⟩

theorem keeps_pushHistory (username : String) (knows : Knows session h) :
    Keeps (Knows session) (pushHistory session.fd username) h := by
  rw [pushHistory_eq]
  refine ⟨trivial, fun rows => ?_⟩
  have due : ∀ h x, Knows session h → FoundAs h.2 x session →
      Sends h.2 x (historyFrame "__room__" rows) :=
    fun h x knows found => .returns rfl knows.2 session knows.1 found
  exact (keeps_sendToFd (lasting_knows session) session due knows).bind fun _ _ knows => knows

theorem keeps_announceLogin (username : String) (knows : Knows session h) :
    Keeps (Knows session) (announceLogin session username) h := by
  have lasting := lasting_knows session
  rw [announceLogin_eq]
  refine ⟨.answers rfl knows.2 knows.1, fun _ => ?_⟩
  exact (keeps_pushHistory username knows).bind fun _ _ knows =>
    (keeps_broadcastUserList lasting knows).bind fun _ _ knows => keeps_notify lasting _ _ knows

theorem keeps_closeLogin {username : String} (nonempty : username ≠ "")
    (serves : Serves session h) :
    Keeps (Serves session) (closeLogin session username) h := by
  have finishes : Keeps (Serves session) (finishLogin session username) h := by
    rw [finishLogin_eq]
    refine ⟨⟨serves, nonempty⟩, fun _ => ⟨trivial, fun _ => ?_⟩⟩
    have knows : Knows session (h.1, { h.2 with admitted := true }) := ⟨serves, rfl⟩
    exact (keeps_announceLogin username knows).weaken fun _ knows => knows.1
  exact finishes.bind fun _ _ serves => ⟨trivial, fun _ => ⟨trivial, fun _ => serves⟩⟩

theorem keeps_closeFailed (username code content : String) (serves : Serves session h) :
    Keeps (Serves session) (closeFailed session username code content) h :=
  ⟨trivial, fun _ => ⟨trivial, fun _ => keeps_sendError code content serves⟩⟩

theorem keeps_handleRegister (msg : Json) (serves : Serves session h) :
    Keeps (Serves session) (handleRegister session msg) h := by
  rw [handleRegister_eq]
  refine keeps_valueOf serves fun username => keeps_valueOf serves fun password => ?_
  cases checks : credentialError username password with
  | some content => exact keeps_sendError _ _ serves
  | none =>
    refine ⟨trivial, fun reserved => ?_⟩
    cases reserved with
    | false => exact keeps_sendError _ _ serves
    | true =>
      refine ⟨trivial, fun _ => ?_⟩
      have hashes := forall_hashPassword (P := Still) password trivial fun _ => trivial
      refine (keeps_still hashes serves).bind fun hash h serves => ?_
      rw [completeRegister_eq]
      refine ⟨trivial, fun registered => ?_⟩
      cases registered with
      | false => exact keeps_closeFailed _ _ _ serves
      | true => exact keeps_closeLogin (credentials_nonempty checks) serves

theorem keeps_acceptLogin {username : String} (nonempty : username ≠ "")
    (serves : Serves session h) : Keeps (Serves session) (acceptLogin session username) h := by
  rw [acceptLogin_eq]
  split
  · exact ⟨trivial, fun _ => keeps_closeLogin nonempty serves⟩
  · exact keeps_closeLogin nonempty serves

theorem keeps_rejectLogin (username : String) (serves : Serves session h) :
    Keeps (Serves session) (rejectLogin session username) h := by
  rw [rejectLogin_eq]
  split
  · exact ⟨trivial, fun _ => keeps_closeFailed _ _ _ serves⟩
  · exact keeps_closeFailed _ _ _ serves

theorem keeps_reservedLogin {username : String} (nonempty : username ≠ "") (password : String)
    (serves : Serves session h) :
    Keeps (Serves session) (reservedLogin session username password) h := by
  rw [reservedLogin_eq]
  refine ⟨trivial, fun outcome => ?_⟩
  cases outcome with
  | inProgress => exact keeps_sendError _ _ serves
  | alreadyOnline => exact keeps_sendError _ _ serves
  | reserved =>
    refine ⟨trivial, fun _ => ⟨trivial, fun storedHash => ?_⟩⟩
    have checks := forall_passwordAccepted (P := Still) password storedHash fun _ => trivial
    refine (keeps_still checks serves).bind fun accepted h serves => ?_
    cases accepted with
    | false => exact keeps_rejectLogin username serves
    | true => exact keeps_acceptLogin nonempty serves

theorem keeps_handleLogin (msg : Json) (serves : Serves session h) :
    Keeps (Serves session) (handleLogin session msg) h := by
  rw [handleLogin_eq]
  refine keeps_valueOf serves fun username => keeps_valueOf serves fun password => ?_
  cases checks : credentialError username password with
  | some content => exact keeps_sendError _ _ serves
  | none =>
    have asks := forall_rateLimited (P := Still) session trivial
    refine (keeps_still asks serves).bind fun limited h serves => ?_
    cases limited with
    | true => exact keeps_sendError _ _ serves
    | false => exact keeps_reservedLogin (credentials_nonempty checks) password serves

theorem keeps_handleLogout {J : Bool × Custody → Prop} (lasting : Lasting J)
    (gates : ∀ h, J h → J (h.1, { h.2 with admitted := true })) (holds : J h) :
    Keeps J (handleLogout session) h := by
  rw [handleLogout_eq]
  refine ⟨trivial, fun authenticated => ?_⟩
  have kept : J (posts.next h (.isAuthenticated session) authenticated) := by
    simp only [posts, Custody.follow]
    split
    · exact gates h holds
    · exact holds
  cases authenticated with
  | false => exact kept
  | true =>
    exact ⟨trivial, fun _ => ⟨trivial, fun _ => ⟨trivial, fun _ =>
      keeps_announceLogout lasting _ kept⟩⟩⟩

theorem keeps_handleBroadcast (msg : Json) (serves : Serves session h) :
    Keeps (Serves session) (handleBroadcast session msg) h := by
  rw [handleBroadcast_eq]
  refine keeps_valueOf serves fun content => ?_
  split
  · exact keeps_sendError _ _ serves
  · split
    · exact keeps_sendError _ _ serves
    · exact ⟨trivial, fun _ => ⟨trivial, fun _ => ⟨trivial, fun _ =>
        keeps_broadcast (lasting_serves session) rfl "" serves⟩⟩⟩

/-- The addressee of the message has been looked up. -/
def Delivers (session target : SessionRef) (toUser : String) (h : Bool × Custody) : Prop :=
  Knows session h ∧ h.2.addressee = some (toUser, target)

theorem lasting_delivers (session target : SessionRef) (toUser : String) :
    Lasting (Delivers session target toUser) where
  finds _ _ delivers := delivers
  lists _ _ delivers := delivers

theorem keeps_deliverPrivate {target : SessionRef} {toUser : String} (nonempty : toUser ≠ "")
    (content : String) (delivers : Delivers session target toUser h) :
    Keeps (Delivers session target toUser) (deliverPrivate session target toUser content) h := by
  have lasting := lasting_delivers session target toUser
  rw [deliverPrivate_eq]
  refine ⟨trivial, fun timestamp => ⟨trivial, fun sender => ⟨trivial, fun _ => ?_⟩⟩⟩
  have toTarget : ∀ h x, Delivers session target toUser h → FoundAs h.2 x target →
      Sends h.2 x (privateFrame sender toUser content timestamp) :=
    fun h x delivers found => .delivers toUser target rfl rfl nonempty delivers.2 found
  have toSender : ∀ h x, Delivers session target toUser h → FoundAs h.2 x session →
      Sends h.2 x (privateFrame sender toUser content timestamp) :=
    fun h x delivers found => .returns rfl delivers.1.2 session delivers.1.1 found
  exact (keeps_sendToFd lasting target toTarget delivers).bind fun _ _ delivers =>
    (keeps_sendToFd lasting session toSender delivers).bind fun _ _ delivers => delivers

theorem keeps_handlePrivate (msg : Json) (knows : Knows session h) :
    Keeps (Serves session) (handlePrivate session msg) h := by
  rw [handlePrivate_eq]
  refine keeps_valueOf knows.1 fun toUser => keeps_valueOf knows.1 fun content => ?_
  cases checks : privateError toUser content with
  | some text => exact keeps_sendError _ _ knows.1
  | none =>
    refine ⟨trivial, fun found => ?_⟩
    cases found with
    | none =>
      have serves : Serves session (posts.next h (.findSession toUser) none) := knows.1
      exact keeps_sendError _ _ serves
    | some target =>
      have delivers : Delivers session target toUser
          (posts.next h (.findSession toUser) (some target)) := ⟨knows, rfl⟩
      exact (keeps_deliverPrivate (privateError_none checks) content delivers).weaken
        fun _ delivers => delivers.1.1

theorem keeps_handleHistoryReq (msg : Json) (knows : Knows session h) :
    Keeps (Serves session) (handleHistoryReq session msg) h := by
  rw [handleHistoryReq_eq]
  refine keeps_valueOf knows.1 fun toUser => ⟨trivial, fun _ => ⟨trivial, fun rows => ?_⟩⟩
  have due : ∀ h x, Knows session h → FoundAs h.2 x session →
      Sends h.2 x (historyFrame toUser rows) :=
    fun h x knows found => .returns rfl knows.2 session knows.1 found
  have sends := keeps_sendToFd (lasting_knows session) session due knows
  exact (sends.weaken fun _ knows => knows.1).bind fun _ _ serves => serves

/-- Whatever the message says, its handler answers its own session, or sends to an addressee or to
recipients it has looked up. -/
theorem keeps_route (msg : Json) (serves : Serves session h) :
    Keeps (Serves session) (route session msg) h := by
  rw [route_eq]
  refine keeps_valueOf serves fun type => ⟨trivial, fun authenticated => ?_⟩
  cases authenticated with
  | false =>
    have served : Serves session (posts.next h (.isAuthenticated session) false) := serves
    change Keeps _ (routeUnauthenticated session msg type) _
    unfold routeUnauthenticated
    split
    · exact keeps_handleRegister msg served
    · split
      · exact keeps_handleLogin msg served
      · split
        · exact served
        · exact keeps_sendError _ _ served
  | true =>
    have knows : Knows session (posts.next h (.isAuthenticated session) true) := by
      have own : h.2.origin = some session := serves
      simp only [posts, Custody.follow, own, and_self, if_true]
      exact ⟨rfl, rfl⟩
    change Keeps _ (routeAuthenticated session msg type) _
    unfold routeAuthenticated
    split
    · exact knows.1
    · split
      · exact keeps_handleBroadcast msg knows.1
      · split
        · exact keeps_handlePrivate msg knows
        · split
          · exact keeps_handleHistoryReq msg knows
          · split
            · exact keeps_handleLogout (lasting_serves session) (fun _ serves => serves) knows.1
            · exact keeps_sendError _ _ knows.1

end

/-- A task that passes its check is routed; in either case the reference to its session is given
up last. -/
theorem meets_runTask (task : Task) {h : Bool × Custody} (serves : Serves task.session h) :
    (runTask task).Meets posts (fun _ _ => True) h := by
  rw [runTask_eq]
  refine ⟨trivial, fun current => ?_⟩
  cases current with
  | false => exact ⟨trivial, fun _ => trivial⟩
  | true =>
    have routed : Keeps (Serves task.session) (route task.session task.msg)
        (posts.next h (.checkGeneration task) true) := keeps_route task.msg serves
    have caught : Keeps (Serves task.session) ((route task.session task.msg).tryCatch fun _ => .ret ())
        (posts.next h (.checkGeneration task) true) :=
      Meets.tryCatch routed (fun _ _ serves => serves) fun _ _ serves => serves
    exact Meets.bind caught (fun _ _ _ => ⟨trivial, fun _ => trivial⟩) fun _ _ _ => trivial

/-! ## The event loop -/

/-- The thread is the event loop. -/
def Loops (h : Bool × Custody) : Prop := h.1 = true

theorem lasting_loops : Lasting Loops where
  finds _ _ loop := loop
  lists _ _ loop := loop

section
variable {h : Bool × Custody}

theorem keeps_disconnectHandler (session : SessionRef) (loop : Loops h) :
    Keeps Loops (disconnectHandler session) h := by
  have logsOut : ∀ h, Loops h → Keeps Loops (handleLogout session) h :=
    fun h loop => keeps_handleLogout lasting_loops (fun _ loop => loop) loop
  rw [disconnectHandler_eq]
  refine ⟨trivial, fun pending => ?_⟩
  dsimp only
  split
  · exact ⟨trivial, fun _ => ⟨trivial, fun _ => logsOut _ loop⟩⟩
  · exact logsOut _ loop

theorem loops_next {action : Act} {result : action.Res} (loop : Loops h) :
    Loops (posts.next h action result) := loop

theorem keeps_endRemoval (session : SessionRef) (loop : Loops h) :
    Keeps Loops (endRemoval session) h := by
  refine ⟨trivial, fun authenticated => ?_⟩
  dsimp only
  split
  · exact ⟨trivial, fun _ => ⟨trivial, fun _ => loops_next (loops_next (loops_next loop))⟩⟩
  · exact ⟨trivial, fun _ => loops_next (loops_next loop)⟩

theorem keeps_removeClient (fd : Nat) (loop : Loops h) : Keeps Loops (removeClient fd) h := by
  rw [removeClient_eq]
  refine ⟨loop, fun removed => ?_⟩
  cases removed with
  | none => exact loops_next loop
  | some session =>
    refine ⟨trivial, fun registered => ?_⟩
    cases registered with
    | false => exact keeps_endRemoval session loop
    | true =>
      have erased : Loops (posts.next (posts.next h (.eraseSession fd) (some session))
          .hasDisconnectHandler true) := loop
      have handles := keeps_disconnectHandler session erased
      have caught : Keeps Loops ((disconnectHandler session).tryCatch fun _ => .ret ()) _ :=
        Meets.tryCatch handles (fun _ _ loop => loop) fun _ _ loop => loop
      exact caught.bind fun _ _ loop => keeps_endRemoval session loop

/-- The event loop is dispatching the messages of this session. -/
def Dispatches (session : SessionRef) (h : Bool × Custody) : Prop :=
  h.1 = true ∧ ∃ fd, h.2.found = some (fd, session)

theorem keeps_dispatchOne {session : SessionRef} (msg : Json) (dispatches : Dispatches session h) :
    Keeps (Dispatches session) (dispatchOne session msg) h := by
  have gated : ∀ authenticated,
      Dispatches session (posts.next h (.isAuthenticated session) authenticated) := by
    intro authenticated
    simp only [posts, Custody.follow]
    split
    · exact dispatches
    · exact dispatches
  have enqueues : ∀ h, Dispatches session h → Keeps (Dispatches session)
      (.act .hasMessageHandler fun registered =>
        if registered then stampAndEnqueue session msg else .ret ()) h := by
    intro h dispatches
    refine ⟨trivial, fun registered => ?_⟩
    cases registered with
    | false => exact dispatches
    | true =>
      refine ⟨trivial, fun captured => ?_⟩
      dsimp only
      rw [enqueueTask_eq]
      refine ⟨dispatches, fun accepted => ?_⟩
      cases accepted <;> exact dispatches
  rw [dispatchOne_eq]
  refine ⟨trivial, fun authenticated => ?_⟩
  dsimp only
  split
  · exact keeps_valueOf (gated authenticated) fun _ => enqueues _ (gated authenticated)
  · exact enqueues _ (gated authenticated)

theorem keeps_dispatch {session : SessionRef} (msgs : List Json)
    (dispatches : Dispatches session h) : Keeps (Dispatches session) (dispatch session msgs) h := by
  induction msgs generalizing h with
  | nil => exact dispatches
  | cons msg rest ih => exact (keeps_dispatchOne msg dispatches).bind fun _ _ dispatches => ih dispatches

/-- The event loop sends only what goes to everybody. -/
theorem keeps_event (e : Event) (loop : Loops h) : Keeps Loops e.program h := by
  cases e with
  | newConnection fd ip => exact ⟨loop, fun _ => loop⟩
  | heartbeat => exact keeps_broadcast lasting_loops rfl "" loop
  | client fd =>
    change Keeps Loops (handleClientEvent fd) h
    rw [handleClientEvent_eq]
    refine ⟨trivial, fun found => ?_⟩
    cases found with
    | none => exact loop
    | some session =>
      refine ⟨trivial, fun received => ?_⟩
      cases received with
      | error e => exact loop
      | ok msgs =>
        cases msgs with
        | none => exact keeps_removeClient fd loop
        | some msgs =>
          have dispatches : Dispatches session (posts.next (posts.next h (.findByFd fd)
              (some session)) (.recvMsgs session) (.ok (some msgs))) := ⟨loop, fd, rfl⟩
          exact (keeps_dispatch msgs dispatches).weaken fun _ dispatches => dispatches.1

end

/-! ## Threads -/

/-- What the monitor sees of a thread: whether it is the event loop, and what it has in hand. -/
abbrev viewOf (s : Posted) (t : Nat) : Bool × Custody := (decide (t = 0), s.2.custody t)

theorem take_own {post : Post} {t : Nat} {tasks : List Task} (worker : t ≠ 0) :
    (post.take t tasks).custody t = { origin := tasks.head?.map Task.session } := by
  unfold Post.take
  rw [if_neg worker]
  exact Function.update_self _ _ _

theorem take_other {post : Post} {t u : Nat} {tasks : List Task} (differs : u ≠ t) :
    (post.take t tasks).custody u = post.custody u := by
  unfold Post.take
  split
  · rfl
  · exact Function.update_of_ne differs _ _

/-- The custody recorded for a thread is the one its monitor has followed. -/
theorem follows (workers : Nat) : (posted workers).Follows posts viewOf fun _ _ => True where
  acts t w action s u := by
    by_cases same : u = t
    · subst same
      rw [if_pos rfl]
      exact Prod.ext rfl (Function.update_self _ _ _)
    · rw [if_neg same]
      exact Prod.ext rfl (Function.update_of_ne same _ _)
  starts t p s s' start := by
    obtain ⟨shared, post⟩ := s'
    obtain ⟨started, takes⟩ := start
    replace takes : post = s.2.take t s.1.server.tasks := takes
    subst takes
    dsimp only at started
    refine ⟨fun u differs => Prod.ext rfl (take_other differs), fun _ => ?_⟩
    cases started with
    | event e => exact Meets.mono (keeps_event e rfl) fun _ _ _ => trivial
    | @task _ _ task rest worker inPool queued =>
      refine meets_runTask task ?_
      change ((s.2.take t s.1.server.tasks).custody t).origin = some task.session
      rw [take_own (Nat.ne_of_gt worker), queued]
      rfl

end LinuxChat.Guarantees.Recipients
