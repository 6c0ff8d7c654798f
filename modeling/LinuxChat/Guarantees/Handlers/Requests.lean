import LinuxChat.Guarantees.Handlers.Announcements

/-!
# Handlers in action form

Which actions each handler of server/src/message_router.cpp performs, and from them which
`route` does.
-/

namespace LinuxChat.Guarantees

open LinuxChat.Lib LinuxChat.Source Prog

variable {P : Act → Prop}

theorem forall_valueOf (msg : Json) (key default : String) : (valueOf msg key default).Forall P := by
  unfold valueOf
  exact forall_ofExcept (I := serverInterface) P _

/-- Reading a field of the message changes nothing; it may throw. -/
theorem wp_valueOf {σ : Type} {M : Machine serverInterface Exn σ World} {D : Discipline M}
    {t : Nat} {α : Type} {Q : α → σ → Prop} {X : Exn → σ → Prop} {msg : Json}
    {key default : String} {next : String → Proc α} {s : σ} (throws : ∀ e, X e s)
    (reads : ∀ found, msg.value key default = .ok found → D.wp t Q X (next found) s) :
    D.wp t Q X ((valueOf msg key default).bind next) s := by
  unfold valueOf
  cases h : msg.value key default with
  | error e => exact throws e
  | ok found => exact reads found h

/-- The end of a successful REGISTER or LOGIN. -/
def closeLogin (session : SessionRef) (username : String) : Proc Unit :=
  (finishLogin session username).bind fun _ =>
    .act (.clearPendingLogin session) fun _ => .act (.releaseReservation username) .ret

/-- The end of a failed one. -/
def closeFailed (session : SessionRef) (username code content : String) : Proc Unit :=
  .act (.releaseReservation username) fun _ =>
    .act (.clearPendingLogin session) fun _ => sendError session code content

theorem forall_closeFailed {session : SessionRef} {username code content : String}
    (release : P (.releaseReservation username)) (unpend : P (.clearPendingLogin session))
    (send : P (.sendMsg session false (errorFrame code content))) :
    (closeFailed session username code content).Forall P :=
  ⟨release, fun _ => ⟨unpend, fun _ => forall_sendError send⟩⟩

theorem completeRegister_eq (session : SessionRef) (username hash : String) :
    completeRegister session username hash =
      .act (.registerUser username hash) fun registered =>
        if registered then closeLogin session username
        else closeFailed session username "USER_EXISTS" "用户名已存在" := rfl

theorem handleRegister_eq (session : SessionRef) (msg : Json) :
    handleRegister session msg =
      (valueOf msg "from" "").bind fun username =>
        (valueOf msg "content" "").bind fun password =>
          match credentialError username password with
          | some content => sendError session "INVALID_MSG" content
          | none =>
            .act (.reserveForRegister username) fun reserved =>
              if reserved then
                .act (.setPendingLogin session username) fun _ =>
                  (hashPassword password).bind fun hash => completeRegister session username hash
              else sendError session "ALREADY_LOGGED_IN" "该账号正在注册中" := rfl

theorem acceptLogin_eq (session : SessionRef) (username : String) :
    acceptLogin session username =
      if !session.ipAddress.isEmpty then
        .act (.clearLoginAttempts session.ipAddress) fun _ => closeLogin session username
      else closeLogin session username := rfl

theorem rejectLogin_eq (session : SessionRef) (username : String) :
    rejectLogin session username =
      if !session.ipAddress.isEmpty then
        .act (.recordFailedLogin session.ipAddress) fun _ =>
          closeFailed session username "WRONG_PASSWORD" "密码错误"
      else closeFailed session username "WRONG_PASSWORD" "密码错误" := rfl

theorem forall_rejectLogin {session : SessionRef} {username : String}
    (count : P (.recordFailedLogin session.ipAddress)) (release : P (.releaseReservation username))
    (unpend : P (.clearPendingLogin session))
    (send : P (.sendMsg session false (errorFrame "WRONG_PASSWORD" "密码错误"))) :
    (rejectLogin session username).Forall P := by
  have close := forall_closeFailed release unpend send
  rw [rejectLogin_eq]
  split
  · exact ⟨count, fun _ => close⟩
  · exact close

theorem reservedLogin_eq (session : SessionRef) (username password : String) :
    reservedLogin session username password =
      .act (.reserveForLogin username) fun outcome =>
        match outcome with
        | .inProgress => sendError session "ALREADY_LOGGED_IN" "该账号正在登录中"
        | .alreadyOnline => sendError session "ALREADY_LOGGED_IN" "该账号已在其他地方登录"
        | .reserved =>
          .act (.setPendingLogin session username) fun _ =>
            .act (.getStoredHash username) fun storedHash =>
              (passwordAccepted password storedHash).bind fun accepted =>
                if accepted then acceptLogin session username else rejectLogin session username := by
  unfold reservedLogin
  simp only [bind_eq, act_bind, ret_bind]
  congr 1
  funext outcome
  cases outcome <;> rfl

theorem handleLogin_eq (session : SessionRef) (msg : Json) :
    handleLogin session msg =
      (valueOf msg "from" "").bind fun username =>
        (valueOf msg "content" "").bind fun password =>
          match credentialError username password with
          | some content => sendError session "INVALID_MSG" content
          | none =>
            (rateLimited session).bind fun limited =>
              if limited then sendError session "RATE_LIMITED" "登录尝试过多，请稍后再试"
              else reservedLogin session username password := rfl

theorem forall_rateLimited (session : SessionRef) (ask : P (.isRateLimited session.ipAddress)) :
    (rateLimited session).Forall P := by
  unfold rateLimited
  split
  · trivial
  · exact ⟨ask, fun _ => trivial⟩

/-- The actions of LOGIN and REGISTER. -/
structure Entering (P : Act → Prop) : Prop extends Announcing P where
  limit : ∀ ip, P (.isRateLimited ip)
  count : ∀ ip, P (.recordFailedLogin ip)
  uncount : ∀ ip, P (.clearLoginAttempts ip)
  reserveNew : ∀ username, P (.reserveForRegister username)
  reserveOld : ∀ username, P (.reserveForLogin username)
  release : ∀ username, P (.releaseReservation username)
  pend : ∀ session username, P (.setPendingLogin session username)
  unpend : ∀ session, P (.clearPendingLogin session)
  row : ∀ username hash, P (.registerUser username hash)
  record : ∀ username, P (.getStoredHash username)
  draw : P .randBytes
  hash : ∀ input, P (.sha256 input)
  give : ∀ session username, P (.setUsername session username)
  online : ∀ username, P (.insertOnline username)
  read : ∀ requestor target limit, P (.getHistory requestor target limit)
  answer : ∀ session username, P (.sendMsg session false (okFrame "LOGIN_OK" username))
  history : ∀ target toUser rows, P (.sendMsg target true (historyFrame toUser rows))
  error : ∀ session code content, P (.sendMsg session false (errorFrame code content))

namespace Entering

variable (h : Entering P) (session : SessionRef)
include h

theorem forall_closeLogin (username : String) : (closeLogin session username).Forall P := by
  unfold closeLogin
  rw [finishLogin_eq]
  refine Forall.bind ⟨h.give _ _, fun _ => ⟨h.online _, fun _ => ?_⟩⟩ fun _ =>
    ⟨h.unpend _, fun _ => ⟨h.release _, fun _ => trivial⟩⟩
  exact forall_announceLogin h.toAnnouncing (h.answer _ _) (h.read _ _ _)
    fun target rows => h.history target _ rows

theorem forall_refusal (username code content : String) :
    (closeFailed session username code content).Forall P :=
  forall_closeFailed (h.release _) (h.unpend _) (h.error _ _ _)

theorem forall_handleRegister (msg : Json) : (handleRegister session msg).Forall P := by
  rw [handleRegister_eq]
  refine (forall_valueOf msg _ _).bind fun username => (forall_valueOf msg _ _).bind fun password => ?_
  split
  · exact forall_sendError (h.error _ _ _)
  · refine ⟨h.reserveNew _, fun reserved => ?_⟩
    dsimp only
    split
    · refine ⟨h.pend _ _, fun _ => ?_⟩
      refine (forall_hashPassword password h.draw h.hash).bind fun hash => ?_
      rw [completeRegister_eq]
      refine ⟨h.row _ _, fun registered => ?_⟩
      dsimp only
      split
      · exact h.forall_closeLogin session username
      · exact h.forall_refusal session username _ _
    · exact forall_sendError (h.error _ _ _)

theorem forall_reservedLogin (username password : String) :
    (reservedLogin session username password).Forall P := by
  rw [reservedLogin_eq]
  refine ⟨h.reserveOld _, fun outcome => ?_⟩
  cases outcome with
  | inProgress => exact forall_sendError (h.error _ _ _)
  | alreadyOnline => exact forall_sendError (h.error _ _ _)
  | reserved =>
    refine ⟨h.pend _ _, fun _ => ⟨h.record _, fun record => ?_⟩⟩
    refine (forall_passwordAccepted password record h.hash).bind fun accepted => ?_
    split
    · rw [acceptLogin_eq]
      split
      · exact ⟨h.uncount _, fun _ => h.forall_closeLogin session username⟩
      · exact h.forall_closeLogin session username
    · exact forall_rejectLogin (h.count _) (h.release _) (h.unpend _) (h.error _ _ _)

theorem forall_handleLogin (msg : Json) : (handleLogin session msg).Forall P := by
  rw [handleLogin_eq]
  refine (forall_valueOf msg _ _).bind fun username => (forall_valueOf msg _ _).bind fun password => ?_
  split
  · exact forall_sendError (h.error _ _ _)
  · refine (forall_rateLimited session (h.limit _)).bind fun limited => ?_
    split
    · exact forall_sendError (h.error _ _ _)
    · exact h.forall_reservedLogin session username password

theorem forall_routeUnauthenticated (msg : Json) (type : String) :
    (routeUnauthenticated session msg type).Forall P := by
  unfold routeUnauthenticated
  split
  · exact h.forall_handleRegister session msg
  · split
    · exact h.forall_handleLogin session msg
    · split
      · trivial
      · exact forall_sendError (h.error _ _ _)

end Entering

/-- A BROADCAST as the server sends it on. -/
def broadcastFrame (sender content : String) (timestamp : Int) : Json :=
  .object [("type", .string "BROADCAST"), ("from", .string sender),
    ("content", .string content), ("timestamp", .number timestamp)]

@[simp] theorem broadcastFrame_type (sender content : String) (timestamp : Int) :
    (broadcastFrame sender content timestamp).typeOf = "BROADCAST" := rfl

/-- `handle_broadcast` once the content is accepted. -/
def acceptBroadcast (session : SessionRef) (content : String) : Proc Unit :=
  .act .nowTimestamp fun timestamp =>
    .act (.getUsername session) fun sender =>
      .act (.storeMessage sender "__room__" content timestamp) fun _ =>
        broadcast (broadcastFrame sender content timestamp) ""

theorem handleBroadcast_eq (session : SessionRef) (msg : Json) :
    handleBroadcast session msg =
      (valueOf msg "content" "").bind fun content =>
        if content.isEmpty then sendError session "INVALID_MSG" "消息内容不能为空"
        else if content.utf8ByteSize > maxMessageLen then
          sendError session "INVALID_MSG" "消息内容过长（最多4096字符）"
        else acceptBroadcast session content := rfl

theorem privateError_none {toUser content : String} (h : privateError toUser content = none) :
    toUser ≠ "" := by
  intro empty
  subst empty
  simp [privateError] at h

/-- A PRIVATE as both its ends get it. -/
def privateFrame (sender toUser content : String) (timestamp : Int) : Json :=
  .object [("type", .string "PRIVATE"), ("from", .string sender), ("to", .string toUser),
    ("content", .string content), ("timestamp", .number timestamp)]

@[simp] theorem privateFrame_type (sender toUser content : String) (timestamp : Int) :
    (privateFrame sender toUser content timestamp).typeOf = "PRIVATE" := rfl

theorem deliverPrivate_eq (session target : SessionRef) (toUser content : String) :
    deliverPrivate session target toUser content =
      .act .nowTimestamp fun timestamp =>
        .act (.getUsername session) fun sender =>
          .act (.storeMessage sender toUser content timestamp) fun _ =>
            (sendToFd target.fd (privateFrame sender toUser content timestamp)).bind fun _ =>
              (sendToFd session.fd (privateFrame sender toUser content timestamp)).bind fun _ =>
                .ret () := rfl

theorem handlePrivate_eq (session : SessionRef) (msg : Json) :
    handlePrivate session msg =
      (valueOf msg "to" "").bind fun toUser =>
        (valueOf msg "content" "").bind fun content =>
          match privateError toUser content with
          | some text => sendError session "INVALID_MSG" text
          | none =>
            .act (.findSession toUser) fun target =>
              match target with
              | none => sendError session "TARGET_OFFLINE" "目标用户不在线"
              | some target => deliverPrivate session target toUser content := by
  unfold handlePrivate
  simp only [bind_eq, act_bind, ret_bind]
  congr 1
  funext toUser
  congr 1
  funext content
  cases privateError toUser content with
  | some text => rfl
  | none =>
    dsimp only
    congr 1
    funext target
    cases target <;> rfl

theorem handleHistoryReq_eq (session : SessionRef) (msg : Json) :
    handleHistoryReq session msg =
      (valueOf msg "to" "__room__").bind fun toUser =>
        .act (.getUsername session) fun requestor =>
          .act (.getHistory requestor toUser 50) fun history =>
            (sendToFd session.fd (historyFrame toUser history)).bind fun _ => .ret () := rfl

/-- The actions of the chat handlers, frame by frame. -/
structure Talking (P : Act → Prop) : Prop where
  clock : P .nowTimestamp
  name : ∀ session, P (.getUsername session)
  store : ∀ sender toUser content timestamp, P (.storeMessage sender toUser content timestamp)
  scan : ∀ excludeUsername, P (.broadcastTargets excludeUsername)
  search : ∀ username, P (.findSession username)
  find : ∀ fd, P (.findByFd fd)
  read : ∀ requestor target limit, P (.getHistory requestor target limit)
  spread : ∀ target sender content timestamp,
    P (.sendMsg target true (broadcastFrame sender content timestamp))
  whisper : ∀ target sender toUser content timestamp,
    P (.sendMsg target true (privateFrame sender toUser content timestamp))
  history : ∀ target toUser rows, P (.sendMsg target true (historyFrame toUser rows))
  error : ∀ session code content, P (.sendMsg session false (errorFrame code content))

theorem Talking.handleBroadcast (h : Talking P) (session : SessionRef) (msg : Json) :
    (handleBroadcast session msg).Forall P := by
  rw [handleBroadcast_eq]
  refine (forall_valueOf _ _ _).bind fun content => ?_
  split
  · exact forall_sendError (h.error _ _ _)
  · split
    · exact forall_sendError (h.error _ _ _)
    · exact ⟨h.clock, fun _ => ⟨h.name _, fun _ => ⟨h.store _ _ _ _, fun _ =>
        forall_broadcast (h.scan _) fun target => h.spread target _ _ _⟩⟩⟩

theorem Talking.handlePrivate (h : Talking P) (session : SessionRef) (msg : Json) :
    (handlePrivate session msg).Forall P := by
  have sends : ∀ fd sender toUser content timestamp,
      (sendToFd fd (privateFrame sender toUser content timestamp)).Forall P :=
    fun fd _ _ _ _ => forall_sendToFd (h.find fd) fun target => h.whisper target _ _ _ _
  rw [handlePrivate_eq]
  refine (forall_valueOf _ _ _).bind fun toUser => (forall_valueOf _ _ _).bind fun content => ?_
  split
  · exact forall_sendError (h.error _ _ _)
  · refine ⟨h.search _, fun target => ?_⟩
    cases target with
    | none => exact forall_sendError (h.error _ _ _)
    | some target =>
      dsimp only
      rw [deliverPrivate_eq]
      exact ⟨h.clock, fun _ => ⟨h.name _, fun _ => ⟨h.store _ _ _ _, fun _ =>
        (sends _ _ _ _ _).bind fun _ => (sends _ _ _ _ _).bind fun _ => trivial⟩⟩⟩

theorem Talking.handleHistoryReq (h : Talking P) (session : SessionRef) (msg : Json) :
    (handleHistoryReq session msg).Forall P := by
  rw [handleHistoryReq_eq]
  refine (forall_valueOf _ _ _).bind fun _ => ⟨h.name _, fun _ => ⟨h.read _ _ _, fun _ => ?_⟩⟩
  exact (forall_sendToFd (h.find _) fun target => h.history target _ _).bind fun _ => trivial

/-- The actions of the chat handlers. -/
structure Chatting (P : Act → Prop) : Prop where
  clock : P .nowTimestamp
  name : ∀ session, P (.getUsername session)
  store : ∀ sender toUser content timestamp, P (.storeMessage sender toUser content timestamp)
  scan : ∀ excludeUsername, P (.broadcastTargets excludeUsername)
  search : ∀ username, P (.findSession username)
  find : ∀ fd, P (.findByFd fd)
  read : ∀ requestor target limit, P (.getHistory requestor target limit)
  send : ∀ target frame, P (.sendMsg target true frame)
  error : ∀ session code content, P (.sendMsg session false (errorFrame code content))

theorem Chatting.talking (h : Chatting P) : Talking P where
  clock := h.clock
  name := h.name
  store := h.store
  scan := h.scan
  search := h.search
  find := h.find
  read := h.read
  spread target _ _ _ := h.send target _
  whisper target _ _ _ _ := h.send target _
  history target _ _ := h.send target _
  error := h.error

theorem forall_handleBroadcast (h : Chatting P) (session : SessionRef) (msg : Json) :
    (handleBroadcast session msg).Forall P := h.talking.handleBroadcast session msg

theorem forall_handlePrivate (h : Chatting P) (session : SessionRef) (msg : Json) :
    (handlePrivate session msg).Forall P := h.talking.handlePrivate session msg

theorem forall_handleHistoryReq (h : Chatting P) (session : SessionRef) (msg : Json) :
    (handleHistoryReq session msg).Forall P := h.talking.handleHistoryReq session msg

theorem route_eq (session : SessionRef) (msg : Json) :
    route session msg =
      (valueOf msg "type" "").bind fun type =>
        .act (.isAuthenticated session) fun authenticated =>
          if authenticated then routeAuthenticated session msg type
          else routeUnauthenticated session msg type := rfl

/-- The actions of `route`. -/
structure Routing (P : Act → Prop) : Prop extends Entering P where
  chats : Chatting P
  departs : Departing P

theorem forall_routeAuthenticated (chats : Chatting P) (departs : Departing P) (session : SessionRef)
    (msg : Json) (type : String) : (routeAuthenticated session msg type).Forall P := by
  unfold routeAuthenticated
  split
  · trivial
  · split
    · exact forall_handleBroadcast chats session msg
    · split
      · exact forall_handlePrivate chats session msg
      · split
        · exact forall_handleHistoryReq chats session msg
        · split
          · exact forall_logout departs session
          · exact forall_sendError (chats.error _ _ _)

theorem forall_route (h : Routing P) (session : SessionRef) (msg : Json) :
    (route session msg).Forall P := by
  rw [route_eq]
  refine (forall_valueOf msg _ _).bind fun type => ⟨h.departs.gate session, fun authenticated => ?_⟩
  dsimp only
  split
  · exact forall_routeAuthenticated h.chats h.departs session msg type
  · exact h.forall_routeUnauthenticated session msg type

/-- The actions inside `on_message_`, whatever their arguments. -/
def InRoute : Act → Prop
  | .storeSession _ _ | .eraseSession _ | .recvMsgs _ | .hasMessageHandler
  | .hasDisconnectHandler | .generation _ | .enqueue _ | .checkGeneration _ | .dropSession _
  | .getPendingLogin _ | .cleanupLoginReservation _ => False
  | _ => True

theorem inRoute_announcing : Announcing InRoute where
  clock := trivial
  list := trivial
  scan _ := trivial
  find _ := trivial
  users _ _ _ := trivial
  notify _ _ _ := trivial

theorem inRoute_routing : Routing InRoute where
  toAnnouncing := inRoute_announcing
  limit _ := trivial
  count _ := trivial
  uncount _ := trivial
  reserveNew _ := trivial
  reserveOld _ := trivial
  release _ := trivial
  pend _ _ := trivial
  unpend _ := trivial
  row _ _ := trivial
  record _ := trivial
  draw := trivial
  hash _ := trivial
  give _ _ := trivial
  online _ := trivial
  read _ _ _ := trivial
  answer _ _ := trivial
  history _ _ _ := trivial
  error _ _ _ := trivial
  chats := ⟨trivial, fun _ => trivial, fun _ _ _ _ => trivial, fun _ => trivial,
    fun _ => trivial, fun _ => trivial, fun _ _ _ => trivial, fun _ _ => trivial,
    fun _ _ _ => trivial⟩
  departs := ⟨inRoute_announcing, fun _ => trivial, fun _ => trivial, fun _ => trivial,
    fun _ => trivial⟩

/-- The footprint of a handler, for properties that do not look at its arguments. -/
theorem forall_route_of (imp : ∀ action, InRoute action → P action) (session : SessionRef)
    (msg : Json) : (route session msg).Forall P :=
  (forall_route inRoute_routing session msg).mono imp

end LinuxChat.Guarantees
