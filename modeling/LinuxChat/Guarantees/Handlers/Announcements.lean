import LinuxChat.Source.EpollServer

/-!
# What the handlers send

The frames of server/src/message_router.cpp, the small functions that send them or compute
something, and what a login and a logout tell the others. `forall_f` is the footprint of `f`: a
property of actions holds all along it, whatever the results on the way, once it holds of the
actions listed. `f_eq` lays out the actions of `f` one by one.
-/

namespace LinuxChat.Guarantees

open LinuxChat.Lib LinuxChat.Source Prog

variable {P : Act → Prop}

/-- The server's actions, written down as they are performed. -/
abbrev loggedExec : Handler serverInterface World (Server × List Act) :=
  logging Act.exec

/-- The name and the password of a LOGIN or REGISTER that passes the checks. -/
def Reads (msg : Json) (username password : String) : Prop :=
  msg.value "from" "" = .ok username ∧ msg.value "content" "" = .ok password ∧
    credentialError username password = none

theorem credentials_nonempty {username password : String}
    (h : credentialError username password = none) : username ≠ "" := by
  intro empty
  subst empty
  simp [credentialError] at h

/-- The frame of `send_error`. -/
def errorFrame (code content : String) : Json :=
  .object [("type", .string "ERROR"), ("code", .string code),
    ("content", .string (if content.isEmpty then code else content))]

theorem forall_sendError {session : SessionRef} {code content : String}
    (send : P (.sendMsg session false (errorFrame code content))) :
    (sendError session code content).Forall P := by
  unfold sendError
  simp only [bind_eq, act_bind, ret_bind, pure_eq, forall_act, forall_ret]
  exact ⟨send, fun _ => trivial⟩

/-- The frame of `send_ok`. -/
def okFrame (type sender : String) : Json :=
  .object (("type", .string type) ::
    if sender.isEmpty then [] else [("from", .string sender)])

theorem forall_sendOk {session : SessionRef} {type sender : String}
    (send : P (.sendMsg session false (okFrame type sender))) :
    (sendOk session type sender).Forall P := by
  unfold sendOk
  simp only [bind_eq, act_bind, ret_bind, pure_eq, forall_act, forall_ret]
  exact ⟨send, fun _ => trivial⟩

theorem forall_sendEach {msg : Json} (send : ∀ target, P (.sendMsg target true msg))
    (targets : List SessionRef) : (sendEach msg targets).Forall P := by
  induction targets with
  | nil => trivial
  | cons target rest ih => exact ⟨send target, fun _ => ih⟩

theorem forall_broadcast {msg : Json} {excludeUsername : String}
    (scan : P (.broadcastTargets excludeUsername)) (send : ∀ target, P (.sendMsg target true msg)) :
    (broadcast msg excludeUsername).Forall P :=
  ⟨scan, fun targets => forall_sendEach send targets⟩

theorem forall_sendToFd {fd : Nat} {msg : Json} (find : P (.findByFd fd))
    (send : ∀ target, P (.sendMsg target true msg)) : (sendToFd fd msg).Forall P := by
  refine ⟨find, fun found => ?_⟩
  cases found with
  | none => trivial
  | some target => exact ⟨send target, fun _ => trivial⟩

theorem forall_sha256Hex {input : String} (hash : P (.sha256 input)) :
    (sha256Hex input).Forall P := by
  refine ⟨hash, fun digest => ?_⟩
  cases digest <;> trivial

theorem forall_hashPassword (password : String) (draw : P .randBytes)
    (hash : ∀ input, P (.sha256 input)) : (hashPassword password).Forall P := by
  unfold hashPassword generateSalt
  simp only [bind_eq, pure_eq, act_bind, ret_bind, forall_act]
  refine ⟨draw, fun drawn => ?_⟩
  cases drawn with
  | none => trivial
  | some octets =>
    simp only [ret_bind]
    exact (forall_sha256Hex (hash _)).bind fun _ => trivial

theorem forall_verifyPassword {password stored : String} (hash : ∀ input, P (.sha256 input)) :
    (verifyPassword password stored).Forall P := by
  unfold verifyPassword
  dsimp only
  split
  · exact (forall_sha256Hex (hash _)).bind fun _ => trivial
  · exact (forall_sha256Hex (hash _)).bind fun _ => trivial

theorem forall_passwordAccepted (password storedHash : String)
    (hash : ∀ input, P (.sha256 input)) : (passwordAccepted password storedHash).Forall P := by
  unfold passwordAccepted
  split
  · trivial
  · exact forall_verifyPassword hash

/-- The HISTORY_RESP frame. -/
def historyFrame (toUser : String) (rows : List Json) : Json :=
  .object [("type", .string "HISTORY_RESP"), ("to", .string toUser), ("data", .array rows)]

theorem forall_pushHistory {fd : Nat} {username : String}
    (read : P (.getHistory username "__room__" 20)) (find : P (.findByFd fd))
    (send : ∀ target rows, P (.sendMsg target true (historyFrame "__room__" rows))) :
    (pushHistory fd username).Forall P :=
  ⟨read, fun rows => (forall_sendToFd find fun target => send target rows).bind fun _ => trivial⟩

/-- A USER_LIST with these names. -/
def userListFrame (names : List String) (now : Int) : Json :=
  .object [("type", .string "USER_LIST"), ("data", .array (names.map .string)),
    ("timestamp", .number now)]

/-- A NOTIFY with this text. -/
def notifyFrame (content : String) (now : Int) : Json :=
  .object [("type", .string "NOTIFY"), ("content", .string content), ("timestamp", .number now)]

theorem forall_broadcastUserList (list : P .listOnline) (clock : P .nowTimestamp)
    (scan : P (.broadcastTargets ""))
    (send : ∀ target names now, P (.sendMsg target true (userListFrame names now))) :
    broadcastUserList.Forall P :=
  ⟨list, fun names => ⟨clock, fun now =>
    forall_broadcast scan fun target => send target names now⟩⟩

/-- The NOTIFY broadcast that ends `finish_login` and `handle_logout`. -/
theorem forall_notify {content excludeUsername : String} (clock : P .nowTimestamp)
    (scan : P (.broadcastTargets excludeUsername))
    (send : ∀ target now, P (.sendMsg target true (notifyFrame content now))) :
    ((notifyMsg content).bind fun notify => broadcast notify excludeUsername).Forall P :=
  ⟨clock, fun now => forall_broadcast scan fun target => send target now⟩

/-! ## Types of the frames -/

@[simp] theorem errorFrame_type (code content : String) :
    (errorFrame code content).typeOf = "ERROR" := rfl

@[simp] theorem okFrame_type (type sender : String) : (okFrame type sender).typeOf = type := rfl

@[simp] theorem historyFrame_type (toUser : String) (rows : List Json) :
    (historyFrame toUser rows).typeOf = "HISTORY_RESP" := rfl

@[simp] theorem userListFrame_type (names : List String) (now : Int) :
    (userListFrame names now).typeOf = "USER_LIST" := rfl

@[simp] theorem notifyFrame_type (content : String) (now : Int) :
    (notifyFrame content now).typeOf = "NOTIFY" := rfl

/-! ## Logins and logouts -/

/-- The actions that only look or send: what `finish_login` does after it has set
the name and the online entry, and `handle_logout` after it has taken them back. -/
structure Announcing (P : Act → Prop) : Prop where
  clock : P .nowTimestamp
  list : P .listOnline
  scan : ∀ excludeUsername, P (.broadcastTargets excludeUsername)
  find : ∀ fd, P (.findByFd fd)
  users : ∀ target names now, P (.sendMsg target true (userListFrame names now))
  notify : ∀ target content now, P (.sendMsg target true (notifyFrame content now))

theorem Announcing.userList (h : Announcing P) : broadcastUserList.Forall P :=
  forall_broadcastUserList h.list h.clock (h.scan "") h.users

theorem Announcing.notifyAll (h : Announcing P) (content excludeUsername : String) :
    ((notifyMsg content).bind fun notify => broadcast notify excludeUsername).Forall P :=
  forall_notify h.clock (h.scan excludeUsername) fun target now => h.notify target content now

/-- What `finish_login` does once the session has its name and its online entry. -/
def announceLogin (session : SessionRef) (username : String) : Proc Unit := do
  sendOk session "LOGIN_OK" username
  pushHistory session.fd username
  broadcastUserList
  let notify ← notifyMsg (username ++ " 加入了聊天室")
  broadcast notify username

theorem pushHistory_eq (fd : Nat) (username : String) :
    pushHistory fd username =
      .act (.getHistory username "__room__" 20) fun rows =>
        (sendToFd fd (historyFrame "__room__" rows)).bind fun _ => .ret () := rfl

theorem announceLogin_eq (session : SessionRef) (username : String) :
    announceLogin session username =
      .act (.sendMsg session false (okFrame "LOGIN_OK" username)) fun _ =>
        (pushHistory session.fd username).bind fun _ => broadcastUserList.bind fun _ =>
          (notifyMsg (username ++ " 加入了聊天室")).bind fun notify => broadcast notify username := rfl

theorem finishLogin_eq (session : SessionRef) (username : String) :
    finishLogin session username =
      .act (.setUsername session username) fun _ =>
        .act (.insertOnline username) fun _ => announceLogin session username := rfl

theorem forall_announceLogin {session : SessionRef} {username : String} (h : Announcing P)
    (answer : P (.sendMsg session false (okFrame "LOGIN_OK" username)))
    (read : P (.getHistory username "__room__" 20))
    (history : ∀ target rows, P (.sendMsg target true (historyFrame "__room__" rows))) :
    (announceLogin session username).Forall P :=
  (forall_sendOk answer).bind fun _ =>
    (forall_pushHistory read (h.find _) history).bind fun _ =>
      h.userList.bind fun _ => h.notifyAll _ _

theorem noRaise_sendEach (msg : Json) (targets : List SessionRef) :
    (sendEach msg targets).NoRaise := by
  induction targets with
  | nil => trivial
  | cons target rest ih => exact fun _ => ih

theorem noRaise_sendToFd (fd : Nat) (msg : Json) : (sendToFd fd msg).NoRaise := by
  intro found
  cases found with
  | none => trivial
  | some target => exact fun _ => trivial

theorem noRaise_sendOk (session : SessionRef) (type sender : String) :
    (sendOk session type sender).NoRaise := fun _ => trivial

theorem noRaise_pushHistory (fd : Nat) (username : String) : (pushHistory fd username).NoRaise :=
  fun rows => (noRaise_sendToFd fd (historyFrame "__room__" rows)).bind fun _ => trivial

theorem noRaise_finishLogin (session : SessionRef) (username : String) :
    (finishLogin session username).NoRaise := by
  have lists : broadcastUserList.NoRaise := fun _ _ targets => noRaise_sendEach _ targets
  have history := noRaise_pushHistory session.fd username
  have tells : ((notifyMsg (username ++ " 加入了聊天室")).bind fun notify =>
      broadcast notify username).NoRaise := fun _ targets => noRaise_sendEach _ targets
  rw [finishLogin_eq]
  intro _ _
  rw [announceLogin_eq]
  exact fun _ => history.bind fun _ => lists.bind fun _ => tells

/-- What `handle_logout` does once the session has lost its name. -/
def announceLogout (username : String) : Proc Unit := do
  broadcastUserList
  let notify ← notifyMsg (username ++ " 离开了聊天室")
  broadcast notify ""

theorem handleLogout_eq (session : SessionRef) :
    handleLogout session =
      .act (.isAuthenticated session) fun authenticated =>
        if authenticated then
          .act (.getUsername session) fun username =>
            .act (.eraseOnline username) fun _ =>
              .act (.clearUsername session) fun _ => announceLogout username
        else .ret () := rfl

theorem forall_announceLogout {username : String} (h : Announcing P) :
    (announceLogout username).Forall P :=
  h.userList.bind fun _ => h.notifyAll _ _

/-- The actions of a LOGOUT. -/
structure Departing (P : Act → Prop) : Prop extends Announcing P where
  gate : ∀ session, P (.isAuthenticated session)
  name : ∀ session, P (.getUsername session)
  offline : ∀ username, P (.eraseOnline username)
  unname : ∀ session, P (.clearUsername session)

theorem forall_logout (h : Departing P) (session : SessionRef) :
    (handleLogout session).Forall P := by
  rw [handleLogout_eq]
  refine ⟨h.gate session, fun authenticated => ?_⟩
  dsimp only
  split
  · exact ⟨h.name session, fun username => ⟨h.offline username, fun _ =>
      ⟨h.unname session, fun _ => forall_announceLogout h.toAnnouncing⟩⟩⟩
  · trivial

/-- The actions of a disconnect once the session is out of the table, and of a LOGOUT. -/
structure Closing (P : Act → Prop) : Prop extends Announcing P where
  gate : ∀ session, P (.isAuthenticated session)
  name : ∀ session, P (.getUsername session)
  offline : ∀ username, P (.eraseOnline username)
  unname : ∀ session, P (.clearUsername session)
  registered : P .hasDisconnectHandler
  pending : ∀ session, P (.getPendingLogin session)
  cleanup : ∀ username, P (.cleanupLoginReservation username)
  unpend : ∀ session, P (.clearPendingLogin session)
  drop : ∀ session, P (.dropSession session)

/-- The actions of a disconnect. -/
structure Leaving (P : Act → Prop) : Prop extends Closing P where
  erase : ∀ fd, P (.eraseSession fd)

theorem disconnectHandler_eq (session : SessionRef) :
    disconnectHandler session =
      .act (.getPendingLogin session) fun pending =>
        if !pending.isEmpty then
          .act (.cleanupLoginReservation pending) fun _ =>
            .act (.clearPendingLogin session) fun _ => handleLogout session
        else handleLogout session := rfl

/-- The log line and the last reference at the end of `remove_client`. -/
def endRemoval (session : SessionRef) : Proc Unit :=
  .act (.isAuthenticated session) fun authenticated =>
    if authenticated then .act (.getUsername session) fun _ => .act (.dropSession session) .ret
    else .act (.dropSession session) .ret

theorem removeClient_eq (fd : Nat) :
    removeClient fd =
      .act (.eraseSession fd) fun removed =>
        match removed with
        | none => .ret ()
        | some session =>
          .act .hasDisconnectHandler fun registered =>
            if registered then
              ((disconnectHandler session).tryCatch fun _ => .ret ()).bind fun _ =>
                endRemoval session
            else endRemoval session := by
  unfold removeClient
  simp only [bind_eq, act_bind, ret_bind]
  congr 1
  funext removed
  cases removed with
  | none => rfl
  | some session => rfl

theorem forall_handleLogout (h : Closing P) (session : SessionRef) :
    (handleLogout session).Forall P :=
  forall_logout ⟨h.toAnnouncing, h.gate, h.name, h.offline, h.unname⟩ session

theorem forall_disconnectHandler (h : Closing P) (session : SessionRef) :
    (disconnectHandler session).Forall P := by
  rw [disconnectHandler_eq]
  refine ⟨h.pending session, fun pending => ?_⟩
  dsimp only
  split
  · exact ⟨h.cleanup _, fun _ => ⟨h.unpend session, fun _ => forall_handleLogout h session⟩⟩
  · exact forall_handleLogout h session

theorem forall_endRemoval (h : Closing P) (session : SessionRef) :
    (endRemoval session).Forall P := by
  refine ⟨h.gate session, fun authenticated => ?_⟩
  dsimp only
  split
  · exact ⟨h.name session, fun _ => ⟨h.drop session, fun _ => trivial⟩⟩
  · exact ⟨h.drop session, fun _ => trivial⟩

/-- What `remove_client` does once the session is out of the table. -/
theorem forall_farewell (h : Closing P) (session : SessionRef) :
    (.act .hasDisconnectHandler fun registered =>
      if registered then
        ((disconnectHandler session).tryCatch fun _ => .ret ()).bind fun _ => endRemoval session
      else endRemoval session : Proc Unit).Forall P := by
  refine ⟨h.registered, fun registered => ?_⟩
  dsimp only
  split
  · have handler := (forall_disconnectHandler h session).tryCatch (h := fun _ => .ret ())
      fun _ => trivial
    exact handler.bind fun _ => forall_endRemoval h session
  · exact forall_endRemoval h session

theorem forall_removeClient (h : Leaving P) (fd : Nat) : (removeClient fd).Forall P := by
  rw [removeClient_eq]
  refine ⟨h.erase fd, fun removed => ?_⟩
  cases removed with
  | none => trivial
  | some session => exact forall_farewell h.toClosing session

end LinuxChat.Guarantees
