import LinuxChat.Source.Server

/-!
# Message routing

server/src/message_router.cpp, function by function, as programs of atomic
actions. The texts of the error frames are the source's. `broadcast` and
`send_to_fd` (server/src/epoll_server.cpp:363-398) are here because every handler
sends through them; `send_error` and `send_ok` (server/src/protocol.cpp:74-87)
write to the session's fd without taking its `send_mutex_`.
-/

namespace LinuxChat.Source

open LinuxChat.Lib

/-- The limit of a username, in octets. -/
def maxUsernameLen : Nat := 32

/-- The limit of a password, in octets. -/
def maxPasswordLen : Nat := 128

/-- The limit of a chat message, in octets. -/
def maxMessageLen : Nat := 4096

/-- One action, and its result. -/
abbrev perform (action : Act) : Proc action.Res := .act action .ret

/-- `msg.value(key, default)` in a handler. -/
def valueOf (msg : Json) (key default : String) : Proc String :=
  .ofExcept (msg.value key default)

/-! ## Sending -/

/-- `Protocol::send_error`. -/
def sendError (session : SessionRef) (code content : String) : Proc Unit := do
  let _ ← perform (.sendMsg session false (.object [("type", .string "ERROR"),
    ("code", .string code), ("content", .string (if content.isEmpty then code else content))]))

/-- `Protocol::send_ok`. -/
def sendOk (session : SessionRef) (type sender : String) : Proc Unit := do
  let _ ← perform (.sendMsg session false
    (.object (("type", .string type) ::
      if sender.isEmpty then [] else [("from", .string sender)])))

/-- The loop of `broadcast` over the recipients; a failed `send_msg` does not stop it. -/
def sendEach (msg : Json) : List SessionRef → Proc Unit
  | [] => pure ()
  | session :: rest => do
    let _ ← perform (.sendMsg session true msg)
    sendEach msg rest

/-- `EpollServer::broadcast` (server/src/epoll_server.cpp:363-381): the recipients are copied
under the lock, and the frames sent after it. -/
def broadcast (msg : Json) (excludeUsername : String) : Proc Unit := do
  let targets : List SessionRef ← perform (.broadcastTargets excludeUsername)
  sendEach msg targets

/-- `EpollServer::send_to_fd` (server/src/epoll_server.cpp:383-398). -/
def sendToFd (fd : Nat) (msg : Json) : Proc Bool := do
  let found : Option SessionRef ← perform (.findByFd fd)
  match found with
  | none => pure false
  | some session => perform (.sendMsg session true msg)

/-! ## Passwords: message_router.cpp:44-111 -/

/-- `MessageRouter::sha256_hex`: the digest in hexadecimal, or the empty string where OpenSSL
fails. -/
def sha256Hex (input : String) : Proc String := do
  let digest : Option (Octets 32) ← perform (.sha256 input)
  match digest with
  | none => pure ""
  | some octets => pure (hex octets.bytes)

/-- `MessageRouter::generate_salt` (server/src/message_router.cpp:72-85): it throws where
`RAND_bytes` fails. -/
def generateSalt : Proc String := do
  let drawn : Option (Octets 16) ← perform .randBytes
  match drawn with
  | none =>
    .raise (.runtimeError "FATAL: RAND_bytes failed — cannot generate cryptographic salt")
  | some octets => pure (hex octets.bytes)

/-- `MessageRouter::hash_password` (server/src/message_router.cpp:87-94): the record is
`salt:hash`. -/
def hashPassword (password : String) : Proc String := do
  let salt ← generateSalt
  let hash ← sha256Hex (salt ++ ":" ++ password)
  pure (salt ++ ":" ++ hash)

/-- `CRYPTO_memcmp` on equal sizes is equality. The stored record is cut at its
first colon; a record with no colon, or with nothing after it, is a plain hash. -/
def verifyPassword (password stored : String) : Proc Bool := do
  let colonPos := stored.toList.idxOf ':'
  if colonPos + 1 ≥ stored.toList.length then
    let computed ← sha256Hex password
    pure (computed = stored)
  else
    let salt := String.ofList (stored.toList.take colonPos)
    let expectedHash := String.ofList (stored.toList.drop (colonPos + 1))
    let computed ← sha256Hex (salt ++ ":" ++ password)
    pure (computed = expectedHash)

/-! ## Helpers -/

/-- `MessageRouter::push_history` (server/src/message_router.cpp:117-129): the last twenty
messages of the room, for the one who has just come. -/
def pushHistory (fd : Nat) (username : String) : Proc Unit := do
  let roomHistory : List Json ← perform (.getHistory username "__room__" 20)
  let _ ← sendToFd fd (.object [("type", .string "HISTORY_RESP"), ("to", .string "__room__"),
    ("data", .array roomHistory)])

/-- `MessageRouter::make_user_list_msg` (server/src/message_router.cpp:131-144): the names online
at this moment. -/
def makeUserListMsg : Proc Json := do
  let names : List String ← perform .listOnline
  let now : Int ← perform .nowTimestamp
  pure (.object [("type", .string "USER_LIST"), ("data", .array (names.map .string)),
    ("timestamp", .number now)])

/-- `MessageRouter::broadcast_user_list`: the list is made first and goes to all later. -/
def broadcastUserList : Proc Unit := do
  let msg ← makeUserListMsg
  broadcast msg ""

/-- The NOTIFY frame of a login or logout. -/
def notifyMsg (content : String) : Proc Json := do
  let now : Int ← perform .nowTimestamp
  pure (.object [("type", .string "NOTIFY"), ("content", .string content),
    ("timestamp", .number now)])

/-- `MessageRouter::finish_login` (server/src/message_router.cpp:207-235): the session gets its
name, and everybody hears of it. -/
def finishLogin (session : SessionRef) (username : String) : Proc Unit := do
  perform (.setUsername session username)
  perform (.insertOnline username)
  sendOk session "LOGIN_OK" username
  pushHistory session.fd username
  broadcastUserList
  let notify ← notifyMsg (username ++ " 加入了聊天室")
  broadcast notify username

/-! ## Handlers -/

/-- The checks that `handle_register` and `handle_login` both start with: the
content of the INVALID_MSG answer, if any. -/
def credentialError (username password : String) : Option String :=
  if username.isEmpty || password.isEmpty then some "缺少用户名或密码"
  else if username.utf8ByteSize > maxUsernameLen then some "用户名过长（最多32字符）"
  else if password.utf8ByteSize > maxPasswordLen then some "密码过长（最多128字符）"
  else none

/-- `handle_register` from `register_user` on. -/
def completeRegister (session : SessionRef) (username hash : String) : Proc Unit := do
  let registered : Bool ← perform (.registerUser username hash)
  if registered then
    finishLogin session username
    perform (.clearPendingLogin session)
    perform (.releaseReservation username)
  else
    perform (.releaseReservation username)
    perform (.clearPendingLogin session)
    sendError session "USER_EXISTS" "用户名已存在"

/-- `MessageRouter::handle_register` (server/src/message_router.cpp:276-330): the name is
reserved and the record stored, the user logged in, and the reservation given up at the end. -/
def handleRegister (session : SessionRef) (msg : Json) : Proc Unit := do
  let username ← valueOf msg "from" ""
  let password ← valueOf msg "content" ""
  match credentialError username password with
  | some content => sendError session "INVALID_MSG" content
  | none =>
    let reserved : Bool ← perform (.reserveForRegister username)
    if reserved then
      perform (.setPendingLogin session username)
      let hash ← hashPassword password
      completeRegister session username hash
    else
      sendError session "ALREADY_LOGGED_IN" "该账号正在注册中"

/-- The failure exit of `handle_login` after the reservation. -/
def rejectLogin (session : SessionRef) (username : String) : Proc Unit := do
  if !session.ipAddress.isEmpty then
    perform (.recordFailedLogin session.ipAddress)
  perform (.releaseReservation username)
  perform (.clearPendingLogin session)
  sendError session "WRONG_PASSWORD" "密码错误"

/-- The success exit of `handle_login`. -/
def acceptLogin (session : SessionRef) (username : String) : Proc Unit := do
  if !session.ipAddress.isEmpty then
    perform (.clearLoginAttempts session.ipAddress)
  finishLogin session username
  perform (.clearPendingLogin session)
  perform (.releaseReservation username)

/-- `stored_hash.empty() || !verify_password(password, stored_hash)`, negated. -/
def passwordAccepted (password storedHash : String) : Proc Bool :=
  if storedHash.isEmpty then pure false else verifyPassword password storedHash

/-- `handle_login` from the reservation on. -/
def reservedLogin (session : SessionRef) (username password : String) : Proc Unit := do
  let outcome : ReserveOutcome ← perform (.reserveForLogin username)
  match outcome with
  | .inProgress => sendError session "ALREADY_LOGGED_IN" "该账号正在登录中"
  | .alreadyOnline => sendError session "ALREADY_LOGGED_IN" "该账号已在其他地方登录"
  | .reserved =>
    perform (.setPendingLogin session username)
    let storedHash : String ← perform (.getStoredHash username)
    let accepted ← passwordAccepted password storedHash
    if accepted then acceptLogin session username else rejectLogin session username

/-- The rate-limit check of `handle_login`; a session without an address passes. -/
def rateLimited (session : SessionRef) : Proc Bool :=
  if session.ipAddress.isEmpty then pure false
  else perform (.isRateLimited session.ipAddress)

/-- `MessageRouter::handle_login` (server/src/message_router.cpp:332-411): the rate limit, the
reservation, then the password against the stored record. -/
def handleLogin (session : SessionRef) (msg : Json) : Proc Unit := do
  let username ← valueOf msg "from" ""
  let password ← valueOf msg "content" ""
  match credentialError username password with
  | some content => sendError session "INVALID_MSG" content
  | none =>
    let limited ← rateLimited session
    if limited then sendError session "RATE_LIMITED" "登录尝试过多，请稍后再试"
    else reservedLogin session username password

/-- `MessageRouter::handle_logout` (server/src/message_router.cpp:413-441), which a disconnect
calls as well. -/
def handleLogout (session : SessionRef) : Proc Unit := do
  let authenticated : Bool ← perform (.isAuthenticated session)
  if authenticated then
    let username : String ← perform (.getUsername session)
    perform (.eraseOnline username)
    perform (.clearUsername session)
    broadcastUserList
    let notify ← notifyMsg (username ++ " 离开了聊天室")
    broadcast notify ""
  else pure ()

/-- `MessageRouter::handle_broadcast` (server/src/message_router.cpp:443-472): a message is stored
before anybody gets it. -/
def handleBroadcast (session : SessionRef) (msg : Json) : Proc Unit := do
  let content ← valueOf msg "content" ""
  if content.isEmpty then sendError session "INVALID_MSG" "消息内容不能为空"
  else if content.utf8ByteSize > maxMessageLen then
    sendError session "INVALID_MSG" "消息内容过长（最多4096字符）"
  else
    let ts : Int ← perform .nowTimestamp
    let sender : String ← perform (.getUsername session)
    perform (.storeMessage sender "__room__" content ts)
    broadcast (.object [("type", .string "BROADCAST"), ("from", .string sender),
      ("content", .string content), ("timestamp", .number ts)]) ""

/-- The checks of `handle_private` before it looks for the addressee. -/
def privateError (toUser content : String) : Option String :=
  if toUser.isEmpty || content.isEmpty then some "缺少接收方或消息内容"
  else if toUser.utf8ByteSize > maxUsernameLen then some "用户名过长（最多32字符）"
  else if content.utf8ByteSize > maxMessageLen then some "消息内容过长（最多4096字符）"
  else none

/-- `handle_private` once the addressee's session is found. -/
def deliverPrivate (session target : SessionRef) (toUser content : String) : Proc Unit := do
  let ts : Int ← perform .nowTimestamp
  let sender : String ← perform (.getUsername session)
  perform (.storeMessage sender toUser content ts)
  let privateMsg : Json := .object [("type", .string "PRIVATE"), ("from", .string sender),
    ("to", .string toUser), ("content", .string content), ("timestamp", .number ts)]
  let _ ← sendToFd target.fd privateMsg
  let _ ← sendToFd session.fd privateMsg

/-- `MessageRouter::handle_private` (server/src/message_router.cpp:474-520): the addressee must be
online; the sender gets the frame as well. -/
def handlePrivate (session : SessionRef) (msg : Json) : Proc Unit := do
  let toUser ← valueOf msg "to" ""
  let content ← valueOf msg "content" ""
  match privateError toUser content with
  | some text => sendError session "INVALID_MSG" text
  | none =>
    let target : Option SessionRef ← perform (.findSession toUser)
    match target with
    | none => sendError session "TARGET_OFFLINE" "目标用户不在线"
    | some target => deliverPrivate session target toUser content

/-- `MessageRouter::handle_history_req` (server/src/message_router.cpp:522-535): the last fifty
messages of the room or of a conversation. -/
def handleHistoryReq (session : SessionRef) (msg : Json) : Proc Unit := do
  let toUser ← valueOf msg "to" "__room__"
  let requestor : String ← perform (.getUsername session)
  let history : List Json ← perform (.getHistory requestor toUser 50)
  let _ ← sendToFd session.fd (.object [("type", .string "HISTORY_RESP"),
    ("to", .string toUser), ("data", .array history)])

/-! ## Dispatcher -/

/-- The branch of `route` for a session without a name: all it may do is register or log in. -/
def routeUnauthenticated (session : SessionRef) (msg : Json) (type : String) : Proc Unit :=
  if type = "REGISTER" then handleRegister session msg
  else if type = "LOGIN" then handleLogin session msg
  else if type = "PONG" then pure ()
  else sendError session "NOT_AUTHENTICATED" "请先登录或注册"

/-- The branch of `route` for a session with a name. -/
def routeAuthenticated (session : SessionRef) (msg : Json) (type : String) : Proc Unit :=
  if type = "PONG" then pure ()
  else if type = "BROADCAST" then handleBroadcast session msg
  else if type = "PRIVATE" then handlePrivate session msg
  else if type = "HISTORY_REQ" then handleHistoryReq session msg
  else if type = "LOGOUT" then handleLogout session
  else sendError session "INVALID_MSG" ("未知消息类型: " ++ type)

/-- `MessageRouter::route` (server/src/message_router.cpp:237-274): the type and the gate, then
the handler. -/
def route (session : SessionRef) (msg : Json) : Proc Unit := do
  let type ← valueOf msg "type" ""
  let authenticated : Bool ← perform (.isAuthenticated session)
  if authenticated then routeAuthenticated session msg type
  else routeUnauthenticated session msg type

end LinuxChat.Source
