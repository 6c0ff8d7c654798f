import LinuxChat.Source.Protocol

/-!
# The client's side of the wire

client/src/chat_client.cpp:143-210 (requests and `send_json`) and :249-356
(`on_ready_read`, `process_frames`, `dispatch_message`). Qt's `QJsonDocument::toJson`
and `QJsonDocument::fromJson` are parameters; every object the client sends has string
members only. A `QString` is a `String`: texts with unpaired surrogates are left out.
`abort()` ends the delivery of data. Debug output, connection set-up and the socket's own
error signals are left out.
-/

namespace LinuxChat.Source

open LinuxChat.Lib

/-! ## Requests -/

/-- A `QJsonObject` whose members are strings, sorted by key as Qt keeps them. -/
abbrev TextObject := List (String × String)

/-- `msg[key] = value`. -/
def TextObject.set (key value : String) : TextObject → TextObject
  | [] => [(key, value)]
  | member :: rest =>
    if key = member.1 then (key, value) :: rest
    else if key < member.1 then (key, value) :: member :: rest
    else member :: TextObject.set key value rest

/-- The calls that hand an object to `send_json`: the `send_*` methods and the
answer to a PING. -/
inductive Request where
  | register (username password : String)
  | login (username password : String)
  | logout
  | broadcast (content : String)
  | privateTo (addressee content : String)
  | historyReq (target : String)
  | pong

/-- The object that each of the `send_` methods of `ChatClient` builds before it calls `send_json`
(client/src/chat_client.cpp:144-187), member by member. -/
def Request.msg : Request → TextObject
  | register username password =>
    (((TextObject.set "type" "REGISTER" []).set "from" username).set "content" password)
  | login username password =>
    (((TextObject.set "type" "LOGIN" []).set "from" username).set "content" password)
  | logout => TextObject.set "type" "LOGOUT" []
  | broadcast content => (TextObject.set "type" "BROADCAST" []).set "content" content
  | privateTo addressee content =>
    (((TextObject.set "type" "PRIVATE" []).set "to" addressee).set "content" content)
  | historyReq target => (TextObject.set "type" "HISTORY_REQ" []).set "to" target
  | pong => TextObject.set "type" "PONG" []

/-! ## Sending -/

/-- The octets of `send_json` on a connected socket: the length of `doc.toJson(Compact)` is
cast to `quint32` and written byte by byte, and no size is refused. -/
def sendJson (toJson : TextObject → Bytes) (msg : TextObject) : Bytes :=
  let body := toJson msg
  let bodyLen := body.length % 2 ^ 32
  be32 bodyLen ++ body

/-! ## Receiving -/

/-- `static_cast<int>` of a `quint32`. -/
def castInt (n : Nat) : Int := if n < 2 ^ 31 then n else (n : Int) - 2 ^ 32

/-- `QByteArray::mid` from a position in the array; a negative length means all. -/
def midBytes (bytes : Bytes) (pos : Nat) (len : Int) : Bytes :=
  if len < 0 then bytes.drop pos else (bytes.drop pos).take len.toNat

/-- `QByteArray::remove(0, len)`. -/
def removeBytes (bytes : Bytes) (len : Int) : Bytes :=
  if len ≤ 0 then bytes else bytes.drop len.toNat

/-- What `process_frames` makes the rest of the client do, in order: a decoded object is
dispatched, or the connection is given up. -/
inductive ClientCall where
  | dispatchMessage (fields : List (String × Json))
  | disconnectFromServer

/-- The receiving half of `ChatClient`: the buffer, whether the socket is still connected, and the
calls made so far. -/
structure ChatClient where
  recvBuf : Bytes := []
  connected : Bool := true
  calls : List ClientCall := []

namespace ChatClient

/-- A decoded object goes to `dispatch_message`. -/
def dispatch (client : ChatClient) (fields : List (String × Json)) : ChatClient :=
  { client with calls := client.calls ++ [.dispatchMessage fields] }

/-- The two rejecting exits: the buffer is cleared, then the socket aborted. -/
def reject (client : ChatClient) : ChatClient :=
  { client with
    recvBuf := []
    connected := false
    calls := client.calls ++ [.disconnectFromServer] }

/-- The loop of `process_frames`. Every round that goes on removes at least five
octets, so `recvBuf.length` rounds are enough fuel. -/
def processFrames (fromJson : Bytes → Option Json) : Nat → ChatClient → ChatClient
  | 0, client => client
  | fuel + 1, client =>
    if client.recvBuf.length ≥ 4 then
      let bodyLen := ofBe32 (client.recvBuf.take 4)
      if bodyLen = 0 then client.reject
      else if bodyLen > 16 * 1024 * 1024 then client.reject
      else if client.recvBuf.length < (4 + bodyLen) % 2 ^ 32 then client
      else
        let jsonData := midBytes client.recvBuf 4 (castInt bodyLen)
        let client := { client with
          recvBuf := removeBytes client.recvBuf (4 + castInt bodyLen) }
        match fromJson jsonData with
        | some (.object fields) => processFrames fromJson fuel (client.dispatch fields)
        | some _ => processFrames fromJson fuel client
        | none => processFrames fromJson fuel client
    else client

/-- `ChatClient::on_ready_read` (client/src/chat_client.cpp:249-253): the octets are appended and
the frames in the buffer processed. A frame takes one octet at least, so the length is enough
fuel. -/
def onReadyRead (fromJson : Bytes → Option Json) (client : ChatClient) (data : Bytes) :
    ChatClient :=
  let client := { client with recvBuf := client.recvBuf ++ data }
  client.processFrames fromJson client.recvBuf.length

/-- A connection's data in the pieces that `readAll` returns; after `abort()`
there is no further `readyRead`. -/
def deliver (fromJson : Bytes → Option Json) (client : ChatClient) : List Bytes → ChatClient
  | [] => client
  | piece :: later =>
    if client.connected then deliver fromJson (onReadyRead fromJson client piece) later
    else client

end ChatClient

/-! ## Signals -/

/-- `msg[key]`: a missing member is undefined. -/
def member (fields : List (String × Json)) (key : String) : Option Json := fields.lookup key

/-- `toString()`, `toArray()` and `toDouble()` of a member: another kind gives the
empty text, the empty array and zero. -/
def textOf : Option Json → String
  | some (.string text) => text
  | _ => ""

/-- `value.toArray()`: another kind gives the empty array. -/
def arrayOf : Option Json → List Json
  | some (.array items) => items
  | _ => []

/-- The cast of `toDouble()` to `qint64`, on numbers that a double holds exactly and that lie
between -2^63 and 2^63 - 1; a cast from outside that range is undefined. -/
def integerOf : Option Json → Int
  | some (.number value) => value
  | some (.float mantissa exponent) =>
    if exponent < 0 then mantissa.tdiv (10 ^ (-exponent).toNat)
    else mantissa * 10 ^ exponent.toNat
  | _ => 0

/-- What `dispatch_message` emits; `pong` is the frame it sends itself. -/
inductive Signal where
  | pong
  | loginOk (username : String)
  | errorReceived (code content : String)
  | broadcastReceived (sender content : String) (timestamp : Int)
  | privateReceived (sender addressee content : String) (timestamp : Int)
  | userListUpdated (users : List String)
  | historyReceived (target : String) (messages : List Json)
  | notifyReceived (content : String)

/-- `ChatClient::dispatch_message` (client/src/chat_client.cpp:306-358): the signal for the type
of the frame, if there is one. -/
def dispatchMessage (fields : List (String × Json)) : Option Signal :=
  let type := textOf (member fields "type")
  if type = "PING" then some .pong
  else if type = "LOGIN_OK" then some (.loginOk (textOf (member fields "from")))
  else if type = "ERROR" then
    some (.errorReceived (textOf (member fields "code")) (textOf (member fields "content")))
  else if type = "BROADCAST" then
    some (.broadcastReceived (textOf (member fields "from")) (textOf (member fields "content"))
      (integerOf (member fields "timestamp")))
  else if type = "PRIVATE" then
    some (.privateReceived (textOf (member fields "from")) (textOf (member fields "to"))
      (textOf (member fields "content")) (integerOf (member fields "timestamp")))
  else if type = "USER_LIST" then
    some (.userListUpdated ((arrayOf (member fields "data")).map fun item => textOf (some item)))
  else if type = "HISTORY_RESP" then
    some (.historyReceived (textOf (member fields "to")) (arrayOf (member fields "data")))
  else if type = "NOTIFY" then some (.notifyReceived (textOf (member fields "content")))
  else none

end LinuxChat.Source
