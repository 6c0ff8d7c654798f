import LinuxChat.Source.ChatClient

/-!
# Connecting and logging in

client/src/login_controller.cpp:46-187 on top of the connection half of
client/src/chat_client.cpp:36-132, 214-247. Both objects live in one thread and their
signals are direct calls, so every slot is a function of both. What a `QTcpSocket` does by
itself is a list of events. A deleted socket has no more events: its signals are blocked
before it is aborted. The receive buffer, debug output and the notifications to QML are left
out; an inactive timer does not fire.
-/

namespace LinuxChat.Source

/-- Host and port, as `connectToHost` gets them. -/
structure Endpoint where
  host : String
  port : Nat
  deriving DecidableEq, Repr

/-- `QAbstractSocket::SocketState`, as far as a client's socket goes through it. -/
inductive SocketState where
  | unconnected
  | hostLookup
  | connecting
  | connected
  | closing
  deriving DecidableEq, Repr

/-- A socket after its `connectToHost`. -/
structure TcpSocket where
  endpoint : Endpoint
  state : SocketState := .hostLookup
  deriving DecidableEq, Repr

/-- The signals `ChatClient` listens to, with `errorString()`. -/
inductive SocketSignal where
  | connected
  | disconnected (error : String)
  | errorOccurred (error : String)
  deriving DecidableEq, Repr

/-- A signal and the state the socket is in when it emits it; `connected()` comes in
`ConnectedState`. -/
structure SocketEvent where
  signal : SocketSignal
  state : SocketState
  valid : signal = .connected → state = .connected

/-- The members of `ChatClient` that have to do with the connection. -/
structure Connection where
  socket : Option TcpSocket := none
  isConnecting : Bool := false
  deriving DecidableEq, Repr

/-- `ChatClient::is_connected` (client/src/chat_client.cpp:134-136). -/
def Connection.isConnected (connection : Connection) : Bool :=
  match connection.socket with
  | none => false
  | some socket => socket.state = .connected

/-- `LoginController::State` (client/include/login_controller.h). -/
inductive LoginState where
  | disconnected
  | connecting
  | authenticating
  | authenticated
  deriving DecidableEq, Repr

/-- `LoginController`; a timer is active or not. -/
structure LoginController where
  state : LoginState := .disconnected
  statusText : String := ""
  isError : Bool := false
  isLoading : Bool := false
  isConnecting : Bool := false
  connectTimer : Bool := false
  loginTimer : Bool := false
  deriving DecidableEq, Repr

namespace LoginController

/-- `LoginController::setStatusText`: the line under the form, and whether it is an error. -/
def setStatusText (controller : LoginController) (text : String) (error : Bool) :
    LoginController :=
  { controller with statusText := text, isError := error }

/-- The slot of `connected` (client/src/login_controller.cpp:104-111): the form is open for a
login. -/
def onConnected (controller : LoginController) : LoginController :=
  { controller.setStatusText "已连接到服务器" false with
    isConnecting := false
    connectTimer := false
    isLoading := false
    state := .authenticating }

/-- The slot of `disconnected` (client/src/login_controller.cpp:113-121). -/
def onDisconnected (controller : LoginController) : LoginController :=
  { controller.setStatusText "与服务器断开连接" true with
    isConnecting := false
    connectTimer := false
    loginTimer := false
    isLoading := false
    state := .disconnected }

/-- The slot of `connectionError` (client/src/login_controller.cpp:123-131). -/
def onConnectionError (controller : LoginController) (error : String) : LoginController :=
  { controller.setStatusText ("连接失败: " ++ error) true with
    isConnecting := false
    connectTimer := false
    loginTimer := false
    isLoading := false
    state := .disconnected }

/-- The slot of `loginOk` (client/src/login_controller.cpp:133-141). -/
def onLoginOk (controller : LoginController) : LoginController :=
  { controller.setStatusText "" false with
    connectTimer := false
    loginTimer := false
    isLoading := false
    state := .authenticated }

/-- The slot of `errorReceived` (client/src/login_controller.cpp:143-152), for an ERROR frame of
the server. -/
def onErrorReceived (controller : LoginController) (code content : String) : LoginController :=
  { controller.setStatusText ("[" ++ code ++ "] " ++ content) true with
    loginTimer := false
    isLoading := false
    state := .authenticating }

/-- The flag of `ChatClient` and its socket stay as they are. -/
def onConnectTimeout (controller : LoginController) : LoginController :=
  { controller.setStatusText "连接超时" true with
    isConnecting := false
    connectTimer := false
    isLoading := false
    state := .disconnected }

/-- The login timer has run out (client/src/login_controller.cpp:162-169). -/
def onLoginTimeout (controller : LoginController) : LoginController :=
  { controller.setStatusText "登录超时" true with
    loginTimer := false
    isLoading := false }

end LoginController

/-- The form and the connection under it. -/
structure Client where
  controller : LoginController := {}
  connection : Connection := {}
  deriving DecidableEq, Repr

/-- What is seen from outside: `onConnected` runs while the socket belongs to this endpoint,
or a request is written to it. -/
inductive Effect where
  | connected (endpoint : Endpoint)
  | sent (endpoint : Endpoint) (request : Request)

/-- The server at the other end. -/
def Effect.endpoint : Effect → Endpoint
  | connected endpoint => endpoint
  | sent endpoint _ => endpoint

/-! ## ChatClient -/

/-- `on_socket_connected`, `on_socket_disconnected` and `on_socket_error`. An unconnected
socket does not come back to life by itself. -/
def onSocket (event : SocketEvent) (client : Client) : Client × List Effect :=
  match client.connection.socket with
  | none => (client, [])
  | some socket =>
    if socket.state = .unconnected ∧ event.state ≠ .unconnected then (client, [])
    else
      let connection :=
        { client.connection with socket := some { socket with state := event.state } }
      match event.signal with
      | .connected =>
        (⟨client.controller.onConnected, { connection with isConnecting := false }⟩,
          [.connected socket.endpoint])
      | .disconnected error =>
        if connection.isConnecting then
          (⟨client.controller.onConnectionError error, { connection with isConnecting := false }⟩,
            [])
        else (⟨client.controller.onDisconnected, connection⟩, [])
      | .errorOccurred error =>
        if connection.isConnecting then
          (⟨client.controller.onConnectionError error, { connection with isConnecting := false }⟩,
            [])
        else (⟨client.controller, connection⟩, [])

/-- Several signals of sockets one after the other, and all that came of them. -/
def onSockets : List SocketEvent → Client → Client × List Effect
  | [], client => (client, [])
  | event :: rest, client =>
    let first := onSocket event client
    let later := onSockets rest first.1
    (later.1, first.2 ++ later.2)

/-- `connect_to_server`; `dial` is what happens inside `connectToHost`, and `error` what
`errorString()` is after it. -/
def connectToServer (endpoint : Endpoint) (dial : List SocketEvent) (error : String)
    (client : Client) : Client × List Effect :=
  if client.connection.isConnecting then (client, [])
  else
    let dialled := onSockets dial ⟨client.controller, ⟨some { endpoint := endpoint }, true⟩⟩
    match dialled.1.connection.socket with
    | none => dialled
    | some socket =>
      if socket.state = .unconnected then
        (⟨dialled.1.controller.onConnectionError error,
          { dialled.1.connection with isConnecting := false }⟩, dialled.2)
      else dialled

/-- `disconnect_from_server`, with the signals that `abort()` emits. -/
def disconnectFromServer (signals : List SocketEvent) (client : Client) : Client × List Effect :=
  match client.connection.socket with
  | none => (client, [])
  | some socket =>
    onSockets signals
      { client with
        connection := { client.connection with socket := some { socket with state := .unconnected } } }

/-- `send_json`. -/
def sendRequest (request : Request) (client : Client) : List Effect :=
  match client.connection.socket with
  | none => []
  | some socket => if socket.state = .connected then [.sent socket.endpoint request] else []

/-! ## LoginController -/

/-- `QChar::isSpace`. -/
def isSpace (c : Char) : Bool :=
  let n := c.toNat
  (9 ≤ n && n ≤ 13) || n = 32 || n = 0x85 || n = 0xa0 || n = 0x1680 || (0x2000 ≤ n && n ≤ 0x200a) ||
    n = 0x2028 || n = 0x2029 || n = 0x202f || n = 0x205f || n = 0x3000

/-- `QString::trimmed`. -/
def trimmed (text : String) : String :=
  String.ofList ((text.toList.dropWhile isSpace).reverse.dropWhile isSpace).reverse

/-- The guards of `LoginController::connectToServer`: the endpoint it goes on with. -/
def accepts (controller : LoginController) (host : String) (port : Int) : Option Endpoint :=
  if controller.isConnecting then none
  else if host.isEmpty || port ≤ 0 || port > 65535 then none
  else some ⟨host, port.toNat⟩

/-- `LoginController::connectToServer` (client/src/login_controller.cpp:46-64): the new endpoint
is dialled unless a guard keeps the form from it. -/
def chooseServer (host : String) (port : Int) (dial : List SocketEvent) (error : String)
    (client : Client) : Client × List Effect :=
  match accepts client.controller host port with
  | none =>
    if client.controller.isConnecting then (client, [])
    else
      ({ client with
          controller := client.controller.setStatusText "请输入有效的服务器地址和端口" true }, [])
  | some endpoint =>
    connectToServer endpoint dial error
      { client with
        controller :=
          { client.controller.setStatusText "正在连接..." false with
            isConnecting := true
            isLoading := true
            state := .connecting
            connectTimer := true } }

/-- `login` and `registerUser`, which differ in the request. -/
def authenticate (request : String → String → Request) (username password : String)
    (client : Client) : Client × List Effect :=
  if (trimmed username).isEmpty || (trimmed password).isEmpty then
    ({ client with controller := client.controller.setStatusText "请输入用户名和密码" true }, [])
  else if !client.connection.isConnected then
    ({ client with controller := client.controller.setStatusText "请先连接到服务器" true }, [])
  else
    ({ client with
        controller :=
          { client.controller.setStatusText "" false with
            isLoading := true
            state := .authenticating
            loginTimer := true } },
      sendRequest (request (trimmed username) (trimmed password)) client)

/-- `LoginController::login` (client/src/login_controller.cpp:66-82). -/
def login : String → String → Client → Client × List Effect := authenticate .login

/-- `LoginController::registerUser` (client/src/login_controller.cpp:84-102). -/
def registerUser : String → String → Client → Client × List Effect := authenticate .register

/-! ## Events -/

/-- What can happen to the client: the user acts on the form, a timer runs out, a socket signals,
or a frame arrives. -/
inductive ClientEvent where
  | connectToServer (host : String) (port : Int) (dial : List SocketEvent) (error : String)
  | login (username password : String)
  | registerUser (username password : String)
  | disconnectFromServer (signals : List SocketEvent)
  | connectTimeout
  | loginTimeout
  | socket (event : SocketEvent)
  -- frames from the server
  | loginOk (username : String)
  | errorReceived (code content : String)

/-- What the client does then, and what goes out. -/
def ClientEvent.step : ClientEvent → Client → Client × List Effect
  | .connectToServer host port dial error, client => chooseServer host port dial error client
  | .login username password, client => Source.login username password client
  | .registerUser username password, client => Source.registerUser username password client
  | .disconnectFromServer signals, client => Source.disconnectFromServer signals client
  | .connectTimeout, client =>
    if client.controller.connectTimer then
      ({ client with controller := client.controller.onConnectTimeout }, [])
    else (client, [])
  | .loginTimeout, client =>
    if client.controller.loginTimer then
      ({ client with controller := client.controller.onLoginTimeout }, [])
    else (client, [])
  | .socket event, client => onSocket event client
  | .loginOk _, client => ({ client with controller := client.controller.onLoginOk }, [])
  | .errorReceived code content, client =>
    ({ client with controller := client.controller.onErrorReceived code content }, [])

end LinuxChat.Source
