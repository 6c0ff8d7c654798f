import LinuxChat.Source.ChatBackend

/-!
# The client's other lists

The user and the session model (client/src/user_model.cpp:44-50 and
client/src/session_model.cpp:45-126, as far as the backend calls it), and `ChatBackend` with
all its members (client/src/chat_backend.cpp:30-189): the slots that fill them and the
methods that QML invokes. `ChatProcess` adds the protocol object that drives the slots.
`int` is `Int`. The connection itself, signals to QML, roles, and `populateTestData`, which
only runs in test mode, are left out.
-/

namespace LinuxChat.Source

open LinuxChat.Lib

/-- The names that the list of users shows. -/
abbrev UserModel := List String

/-- `UserModel::setUsers` (client/src/user_model.cpp:44-50): the list is replaced as a whole. -/
def UserModel.setUsers (_ : UserModel) (users : List String) : UserModel := users

/-- One conversation of the side bar: whom it is with, whether that is the room, and what its row
shows (client/include/session_model.h). -/
structure SessionItem where
  targetName : String
  isRoom : Bool := true
  unreadCount : Int := 0
  lastMessage : String := ""
  lastTimestamp : String := ""
  deriving DecidableEq, Repr

/-- The conversations of the side bar, in the order in which they were opened. -/
abbrev SessionModel := List SessionItem

namespace SessionModel

/-- The first row of that name; the source returns -1 for none. -/
def findSession (model : SessionModel) (targetName : String) : Option Nat :=
  model.findIdx? fun item => item.targetName = targetName

/-- `SessionModel::addSession`: a conversation that is there already is left alone. -/
def addSession (model : SessionModel) (targetName : String) (isRoom : Bool) : SessionModel :=
  match model.findSession targetName with
  | some _ => model
  | none => model ++ [{ targetName := targetName, isRoom := isRoom }]

/-- `m_sessions[idx]` is changed, if there is one. -/
def change (model : SessionModel) (targetName : String) (f : SessionItem → SessionItem) :
    SessionModel :=
  match model.findSession targetName with
  | some idx => model.modify idx f
  | none => model

/-- `SessionModel::clearUnread`, when the user opens the conversation. -/
def clearUnread (model : SessionModel) (targetName : String) : SessionModel :=
  model.change targetName fun item => { item with unreadCount := 0 }

end SessionModel

/-- `ChatBackend` with the members that the message models do without. -/
structure BackendState extends ChatBackend where
  connectionStatus : String := "Disconnected"
  onlineUsers : UserModel := []
  sessions : SessionModel := []

/-- What QML invokes on the backend. -/
inductive BackendCall where
  | connectToServer (host : String) (port : Int)
  | login (username password : String)
  | registerUser (username password : String)
  | sendMessage (content : String)
  | sendPrivate (addressee content : String)
  | requestHistory (target : String)
  | disconnectFromServer
  | logout
  | setCurrentUser (username : String)
  | addSession (targetName : String) (isRoom : Bool)
  | clearUnread (targetName : String)

namespace BackendState

/-- The slots of `setupConnections` for the frames of the server. -/
def onSignal (timeText : Int → String) (now : String) (state : BackendState) (signal : Signal) :
    BackendState :=
  { state with
    toChatBackend := state.toChatBackend.onSignal timeText now signal
    onlineUsers :=
      match signal with
      | .userListUpdated users => state.onlineUsers.setUsers users
      | _ => state.onlineUsers }

/-- A frame that has arrived, up to the slots of the backend; one that is no object, or whose type
is unknown, changes nothing. -/
def onFrame (timeText : Int → String) (now : String) (state : BackendState) (frame : Json) :
    BackendState :=
  match frame with
  | .object fields =>
    match dispatchMessage fields with
    | some signal => state.onSignal timeText now signal
    | none => state
  | _ => state

/-- The slot of `ChatClient::connected`. -/
def onConnected (state : BackendState) : BackendState :=
  { state with connectionStatus := "Connected" }

/-- The slot of `ChatClient::disconnected`; the models are kept. -/
def onDisconnected (state : BackendState) : BackendState :=
  { state with connectionStatus := "Disconnected" }

/-- The slot of `ChatClient::connectionError`, whose text goes into the status line. -/
def onConnectionError (state : BackendState) (err : String) : BackendState :=
  { state with connectionStatus := "Error: " ++ err }

/-- The state after a call, and what it asks `ChatClient` to send. -/
def invoke (now : String) (state : BackendState) : BackendCall → BackendState × Option Request
  | .connectToServer _ _ => ({ state with connectionStatus := "Connecting..." }, none)
  | .login username password => (state, some (.login username password))
  | .registerUser username password => (state, some (.register username password))
  | .sendMessage content => (state, some (.broadcast content))
  | .sendPrivate addressee content =>
    let echoed := state.toChatBackend.sendPrivate now addressee content
    ({ state with toChatBackend := echoed.1 }, some echoed.2)
  | .requestHistory target => (state, some (.historyReq target))
  | .disconnectFromServer => (state, none)
  | .logout => ({ state with currentUser := "" }, some .logout)
  | .setCurrentUser username => ({ state with currentUser := username }, none)
  | .addSession targetName isRoom =>
    ({ state with sessions := state.sessions.addSession targetName isRoom }, none)
  | .clearUnread targetName =>
    ({ state with sessions := state.sessions.clearUnread targetName }, none)

/-- What a call of `ChatClient` does to the backend, by the signals it emits. -/
def onCall (timeText : Int → String) (now : String) (state : BackendState) :
    ClientCall → BackendState
  | .dispatchMessage fields => state.onFrame timeText now (.object fields)
  | .disconnectFromServer => state.onDisconnected

end BackendState

/-- The protocol object and the backend that listens to it. -/
structure ChatProcess where
  client : ChatClient := {}
  backend : BackendState := {}

/-- `on_ready_read`: a signal is handled before `process_frames` goes on. -/
def ChatProcess.onReadyRead (fromJson : Bytes → Option Json) (timeText : Int → String)
    (now : String) (process : ChatProcess) (data : Bytes) : ChatProcess :=
  let client := process.client.onReadyRead fromJson data
  { client := client
    backend := (client.calls.drop process.client.calls.length).foldl
      (fun state call => state.onCall timeText now call) process.backend }

end LinuxChat.Source
