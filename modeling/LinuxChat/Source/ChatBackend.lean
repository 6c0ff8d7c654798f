import LinuxChat.Source.ChatClient
import Mathlib.Logic.Function.Basic

/-!
# What the client shows

The message models (client/src/message_model.cpp:49-98) and the slots of
`ChatBackend` that fill them (client/src/chat_backend.cpp:56-152). The private
models are a map that creates an empty model on first use. The text of a time of
day, `hh:mm:ss` in the client's time zone, is a parameter. Connection status, the
online-user and session lists and the signals to QML are left out.
-/

namespace LinuxChat.Source

/-- One row of a message model (client/include/message_model.h): the sender, the text, the time of
day as the view shows it, whether the user wrote it himself, and its type. -/
structure MessageItem where
  sender : String
  content : String
  timestamp : String
  isSelf : Bool := false
  messageType : String := "normal"
  deriving DecidableEq, Repr

/-- The rows of a list view, oldest first; rows are only ever appended or all removed. -/
abbrev MessageModel := List MessageItem

namespace MessageModel

/-- `MessageModel::addMessage` (client/src/message_model.cpp:48-57): one row at the end, of the
default type. -/
def addMessage (model : MessageModel) (sender content timestamp : String) (isSelf : Bool) :
    MessageModel :=
  model ++ [{ sender := sender, content := content, timestamp := timestamp, isSelf := isSelf }]

/-- The overload that takes the message type. -/
def addTyped (model : MessageModel) (sender content timestamp : String) (isSelf : Bool)
    (messageType : String) : MessageModel :=
  model ++ [⟨sender, content, timestamp, isSelf, messageType⟩]

/-- `value.toObject()`: another kind gives the empty object. -/
def objectOf : Json → List (String × Json)
  | .object fields => fields
  | _ => []

/-- `value.toInteger()`: zero unless the value is an integer. This is for values between -2^63
and 2^63 - 1, among them every time of day; beyond these the source has zero as well. -/
def exactIntegerOf : Option Json → Int
  | some (.number value) => value
  | some (.float mantissa exponent) =>
    if exponent < 0 then
      if mantissa % 10 ^ (-exponent).toNat = 0 then mantissa / 10 ^ (-exponent).toNat else 0
    else mantissa * 10 ^ exponent.toNat
  | _ => 0

/-- The row that `set_messages` makes of an element of a history: missing members read as empty,
and the row is the user's own if it bears his name. -/
def historyItem (timeText : Int → String) (myUsername : String) (msg : Json) : MessageItem :=
  let obj := objectOf msg
  let sender := textOf (member obj "from")
  { sender := sender
    content := textOf (member obj "content")
    timestamp := timeText (exactIntegerOf (member obj "timestamp"))
    isSelf := sender = myUsername }

/-- The model is cleared first. -/
def loadFromJsonArray (timeText : Int → String) (messages : List Json) (myUsername : String) :
    MessageModel :=
  messages.map (historyItem timeText myUsername)

end MessageModel

/-- The members of `ChatBackend` that the message models depend on: the user, the model of the
room, and one model for each partner. -/
structure ChatBackend where
  currentUser : String := ""
  roomMessages : MessageModel := []
  privateMessages : String → MessageModel := fun _ => []

namespace ChatBackend

/-- The slots connected to the client's signals; `now` is the time of day at the call. -/
def onSignal (timeText : Int → String) (now : String) (backend : ChatBackend) :
    Signal → ChatBackend
  | .loginOk username => { backend with currentUser := username }
  | .broadcastReceived sender content timestamp =>
    { backend with
      roomMessages := backend.roomMessages.addMessage sender content (timeText timestamp)
        (sender = backend.currentUser) }
  | .privateReceived sender _ content timestamp =>
    { backend with
      privateMessages := Function.update backend.privateMessages sender
        ((backend.privateMessages sender).addMessage sender content (timeText timestamp) false) }
  | .historyReceived target messages =>
    if target = "__room__" then
      { backend with
        roomMessages := MessageModel.loadFromJsonArray timeText messages backend.currentUser }
    else
      { backend with
        privateMessages := Function.update backend.privateMessages target
          (MessageModel.loadFromJsonArray timeText messages backend.currentUser) }
  | .notifyReceived content =>
    { backend with
      roomMessages := backend.roomMessages.addTyped "__system__" content now false "system" }
  | .errorReceived _ _ => backend
  | .userListUpdated _ => backend
  | .pong => backend

/-- A frame of the server: `dispatch_message` and the slot it triggers. -/
def onFrame (timeText : Int → String) (now : String) (backend : ChatBackend) (frame : Json) :
    ChatBackend :=
  match frame with
  | .object fields =>
    match dispatchMessage fields with
    | some signal => backend.onSignal timeText now signal
    | none => backend
  | _ => backend

/-- `sendPrivate`: the request, and the local echo. -/
def sendPrivate (now : String) (backend : ChatBackend) (addressee content : String) :
    ChatBackend × Request :=
  ({ backend with
      privateMessages := Function.update backend.privateMessages addressee
        ((backend.privateMessages addressee).addMessage backend.currentUser content now true) },
    .privateTo addressee content)

end ChatBackend

end LinuxChat.Source
