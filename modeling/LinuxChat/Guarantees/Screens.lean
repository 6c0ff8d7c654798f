import LinuxChat.Guarantees.ClientDecoder
import LinuxChat.Guarantees.RoomWindow

/-!
# From the table to the screen

The octets that `send_msg` writes for one connection, in whatever pieces `readAll` returns
them, and the models of the client behind it: `process_frames` finds the frames
(client/src/chat_client.cpp:249-304), the slots of `ChatBackend` show them. The JSON
libraries are parameters; a frame has to come out of them as it went in.
-/

namespace LinuxChat.Guarantees.Screens

open LinuxChat.Lib LinuxChat.Lib.ChatRoom LinuxChat.Source Serial SerialRuns SerialPlayback FanOut
open ChatService RoomWindow ClientDecoder

/-! ## Vocabulary -/

/-- `send_msg` writes the frame, and the client's parser reads the same object. -/
def Readable (dump : Json → Option Bytes) (fromJson : Bytes → Option Json) (frame : Json) : Prop :=
  ∃ text fields, dump frame = some text ∧ 1 ≤ text.length ∧ text.length ≤ maxBodyLen ∧
    frame = .object fields ∧ fromJson text = some frame

/-- A client process that has been connected and has read these pieces since, whatever its
user did meanwhile. -/
inductive Reads (fromJson : Bytes → Option Json) (timeText : Int → String) :
    List Bytes → ChatProcess → Prop
  | connected (backend : BackendState) : Reads fromJson timeText [] { backend := backend }
  | piece {pieces : List Bytes} {process : ChatProcess} (now : String) (data : Bytes)
      (open_ : process.client.connected = true) (before : Reads fromJson timeText pieces process) :
      Reads fromJson timeText (pieces ++ [data]) (process.onReadyRead fromJson timeText now data)
  | call {pieces : List Bytes} {process : ChatProcess} (now : String) (call : BackendCall)
      (before : Reads fromJson timeText pieces process) :
      Reads fromJson timeText pieces { process with backend := (process.backend.invoke now call).1 }

/-! ## The client's calls -/

variable {fromJson : Bytes → Option Json} {timeText : Int → String} {x : SessionRef}

mutual

/-- The values are the same, member by member. -/
def same : Json → Json → Bool
  | .null, .null => true
  | .boolean a, .boolean b => a == b
  | .number a, .number b => a == b
  | .float m e, .float m' e' => m == m' && e == e'
  | .string a, .string b => a == b
  | .array as, .array bs => sameItems as bs
  | .object as, .object bs => sameFields as bs
  | _, _ => false

/-- The elements are. -/
def sameItems : List Json → List Json → Bool
  | [], [] => true
  | a :: as, b :: bs => same a b && sameItems as bs
  | _, _ => false

/-- The members are. -/
def sameFields : List (String × Json) → List (String × Json) → Bool
  | [], [] => true
  | (k, a) :: as, (k', b) :: bs => k == k' && same a b && sameFields as bs
  | _, _ => false

end

mutual

theorem eq_of_same (a b : Json) (h : same a b = true) : a = b := by
  cases a <;> cases b <;> simp_all [same]
  · exact eq_of_sameItems _ _ h
  · exact eq_of_sameFields _ _ h

theorem eq_of_sameItems (as bs : List Json) (h : sameItems as bs = true) : as = bs := by
  match as, bs with
  | [], [] => rfl
  | a :: as, b :: bs =>
    simp only [sameItems, Bool.and_eq_true] at h
    rw [eq_of_same a b h.1, eq_of_sameItems as bs h.2]
  | [], _ :: _ => simp [sameItems] at h
  | _ :: _, [] => simp [sameItems] at h

theorem eq_of_sameFields (as bs : List (String × Json)) (h : sameFields as bs = true) :
    as = bs := by
  match as, bs with
  | [], [] => rfl
  | (k, a) :: as, (k', b) :: bs =>
    simp only [sameFields, Bool.and_eq_true, beq_iff_eq] at h
    rw [h.1.1, eq_of_same a b h.1.2, eq_of_sameFields as bs h.2]
  | [], _ :: _ => simp [sameFields] at h
  | _ :: _, [] => simp [sameFields] at h

end

/-- The four frames Bob gets, each with its text, the keys in the order of the library. -/
def bobsTexts : List (Json × String) := [
  (okFrame "LOGIN_OK" "bob", "\x7b\"from\":\"bob\",\"type\":\"LOGIN_OK\"\x7d"),
  (historyFrame "__room__" [],
    "\x7b\"data\":[],\"to\":\"__room__\",\"type\":\"HISTORY_RESP\"\x7d"),
  (userListFrame ["bob", "alice"] 0,
    "\x7b\"data\":[\"bob\",\"alice\"],\"timestamp\":0,\"type\":\"USER_LIST\"\x7d"),
  (broadcastFrame "alice" "hello" 0,
    "\x7b\"content\":\"hello\",\"from\":\"alice\",\"timestamp\":0,\"type\":\"BROADCAST\"\x7d")]

/-- A `dump` that knows the frames sent to bob. -/
def bobsDump (msg : Json) : Option Bytes :=
  (bobsTexts.find? fun entry => same entry.1 msg).map fun entry => entry.2.toUTF8.toList

end LinuxChat.Guarantees.Screens
