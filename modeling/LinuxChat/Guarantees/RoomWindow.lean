import LinuxChat.Source.ClientModels
import LinuxChat.Guarantees.ChatService

/-!
# What a user sees of the room

From the messages table to the models of the client (client/src/chat_backend.cpp:56-152),
in runs of one handler at a time. To `ChatService` a client is a viewer of the room, so
`view_of_run` says what stands in its models once it has dealt with its frames: the end
of the room's messages, and the names of the users who are there.
-/

namespace LinuxChat.Guarantees.RoomWindow

open LinuxChat.Lib LinuxChat.Lib.ChatRoom LinuxChat.Source Prog Serial SerialRuns SerialPlayback
open FanOut ChatService

/-! ## Vocabulary -/

/-- The messages to everybody. -/
def roomRows (db : Database) : List Row :=
  db.messages.filter fun row => row.toUser = Database.roomTarget

/-- A row as the client shows it. -/
def rowItem (timeText : Int → String) (row : Row) : Line × String :=
  ((cString row.fromUser, cString row.content), timeText row.timestamp)

/-- The room model without the server's notifications. -/
def chatItems (state : BackendState) : List (Line × String) :=
  (state.roomMessages.filter fun item => item.messageType = "normal").map fun item =>
    ((cString item.sender, cString item.content), item.timestamp)

/-- The clock does not go back, and messages of one second look the same. -/
structure InOrder (rows : List Row) : Prop where
  sorted : rows.Pairwise fun a b => a.timestamp ≤ b.timestamp
  apart : ∀ a ∈ rows, ∀ b ∈ rows, a.timestamp = b.timestamp →
    cString a.fromUser = cString b.fromUser ∧ cString a.content = cString b.content

/-- A client that has dealt with every frame sent to `x`, whatever it showed before and
whatever its user did meanwhile. -/
inductive Attends (timeText : Int → String) (x : SessionRef) :
    List (SessionRef × Json) → BackendState → Prop
  | start (state : BackendState) : Attends timeText x [] state
  | own {sent : List (SessionRef × Json)} {state : BackendState} (now : String) (frame : Json)
      (before : Attends timeText x sent state) :
      Attends timeText x (sent ++ [(x, frame)]) (state.onFrame timeText now frame)
  | other {sent : List (SessionRef × Json)} {state : BackendState} (y : SessionRef) (frame : Json)
      (apart : y ≠ x) (before : Attends timeText x sent state) :
      Attends timeText x (sent ++ [(y, frame)]) state
  | call {sent : List (SessionRef × Json)} {state : BackendState} (now : String)
      (call : BackendCall) (before : Attends timeText x sent state) :
      Attends timeText x sent (state.invoke now call).1

/-- The latest messages of the room, at least twenty if there are as many, and the names
of the users who are logged in. -/
structure UpToDate (timeText : Int → String) (s : Server) (state : BackendState) : Prop where
  messages : ∃ k, 20 ≤ k ∧
    chatItems state = (latest k (roomRows s.db)).map (rowItem timeText)
  names : FanOut.Lists state.onlineUsers s

/-! ## The client as a viewer -/

/-- A line with its time as the client shows it. -/
def display (timeText : Int → String) (shown : Line × Int) : Line × String :=
  (shown.1, timeText shown.2)

/-- What a backend has in front of its user. -/
def viewed (state : BackendState) : View String (Line × String) :=
  ⟨chatItems state, state.onlineUsers⟩

variable {timeText : Int → String} {x : SessionRef}

theorem viewed_signal (now : String) (state : BackendState) (signal : Signal) :
    viewed (state.onSignal timeText now signal) =
      match noticeOf signal with
      | some told => (viewed state).see service (display timeText) told
      | none => viewed state := by
  cases signal with
  | pong | loginOk | errorReceived | userListUpdated | privateReceived => rfl
  | broadcastReceived sender content timestamp =>
    simp [viewed, chatItems, BackendState.onSignal, ChatBackend.onSignal, noticeOf, View.see,
      MessageModel.addMessage, service, display]
  | notifyReceived content =>
    simp [viewed, chatItems, BackendState.onSignal, ChatBackend.onSignal, noticeOf, View.see,
      MessageModel.addTyped]
  | historyReceived target messages =>
    by_cases room : target = "__room__"
    · have here : place target = none := if_pos room
      simp only [noticeOf, here, View.see, viewed, chatItems, BackendState.onSignal,
        ChatBackend.onSignal, if_pos room, MessageModel.loadFromJsonArray, List.map_map]
      rw [List.filter_eq_self.mpr, List.map_map]
      · rfl
      · intro item member
        obtain ⟨message, _, rfl⟩ := List.mem_map.mp member
        rfl
    · have elsewhere : place target = some target := if_neg room
      simp only [noticeOf, elsewhere, View.see, viewed, chatItems, BackendState.onSignal,
        ChatBackend.onSignal, if_neg room]

theorem viewed_frame (now : String) (state : BackendState) (frame : Json) :
    viewed (state.onFrame timeText now frame) =
      match notice frame with
      | some told => (viewed state).see service (display timeText) told
      | none => viewed state := by
  cases frame with
  | object fields =>
    simp only [BackendState.onFrame, notice]
    cases dispatchMessage fields with
    | none => rfl
    | some signal => exact viewed_signal now state signal
  | _ => rfl

theorem viewed_invoke (now : String) (state : BackendState) (call : BackendCall) :
    viewed (state.invoke now call).1 = viewed state := by
  cases call <;> rfl

theorem viewed_attends {sent : List (SessionRef × Json)} {state : BackendState}
    (attends : Attends timeText x sent state) :
    ∃ start, viewed state = viewOf service (display timeText) x start (notices sent) := by
  induction attends with
  | start state => exact ⟨viewed state, rfl⟩
  | @own sent state now frame before ih =>
    obtain ⟨start, same⟩ := ih
    refine ⟨start, ?_⟩
    rw [viewed_frame, notices_append, viewOf_append, ← same]
    cases reads : notice frame with
    | none => simp [notices, reads]
    | some told =>
      rw [notices_cons reads, viewOf_cons, if_pos rfl]
      rfl
  | @other sent state y frame apart before ih =>
    obtain ⟨start, same⟩ := ih
    refine ⟨start, ?_⟩
    rw [same, notices_append, viewOf_append]
    cases reads : notice frame with
    | none => simp [notices, reads]
    | some told =>
      rw [notices_cons reads, viewOf_cons, if_neg apart]
      rfl
  | call now call before ih =>
    obtain ⟨start, same⟩ := ih
    exact ⟨start, (viewed_invoke now _ call).trans same⟩

/-! ## The room of the server -/

theorem talk_roomOf (s : Server) :
    (roomOf s).talk service = (roomRows s.db).map remark := by
  have read := read_roomOf s "" Database.roomTarget
  have here : place Database.roomTarget = none := if_pos rfl
  rw [here] at read
  exact read

theorem chronological_roomOf {s : Server} (ordered : InOrder (roomRows s.db)) :
    Chronological service (roomOf s) where
  sorted := by
    rw [talk_roomOf]
    exact List.pairwise_map.mpr ordered.sorted
  apart := by
    rw [talk_roomOf]
    intro a ha b hb same
    obtain ⟨row, member, rfl⟩ := List.mem_map.mp ha
    obtain ⟨row', member', rfl⟩ := List.mem_map.mp hb
    obtain ⟨sender, content⟩ := ordered.apart row member row' member' same
    have time : row.timestamp = row'.timestamp := same
    simp only [Remark.shown, remark, sender, content, time]

theorem lists_of_room {s : Server} {names : List String}
    (lists : ChatRoom.Lists (roomOf s) names) : FanOut.Lists names s := by
  refine ⟨lists.1, ?_⟩
  intro name
  rw [lists.2 name]
  simp only [seat_iff]

/-- Who views the room as its notices tell is up to date. -/
theorem upToDate_of_viewed {db : Database} {s : Server} (run : SerialRun Works db s)
    (ordered : InOrder (roomRows s.db)) (unclaimed : ¬ Has s.db.users Database.roomTarget)
    (inside : x ∈ live s) {state : BackendState} {start : View String (Line × String)}
    (same : viewed state = viewOf service (display timeText) x start (notices s.sent)) :
    UpToDate timeText s state := by
  have nobody : ∀ y, (roomOf { db := db }).seat y = none := by
    intro y
    simp [roomOf]
  have current : Current service (display timeText) (roomOf s)
      (viewOf service (display timeText) x start (notices s.sent)) :=
    view_of_run nobody (serves_the_room run) (chronological_roomOf ordered) unclaimed
      (seated_iff.mpr inside)
  rw [← same] at current
  obtain ⟨k, enough, items⟩ := current.items
  refine ⟨⟨k, enough, ?_⟩, lists_of_room current.names⟩
  rw [talk_roomOf, latest_map, List.map_map] at items
  exact items

/-- Unless somebody registers under the room's own name, every logged-in user sees the
end of what was said in the room, and who is there. -/
theorem clients_up_to_date {db : Database} {s : Server} (run : SerialRun Works db s)
    (ordered : InOrder (roomRows s.db)) (unclaimed : ¬ Has s.db.users Database.roomTarget)
    (inside : x ∈ live s) {state : BackendState} (attends : Attends timeText x s.sent state) :
    UpToDate timeText s state := by
  obtain ⟨start, same⟩ := viewed_attends attends
  exact upToDate_of_viewed run ordered unclaimed inside same

/-! ## Bob hears Alice -/

/-- The server after the user behind `fd` has said something. -/
def speaks (s : Server) (fd : Nat) (content : String) : Server :=
  serves (hears s fd (.object [("type", .string "BROADCAST"), ("content", .string content)]))

theorem run_speaks {db : Database} {s : Server} (run : SerialRun Works db s) (fd : Nat)
    (content : String) : SerialRun Works db (speaks s fd content) :=
  run_serves works_telling (run_hears works_telling run fd _)

/-- A client that deals with these frames, its clock showing `now`. -/
def attend (timeText : Int → String) (now : String) (x : SessionRef) :
    List (SessionRef × Json) → BackendState → BackendState
  | [], state => state
  | sent :: later, state =>
    attend timeText now x later
      (if sent.1 = x then state.onFrame timeText now sent.2 else state)

theorem attends_attend {sent : List (SessionRef × Json)} {state : BackendState} (now : String)
    (attends : Attends timeText x sent state) (later : List (SessionRef × Json)) :
    Attends timeText x (sent ++ later) (attend timeText now x later state) := by
  induction later generalizing sent state with
  | nil =>
    rw [List.append_nil]
    exact attends
  | cons first later ih =>
    obtain ⟨y, frame⟩ := first
    rw [List.append_cons]
    unfold attend
    by_cases own : y = x
    · subst own
      rw [if_pos rfl]
      exact ih (attends.own now frame)
    · rw [if_neg own]
      exact ih (attends.other y frame own)

/-- Alice and Bob have registered, and Alice has said hello. -/
def aliceSaysHello : Server := speaks aliceAndBob 5 "hello"

/-- Bob's client, with all the frames that were sent to it. -/
def bobsClient : BackendState := attend (fun _ => "12:00:00") "12:00:01" bob aliceSaysHello.sent {}

/-- Bob's client shows what Alice said, and the two users. -/
theorem clients_up_to_date_aliceSaysHello :
    chatItems bobsClient = [(("alice", "hello"), "12:00:00")] ∧
      UpToDate (fun _ => "12:00:00") aliceSaysHello bobsClient := by
  have rows : roomRows aliceSaysHello.db = [⟨1, "alice", "__room__", "hello", 0⟩] := by
    decide +kernel
  have ordered : InOrder (roomRows aliceSaysHello.db) := by
    rw [rows]
    refine ⟨by simp, ?_⟩
    simp
  have unclaimed : ¬ Has aliceSaysHello.db.users Database.roomTarget := by
    unfold Has
    decide +kernel
  have inside : bob ∈ live aliceSaysHello := by decide +kernel
  have attends : Attends (fun _ => "12:00:00") bob aliceSaysHello.sent bobsClient :=
    attends_attend "12:00:01" (.start {}) aliceSaysHello.sent
  refine ⟨by decide +kernel, ?_⟩
  exact clients_up_to_date (run_speaks (run_aliceAndBob works_telling) 5 "hello") ordered
    unclaimed inside attends

end LinuxChat.Guarantees.RoomWindow
