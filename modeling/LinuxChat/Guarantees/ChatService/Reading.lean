import LinuxChat.Lib.ChatRoom
import LinuxChat.Source.ChatBackend
import LinuxChat.Guarantees.FanOut
import LinuxChat.Guarantees.HistoryOrder

/-!
# Reading a server as a room

`roomOf` forgets sockets, buffers, tasks and reservations: what is left of a server is
who has an account, which connection bears which name, and the messages table. `notice`
reads a frame as the client does (client/src/chat_client.cpp:304-356).
-/

namespace LinuxChat.Guarantees.ChatService

open LinuxChat.Lib LinuxChat.Lib.ChatRoom LinuxChat.Source Prog Serial SerialRuns SerialPlayback
open FanOut

/-- Who wrote a message, and its text, as they are kept. -/
abbrev Line := String × String

/-- Names are compared with the database up to their first NUL, and so are messages kept. -/
def service : Rules String String String Line where
  account := cString
  line author text := (cString author, cString text)
  everybody := Database.roomTarget
  arrival username := username ++ " 加入了聊天室"
  departure username := username ++ " 离开了聊天室"
  greeting := 20
  page := 50

/-- A stored row as a remark of the room, between accounts as SQLite has their names. -/
def remark (row : Row) : Remark String Line :=
  ⟨row.fromUser, row.toUser, (cString row.fromUser, cString row.content), row.timestamp⟩

/-- The room that a server keeps: its accounts are those with a password record, a session in the
table sits under the name it bears, and the log is the `messages` table. -/
def roomOf (s : Server) : Room SessionRef String String Line where
  accounts := { account | Has s.db.users account }
  seat x := if x ∈ s.sessions ∧ s.name x ≠ "" then some (s.name x) else none
  log := s.db.messages.map remark

/-- A message of a history. -/
def lineOf (json : Json) : Line × Int :=
  let obj := MessageModel.objectOf json
  ((cString (textOf (member obj "from")), cString (textOf (member obj "content"))),
    MessageModel.exactIntegerOf (member obj "timestamp"))

/-- The conversation that a history frame is about, none for the room itself. -/
def place (target : String) : Option String :=
  if target = Database.roomTarget then none else some target

/-- A signal of the client that tells of the room. -/
def noticeOf : Signal → Option (Notice String String Line)
  | .loginOk username => some (.welcome username)
  | .userListUpdated users => some (.roster users)
  | .notifyReceived content => some (.note content)
  | .broadcastReceived sender content timestamp => some (.post sender content timestamp)
  | .privateReceived sender addressee content timestamp =>
    some (.letter sender addressee content timestamp)
  | .historyReceived target messages => some (.window (place target) (messages.map lineOf))
  | .errorReceived _ _ => none
  | .pong => none

/-- What a frame tells its recipient of the room, read as the client reads it; frames that tell
nothing of it are none. -/
def notice : Json → Option (Notice String String Line)
  | .object fields => (dispatchMessage fields).bind noticeOf
  | _ => none

/-- What the frames of a server tell, each to its session. -/
def notices (frames : List (SessionRef × Json)) : List (Delivery SessionRef String String Line) :=
  frames.filterMap fun sent => (notice sent.2).map fun told => (sent.1, told)

/-- The server has come from `s` to `s'` by an event of the room, and has sent its notices. -/
def Serves (s s' : Server) : Prop :=
  ∃ frames, s'.sent = s.sent ++ frames ∧
    ChatRoom.Step service (roomOf s) (notices frames) (roomOf s')

/-! ## Frames -/

theorem notice_error (code content : String) : notice (errorFrame code content) = none := rfl

theorem notice_ping : notice pingFrame = none := rfl

theorem notice_ok {username : String} (nonempty : username ≠ "") :
    notice (okFrame "LOGIN_OK" username) = some (.welcome username) := by
  have filled : username.isEmpty = false := by simpa using nonempty
  unfold okFrame
  simp only [filled]
  rfl

theorem notice_userList (names : List String) (now : Int) :
    notice (userListFrame names now) = some (.roster names) := by
  have texts : (names.map Json.string).map (fun item => textOf (some item)) = names := by
    rw [List.map_map]
    exact List.map_id names
  have read : notice (userListFrame names now) =
      some (.roster ((names.map Json.string).map fun item => textOf (some item))) := rfl
  rw [read, texts]

theorem notice_notify (content : String) (now : Int) :
    notice (notifyFrame content now) = some (.note content) := rfl

theorem notice_broadcast (sender content : String) (now : Int) :
    notice (broadcastFrame sender content now) = some (.post sender content now) := rfl

theorem notice_private (sender toUser content : String) (now : Int) :
    notice (privateFrame sender toUser content now) = some (.letter sender toUser content now) :=
  rfl

theorem notice_history (toUser : String) (rows : List Json) :
    notice (historyFrame toUser rows) = some (.window (place toUser) (rows.map lineOf)) := rfl

theorem lineOf_historyJson (row : Row) :
    lineOf (Database.historyJson row) = (remark row).shown := by
  have read : lineOf (Database.historyJson row) =
      ((cString (cString row.fromUser), cString (cString row.content)), row.timestamp) := rfl
  rw [read, cString_cString, cString_cString]
  rfl

theorem notices_append (frames more : List (SessionRef × Json)) :
    notices (frames ++ more) = notices frames ++ notices more :=
  List.filterMap_append

theorem notices_toAll {frame : Json} {told : Notice String String Line}
    (reads : notice frame = some told) (targets : List SessionRef) :
    notices (toAll frame targets) = toEach told targets := by
  induction targets with
  | nil => rfl
  | cons target rest ih =>
    have step : notices (toAll frame (target :: rest)) =
        (target, told) :: notices (toAll frame rest) := by
      simp [notices, toAll, reads]
    rw [step, ih]
    rfl

theorem notices_silent {frames : List (SessionRef × Json)}
    (silent : ∀ sent ∈ frames, notice sent.2 = none) : notices frames = [] := by
  apply List.filterMap_eq_nil_iff.mpr
  intro sent member
  simp [silent sent member]

/-! ## What the room does not see -/

theorem roomOf_eq {s s' : Server} (sessions : s'.sessions = s.sessions)
    (username : ∀ x ∈ s.sessions, s'.name x = s.name x) (users : s'.db.users = s.db.users)
    (messages : s'.db.messages = s.db.messages) : roomOf s' = roomOf s := by
  unfold roomOf
  rw [users, messages, sessions]
  congr 1
  funext x
  by_cases there : x ∈ s.sessions
  · simp only [there, username x there]
  · simp only [there, false_and, if_false]

theorem roomOf_same {s s' : Server} (same : SameBook s s')
    (messages : s'.db.messages = s.db.messages) : roomOf s' = roomOf s :=
  roomOf_eq same.sessions (fun x _ => same.username x.id) same.users messages

theorem roomOf_told (s : Server) (frames : List (SessionRef × Json)) :
    roomOf (told s frames) = roomOf s := rfl

/-- Frames that tell nothing, in a server whose room is the same. -/
theorem serves_silent {s s' : Server} {frames : List (SessionRef × Json)}
    (same : roomOf s' = roomOf s) (sent : s'.sent = s.sent ++ frames)
    (silent : ∀ told ∈ frames, notice told.2 = none) : Serves s s' := by
  refine ⟨frames, sent, ?_⟩
  rw [notices_silent silent, same]
  exact .idle

theorem serves_same {s s' : Server} (same : roomOf s' = roomOf s) (sent : s'.sent = s.sent) :
    Serves s s' := by
  have appended : s'.sent = s.sent ++ [] := by rw [sent, List.append_nil]
  exact serves_silent same appended fun _ member => nomatch member

theorem serves_refl (s : Server) : Serves s s := serves_same rfl rfl

theorem serves_error {s s' : Server} (same : roomOf s' = roomOf s) (sent : s'.sent = s.sent)
    (x : SessionRef) (code content : String) :
    Serves s (told s' [(x, errorFrame code content)]) := by
  have appended : (told s' [(x, errorFrame code content)]).sent =
      s.sent ++ [(x, errorFrame code content)] := by
    rw [← sent]
    rfl
  refine serves_silent ((roomOf_told s' _).trans same) appended ?_
  simp [notice_error]

/-- A message that was not stored and not sent. -/
theorem serves_unstored {s : Server} {ok : Bool} {sender toUser content : String} {now : Int}
    (kept : (s.db.storeMessage ok sender toUser content now).messages = s.db.messages) :
    Serves s (told { s with db := s.db.storeMessage ok sender toUser content now } []) := by
  have book := sameBook_stored s ok sender toUser content now
  exact serves_same ((roomOf_told _ []).trans (roomOf_same book kept)) (List.append_nil _)

/-! ## Who is there -/

theorem seat_iff {s : Server} {x : SessionRef} {name : String} :
    (roomOf s).seat x = some name ↔ x ∈ live s ∧ s.name x = name := by
  have seat : (roomOf s).seat x = if x ∈ s.sessions ∧ s.name x ≠ "" then some (s.name x) else none :=
    rfl
  rw [seat, mem_live]
  split
  next there => simp [there]
  next absent => simp [absent]

theorem seated_iff {s : Server} {x : SessionRef} : (roomOf s).seat x ≠ none ↔ x ∈ live s := by
  rw [Option.ne_none_iff_exists']
  constructor
  · rintro ⟨name, seated⟩
    exact (seat_iff.mp seated).1
  · intro there
    exact ⟨s.name x, seat_iff.mpr ⟨there, rfl⟩⟩

theorem everyone_live {s : Server} (orderly : Orderly s) : Everyone (roomOf s) (live s) :=
  ⟨nodup_live orderly, fun _ => seated_iff.symm⟩

theorem lists_names {s : Server} {names : List String} (lists : FanOut.Lists names s) :
    ChatRoom.Lists (roomOf s) names := by
  refine ⟨lists.1, ?_⟩
  intro name
  rw [lists.2 name]
  simp only [seat_iff]

/-! ## Histories -/

theorem room_cString : cString Database.roomTarget = Database.roomTarget := by decide

theorem selected_map {k : Nat} {rows selected : List Row}
    (selection : Selected Row.timestamp k rows selected) :
    Selected Remark.time k (rows.map remark) (selected.map remark) := by
  obtain ⟨down, perm, falls, taken⟩ := selection.cut
  refine ⟨⟨down.map remark, perm.map _, ?_, ?_⟩, ?_⟩
  · exact List.pairwise_map.mpr falls
  · rw [← List.map_take]
    exact taken.map _
  · exact List.pairwise_map.mpr selection.up

/-- A history is read from what the requestor may read in the room. -/
theorem read_roomOf (s : Server) (requestor target : String) :
    (roomOf s).read service requestor (place target) =
      (s.db.messages.filter (Database.inHistory requestor target)).map remark := by
  unfold place
  by_cases room : target = Database.roomTarget
  · rw [if_pos room]
    simp only [Room.read, Room.talk, roomOf, List.filter_map]
    congr 1
    apply List.filter_congr
    intro row _
    rw [Bool.eq_iff_iff, Function.comp_apply, decide_eq_true_iff]
    simp [Database.inHistory, room, room_cString, remark, service]
  · rw [if_neg room]
    simp only [Room.read, Room.between, roomOf, List.filter_map]
    congr 1
    apply List.filter_congr
    intro row _
    rw [Bool.eq_iff_iff, Function.comp_apply, decide_eq_true_iff]
    simp [Database.inHistory, room, remark, service]

theorem window_roomOf (order : OrderBy) (s : Server) (requestor target : String) (limit : Int) :
    ∃ found, Selected Remark.time (Database.clampLimit limit)
        ((roomOf s).read service requestor (place target)) found ∧
      (s.db.getHistory order true requestor target limit).map lineOf =
        found.map Remark.shown := by
  have selection := HistoryOrder.selected_of_order order (Database.clampLimit limit)
    (s.db.messages.filter (Database.inHistory requestor target))
  refine ⟨_, (read_roomOf s requestor target).symm ▸ selected_map selection, ?_⟩
  unfold Database.getHistory Database.selectHistory
  simp only [if_true, List.map_map]
  apply List.map_congr_left
  intro row _
  exact lineOf_historyJson row

end LinuxChat.Guarantees.ChatService
