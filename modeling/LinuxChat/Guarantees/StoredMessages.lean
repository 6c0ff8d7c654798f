import LinuxChat.Lib.Monitor
import LinuxChat.Guarantees.ConnectionOrder

/-!
# What is stored of a message

A content goes to SQLite and back through `c_str()` (server/src/database.cpp:158-217),
and to its recipients as a `std::string` (server/src/message_router.cpp:443-520). `Ledger`
is a history variable: for every BROADCAST or PRIVATE frame sent it keeps the message
handled, the sender's name as read and the row stored. In every run, the row comes back
from `get_history` as the frame was delivered exactly when neither the name nor the
content has a NUL.
-/

namespace LinuxChat.Guarantees.StoredMessages

open LinuxChat.Lib LinuxChat.Source Prog

/-- What a frame, or an element of a history, shows of a message. -/
structure Shown where
  sender : Except Exn String
  content : Except Exn String
  timestamp : Option Int
  deriving DecidableEq

/-- The `timestamp` of a frame or of an element of a history. -/
def Json.timestampOf : Json → Option Int
  | .object fields =>
    match fields.lookup "timestamp" with
    | some (.number timestamp) => some timestamp
    | _ => none
  | _ => none

/-- What it shows of its message. -/
def shown (msg : Json) : Shown :=
  ⟨msg.value "from" "", msg.value "content" "", Json.timestampOf msg⟩

/-! ## The ledger -/

/-- A thread's view of the message it handles: the sender's name as last read, and what
it has stored under that name. -/
structure Telling where
  message : Json := .null
  sender : String := ""
  stored : Option (String × Int) := none

/-- A chat frame, the message and the name it was made from, and the row stored for it. -/
structure Delivery where
  message : Json
  sender : String
  row : Row
  frame : Json

/-- What every thread tells, the row it has stored for it, and all the chat frames sent so far. -/
structure Ledger where
  telling : Nat → Telling := fun _ => {}
  row : Nat → Option Row := fun _ => none
  delivered : List Delivery := []

namespace Telling

/-- The thread begins with the message of its task, reads a name, and stores a content under
it. -/
def follow (telling : Telling) : (action : Act) → action.Res → Telling
  | .checkGeneration task, current => if current then { message := task.msg } else telling
  | .getUsername _, name => { telling with sender := name, stored := none }
  | .storeMessage _ _ content timestamp, _ => { telling with stored := some (content, timestamp) }
  | _, _ => telling

end Telling

namespace Ledger

/-- The row of the message in hand, given the rows an action has added. -/
def follow (row : Option Row) (rows : List Row) : Act → Option Row
  | .checkGeneration _ => none
  | .getUsername _ => none
  | .storeMessage _ _ _ _ => rows.head?
  | _ => row

/-- The deliveries that an action makes: one, if it sends a chat frame for a row. -/
def deliver (ledger : Ledger) (t : Nat) : Act → List Delivery
  | .sendMsg _ _ frame =>
    if isChatType frame.typeOf then
      (ledger.row t).toList.map fun row =>
        ⟨(ledger.telling t).message, (ledger.telling t).sender, row, frame⟩
    else []
  | _ => []

/-- One action of a thread, with the rows it added. -/
def record (ledger : Ledger) (t : Nat) (action : Act) (result : action.Res) (rows : List Row) :
    Ledger where
  telling := Function.update ledger.telling t ((ledger.telling t).follow action result)
  row := Function.update ledger.row t (follow (ledger.row t) rows action)
  delivered := ledger.delivered ++ ledger.deliver t action

end Ledger

/-- The history variable that keeps the ledger. -/
def filing (workers : Nat) : History (machine workers) Ledger where
  record t action result s s' ledger :=
    ledger.record t action result (s'.server.db.messages.drop s.server.db.messages.length)
  start _ _ ledger := ledger

/-- The server with its ledger. -/
abbrev Filed := Shared × Ledger

/-- The server with that history. -/
abbrev filed (workers : Nat) : Machine serverInterface Exn Filed World :=
  (machine workers).recording (filing workers)

/-- The server as `main` starts it, with an empty ledger. -/
def filedBoot (db : Database) : Config serverInterface Exn Filed :=
  ⟨((boot db).shared, {}), (boot db).thread⟩

/-! ## What the handlers tell -/

/-- A handler stores the content of its message under the name it has read, and the
frames it sends show what it has stored. -/
def telling : Monitor serverInterface Telling where
  next := Telling.follow
  ok s
    | .storeMessage sender _ content _ =>
      sender = s.sender ∧ s.message.value "content" "" = .ok content
    | .sendMsg _ _ frame => isChatType frame.typeOf = true →
      ∃ content timestamp, s.stored = some (content, timestamp) ∧
        shown frame = ⟨.ok s.sender, .ok content, some timestamp⟩
    | _ => True

/-- Neither a row nor a chat frame. -/
def Mute : Act → Prop
  | .storeMessage _ _ _ _ => False
  | .sendMsg _ _ frame => isChatType frame.typeOf = false
  | _ => True

theorem mute_ok (action : Act) (mute : Mute action) (s : Telling) : telling.ok s action := by
  cases action with
  | storeMessage => cases mute
  | sendMsg target locked frame =>
    intro chat
    have other : isChatType frame.typeOf = false := mute
    rw [other] at chat
    cases chat
  | _ => trivial

/-- The program meets `telling`, wherever it ends. -/
abbrev Tells {α : Type} (p : Proc α) (s : Telling) : Prop := p.Meets telling (fun _ _ => True) s

theorem tells_of_mute {α : Type} {p : Proc α} (h : p.Forall Mute) (s : Telling) : Tells p s :=
  meets_of_forall (J := fun _ => True)
    (fun action mute s _ => ⟨mute_ok action mute s, fun _ => trivial⟩) h trivial

theorem tells_valueOf {α : Type} {msg : Json} {key default : String} {next : String → Proc α}
    {s : Telling} (reads : ∀ found, msg.value key default = .ok found → Tells (next found) s) :
    Tells ((valueOf msg key default).bind next) s := by
  unfold valueOf
  cases h : msg.value key default with
  | error e => trivial
  | ok found => exact reads found h

theorem mute_announcing : Announcing Mute where
  clock := trivial
  list := trivial
  scan _ := trivial
  find _ := trivial
  users _ _ _ := rfl
  notify _ _ _ := rfl

theorem mute_serving : Serving Mute where
  toAnnouncing := mute_announcing
  gate _ := trivial
  name _ := trivial
  offline _ := trivial
  unname _ := trivial
  erase _ := trivial
  registered := trivial
  pending _ := trivial
  cleanup _ := trivial
  unpend _ := trivial
  drop _ := trivial
  store _ _ := trivial
  receive _ := trivial
  handler := trivial
  stamp _ := trivial
  enqueue _ := trivial
  ping _ := rfl

theorem mute_entering : Entering Mute where
  toAnnouncing := mute_announcing
  limit _ := trivial
  count _ := trivial
  uncount _ := trivial
  reserveNew _ := trivial
  reserveOld _ := trivial
  release _ := trivial
  pend _ _ := trivial
  unpend _ := trivial
  row _ _ := trivial
  record _ := trivial
  draw := trivial
  hash _ := trivial
  give _ _ := trivial
  online _ := trivial
  read _ _ _ := trivial
  answer _ _ := rfl
  history _ _ _ := rfl
  error _ _ _ := rfl

theorem tells_sendError (session : SessionRef) (code content : String) (s : Telling) :
    Tells (sendError session code content) s :=
  tells_of_mute (forall_sendError (mute_entering.error _ _ _)) s

/-- Only looks at the table, or sends this frame. -/
def Spreads (frame : Json) : Act → Prop
  | .broadcastTargets _ => True
  | .findByFd _ => True
  | .sendMsg _ _ msg => msg = frame
  | _ => False

theorem spreads_broadcast (frame : Json) : (broadcast frame "").Forall (Spreads frame) :=
  forall_broadcast trivial fun _ => rfl

theorem spreads_toFd (frame : Json) (fd : Nat) : (sendToFd fd frame).Forall (Spreads frame) :=
  forall_sendToFd trivial fun _ => rfl

theorem tells_spreads {α : Type} {frame : Json} {p : Proc α} {s : Telling}
    (shows : ∃ content timestamp, s.stored = some (content, timestamp) ∧
      shown frame = ⟨.ok s.sender, .ok content, some timestamp⟩)
    (h : p.Forall (Spreads frame)) : Tells p s := by
  have keeps : ∀ action, Spreads frame action → ∀ s', s' = s →
      telling.ok s' action ∧ ∀ result, telling.next s' action result = s := by
    rintro action spreads _ rfl
    cases action with
    | broadcastTargets | findByFd => exact ⟨trivial, fun _ => rfl⟩
    | sendMsg target locked msg =>
      have same : msg = frame := spreads
      subst same
      exact ⟨fun _ => shows, fun _ => rfl⟩
    | _ => cases spreads
  exact (meets_of_forall (J := fun s' => s' = s) keeps h rfl).mono fun _ _ _ => trivial

theorem tells_handleBroadcast (session : SessionRef) (msg : Json) (s : Telling)
    (inHand : s.message = msg) : Tells (handleBroadcast session msg) s := by
  rw [handleBroadcast_eq]
  refine tells_valueOf fun content reads => ?_
  split
  · exact tells_sendError _ _ _ s
  · split
    · exact tells_sendError _ _ _ s
    · refine ⟨trivial, fun timestamp => ⟨trivial, fun sender => ⟨⟨rfl, ?_⟩, fun _ => ?_⟩⟩⟩
      · rw [← reads, ← inHand]
        rfl
      · exact tells_spreads ⟨content, timestamp, rfl, rfl⟩ (spreads_broadcast _)

theorem tells_handlePrivate (session : SessionRef) (msg : Json) (s : Telling)
    (inHand : s.message = msg) : Tells (handlePrivate session msg) s := by
  rw [handlePrivate_eq]
  refine tells_valueOf fun toUser _ => tells_valueOf fun content reads => ?_
  split
  · exact tells_sendError _ _ _ s
  · refine ⟨trivial, fun target => ?_⟩
    cases target with
    | none => exact tells_sendError _ _ _ s
    | some target =>
      dsimp only
      rw [deliverPrivate_eq]
      refine ⟨trivial, fun timestamp => ⟨trivial, fun sender => ⟨⟨rfl, ?_⟩, fun _ => ?_⟩⟩⟩
      · rw [← reads, ← inHand]
        rfl
      · have frames := fun fd =>
          spreads_toFd (privateFrame sender toUser content timestamp) fd
        have both := (frames target.fd).bind fun _ => (frames session.fd).bind fun _ =>
          forall_ret _ ()
        exact tells_spreads ⟨content, timestamp, rfl, rfl⟩ both

theorem mute_handleHistoryReq (session : SessionRef) (msg : Json) :
    (handleHistoryReq session msg).Forall Mute := by
  rw [handleHistoryReq_eq]
  refine (forall_valueOf _ _ _).bind fun _ => ⟨trivial, fun _ => ⟨trivial, fun _ => ?_⟩⟩
  exact (forall_sendToFd trivial fun _ => rfl).bind fun _ => trivial

theorem mute_departing : Departing Mute where
  toAnnouncing := mute_announcing
  gate := mute_serving.gate
  name := mute_serving.name
  offline := mute_serving.offline
  unname := mute_serving.unname

theorem tells_route (session : SessionRef) (msg : Json) (s : Telling) (inHand : s.message = msg) :
    Tells (route session msg) s := by
  rw [route_eq]
  refine tells_valueOf fun type _ => ⟨trivial, fun authenticated => ?_⟩
  dsimp only
  split
  · unfold routeAuthenticated
    split
    · trivial
    · split
      · exact tells_handleBroadcast session msg _ inHand
      · split
        · exact tells_handlePrivate session msg _ inHand
        · split
          · exact tells_of_mute (mute_handleHistoryReq session msg) _
          · split
            · exact tells_of_mute (forall_logout mute_departing session) _
            · exact tells_sendError _ _ _ _
  · exact tells_of_mute (mute_entering.forall_routeUnauthenticated session msg type) _

theorem tells_runTask (task : Task) (s : Telling) : Tells (runTask task) s := by
  rw [runTask_eq]
  refine ⟨trivial, fun current => ?_⟩
  cases current with
  | false => exact ⟨trivial, fun _ => trivial⟩
  | true =>
    have routed := tells_route task.session task.msg { message := task.msg } rfl
    have caught : Tells ((route task.session task.msg).tryCatch fun _ => .ret ())
        { message := task.msg } :=
      routed.tryCatch (fun _ _ _ => trivial) fun _ _ _ => trivial
    exact caught.bind (fun _ _ _ => ⟨trivial, fun _ => trivial⟩) fun _ _ _ => trivial

/-- Every program keeps to the monitor, and the history variable is what the monitor sees. -/
theorem follows (workers : Nat) :
    (filed workers).Follows telling (fun s t => s.2.telling t) fun _ _ => True where
  acts t w action s u := by
    by_cases same : u = t
    · subst same
      rw [if_pos rfl]
      exact Function.update_self _ _ _
    · rw [if_neg same]
      exact Function.update_of_ne same _ _
  starts t p s s' start := by
    obtain ⟨shared, ledger⟩ := s'
    obtain ⟨started, kept⟩ := start
    replace kept : ledger = s.2 := kept
    dsimp only at started
    refine ⟨fun u _ => by rw [kept], fun _ => ?_⟩
    cases started with
    | event e => exact tells_of_mute (forall_event mute_serving e) _
    | task => exact tells_runTask _ _

/-! ## The invariant -/

/-- The row is what `store_message` makes of the thread's message. -/
def Stores (telling : Telling) (row : Row) : Prop :=
  ∃ content timestamp, telling.stored = some (content, timestamp) ∧
    telling.message.value "content" "" = .ok content ∧ row.fromUser = cString telling.sender ∧
    row.content = cString content ∧ row.timestamp = timestamp

/-- The frame shows the name and the content of its message, the row their C strings. -/
structure Told (d : Delivery) : Prop where
  content : ∃ content, d.message.value "content" "" = .ok content ∧
    d.row.fromUser = cString d.sender ∧ d.row.content = cString content ∧
    shown d.frame = ⟨.ok d.sender, .ok content, some d.row.timestamp⟩

/-- The invariant: the rows in hand and those of all deliveries are in the table and agree with
what was told. -/
structure Accurate (s : Filed) : Prop where
  inHand : ∀ t row, s.2.row t = some row →
    row ∈ s.1.server.db.messages ∧ Stores (s.2.telling t) row
  delivered : ∀ d ∈ s.2.delivered, d.row ∈ s.1.server.db.messages ∧ Told d

variable {workers t : Nat} {s : Filed} {action : Act}

/-- The rows an action adds. -/
abbrev added (w : World) (action : Act) (s : Filed) : List Row :=
  (action.exec w s.1.server).2.db.messages.drop s.1.server.db.messages.length

theorem messages_kept (w : World) {row : Row} (h : row ∈ s.1.server.db.messages) :
    row ∈ ((filed workers).exec t w action s).2.1.server.db.messages := by
  obtain ⟨rows, grows, _⟩ := @ConnectionOrder.messages_grow action w s.1.server
  have all : ((filed workers).exec t w action s).2.1.server.db.messages =
      s.1.server.db.messages ++ rows := grows
  rw [all]
  exact List.mem_append_left rows h

theorem added_store (w : World) {sender toUser content : String} {timestamp : Int} {row : Row}
    (h : (added w (.storeMessage sender toUser content timestamp) s).head? = some row) :
    row ∈ (Act.exec w (.storeMessage sender toUser content timestamp) s.1.server).2.db.messages ∧
      row.fromUser = cString sender ∧ row.content = cString content ∧
        row.timestamp = timestamp := by
  simp only [added, Act.exec, Database.storeMessage] at h ⊢
  split at h
  next works =>
    rw [List.drop_left] at h
    cases h
    simp [works]
  next => simp at h

theorem stores_step (w : World) (accurate : Accurate s) (ok : telling.ok (s.2.telling t) action)
    {row : Row} (h : Ledger.follow (s.2.row t) (added w action s) action = some row) :
    row ∈ ((filed workers).exec t w action s).2.1.server.db.messages ∧
      Stores ((s.2.telling t).follow action (action.exec w s.1.server).1) row := by
  cases action with
  | checkGeneration | getUsername => cases h
  | storeMessage sender toUser content timestamp =>
    obtain ⟨stored, from', text, time⟩ := added_store w h
    obtain ⟨named, reads⟩ := ok
    exact ⟨stored, content, timestamp, rfl, reads, named ▸ from', text, time⟩
  | _ =>
    obtain ⟨stored, tells⟩ := accurate.inHand t row h
    exact ⟨messages_kept w stored, tells⟩

/-- The frame sent is that of the row in hand. -/
theorem told_step (accurate : Accurate s) (ok : telling.ok (s.2.telling t) action) {d : Delivery}
    (h : d ∈ s.2.deliver t action) : d.row ∈ s.1.server.db.messages ∧ Told d := by
  cases action with
  | sendMsg target locked frame =>
    simp only [Ledger.deliver] at h
    split at h
    next chat =>
      obtain ⟨row, own, rfl⟩ := List.mem_map.mp h
      obtain ⟨stored, content, timestamp, noted, reads, from', text, time⟩ :=
        accurate.inHand t row (Option.mem_toList.mp own)
      obtain ⟨content', timestamp', noted', shows⟩ := ok chat
      rw [noted] at noted'
      cases noted'
      subst time
      exact ⟨stored, content, reads, from', text, shows⟩
    · cases h
  | _ => cases h

theorem accurate_step (w : World) (accurate : Accurate s)
    (ok : telling.ok (s.2.telling t) action) :
    Accurate ((filed workers).exec t w action s).2 where
  inHand u row h := by
    by_cases same : u = t
    · subst same
      have here := h
      change Function.update s.2.row u _ u = some row at here
      rw [Function.update_self] at here
      have after : ((filed workers).exec u w action s).2.2.telling u =
          (s.2.telling u).follow action (action.exec w s.1.server).1 :=
        Function.update_self _ _ _
      rw [after]
      exact stores_step w accurate ok here
    · have there := h
      change Function.update s.2.row t _ u = some row at there
      rw [Function.update_of_ne same] at there
      have kept : ((filed workers).exec t w action s).2.2.telling u = s.2.telling u :=
        Function.update_of_ne same _ _
      rw [kept]
      obtain ⟨stored, tells⟩ := accurate.inHand u row there
      exact ⟨messages_kept w stored, tells⟩
  delivered d member := by
    have either : d ∈ s.2.delivered ++ s.2.deliver t action := member
    rcases List.mem_append.mp either with old | new
    · obtain ⟨stored, told⟩ := accurate.delivered d old
      exact ⟨messages_kept w stored, told⟩
    · obtain ⟨stored, told⟩ := told_step accurate ok new
      exact ⟨messages_kept w stored, told⟩

/-- The invariant holds at any point of any run. -/
theorem accurate_reached {db : Database} {c : Config serverInterface Exn Filed}
    (run : (filed workers).Reaches Machine.unrestricted (filedBoot db) c) : Accurate c.shared := by
  have idle : ∀ t, Tells ((filedBoot db).thread t) ((filedBoot db).shared.2.telling t) :=
    fun _ => trivial
  refine (follows workers).invariant idle (P := Accurate) ⟨?_, ?_⟩ ?_ ?_ run
  · intro t row h
    cases h
  · intro d member
    cases member
  · exact fun t w action s accurate ok _ => accurate_step w accurate ok
  · intro t p s s' accurate start
    obtain ⟨shared, ledger⟩ := s'
    obtain ⟨started, kept⟩ := start
    replace kept : ledger = s.2 := kept
    dsimp only at started
    subst kept
    have rows : shared.server.db = s.1.server.db := by
      cases started <;> rfl
    refine ⟨fun u row h => ?_, fun d member => ?_⟩
    · rw [rows]
      exact accurate.inHand u row h
    · rw [rows]
      exact accurate.delivered d member

/-! ## The round trip -/

theorem shown_historyJson (row : Row) :
    shown (Database.historyJson row) =
      ⟨.ok (cString row.fromUser), .ok (cString row.content), some row.timestamp⟩ := rfl

/-- `get_history` returns the row of a message as its frame was delivered. -/
def SameAsDelivered (d : Delivery) : Prop :=
  shown (Database.historyJson d.row) = shown d.frame

/-- Neither the sender's name nor the content of the message has a NUL. -/
def NulFree (d : Delivery) : Prop :=
  '\x00' ∉ d.sender.toList ∧ ∀ content, d.message.value "content" "" = .ok content →
    '\x00' ∉ content.toList

theorem Told.same_iff {d : Delivery} (told : Told d) : SameAsDelivered d ↔ NulFree d := by
  obtain ⟨content, reads, from', text, shows⟩ := told.content
  unfold SameAsDelivered NulFree
  rw [shown_historyJson, shows, from', text, cString_cString, cString_cString, reads]
  simp only [Shown.mk.injEq, Except.ok.injEq, and_true, forall_eq']
  rw [cString_eq_iff, cString_eq_iff]

/-- In every state of every run, for every message delivered so far: its row is in the table, and
reads back as the frame did exactly where no NUL cuts it. -/
theorem stored_as_delivered_iff (workers : Nat) (db : Database)
    (c : Config serverInterface Exn Filed)
    (run : (filed workers).Reaches Machine.unrestricted (filedBoot db) c) :
    ∀ d ∈ c.shared.2.delivered,
      d.row ∈ c.shared.1.server.db.messages ∧ (SameAsDelivered d ↔ NulFree d) := by
  intro d member
  obtain ⟨stored, told⟩ := (accurate_reached run).delivered d member
  exact ⟨stored, told.same_iff⟩

/-- A history shows nothing but stored rows, and the row of a message that was delivered it
shows as it was delivered, if neither the name nor the content has a NUL. -/
theorem history_of_deliveries (workers : Nat) (db : Database)
    (c : Config serverInterface Exn Filed)
    (run : (filed workers).Reaches Machine.unrestricted (filedBoot db) c) (order : OrderBy) (ok : Bool)
    (requestor target : String) (limit : Int) :
    ∀ entry ∈ c.shared.1.server.db.getHistory order ok requestor target limit,
      ∃ row ∈ c.shared.1.server.db.messages, entry = Database.historyJson row ∧
        ∀ d ∈ c.shared.2.delivered, d.row = row → (shown entry = shown d.frame ↔ NulFree d) := by
  intro entry member
  obtain ⟨row, stored, _, rfl⟩ := Database.mem_getHistory member
  refine ⟨row, stored, rfl, ?_⟩
  rintro d delivered rfl
  exact ((accurate_reached run).delivered d delivered).2.same_iff

/-! ## Two broadcasts -/

/-- Alice logs in and sends a BROADCAST. -/
def broadcasting (content : String) : List Turn :=
  accept 5 ++ read 5 loginAlice ++ work 1 40 ++ read 5 (ConnectionOrder.speech content) ++ work 1 20

/-- Alice has got her message back. -/
def heard (content : String) (c : Recorded Ledger) : Bool :=
  c.shared.2.delivered.any fun d =>
    decide (d.sender = "alice" ∧ d.message.value "content" "" = .ok content)

theorem heard_reached {content : String}
    (passes : (replay (filing 1) (broadcasting content) (filedBoot aliceDb)).any (heard content) =
      true) :
    ∃ c, (filed 1).Reaches Machine.unrestricted (filedBoot aliceDb) c ∧
      ∃ d ∈ c.shared.2.delivered, d.sender = "alice" ∧ d.message.value "content" "" = .ok content := by
  obtain ⟨c, run, hears⟩ := reaches_of_replay passes
  obtain ⟨d, member, own⟩ := List.any_eq_true.mp hears
  exact ⟨c, run, d, member, of_decide_eq_true own⟩

/-- A message without a NUL, delivered and stored alike. -/
theorem stored_as_delivered_hello :
    ∃ c, (filed 1).Reaches Machine.unrestricted (filedBoot aliceDb) c ∧
      ∃ d ∈ c.shared.2.delivered, d.message.value "content" "" = .ok "hello" ∧
        SameAsDelivered d := by
  obtain ⟨c, run, d, member, sender, reads⟩ := @heard_reached "hello" (by decide +kernel)
  refine ⟨c, run, d, member, reads, ?_⟩
  refine (stored_as_delivered_iff 1 aliceDb c run d member).2.mpr ⟨?_, ?_⟩
  · rw [sender]
    decide
  · intro content same
    rw [reads] at same
    cases same
    decide

/-- A content with a NUL is delivered whole and stored up to it. -/
theorem content_cut_at_nul :
    ¬ ∀ workers db c, (filed workers).Reaches Machine.unrestricted (filedBoot db) c →
      ∀ d ∈ c.shared.2.delivered, SameAsDelivered d := by
  intro always
  obtain ⟨c, run, d, member, _, reads⟩ := @heard_reached "a\x00b" (by decide +kernel)
  have told := ((accurate_reached run).delivered d member).2
  have free := (told.same_iff.mp (always 1 aliceDb c run d member)).2 _ reads
  exact free (by decide)

end LinuxChat.Guarantees.StoredMessages
