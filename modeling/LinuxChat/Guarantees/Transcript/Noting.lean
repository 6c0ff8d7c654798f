import LinuxChat.Lib.Environment
import LinuxChat.Guarantees.Transcript.Readings
import LinuxChat.Guarantees.Transcript.Telling

/-!
# Which messages a client shows

`Notes` is a history variable: which rows of the database every thread has read or is saying, and
which rows the items of every client's room model are, frame by frame. `Faithful` says that the
notes agree with the database, the threads and the models, and that no row is shown twice or left
out.
-/

namespace LinuxChat.Guarantees.Transcript

open LinuxChat.Lib LinuxChat.Lib.ChatRoom LinuxChat.Source Prog ChatService RoomWindow

/-- The last reading of every thread and the row of the last message it has stored, none where the
insertion failed; the number of the next row when a client got its name; the row of every item of a
client's room model, none where the message was not stored; and the rows of the last history it
was sent. -/
structure Notes where
  reading : Nat → Reading := fun _ => {}
  saying : Nat → Option Row := fun _ => none
  since : SessionRef → Option Nat := fun _ => none
  shown : SessionRef → List (Option Row) := fun _ => []
  recalled : SessionRef → Option (List Row) := fun _ => none

/-- One action of thread `t` in the outside `w`, from the states around it. -/
def Notes.follow (n : Notes) (t : Nat) (w : World) (s s' : Server) : Act → Notes
  | .getHistory _ target limit =>
    if target = Database.roomTarget then
      { n with reading := Function.update n.reading t ⟨s.db, w.order, w.dbOk, limit⟩ }
    else n
  | .storeMessage _ _ _ _ =>
    { n with
      saying := Function.update n.saying t (s'.db.messages.drop s.db.messages.length).head? }
  | .setUsername x _ =>
    { n with since := Function.update n.since x (some ((n.since x).getD s.db.nextId)) }
  | .clearUsername x => { n with since := fun y => if y.id = x.id then none else n.since y }
  | .storeSession _ _ => { n with since := fun y => if y.id = s.nextId then none else n.since y }
  | .sendMsg x _ frame =>
    match notice frame with
    | some (.post _ _ _) =>
      { n with shown := Function.update n.shown x (n.shown x ++ [n.saying t]) }
    | some (.window none _) =>
      { n with
        shown := Function.update n.shown x ((n.reading t).rows.map some)
        recalled := Function.update n.recalled x (some (n.reading t).rows) }
    | _ => n
  | _ => n

/-- The outside of the last action, to be noted. -/
def lastOutside : Environment serverInterface World World World where
  supply w _ _ := (w, w)

/-- The history variable that keeps the notes. -/
def noting (workers : Nat) : History ((machine workers).within lastOutside) Notes where
  record t action _ s s' n := n.follow t s'.2 s.1.server s'.1.server action
  start _ _ n := n

/-- The server, the outside of the last action, what every thread is telling, and the notes. -/
abbrev Noted := (Shared × World) × (Nat → Telling) × Notes

namespace Noted

abbrev server (s : Noted) : Server := s.1.1.server
abbrev tells (s : Noted) : Nat → Telling := s.2.1
abbrev notes (s : Noted) : Notes := s.2.2

end Noted

/-- The server with these histories. -/
abbrev noted (workers : Nat) : Machine serverInterface Exn Noted World :=
  ((machine workers).within lastOutside).recording
    ((((machine workers).within lastOutside).following telling).both (noting workers))

/-- The server as `main` starts it; nothing has been read, said or shown. -/
def notedBoot (db : Database) : Config serverInterface Exn Noted :=
  ⟨(((boot db).shared, default), fun _ => {}, {}), (boot db).thread⟩

theorem follows_noted (workers : Nat) :
    (noted workers).Follows telling (fun s t => s.tells t) fun _ h => h.Free := by
  refine (Machine.follows_following fun t p s s' h start free => ?_).beside (noting workers)
  obtain ⟨shared, w⟩ := s'
  replace start := start.1
  dsimp only at start
  cases start with
  | event e => exact frees_event e h free
  | task => exact frees_runTask _ h free

/-! ## The invariant -/

/-- What the invariant is about. -/
structure Scene where
  rows : List Row
  number : Nat
  table : List SessionRef
  name : Nat → String
  sent : List (SessionRef × Json)
  speech : Nat → Speech
  history : Nat → List Json
  greets : Nat → Option SessionRef
  found : Nat → Option SessionRef
  whispers : Nat → Option String
  notes : Notes

/-- The scene of a state. -/
def sceneOf (s : Noted) : Scene where
  rows := s.server.db.messages
  number := s.server.db.nextId
  table := s.server.sessions
  name id := (s.server.heap id).username
  sent := s.server.sent
  speech t := (s.tells t).speech
  history t := (s.tells t).history
  greets t := (s.tells t).greets
  found t := (s.tells t).found
  whispers t := (s.tells t).whispers
  notes := s.notes

namespace Scene

/-- The session is still to be sent this row by the thread that has stored it. -/
def Ahead (c : Scene) (row : Row) (x : SessionRef) : Prop :=
  ∃ t, (c.speech t).Reaches x ∧ c.notes.saying t = some row

/-- The thread has named the session and is still to send it the history. -/
def Greets (c : Scene) (t : Nat) (x : SessionRef) : Prop :=
  c.greets t = some x ∧ ∀ y, c.found t = some y → y = x

end Scene

/-- The lines of a history of the room. -/
def historyOf (frame : Json) : Option (List (Line × Int)) :=
  match notice frame with
  | some (.window none lines) => some lines
  | _ => none

/-- The lines of the last history of the room that was sent to `x`. -/
def lastHistory (sent : List (SessionRef × Json)) (x : SessionRef) : Option (List (Line × Int)) :=
  ((sent.filter fun frame => frame.1 = x).filterMap fun frame => historyOf frame.2).getLast?

/-- The lines that the rows are read as. -/
def linesOf (rows : List Row) : List (Line × Int) := rows.map fun row => (remark row).shown

/-- The item is what the client makes of the row. -/
def Looks (timeText : Int → String) (item : Line × String) (origin : Option Row) : Prop :=
  ∀ row, origin = some row → item = rowItem timeText row

/-- What a client has in its room model that had `before` items when it connected. -/
def Notes.items (n : Notes) (x : SessionRef) (before : Nat) : List (Option Row) :=
  (n.recalled x).elim (List.replicate before none) (fun _ => []) ++ n.shown x

/-- The invariant, of the server and the client `x`. -/
structure Faithful (x : SessionRef) (c : Scene) : Prop where
  -- the database numbers its rows
  distinct : (c.rows.map Row.id).Nodup
  below : ∀ row ∈ c.rows, row.id < c.number
  -- the table is that of the event loop
  fds : c.table.Pairwise fun y z => y.fd ≠ z.fd
  named : ∀ k, c.notes.since x = some k → c.name x.id ≠ ""
  -- what a thread has read or stored is in the database, and looks like what it sends
  readings : ∀ t, ((c.notes.reading t).db.messages.map Row.id).Nodup ∧
    ∀ row ∈ (c.notes.reading t).db.messages, row ∈ c.rows
  texts : ∀ t, c.history t = (c.notes.reading t).rows.map Database.historyJson
  said : ∀ t row, c.notes.saying t = some row → row ∈ c.rows
  looks : ∀ t row line, ¬ (c.speech t).Over → c.notes.saying t = some row →
    (c.speech t).shown = some line → (remark row).shown = line
  alone : ∀ t u row, c.notes.saying t = some row → c.notes.saying u = some row → t = u
  left : ∀ t, (c.speech t).left.Nodup
  elsewhere : ∀ t name, c.whispers t = some name → cString name ≠ Database.roomTarget
  -- a row that the client shows is in the database, shown once and not to be sent again
  kept : ∀ row, some row ∈ c.notes.shown x → row ∈ c.rows
  once : ∀ row, (c.notes.shown x).count (some row) ≤ 1
  apart : ∀ row, some row ∈ c.notes.shown x → ¬ c.Ahead row x
  -- if the client is there it shows every row stored since, or will
  whole : x ∈ c.table → ∀ k, c.notes.since x = some k → ∀ row ∈ c.rows,
    row.toUser = Database.roomTarget → k ≤ row.id → some row ∈ c.notes.shown x ∨ c.Ahead row x
  recalled : ∀ rows, c.notes.recalled x = some rows → ∀ row ∈ rows, some row ∈ c.notes.shown x
  last : lastHistory c.sent x = (c.notes.recalled x).map linesOf
  greeted : x ∈ c.table → ∀ k, c.notes.since x = some k →
    (c.notes.recalled x).isSome ∨ ∃ t, c.Greets t x
  items : ∀ timeText start, List.Forall₂ (Looks timeText)
    (viewOf service (display timeText) x start (notices c.sent)).items
    (c.notes.items x start.items.length)

end LinuxChat.Guarantees.Transcript
