import LinuxChat.Source.Values
import Mathlib.Data.List.Sort

/-!
# Persistence layer

server/src/database.cpp:112-217 over the schema of :62-85. Text is bound with
`sqlite3_bind_text(.., c_str(), -1, ..)`, so every bound string is cut at its
first NUL; comparisons are on the stored octets. Each call may fail inside SQLite
(`ok = false`), which the code answers with the values below. SQLite leaves the
order of rows that tie on the sort key open: `OrderBy` is one choice of it.
Columns no query reads (`created_at`) are left out.
-/

namespace LinuxChat.Source

/-- A row of the `messages` table: its number, sender, addressee, text and time, the texts as
SQLite has them. -/
structure Row where
  id : Nat
  fromUser : String
  toUser : String
  content : String
  timestamp : Int
  deriving DecidableEq, Repr

/-- `ORDER BY timestamp DESC` and `ORDER BY timestamp ASC` on one occasion. -/
structure OrderBy where
  desc : List Row → List Row
  desc_perm : ∀ rows, (desc rows).Perm rows
  desc_sorted : ∀ rows, (desc rows).Pairwise fun a b => b.timestamp ≤ a.timestamp
  asc : List Row → List Row
  asc_perm : ∀ rows, (asc rows).Perm rows
  asc_sorted : ∀ rows, (asc rows).Pairwise fun a b => a.timestamp ≤ b.timestamp

/-- Ties in insertion order. -/
def OrderBy.stable : OrderBy where
  desc rows := rows.insertionSort fun a b => b.timestamp ≤ a.timestamp
  desc_perm rows := List.perm_insertionSort _ rows
  desc_sorted rows := by
    have : Std.Total fun a b : Row => b.timestamp ≤ a.timestamp := ⟨fun a b => le_total _ _⟩
    have : IsTrans Row fun a b => b.timestamp ≤ a.timestamp := ⟨fun a b c h h' => le_trans h' h⟩
    exact List.pairwise_insertionSort _ rows
  asc rows := rows.insertionSort fun a b => a.timestamp ≤ b.timestamp
  asc_perm rows := List.perm_insertionSort _ rows
  asc_sorted rows := by
    have : Std.Total fun a b : Row => a.timestamp ≤ b.timestamp := ⟨fun a b => le_total _ _⟩
    have : IsTrans Row fun a b => a.timestamp ≤ b.timestamp := ⟨fun a b c h h' => le_trans h h'⟩
    exact List.pairwise_insertionSort _ rows

/-- The two tables (server/src/database.cpp:62-85): the names with their password records, the
messages, and the number that the next message gets. -/
structure Database where
  users : List (String × String) := []
  messages : List Row := []
  nextId : Nat := 1

namespace Database

/-- `INSERT OR IGNORE INTO users`: true iff a row was inserted. -/
def registerUser (ok : Bool) (db : Database) (username passwordHash : String) :
    Bool × Database :=
  if username.isEmpty then (false, db)
  else if !ok then (false, db)
  else if db.users.any fun user => user.1 = cString username then (false, db)
  else (true, { db with users := db.users ++ [(cString username, cString passwordHash)] })

/-- The stored hash, or the empty string. -/
def getStoredHash (ok : Bool) (db : Database) (username : String) : String :=
  if ok then
    match db.users.lookup (cString username) with
    | some hash => cString hash
    | none => ""
  else ""

/-- `Database::store_message` (server/src/database.cpp:158-175): the texts are bound as C strings.
An insertion that fails is logged and forgotten. -/
def storeMessage (ok : Bool) (db : Database) (sender toUser content : String) (timestamp : Int) :
    Database :=
  if ok then
    { db with
      messages := db.messages ++
        [⟨db.nextId, cString sender, cString toUser, cString content, timestamp⟩]
      nextId := db.nextId + 1 }
  else db

/-- The target that stands for the room, of messages and of histories. -/
def roomTarget : String := "__room__"

/-- The WHERE clause of the two history queries; the branch is chosen on the
whole target string, the comparison is on the bound C strings. -/
def inHistory (requestor target : String) (row : Row) : Bool :=
  if target = roomTarget then row.toUser = cString target
  else
    (row.fromUser = cString requestor && row.toUser = cString target) ||
      (row.fromUser = cString target && row.toUser = cString requestor)

/-- The limit of a history query, between 1 and 200. -/
def clampLimit (limit : Int) : Nat :=
  (if limit < 1 then 1 else if 200 < limit then 200 else limit).toNat

/-- The rows of the history query: the latest ones by time, oldest first. -/
def selectHistory (order : OrderBy) (ok : Bool) (db : Database) (requestor target : String)
    (limit : Int) : List Row :=
  if ok then
    order.asc ((order.desc (db.messages.filter (inHistory requestor target))).take
      (clampLimit limit))
  else []

/-- What `get_history` makes of a row: its sender, text and time, read back as C strings. -/
def historyJson (row : Row) : Json :=
  .object [("from", .string (cString row.fromUser)), ("content", .string (cString row.content)),
    ("timestamp", .number row.timestamp)]

/-- `Database::get_history` (server/src/database.cpp:177-217): the rows of the query, as JSON
objects. -/
def getHistory (order : OrderBy) (ok : Bool) (db : Database) (requestor target : String)
    (limit : Int) : List Json :=
  (selectHistory order ok db requestor target limit).map historyJson

/-! ## What a query returns -/

theorem mem_selectHistory {order : OrderBy} {ok : Bool} {db : Database}
    {requestor target : String} {limit : Int} {row : Row}
    (h : row ∈ selectHistory order ok db requestor target limit) :
    row ∈ db.messages ∧ inHistory requestor target row = true := by
  unfold selectHistory at h
  split at h
  · have hcut := (order.asc_perm _).mem_iff.mp h
    have hdesc := (order.desc_perm _).mem_iff.mp (List.mem_of_mem_take hcut)
    exact List.mem_filter.mp hdesc
  · cases h

/-- Every entry of a history is made of a stored row that its query selects. -/
theorem mem_getHistory {order : OrderBy} {ok : Bool} {db : Database} {requestor target : String}
    {limit : Int} {entry : Json} (h : entry ∈ getHistory order ok db requestor target limit) :
    ∃ row ∈ db.messages, inHistory requestor target row = true ∧ historyJson row = entry := by
  obtain ⟨row, selected, same⟩ := List.mem_map.mp h
  obtain ⟨stored, matching⟩ := mem_selectHistory selected
  exact ⟨row, stored, matching, same⟩

end Database

end LinuxChat.Source
