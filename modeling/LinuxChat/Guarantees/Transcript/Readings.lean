import LinuxChat.Guarantees.RoomWindow

/-!
# Readings of the room's history

What `get_history` returns of the room (server/src/database.cpp:177-217), as rows: which messages
are among them, and when all those since some number are.
-/

namespace LinuxChat.Guarantees.Transcript

open LinuxChat.Lib LinuxChat.Source ChatService RoomWindow

/-- A reading of the room's history: the database as it was, the order that SQLite gave to ties,
whether it answered at all, and the limit of the query. -/
structure Reading where
  db : Database := {}
  order : OrderBy := .stable
  ok : Bool := false
  limit : Int := 20

/-- The rows that were read. -/
def Reading.rows (reading : Reading) : List Row :=
  reading.db.selectHistory reading.order reading.ok "" Database.roomTarget reading.limit

namespace Reading

variable {reading : Reading} {row : Row}

theorem mem_db (h : row ∈ reading.rows) : row ∈ reading.db.messages :=
  (Database.mem_selectHistory h).1

theorem mem_roomRows (h : row ∈ reading.rows) : row ∈ roomRows reading.db := by
  obtain ⟨stored, selected⟩ := Database.mem_selectHistory h
  refine List.mem_filter.mpr ⟨stored, ?_⟩
  simpa [Database.inHistory, room_cString] using selected

theorem nodup_rows (distinct : (reading.db.messages.map Row.id).Nodup) : reading.rows.Nodup := by
  have filtered : (reading.db.messages.filter
      (Database.inHistory "" Database.roomTarget)).Nodup := distinct.of_map.filter _
  unfold rows Database.selectHistory
  split
  · have cut := ((reading.order.desc_perm _).nodup_iff.mpr filtered).sublist
      (List.take_sublist (Database.clampLimit reading.limit) _)
    exact (reading.order.asc_perm _).nodup_iff.mpr cut
  · exact List.nodup_nil

/-- Who reads the room does not matter. -/
theorem getHistory_eq (reading : Reading) (requestor : String) :
    reading.db.getHistory reading.order reading.ok requestor Database.roomTarget reading.limit =
      reading.rows.map Database.historyJson := by
  have same : Database.inHistory requestor Database.roomTarget =
      Database.inHistory "" Database.roomTarget := by
    funext row
    simp [Database.inHistory]
  unfold Database.getHistory rows Database.selectHistory
  rw [same]

/-- No more messages of the room than the limit have the time of the row or a later one. -/
def Recent (reading : Reading) (row : Row) : Prop :=
  countFrom Row.timestamp row.timestamp (roomRows reading.db) ≤ Database.clampLimit reading.limit

instance (reading : Reading) (row : Row) : Decidable (reading.Recent row) :=
  inferInstanceAs (Decidable (_ ≤ _))

/-- So it is with every message numbered from `k` on, if there are no more of these than the limit
and the clock has gone on since the others. -/
theorem recent_of_few {k : Nat}
    (few : (roomRows reading.db).countP (fun row => k ≤ row.id) ≤ Database.clampLimit reading.limit)
    (clock : ∀ older ∈ roomRows reading.db, ∀ later ∈ roomRows reading.db,
      older.id < k → k ≤ later.id → older.timestamp < later.timestamp)
    (member : row ∈ roomRows reading.db) (from_k : k ≤ row.id) : reading.Recent row := by
  refine Nat.le_trans (List.countP_mono_left fun other there late => ?_) few
  replace late : row.timestamp ≤ other.timestamp := of_decide_eq_true late
  refine decide_eq_true (Nat.le_of_not_lt fun earlier => ?_)
  have before := clock other there row member earlier from_k
  omega

theorem mem_of_recent (ok : reading.ok = true) (stored : row ∈ reading.db.messages)
    (room : row.toUser = Database.roomTarget) (recent : reading.Recent row) :
    row ∈ reading.rows := by
  have same : reading.db.messages.filter (Database.inHistory "" Database.roomTarget) =
      roomRows reading.db := by
    refine List.filter_congr fun other _ => ?_
    simp [Database.inHistory, room_cString]
  unfold rows Database.selectHistory
  rw [if_pos ok, same]
  refine (HistoryOrder.selected_of_order reading.order _ _).mem_of_countFrom ?_ recent
  exact List.mem_filter.mpr ⟨stored, decide_eq_true room⟩

end Reading

end LinuxChat.Guarantees.Transcript
