import LinuxChat.Lib.Ties
import LinuxChat.Source.Database

/-!
# The order of a history

`get_history` (server/src/database.cpp:177-217) on what a sequence of `store_message`
calls with non-decreasing timestamps left. SQLite may order rows of one second as it
likes, in the sort before the cut and in the one after it, and binds every text up to
its first NUL.
-/

namespace LinuxChat.Guarantees.HistoryOrder

open LinuxChat.Lib LinuxChat.Source

/-- The order that puts `row` first among the rows of its second, in both sorts. -/
def favouring (row : Row) : OrderBy where
  desc rows := rows.insertionSort (Favours (fun r => -r.timestamp) row)
  desc_perm rows := List.perm_insertionSort _ rows
  desc_sorted rows := by
    refine (List.pairwise_insertionSort _ rows).imp fun h => ?_
    have le := Favours.le h
    omega
  asc rows := rows.insertionSort (Favours Row.timestamp row)
  asc_perm rows := List.perm_insertionSort _ rows
  asc_sorted rows := (List.pairwise_insertionSort _ rows).imp Favours.le

theorem selected_of_order (order : OrderBy) (k : Nat) (rows : List Row) :
    Selected Row.timestamp k rows (order.asc ((order.desc rows).take k)) :=
  ⟨⟨order.desc rows, order.desc_perm rows, order.desc_sorted rows, order.asc_perm _⟩,
    order.asc_sorted _⟩

/-- Under every order of ties the query answers `expected` exactly when ties cannot be
seen and the latest rows look like `expected`. -/
theorem answers_iff {β : Type} (f : Row → β) (k : Nat) {rows : List Row} (distinct : rows.Nodup)
    (sorted : rows.Pairwise fun a b => a.timestamp ≤ b.timestamp) (expected : List β) :
    (∀ order : OrderBy, (order.asc ((order.desc rows).take k)).map f = expected) ↔
      Untied Row.timestamp f k rows ∧ (latest k rows).map f = expected := by
  constructor
  · intro answers
    have untied : Untied Row.timestamp f k rows := by
      intro x hx y hy tie
      have nodup : ∀ order : OrderBy, (order.asc ((order.desc rows).take k)).Nodup := by
        intro order
        refine (order.asc_perm _).nodup_iff.mpr ?_
        exact ((order.desc_perm rows).nodup_iff.mpr distinct).sublist (List.take_sublist _ _)
      have hx' := favoured_taken ((favouring x).desc_perm rows)
        (List.pairwise_insertionSort _ rows) sorted hx hy tie
      have hy' := favoured_taken ((favouring y).desc_perm rows)
        (List.pairwise_insertionSort _ rows) sorted (latest_subset hy) hy rfl
      have keys := (selected_of_order (favouring x) k rows).keys sorted
      have keys' := (selected_of_order (favouring y) k rows).keys sorted
      exact alike_of_favoured tie (List.pairwise_insertionSort _ _)
        (List.pairwise_insertionSort _ _) (nodup (favouring x)) (nodup (favouring y))
        (((favouring x).asc_perm _).mem_iff.mpr hx') (((favouring y).asc_perm _).mem_iff.mpr hy')
        (keys.trans keys'.symm) ((answers (favouring x)).trans (answers (favouring y)).symm)
    refine ⟨untied, ?_⟩
    rw [← answers .stable]
    exact ((selected_of_order .stable k rows).shown sorted untied).symm
  · rintro ⟨untied, rfl⟩ order
    exact (selected_of_order order k rows).shown sorted untied

/-! ## Calls of `store_message` -/

/-- `ok` says whether SQLite carried the insert out. -/
structure StoreCall where
  ok : Bool
  sender : String
  toUser : String
  content : String
  timestamp : Int

/-- The row of a call. -/
def StoreCall.row (id : Nat) (call : StoreCall) : Row :=
  ⟨id, cString call.sender, cString call.toUser, cString call.content, call.timestamp⟩

/-- The message of a call, as `get_history` writes messages. -/
def StoreCall.json (call : StoreCall) : Json :=
  .object [("from", .string call.sender), ("content", .string call.content),
    ("timestamp", .number call.timestamp)]

/-- The database after the calls, from an empty one on. -/
def storeAll (calls : List StoreCall) : Database :=
  calls.foldl (fun db call =>
    db.storeMessage call.ok call.sender call.toUser call.content call.timestamp) {}

/-- Of the room, or between `requestor` and `target`, as far as `cut` leaves the names. -/
def StoreCall.inConversation (cut : String → String) (requestor target : String)
    (call : StoreCall) : Bool :=
  if target = Database.roomTarget then decide (cut call.toUser = Database.roomTarget)
  else decide (cut call.sender = cut requestor) && decide (cut call.toUser = cut target) ||
    decide (cut call.sender = cut target) && decide (cut call.toUser = cut requestor)

/-- The messages stored in the conversation of `requestor` with `target`. -/
def stored (calls : List StoreCall) (requestor target : String) : List StoreCall :=
  calls.filter fun call => call.ok && call.inConversation id requestor target

/-- Those with names that agree with the conversation's up to the first NUL. -/
def alike (calls : List StoreCall) (requestor target : String) : List StoreCall :=
  calls.filter fun call => call.ok && call.inConversation cString requestor target

/-- What a history shows of the call's row; its number does not appear in it. -/
def StoreCall.shown (call : StoreCall) : Json :=
  Database.historyJson (call.row 0)

/-- The rows of calls that succeed, numbered from `id` on. -/
def rowsFrom (id : Nat) : List StoreCall → List Row
  | [] => []
  | call :: later => if call.ok then call.row id :: rowsFrom (id + 1) later else rowsFrom id later

theorem storeAll_messages (calls : List StoreCall) : (storeAll calls).messages = rowsFrom 1 calls := by
  have general : ∀ (calls : List StoreCall) (db : Database),
      (calls.foldl (fun db call =>
        db.storeMessage call.ok call.sender call.toUser call.content call.timestamp) db).messages =
        db.messages ++ rowsFrom db.nextId calls := by
    intro calls
    induction calls with
    | nil => simp [rowsFrom]
    | cons call later ih =>
      intro db
      rw [List.foldl_cons, ih, rowsFrom]
      cases ok : call.ok <;> simp [Database.storeMessage, StoreCall.row]
  exact general calls {}

theorem rowsFrom_ids (calls : List StoreCall) (id : Nat) :
    ∀ row ∈ rowsFrom id calls, id ≤ row.id := by
  induction calls generalizing id with
  | nil => exact fun row h => absurd h List.not_mem_nil
  | cons call later ih =>
    intro row h
    unfold rowsFrom at h
    split at h
    · rcases List.mem_cons.mp h with rfl | h
      · exact Nat.le_refl id
      · have bound := ih (id + 1) row h
        omega
    · exact ih id row h

theorem rowsFrom_nodup (calls : List StoreCall) (id : Nat) : (rowsFrom id calls).Nodup := by
  induction calls generalizing id with
  | nil => exact List.nodup_nil
  | cons call later ih =>
    unfold rowsFrom
    split
    · refine List.nodup_cons.mpr ⟨fun h => ?_, ih (id + 1)⟩
      have bound := rowsFrom_ids later (id + 1) _ h
      simp only [StoreCall.row] at bound
      omega
    · exact ih id

/-- Whatever does not look at the row's number is the same of rows and calls. -/
theorem rowsFrom_filter_map {β : Type} (p : Row → Bool) (f : Row → β)
    (blindp : ∀ (call : StoreCall) id, p (call.row id) = p (call.row 0))
    (blindf : ∀ (call : StoreCall) id, f (call.row id) = f (call.row 0)) (calls : List StoreCall)
    (id : Nat) :
    ((rowsFrom id calls).filter p).map f =
      (calls.filter fun call => call.ok && p (call.row 0)).map fun call => f (call.row 0) := by
  induction calls generalizing id with
  | nil => rfl
  | cons call later ih =>
    unfold rowsFrom
    cases ok : call.ok with
    | false => simpa [ok] using ih id
    | true =>
      have front := blindp call id
      cases here : p (call.row 0) with
      | false => simpa [ok, here, front] using ih (id + 1)
      | true => simpa [ok, here, front, blindf call id] using ih (id + 1)

theorem rowsFrom_sorted (calls : List StoreCall)
    (sorted : calls.Pairwise fun a b => a.timestamp ≤ b.timestamp) (id : Nat) :
    (rowsFrom id calls).Pairwise fun a b => a.timestamp ≤ b.timestamp := by
  have times := rowsFrom_filter_map (fun _ => true) Row.timestamp (fun _ _ => rfl)
    (fun _ _ => rfl) calls id
  have ups : ((rowsFrom id calls).map Row.timestamp).Pairwise (· ≤ ·) := by
    rw [List.filter_eq_self.mpr fun _ _ => rfl] at times
    rw [times]
    exact List.pairwise_map.mpr (sorted.sublist List.filter_sublist)
  exact List.pairwise_map.mp ups

/-! ## The answer of a query -/

theorem inHistory_row (requestor target : String) (call : StoreCall) (id : Nat) :
    Database.inHistory requestor target (call.row id) =
      call.inConversation cString requestor target := by
  have room : cString Database.roomTarget = Database.roomTarget := by decide
  unfold Database.inHistory StoreCall.inConversation
  by_cases everyone : target = Database.roomTarget
  · rw [if_pos everyone, if_pos everyone, everyone, room]
    rfl
  · rw [if_neg everyone, if_neg everyone]
    rfl

theorem getHistory_iff {calls : List StoreCall}
    (sorted : calls.Pairwise fun a b => a.timestamp ≤ b.timestamp) (requestor target : String)
    (limit : Int) (expected : List Json) :
    (∀ order, (storeAll calls).getHistory order true requestor target limit = expected) ↔
      Untied StoreCall.timestamp StoreCall.shown (Database.clampLimit limit)
        (alike calls requestor target) ∧
      (latest (Database.clampLimit limit) (alike calls requestor target)).map StoreCall.shown =
        expected := by
  have blindp : ∀ (call : StoreCall) id,
      Database.inHistory requestor target (call.row id) =
        Database.inHistory requestor target (call.row 0) := fun _ _ => rfl
  have chosen : (calls.filter fun call => call.ok &&
      Database.inHistory requestor target (call.row 0)) = alike calls requestor target :=
    List.filter_congr fun call _ => by rw [inHistory_row]
  have pairs := rowsFrom_filter_map (Database.inHistory requestor target)
    (fun row => (row.timestamp, Database.historyJson row)) blindp (fun _ _ => rfl) calls 1
  have looks := rowsFrom_filter_map (Database.inHistory requestor target) Database.historyJson
    blindp (fun _ _ => rfl) calls 1
  have distinct := (rowsFrom_nodup calls 1).sublist
    (List.filter_sublist (p := Database.inHistory requestor target))
  have ordered := (rowsFrom_sorted calls sorted 1).sublist
    (List.filter_sublist (p := Database.inHistory requestor target))
  have answers := answers_iff Database.historyJson (Database.clampLimit limit) distinct ordered
    expected
  rw [chosen] at pairs looks
  unfold Database.getHistory Database.selectHistory
  rw [storeAll_messages]
  simp only [if_true]
  rw [answers, untied_pairs, pairs, ← latest_map, looks]
  constructor
  · rintro ⟨untied, texts⟩
    rw [latest_map] at texts
    exact ⟨untied_pairs.mpr untied, texts⟩
  · rintro ⟨untied, texts⟩
    rw [latest_map]
    exact ⟨untied_pairs.mp untied, texts⟩

/-! ## Conversation order -/

/-- One query answers the latest messages of its conversation in the order stored, and the
query the other way round answers the same, whatever order SQLite chooses each time. -/
def LatestInOrder (calls : List StoreCall) (requestor target : String) (limit : Int) : Prop :=
  ∀ order order' : OrderBy,
    (storeAll calls).getHistory order true requestor target limit =
      (latest (Database.clampLimit limit) (stored calls requestor target)).map StoreCall.json ∧
    (target ≠ Database.roomTarget →
      (storeAll calls).getHistory order true requestor target limit =
        (storeAll calls).getHistory order' true target requestor limit)

/-- A history shows the two messages alike, but for the time. -/
def LooksLike (x y : StoreCall) : Prop :=
  cString x.sender = cString y.sender ∧ cString x.content = cString y.content

/-- Neither sender nor text is cut when it is bound. -/
def Plain (call : StoreCall) : Prop :=
  '\x00' ∉ call.sender.toList ∧ '\x00' ∉ call.content.toList

/-- No message of the same second as one of the latest `k` of `conversation` looks different. -/
def Undisturbed (k : Nat) (messages conversation : List StoreCall) : Prop :=
  ∀ x ∈ messages, ∀ y ∈ latest k conversation, x.timestamp = y.timestamp → LooksLike x y

/-- What the sequence of calls must be like for a conversation to be told in order. Messages
whose names agree with the conversation's only up to the first NUL must have enough of its
own messages in their second or behind it. A requestor named `__room__` gets the room's
messages in the query the other way round, so these must stand for the conversation's. -/
structure Clear (calls : List StoreCall) (requestor target : String) (limit : Int) : Prop where
  plain : ∀ call ∈ latest (Database.clampLimit limit) (stored calls requestor target), Plain call
  apart : ∀ call ∈ alike calls requestor target,
    call.inConversation id requestor target = false → Database.clampLimit limit ≤
      countFrom StoreCall.timestamp call.timestamp (stored calls requestor target)
  untied : Undisturbed (Database.clampLimit limit) (alike calls requestor target)
    (stored calls requestor target)
  room : requestor = Database.roomTarget → target ≠ Database.roomTarget →
    (∀ second, min (Database.clampLimit limit)
        (countFrom StoreCall.timestamp second (alike calls target requestor)) =
      min (Database.clampLimit limit)
        (countFrom StoreCall.timestamp second (stored calls requestor target))) ∧
    Undisturbed (Database.clampLimit limit) (alike calls target requestor)
      (stored calls requestor target)

theorem shown_iff {x y : StoreCall} :
    x.shown = y.shown ↔ x.timestamp = y.timestamp ∧ LooksLike x y := by
  simp only [StoreCall.shown, Database.historyJson, StoreCall.row, cString_cString,
    Json.object.injEq, List.cons.injEq, Prod.mk.injEq, Json.string.injEq, Json.number.injEq,
    true_and, and_true, LooksLike]
  exact ⟨fun ⟨sender, content, time⟩ => ⟨time, sender, content⟩,
    fun ⟨time, sender, content⟩ => ⟨sender, content, time⟩⟩

theorem plain_of_shown {x y : StoreCall} (same : x.shown = y.json) : Plain y := by
  simp only [StoreCall.shown, StoreCall.json, Database.historyJson, Json.object.injEq,
    List.cons.injEq, Prod.mk.injEq, Json.string.injEq, true_and] at same
  rw [Plain, ← same.1, ← same.2.1]
  exact ⟨nul_notMem_cString _, nul_notMem_cString _⟩

theorem Plain.shown {call : StoreCall} (plain : Plain call) : call.shown = call.json := by
  simp [StoreCall.shown, StoreCall.json, Database.historyJson, StoreCall.row,
    cString_eq_self plain.1, cString_eq_self plain.2]

theorem map_shown_of_plain {messages : List StoreCall} (plain : ∀ call ∈ messages, Plain call) :
    messages.map StoreCall.shown = messages.map StoreCall.json :=
  List.map_congr_left fun call member => (plain call member).shown

section
variable {calls : List StoreCall} {k : Nat}
  (sorted : calls.Pairwise fun a b => a.timestamp ≤ b.timestamp)
include sorted

/-- A query that selects `alike calls a b` tells the latest of `stored calls c d`. -/
theorem tells_iff (a b c d : String) :
    (Untied StoreCall.timestamp StoreCall.shown k (alike calls a b) ∧
      (latest k (alike calls a b)).map StoreCall.shown =
        (latest k (stored calls c d)).map StoreCall.json) ↔
    (∀ call ∈ latest k (stored calls c d), Plain call) ∧
      (∀ second, min k (countFrom StoreCall.timestamp second (alike calls a b)) =
        min k (countFrom StoreCall.timestamp second (stored calls c d))) ∧
      Undisturbed k (alike calls a b) (stored calls c d) := by
  have selected : (alike calls a b).Pairwise fun x y => x.timestamp ≤ y.timestamp :=
    sorted.sublist List.filter_sublist
  have kept : (stored calls c d).Pairwise fun x y => x.timestamp ≤ y.timestamp :=
    sorted.sublist List.filter_sublist
  have same := latest_shown_iff (k := k) (f := StoreCall.shown) selected kept fun x y equal =>
    (shown_iff.mp equal).1
  have looks : (∀ x ∈ alike calls a b, ∀ y ∈ latest k (stored calls c d),
      x.timestamp = y.timestamp → x.shown = y.shown) ↔
        Undisturbed k (alike calls a b) (stored calls c d) :=
    forall₂_congr fun _ _ => forall₂_congr fun _ _ => forall_congr' fun tie =>
      ⟨fun equal => (shown_iff.mp equal).2, fun looks => shown_iff.mpr ⟨tie, looks⟩⟩
  constructor
  · rintro ⟨untied, texts⟩
    have plain : ∀ call ∈ latest k (stored calls c d), Plain call := by
      intro call member
      obtain ⟨_, _, equal⟩ := List.mem_map.mp (texts ▸ List.mem_map_of_mem member)
      exact plain_of_shown equal
    rw [← map_shown_of_plain plain] at texts
    obtain ⟨counts, tied⟩ := same.mp ⟨untied, texts⟩
    exact ⟨plain, counts, looks.mp tied⟩
  · rintro ⟨plain, counts, tied⟩
    rw [← map_shown_of_plain plain]
    exact same.mpr ⟨counts, looks.mpr tied⟩

end

theorem inConversation_cut {requestor target : String} {call : StoreCall}
    (inside : call.inConversation id requestor target = true) :
    call.inConversation cString requestor target = true := by
  have room : cString Database.roomTarget = Database.roomTarget := by decide
  unfold StoreCall.inConversation at inside ⊢
  by_cases everyone : target = Database.roomTarget
  · rw [if_pos everyone] at inside ⊢
    have addressed : call.toUser = Database.roomTarget := of_decide_eq_true inside
    rw [addressed, room]
    exact decide_eq_true rfl
  · rw [if_neg everyone] at inside ⊢
    simp only [id, Bool.or_eq_true, Bool.and_eq_true, decide_eq_true_eq] at inside ⊢
    rcases inside with ⟨sender, addressee⟩ | ⟨sender, addressee⟩
    · exact Or.inl ⟨congrArg cString sender, congrArg cString addressee⟩
    · exact Or.inr ⟨congrArg cString sender, congrArg cString addressee⟩

theorem stored_eq_filter (calls : List StoreCall) (requestor target : String) :
    stored calls requestor target =
      (alike calls requestor target).filter fun call => call.inConversation id requestor target := by
  unfold stored alike
  rw [List.filter_filter]
  refine List.filter_congr fun call _ => ?_
  cases inside : call.inConversation id requestor target with
  | false => simp
  | true => simp [inConversation_cut inside]

/-- Between two users the query selects the same messages both ways. -/
theorem alike_swap {requestor target : String} (other : requestor ≠ Database.roomTarget)
    (other' : target ≠ Database.roomTarget) (calls : List StoreCall) :
    alike calls target requestor = alike calls requestor target := by
  refine List.filter_congr fun call _ => ?_
  unfold StoreCall.inConversation
  rw [if_neg other, if_neg other', Bool.or_comm]

/-- Whatever SQLite does with ties, a conversation is told as it was stored exactly when the
calls leave it clear. -/
theorem latest_in_order_iff (calls : List StoreCall)
    (sorted : calls.Pairwise fun a b => a.timestamp ≤ b.timestamp) (requestor target : String)
    (limit : Int) :
    LatestInOrder calls requestor target limit ↔ Clear calls requestor target limit := by
  have here := (getHistory_iff sorted requestor target limit _).trans
    (tells_iff sorted requestor target requestor target)
  have back := (getHistory_iff sorted target requestor limit _).trans
    (tells_iff sorted target requestor requestor target)
  have between : (∀ second, min (Database.clampLimit limit)
      (countFrom StoreCall.timestamp second (alike calls requestor target)) =
        min (Database.clampLimit limit)
          (countFrom StoreCall.timestamp second (stored calls requestor target))) ↔
      ∀ call ∈ alike calls requestor target, call.inConversation id requestor target = false →
        Database.clampLimit limit ≤
          countFrom StoreCall.timestamp call.timestamp (stored calls requestor target) := by
    rw [stored_eq_filter]
    exact counts_filter_iff _ _
  constructor
  · intro answers
    obtain ⟨plain, counts, untied⟩ := here.mp fun order => (answers order order).1
    refine ⟨plain, between.mp counts, untied, fun _ other => ?_⟩
    have swapped : ∀ order, (storeAll calls).getHistory order true target requestor limit =
        (latest (Database.clampLimit limit) (stored calls requestor target)).map StoreCall.json := by
      intro order
      obtain ⟨told, same⟩ := answers order order
      exact (same other).symm.trans told
    exact (back.mp swapped).2
  · intro clear order order'
    have counts := between.mpr clear.apart
    have told := here.mpr ⟨clear.plain, counts, clear.untied⟩
    refine ⟨told order, fun other => (told order).trans (Eq.symm ?_)⟩
    by_cases room : requestor = Database.roomTarget
    · exact back.mpr ⟨clear.plain, clear.room room other⟩ order'
    · refine back.mpr ⟨clear.plain, ?_⟩ order'
      rw [alike_swap room other]
      exact ⟨counts, clear.untied⟩

/-- Where no text holds a NUL, only different messages of one second can blur a conversation. -/
theorem clear_of_plain {calls : List StoreCall} {requestor target : String} {limit : Int}
    (plain : ∀ call ∈ calls, Plain call ∧ '\x00' ∉ call.toUser.toList)
    (names : '\x00' ∉ requestor.toList ∧ '\x00' ∉ target.toList)
    (other : requestor = Database.roomTarget → target = Database.roomTarget)
    (untied : Undisturbed (Database.clampLimit limit) (stored calls requestor target)
      (stored calls requestor target)) : Clear calls requestor target limit := by
  have whole : ∀ call ∈ calls, call.inConversation cString requestor target =
      call.inConversation id requestor target := by
    intro call member
    obtain ⟨⟨sender, _⟩, addressee⟩ := plain call member
    simp only [StoreCall.inConversation, cString_eq_self sender, cString_eq_self addressee,
      cString_eq_self names.1, cString_eq_self names.2, id]
  have same : alike calls requestor target = stored calls requestor target :=
    List.filter_congr fun call member => by rw [whole call member]
  refine ⟨fun call late => ?_, fun call selected outside => ?_, ?_, fun room apart => ?_⟩
  · exact (plain call (List.mem_filter.mp (latest_subset late)).1).1
  · rw [same] at selected
    have inside := (List.mem_filter.mp selected).2
    simp [outside] at inside
  · rw [same]
    exact untied
  · exact absurd (other room) apart

/-! ## A conversation beside another, and two messages of one second -/

/-- The first of two messages in different seconds. -/
def hello : StoreCall := ⟨true, "alice", "__room__", "hello", 1⟩

/-- The second of them. -/
def bye : StoreCall := ⟨true, "alice", "__room__", "bye", 2⟩

/-- Carol writes in the second of Bob's answer. -/
def whispers : List StoreCall :=
  [hello, ⟨true, "alice", "bob", "hi bob", 1⟩, ⟨true, "bob", "alice", "hi alice", 2⟩,
    ⟨true, "carol", "alice", "psst", 2⟩, ⟨true, "alice", "bob", "bye bob", 3⟩]

instance (call : StoreCall) : Decidable (Plain call) := inferInstanceAs (Decidable (_ ∧ _))

instance (x y : StoreCall) : Decidable (LooksLike x y) := inferInstanceAs (Decidable (_ ∧ _))

/-- The last two messages of Alice and Bob, asked for by either of them. -/
theorem latest_in_order_whispers :
    LatestInOrder whispers "alice" "bob" 2 ∧
      (latest 2 (stored whispers "alice" "bob")).map StoreCall.content = ["hi alice", "bye bob"] := by
  have sorted : whispers.Pairwise fun a b => a.timestamp ≤ b.timestamp := by
    decide
  have untied : ∀ x ∈ stored whispers "alice" "bob",
      ∀ y ∈ latest 2 (stored whispers "alice" "bob"), x.timestamp = y.timestamp →
        LooksLike x y := by
    decide +kernel
  refine ⟨(latest_in_order_iff whispers sorted "alice" "bob" 2).mpr ?_, by decide⟩
  exact clear_of_plain (by decide +kernel) (by decide) (by decide) untied

/-- `bye` in the same second as `hello`. -/
def byeAtOnce : StoreCall := { bye with timestamp := 1 }

/-- The contents in a history. -/
def contents (history : List Json) : List (Except Exn String) :=
  history.map fun json => json.value "content" ""

/-- SQLite may put the second message of a second first. -/
theorem same_second_out_of_order :
    ¬ ∀ (calls : List StoreCall), (calls.Pairwise fun a b => a.timestamp ≤ b.timestamp) →
      ∀ requestor target limit, LatestInOrder calls requestor target limit := by
  intro always
  have answered := (always [hello, byeAtOnce] (by simp [hello, byeAtOnce, bye]) "bob" "__room__" 20
    (favouring (byeAtOnce.row 2)) .stable).1
  have texts := congrArg contents answered
  revert texts
  decide +kernel

end LinuxChat.Guarantees.HistoryOrder
