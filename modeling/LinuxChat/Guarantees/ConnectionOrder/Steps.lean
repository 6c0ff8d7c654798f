import LinuxChat.Lib.History
import LinuxChat.Guarantees.Effects
import LinuxChat.Guarantees.MessageFlow

/-!
# Numbered messages

`Order` is a history variable: it numbers the tasks as they are enqueued and writes down every
action done for one of them. As long as no worker begins a message while another one has an
earlier message of its connection in hand, the actions for a connection are those of its
messages one after the other.
-/

namespace LinuxChat.Guarantees.ConnectionOrder

open LinuxChat.Lib LinuxChat.Source Prog
open MessageFlow (Arrival Flow arrivalOf tracing)

/-! ## Numbered messages -/

/-- The `number`-th task that was enqueued. -/
structure Message where
  number : Nat
  task : Task

/-- An action done for a message, with the rows it added. -/
structure Entry where
  message : Message
  action : Act
  rows : List Row

/-- The tasks enqueued so far, those still in the queue, what each worker has in hand, and
everything done for one of them. -/
structure Order where
  enqueued : List Task := []
  queued : List Message := []
  inHand : Nat → Option Message := fun _ => none
  log : List Entry := []

namespace Order

/-- An action of a thread that has a message in hand goes into the log, with the rows it added. -/
def write (o : Order) (t : Nat) (action : Act) (rows : List Row) : Order :=
  match o.inHand t with
  | some message => { o with log := o.log ++ [⟨message, action, rows⟩] }
  | none => o

/-- A task that the pool accepts gets the next number; the end of a task takes its message out of
the thread's hands. -/
def follow (o : Order) (t : Nat) : (action : Act) → action.Res → Order
  | .enqueue task, accepted =>
    if accepted then
      { o with
        enqueued := o.enqueued ++ [task]
        queued := o.queued ++ [⟨o.enqueued.length, task⟩] }
    else o
  | .dropSession _, _ => { o with inHand := Function.update o.inHand t none }
  | _, _ => o

/-- A worker takes the oldest message. -/
def take (o : Order) (t : Nat) : Order :=
  if t = 0 then o
  else
    match o.queued with
    | message :: rest => { o with queued := rest, inHand := Function.update o.inHand t (some message) }
    | [] => o

end Order

/-- The history variable that numbers tasks and logs what is done for which. -/
def handling (workers : Nat) : History (machine workers) Order where
  record t action result s s' o :=
    (o.write t action (s'.server.db.messages.drop s.server.db.messages.length)).follow t action result
  start t _ o := o.take t

/-- The server, the numbered tasks, and what `recv_msgs` returned. -/
abbrev Ordered := Shared × Order × Flow

/-- Both histories side by side. -/
abbrev books (workers : Nat) : History (machine workers) (Order × Flow) :=
  (handling workers).both (tracing workers)

/-- The server with what `recv_msgs` returned and what was done for which message. -/
abbrev ordered (workers : Nat) : Machine serverInterface Exn Ordered World :=
  (machine workers).recording (books workers)

/-- The server as `main` starts it, with empty books. -/
def orderedBoot (db : Database) : Config serverInterface Exn Ordered :=
  ⟨((boot db).shared, {}, {}), (boot db).thread⟩

/-- An earlier message of the same connection. -/
def Before (m later : Message) : Prop :=
  m.task.session.id = later.task.session.id ∧ m.number < later.number

/-- With several workers, a worker begins a message only when no other one has an earlier
message of its connection in hand. -/
def Waits (workers t : Nat) : Act → Order → Prop
  | .checkGeneration _, o => 1 < workers → ∀ own, o.inHand t = some own →
      ∀ other m, o.inHand other = some m → ¬ Before m own
  | _, _ => True

/-- The same condition on the server with both books. -/
def InTurn (workers t : Nat) (action : Act) (s : Ordered) : Prop := Waits workers t action s.2.1

/-- The message received as number `n` is on its way to the queue, queued or in hand. -/
def Outstanding (o : Order) (n : Nat) : Prop :=
  o.enqueued.length ≤ n ∨ ∃ m, (m ∈ o.queued ∨ ∃ t, o.inHand t = some m) ∧ m.number = n

/-- Numbers count the messages in the order in which `recv_msgs` returned them; those enqueued
are the first of them. What is done for a connection is done message by message, and no
earlier message of the connection is outstanding then. The rows of the run are those that
the actions added. -/
structure InOrder (db : Database) (s : Ordered) : Prop where
  dispatched : s.2.2.received = s.2.1.enqueued.map arrivalOf ++ (s.2.2.hand 0).pending
  queue : s.2.1.queued.map Message.task = s.1.server.tasks
  waiting : ∀ m, m ∈ s.2.1.queued ∨ (∃ t, s.2.1.inHand t = some m) →
    s.2.2.received[m.number]? = some (arrivalOf m.task)
  numbered : ∀ e ∈ s.2.1.log, s.2.2.received[e.message.number]? = some (arrivalOf e.message.task)
  ordered : s.2.1.log.Pairwise fun e later => ¬ Before later.message e.message
  complete : ∀ e ∈ s.2.1.log, ∀ n arrival, s.2.2.received[n]? = some arrival →
    arrival.session.id = e.message.task.session.id → n < e.message.number → ¬ Outstanding s.2.1 n
  rows : s.1.server.db.messages = db.messages ++ s.2.1.log.flatMap Entry.rows

/-! ## The invariant -/

/-- The server and the numbered tasks. -/
abbrev Numbered := Shared × Order

/-- The server with the numbered tasks only. -/
abbrev numbering (workers : Nat) : Machine serverInterface Exn Numbered World :=
  (machine workers).recording (handling workers)

/-- What the numbers say of the queue, the hands and the log, whichever tasks were enqueued. -/
structure Sorted (workers : Nat) (db : Database) (s : Numbered) : Prop where
  queue : s.2.queued.map Message.task = s.1.server.tasks
  known : ∀ m, m ∈ s.2.queued ∨ (∃ t, s.2.inHand t = some m) →
    s.2.enqueued[m.number]? = some m.task
  ascending : s.2.queued.Pairwise fun m later => m.number < later.number
  taken : ∀ m ∈ s.2.queued, ∀ t earlier, s.2.inHand t = some earlier → earlier.number < m.number
  logged : ∀ m ∈ s.2.queued, ∀ e ∈ s.2.log, e.message.number < m.number
  turn : ∀ e ∈ s.2.log, ∀ t m, s.2.inHand t = some m → ¬ Before m e.message
  workers : ∀ t m, s.2.inHand t = some m → 0 < t ∧ t ≤ workers
  numbered : ∀ e ∈ s.2.log, s.2.enqueued[e.message.number]? = some e.message.task
  ordered : s.2.log.Pairwise fun e later => ¬ Before later.message e.message
  rows : s.1.server.db.messages = db.messages ++ s.2.log.flatMap Entry.rows

theorem Sorted.complete {workers : Nat} {db : Database} {s : Numbered}
    (sorted : Sorted workers db s) {e : Entry} (member : e ∈ s.2.log) {m : Message}
    (left : m ∈ s.2.queued ∨ ∃ t, s.2.inHand t = some m) : ¬ Before m e.message := by
  intro before
  rcases left with queued | ⟨t, own⟩
  · have later := sorted.logged m queued e member
    have earlier := before.2
    omega
  · exact sorted.turn e member t m own before

/-- What a thread must know before an action: it stores rows only for a message in hand,
and no other thread has an earlier one of that connection. -/
def Sound (t : Nat) (s : Numbered) (action : Act) : Prop :=
  (s.2.inHand t = none ∧ ∀ sender toUser content timestamp,
      action ≠ .storeMessage sender toUser content timestamp) ∨
    ∃ own, s.2.inHand t = some own ∧ ∀ other m, s.2.inHand other = some m → ¬ Before m own

/-- Only the thread itself puts its message down; the log grows. -/
structure Leaves (t : Nat) (s s' : Numbered) : Prop where
  own : s'.2.inHand t = s.2.inHand t
  log : ∀ e ∈ s.2.log, e ∈ s'.2.log

/-- The discipline of the numbered tasks: they are sorted, and nobody touches what another thread
has in hand. -/
def inTurn (workers : Nat) (db : Database) : Discipline (numbering workers) where
  inv := Sorted workers db
  allowed t action s := Waits workers t action s.2
  rely := Leaves
  rely_refl _ _ := ⟨rfl, fun _ member => member⟩
  rely_trans _ _ _ _ h h' := ⟨h'.own.trans h.own, fun e member => h'.log e (h.log e member)⟩

/-! ## Steps -/

section
variable {workers t : Nat} {db : Database} {s : Numbered} {action : Act} (w : World)

/-- The state after an action of thread `t`. -/
abbrev next (workers t : Nat) (w : World) (action : Act) (s : Numbered) : Numbered :=
  ((numbering workers).exec t w action s).2

/-- The rows an action adds. -/
def added (w : World) (action : Act) (s : Numbered) : List Row :=
  (action.exec w s.1.server).2.db.messages.drop s.1.server.db.messages.length

theorem messages_grow (s : Server) :
    ∃ rows, (action.exec w s).2.db.messages = s.db.messages ++ rows ∧
      ((∀ sender toUser content timestamp,
        action ≠ .storeMessage sender toUser content timestamp) → rows = []) := by
  rw [exec_db]
  cases action with
  | storeMessage sender toUser content timestamp =>
    simp only [Database.storeMessage]
    split
    · exact ⟨_, rfl, fun other => absurd rfl (other sender toUser content timestamp)⟩
    · exact ⟨[], (List.append_nil _).symm, fun _ => rfl⟩
  | registerUser username hash =>
    refine ⟨[], ?_, fun _ => rfl⟩
    rw [List.append_nil]
    simp only [Database.registerUser]
    (repeat' split) <;> rfl
  | _ => exact ⟨[], (List.append_nil _).symm, fun _ => rfl⟩

theorem messages_added :
    (action.exec w s.1.server).2.db.messages = s.1.server.db.messages ++ added w action s := by
  obtain ⟨rows, grows, _⟩ := @messages_grow action w s.1.server
  unfold added
  rw [grows, List.drop_left]

theorem added_nil (other : ∀ sender toUser content timestamp,
    action ≠ .storeMessage sender toUser content timestamp) : added w action s = [] := by
  obtain ⟨rows, grows, none⟩ := @messages_grow action w s.1.server
  unfold added
  rw [grows, List.drop_left, none other]

theorem next_messages :
    (next workers t w action s).1.server.db.messages =
      s.1.server.db.messages ++ added w action s :=
  messages_added w

theorem next_order :
    (next workers t w action s).2 =
      (s.2.write t action (added w action s)).follow t action (action.exec w s.1.server).1 := rfl

theorem next_log :
    (next workers t w action s).2.log =
      s.2.log ++ (s.2.inHand t).toList.map fun m => ⟨m, action, added w action s⟩ := by
  have follows : ∀ o : Order, (o.follow t action (action.exec w s.1.server).1).log = o.log := by
    intro o
    cases action with
    | enqueue task =>
      simp only [Order.follow]
      split <;> rfl
    | _ => rfl
  refine (follows _).trans ?_
  unfold Order.write
  cases s.2.inHand t with
  | none => exact (List.append_nil _).symm
  | some m => rfl

theorem write_frame (o : Order) (rows : List Row) :
    (o.write t action rows).enqueued = o.enqueued ∧ (o.write t action rows).queued = o.queued ∧
      (o.write t action rows).inHand = o.inHand := by
  unfold Order.write
  cases o.inHand t <;> exact ⟨rfl, rfl, rfl⟩

theorem next_inHand :
    (next workers t w action s).2.inHand = s.2.inHand ∨
      (∃ x, action = .dropSession x) ∧
        (next workers t w action s).2.inHand = Function.update s.2.inHand t none := by
  have written := (@write_frame t action s.2 (added w action s)).2.2
  cases action with
  | enqueue task =>
    left
    rw [next_order, ← written]
    simp only [Order.follow]
    split <;> rfl
  | dropSession x =>
    refine Or.inr ⟨⟨x, rfl⟩, ?_⟩
    rw [next_order, ← written]
    rfl
  | _ => exact Or.inl written

theorem inHand_before {other : Nat} {m : Message}
    (own : (next workers t w action s).2.inHand other = some m) : s.2.inHand other = some m := by
  rcases @next_inHand workers t s action w with same | ⟨_, put⟩
  · rw [same] at own
    exact own
  · rw [put] at own
    by_cases actor : other = t
    · rw [actor, Function.update_self] at own
      cases own
    · rw [Function.update_of_ne actor] at own
      exact own

theorem inHand_other {other : Nat} (differs : other ≠ t) :
    (next workers t w action s).2.inHand other = s.2.inHand other := by
  rcases @next_inHand workers t s action w with
    same | ⟨_, put⟩
  · rw [same]
  · rw [put]
    exact Function.update_of_ne differs _ _

/-- A task is enqueued as the next message. -/
theorem next_queue :
    ((next workers t w action s).2.enqueued = s.2.enqueued ∧
      (next workers t w action s).2.queued = s.2.queued ∧
      (next workers t w action s).1.server.tasks = s.1.server.tasks) ∨
    ∃ task, (next workers t w action s).2.enqueued = s.2.enqueued ++ [task] ∧
      (next workers t w action s).2.queued = s.2.queued ++ [⟨s.2.enqueued.length, task⟩] ∧
      (next workers t w action s).1.server.tasks = s.1.server.tasks ++ [task] := by
  obtain ⟨enqueued, queued, _⟩ := @write_frame t action s.2 (added w action s)
  have tasks := exec_tasks w action s.1.server
  cases action with
  | enqueue task =>
    have accepted : (Act.exec w (.enqueue task) s.1.server).1 = !s.1.server.poolStop := by
      simp only [Act.exec]
      cases s.1.server.poolStop <;> rfl
    have follows := @next_order workers t s (.enqueue task) w
    rw [accepted] at follows
    cases stop : s.1.server.poolStop with
    | true =>
      rw [stop] at follows tasks
      exact Or.inl ⟨(congrArg Order.enqueued follows).trans enqueued,
        (congrArg Order.queued follows).trans queued, tasks⟩
    | false =>
      rw [stop] at follows tasks
      refine Or.inr ⟨task, (congrArg Order.enqueued follows).trans ?_,
        (congrArg Order.queued follows).trans ?_, tasks⟩
      · exact congrArg (· ++ [task]) enqueued
      · simp only [Order.follow, enqueued, queued]
        rfl
  | _ => exact Or.inl ⟨enqueued, queued, tasks⟩

/-- One action keeps the numbering: the log grows at its end only, by an entry of the message in
hand, and no earlier message of the connection is still outstanding. -/
theorem Sorted.step (sorted : Sorted workers db s) (sound : Sound t s action) :
    Sorted workers db (next workers t w action s) := by
  have log := @next_log workers t s action w
  -- the message whose action is written down has no earlier one in hand beside it
  have written : ∀ e ∈ (next workers t w action s).2.log, e ∈ s.2.log ∨
      (s.2.inHand t = some e.message ∧
        ∀ other m, s.2.inHand other = some m → ¬ Before m e.message) := by
    intro e member
    rw [log] at member
    rcases List.mem_append.mp member with old | new
    · exact Or.inl old
    · rcases sound with ⟨none, _⟩ | ⟨own, hand, first⟩
      · rw [none] at new
        cases new
      · rw [hand] at new
        rw [List.mem_singleton.mp new]
        exact Or.inr ⟨hand, first⟩
  have grown : ∀ (m : Message), s.2.enqueued[m.number]? = some m.task →
      (next workers t w action s).2.enqueued[m.number]? = some m.task := by
    intro m known
    rcases @next_queue workers t s action w with
      ⟨same, _⟩ | ⟨task, grows, _⟩
    · rw [same]
      exact known
    · rw [grows]
      rw [List.getElem?_append_left (List.getElem?_eq_some_iff.mp known).1]
      exact known
  have numbered : ∀ e ∈ (next workers t w action s).2.log,
      s.2.enqueued[e.message.number]? = some e.message.task := by
    intro e member
    rcases written e member with old | ⟨hand, _⟩
    · exact sorted.numbered e old
    · exact sorted.known e.message (Or.inr ⟨t, hand⟩)
  have below : ∀ (m : Message), s.2.enqueued[m.number]? = some m.task →
      m.number < s.2.enqueued.length :=
    fun m known => (List.getElem?_eq_some_iff.mp known).1
  -- a message of the queue was there before, or it is the one enqueued
  have waiting : ∀ m ∈ (next workers t w action s).2.queued, m ∈ s.2.queued ∨
      m.number = s.2.enqueued.length := by
    intro m member
    rcases @next_queue workers t s action w with
      ⟨_, same, _⟩ | ⟨task, _, grows, _⟩
    · rw [same] at member
      exact Or.inl member
    · rw [grows] at member
      rcases List.mem_append.mp member with old | new
      · exact Or.inl old
      · rw [List.mem_singleton.mp new]
        exact Or.inr rfl
  constructor
  · rcases @next_queue workers t s action w with
      ⟨_, queued, tasks⟩ | ⟨task, _, queued, tasks⟩
    · rw [queued, tasks]
      exact sorted.queue
    · rw [queued, tasks, List.map_append, sorted.queue]
      rfl
  · rintro m (member | ⟨other, own⟩)
    · rcases @next_queue workers t s action w with
        ⟨_, queued, _⟩ | ⟨task, enqueued, queued, _⟩
      · rw [queued] at member
        exact grown m (sorted.known m (Or.inl member))
      · rw [queued] at member
        rcases List.mem_append.mp member with old | new
        · exact grown m (sorted.known m (Or.inl old))
        · rw [List.mem_singleton.mp new, enqueued]
          exact List.getElem?_concat_length
    · exact grown m (sorted.known m (Or.inr ⟨other, inHand_before w own⟩))
  · rcases @next_queue workers t s action w with
      ⟨_, queued, _⟩ | ⟨task, _, queued, _⟩
    · rw [queued]
      exact sorted.ascending
    · rw [queued]
      refine List.pairwise_append.mpr ⟨sorted.ascending, List.pairwise_singleton _ _, ?_⟩
      intro m old later new
      rw [List.mem_singleton.mp new]
      exact below m (sorted.known m (Or.inl old))
  · intro m member other earlier own
    have before := inHand_before w own
    rcases waiting m member with old | new
    · exact sorted.taken m old other earlier before
    · rw [new]
      exact below earlier (sorted.known earlier (Or.inr ⟨other, before⟩))
  · intro m member e logged
    rcases waiting m member with old | new
    · rcases written e logged with before | ⟨hand, _⟩
      · exact sorted.logged m old e before
      · exact sorted.taken m old t e.message hand
    · rw [new]
      exact below e.message (numbered e logged)
  · intro e member other m own
    have before := inHand_before w own
    rcases written e member with old | ⟨_, first⟩
    · exact sorted.turn e old other m before
    · exact first other m before
  · intro other m own
    exact sorted.workers other m (inHand_before w own)
  · intro e member
    exact grown e.message (numbered e member)
  · rw [log]
    refine List.pairwise_append.mpr ⟨sorted.ordered, ?_, fun e old later new => ?_⟩
    · cases s.2.inHand t with
      | none => exact List.Pairwise.nil
      | some m => exact List.pairwise_singleton _ _
    · cases hand : s.2.inHand t with
      | none =>
        rw [hand] at new
        cases new
      | some m =>
        rw [hand] at new
        rw [List.mem_singleton.mp new]
        exact sorted.turn e old t m hand
  · rw [next_messages, sorted.rows, log, List.flatMap_append, List.append_assoc]
    congr 2
    cases hand : s.2.inHand t with
    | none =>
      rcases sound with ⟨_, other⟩ | ⟨own, some, _⟩
      · exact added_nil w other
      · rw [hand] at some
        cases some
    | some m => exact (List.append_nil _).symm

theorem keeps_of_sound (sorted : Sorted workers db s) (sound : Sound t s action) :
    (inTurn workers db).Keeps t s (next workers t w action s) := by
  refine ⟨sorted.step w sound, fun other differs => ⟨inHand_other w differs, fun e member => ?_⟩⟩
  rw [next_log]
  exact List.mem_append_left _ member

end

end LinuxChat.Guarantees.ConnectionOrder
