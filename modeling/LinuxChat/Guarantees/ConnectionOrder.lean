import LinuxChat.Guarantees.Playback
import LinuxChat.Guarantees.ConnectionOrder.Threads

/-!
# The order of the messages of one connection

The tasks of one connection leave the queue in the order received
(server/src/epoll_server.cpp:278-306), but several workers run them at once
(server/src/thread_pool.cpp:11-35). `Order` is a history variable: it numbers the tasks
as they are enqueued and writes down every action done for one of them; `Flow` beside it
keeps what `recv_msgs` returned. In every run in which no worker begins a message while
another one has an earlier message of its connection in hand, what is done for a
connection is done message by message, in the order in which `recv_msgs` returned them.
-/

namespace LinuxChat.Guarantees.ConnectionOrder

open LinuxChat.Lib LinuxChat.Source Prog
open MessageFlow (Arrival Flow arrivalOf tracing)

/-! ## From `recv_msgs` to the queue -/

theorem take_enqueued (o : Order) (t : Nat) : (o.take t).enqueued = o.enqueued := by
  unfold Order.take
  split
  · rfl
  · split <;> rfl

/-- Enqueued is what was taken from the queue and what is in it. -/
def Kept (s : Ordered) : Prop :=
  s.2.1.enqueued.map arrivalOf = s.2.2.taken ++ s.1.server.tasks.map arrivalOf

theorem Kept.act {workers : Nat} {s : Ordered} (kept : Kept s) (t : Nat) (w : World) (action : Act) :
    Kept ((ordered workers).exec t w action s).2 := by
  unfold Kept at kept ⊢
  have taken : ((ordered workers).exec t w action s).2.2.2.taken = s.2.2.taken := rfl
  rcases @next_queue workers t (s.1, s.2.1) action w with
    ⟨enqueued, _, tasks⟩ | ⟨task, enqueued, _, tasks⟩
  · exact (congrArg (List.map arrivalOf) enqueued).trans (kept.trans
      (congrArg (fun left => s.2.2.taken ++ List.map arrivalOf left) tasks.symm))
  · refine (congrArg (List.map arrivalOf) enqueued).trans ?_
    refine Eq.trans ?_ (congrArg (fun left => s.2.2.taken ++ List.map arrivalOf left) tasks.symm)
    rw [List.map_append, List.map_append, kept, List.append_assoc]

theorem Kept.start {workers t : Nat} {p : Proc Unit} {s s' : Ordered} (kept : Kept s)
    (start : (ordered workers).spawn t p s s') : Kept s' := by
  obtain ⟨shared, order, flow⟩ := s'
  obtain ⟨started, written⟩ := start
  obtain ⟨orders, flows⟩ := Prod.mk.inj written
  subst orders
  subst flows
  unfold Kept at kept ⊢
  dsimp only at started ⊢
  have order : ((handling workers).start t s.1 s.2.1).enqueued = s.2.1.enqueued :=
    take_enqueued s.2.1 t
  have flow : (tracing workers).start t s.1 s.2.2 = s.2.2.take t s.1.server.tasks := rfl
  rw [order, flow]
  cases started with
  | event e =>
    have same : s.2.2.take 0 s.1.server.tasks = s.2.2 := if_pos rfl
    rw [same]
    exact kept
  | @task _ _ task rest worker inPool queued =>
    have moved : (s.2.2.take t s.1.server.tasks).taken = s.2.2.taken ++ [arrivalOf task] := by
      unfold Flow.take
      rw [if_neg (Nat.ne_of_gt worker), queued]
      rfl
    rw [moved, kept, queued]
    simp

/-- In every run, whatever its steps. -/
theorem kept_reached {workers : Nat} {db : Database} {allowed : Nat → Act → Ordered → Prop}
    {c : Config serverInterface Exn Ordered}
    (run : (ordered workers).Reaches allowed (orderedBoot db) c) : Kept c.shared := by
  induction run with
  | refl => rfl
  | tail run step ih =>
    cases step with
    | act input running ok => exact ih.act _ input _
    | spawn idle start => exact ih.start start

/-- In every run in which the workers wait their turn, and in every run of a single
worker, what is done for the messages of a connection is done in the order received. -/
theorem messages_in_order (workers : Nat) (db : Database) (c : Config serverInterface Exn Ordered)
    (run : (ordered workers).Reaches (InTurn workers) (orderedBoot db) c) : InOrder db c.shared := by
  have start : (inTurn workers db).Holds Resting ⟨((boot db).shared, {}), (boot db).thread⟩ :=
    ⟨sorted_boot workers db, fun _ => rfl⟩
  have numbered : (numbering workers).Reaches (fun t action s => Waits workers t action s.2)
      ⟨((boot db).shared, {}), (boot db).thread⟩ ⟨(c.shared.1, c.shared.2.1), c.thread⟩ :=
    run.first fun _ _ _ waits => waits
  have sorted := (Discipline.sound (inTurn_verified workers db) start numbered).inv
  have traced : (MessageFlow.traced workers).Reaches Machine.unrestricted
      (MessageFlow.tracedBoot db) ⟨(c.shared.1, c.shared.2.2), c.thread⟩ :=
    run.second fun _ _ _ _ => trivial
  have balanced := MessageFlow.balanced_of_run traced
  have kept : c.shared.2.1.enqueued.map arrivalOf =
    c.shared.2.2.taken ++ c.shared.1.server.tasks.map arrivalOf := kept_reached run
  have dispatched : c.shared.2.2.received =
      c.shared.2.1.enqueued.map arrivalOf ++ (c.shared.2.2.hand 0).pending := by
    rw [kept]
    exact balanced.fifo
  have arrived : ∀ m : Message, c.shared.2.1.enqueued[m.number]? = some m.task →
      c.shared.2.2.received[m.number]? = some (arrivalOf m.task) := by
    intro m known
    have bound := (List.getElem?_eq_some_iff.mp known).1
    rw [dispatched, List.getElem?_append_left (by rwa [List.length_map]), List.getElem?_map, known]
    rfl
  refine ⟨dispatched, sorted.queue, fun m left => arrived m (sorted.known m left),
    fun e member => arrived e.message (sorted.numbered e member), sorted.ordered, ?_, sorted.rows⟩
  intro e member n arrival received same earlier outstanding
  rcases outstanding with unqueued | ⟨m, left, rfl⟩
  · have bound := (List.getElem?_eq_some_iff.mp (sorted.numbered e member)).1
    exact absurd (Nat.lt_trans earlier bound) (Nat.not_lt_of_le unqueued)
  · have own := arrived m (sorted.known m left)
    rw [received] at own
    rw [Option.some.inj own] at same
    exact sorted.complete member left ⟨same, earlier⟩

/-! ## A login and two messages -/

/-- No message is in hand. -/
def Free (s : Ordered) : Prop := ∀ t, s.2.1.inHand t = none

theorem exec_inHand_other {workers t other : Nat} (differs : other ≠ t) (w : World) (action : Act)
    (s : Ordered) :
    ((ordered workers).exec t w action s).2.2.1.inHand other = s.2.1.inHand other :=
  inHand_other (s := (s.1, s.2.1)) w differs

theorem eval_inHand_other {workers t other : Nat} (differs : other ≠ t) (w : World)
    (p : Proc Unit) (s : Ordered) :
    (eval ((ordered workers).exec t) w p s).2.2.1.inHand other = s.2.1.inHand other := by
  induction p generalizing s with
  | ret value => rfl
  | raise error => rfl
  | act action _ ih => exact (ih _ _).trans (exec_inHand_other differs w action s)

/-- A thread alone is always in turn. -/
theorem permitted_alone {workers t : Nat} (w : World) (p : Proc Unit) {s : Ordered}
    (others : ∀ other, other ≠ t → s.2.1.inHand other = none) :
    Machine.Permitted (InTurn workers t) ((ordered workers).exec t) w p s := by
  induction p generalizing s with
  | ret value => trivial
  | raise error => trivial
  | act action _ ih =>
    refine ⟨?_, ih _ fun other differs => ?_⟩
    · cases action with
      | checkGeneration task =>
        intro _ own hand other m theirs
        by_cases actor : other = t
        · rw [actor, hand] at theirs
          cases theirs
          exact fun before => Nat.lt_irrefl _ before.2
        · rw [others other actor] at theirs
          cases theirs
      | _ => trivial
    · exact (exec_inHand_other differs w action s).trans (others other differs)

/-- One program of thread `t`, from start to end. -/
def alone (t : Nat) (w : World) (p : Proc Unit) (s : Ordered) : Ordered :=
  (eval ((ordered 2).exec t) w p s).2

/-- Worker `t` has run the oldest task. -/
def served (t : Nat) (s : Ordered) : Ordered :=
  alone t steadyWorld (runTask (oldest s.1)) (taken (books 2) t s)

theorem Free.alone {t : Nat} {w : World} {p : Proc Unit} {s : Ordered}
    (others : ∀ other, other ≠ t → s.2.1.inHand other = none)
    (ended : ((alone t w p s).2.1.inHand t).isNone = true) : Free (alone t w p s) := by
  intro other
  by_cases actor : other = t
  · rw [actor]
    exact Option.isNone_iff_eq_none.mp ended
  · exact (eval_inHand_other actor w p s).trans (others other actor)

theorem Free.taken {s : Ordered} (free : Free s) (t other : Nat) (differs : other ≠ t) :
    (taken (books 2) t s).2.1.inHand other = none := by
  have takes : (Guarantees.taken (books 2) t s).2.1 = s.2.1.take t := rfl
  rw [takes]
  unfold Order.take
  split
  · exact free other
  · split
    · exact (Function.update_of_ne differs _ _).trans (free other)
    · exact free other

/-- One connection has been accepted. -/
def connected : Ordered :=
  alone 0 steadyWorld (handleNewConnection 5 "10.0.0.1") (orderedBoot aliceDb).shared

/-- Its LOGIN is in the queue. -/
def asked : Ordered := alone 0 (deliver loginAlice) (handleClientEvent 5) connected

/-- A BROADCAST. -/
def speech (content : String) : Json :=
  .object [("type", .string "BROADCAST"), ("content", .string content)]

/-- One chunk with two frames, the bodies of two messages. -/
def speeches : World :=
  { steadyWorld with
    recvs := [.data ⟨[0, 0, 0, 1, 1, 0, 0, 0, 1, 2], by decide, by decide⟩]
    parse := fun body => .value (speech (if body = [1] then "one" else "two")) }

/-- Both BROADCASTs have been read in one call of `recv_msgs`, and are in the queue. -/
def told : Ordered := alone 0 speeches (handleClientEvent 5) (served 1 asked)

/-- Worker 1 has run the LOGIN, then the workers one BROADCAST each. -/
def spoken : Ordered := served 2 (served 1 told)

theorem spoken_reached :
    (ordered 2).Reaches (InTurn 2) (orderedBoot aliceDb) ⟨spoken, fun _ => .ret ()⟩ := by
  have start : (ordered 2).Reaches (InTurn 2) (orderedBoot aliceDb) (orderedBoot aliceDb) := .refl
  have free : Free (orderedBoot aliceDb).shared := fun _ => rfl
  have accepts := record_event (.newConnection 5 "10.0.0.1") steadyWorld start
    (fun _ member => nomatch member) rfl (permitted_alone _ _ fun other _ => free other) (by decide)
  have free₁ : Free connected := Free.alone (fun other _ => free other) (by decide)
  have reads := record_event (.client 5) (deliver loginAlice) accepts trivial rfl
    (permitted_alone _ _ fun other _ => free₁ other) (by decide +kernel)
  have free₂ : Free asked := Free.alone (fun other _ => free₁ other) (by decide +kernel)
  have logs := record_task 1 steadyWorld reads (by decide) (by decide +kernel)
    (permitted_alone _ _ (free₂.taken 1)) (by decide +kernel)
  have free₃ : Free (served 1 asked) := Free.alone (free₂.taken 1) (by decide +kernel)
  have hears := record_event (.client 5) speeches logs trivial rfl
    (permitted_alone _ _ fun other _ => free₃ other) (by decide +kernel)
  have free₄ : Free told := Free.alone (fun other _ => free₃ other) (by decide +kernel)
  have first := record_task 1 steadyWorld hears (by decide) (by decide +kernel)
    (permitted_alone _ _ (free₄.taken 1)) (by decide +kernel)
  have free₅ : Free (served 1 told) := Free.alone (free₄.taken 1) (by decide +kernel)
  exact record_task 2 steadyWorld first (by decide) (by decide +kernel)
    (permitted_alone _ _ (free₅.taken 2)) (by decide +kernel)

/-- The contents of the messages received. -/
def contentsOf (arrivals : List Arrival) : List (Except Exn String) :=
  arrivals.map fun arrival => arrival.msg.value "content" ""

/-- Alice logs in and sends two messages that one `recv_msgs` returns; the rows stand in the order
she sent them. -/
theorem messages_in_order_spoken :
    contentsOf spoken.2.2.received = [.ok "pw", .ok "one", .ok "two"] ∧
      spoken.1.server.db.messages.map Row.content = ["one", "two"] ∧ InOrder aliceDb spoken :=
  ⟨by decide +kernel, by decide +kernel,
    messages_in_order 2 aliceDb ⟨spoken, fun _ => .ret ()⟩ spoken_reached⟩

/-- Alice sends two messages at once; worker 2 is done with the second before worker 1 has
started on the first. -/
def overtaking : List Turn :=
  accept 5 ++ read 5 loginAlice ++ work 1 40 ++ [.event (.client 5), .act 0 20 speeches,
    .take 1, .take 2, .act 2 20 steadyWorld, .act 1 20 steadyWorld]

instance (m later : Message) : Decidable (Before m later) :=
  inferInstanceAs (Decidable (_ ∧ _))

/-- The messages came in one order and their rows in the other. -/
def overtaken (c : Recorded (Order × Flow)) : Bool :=
  decide (contentsOf c.shared.2.2.received = [.ok "pw", .ok "one", .ok "two"]) &&
    c.shared.1.server.db.messages.map Row.content = ["two", "one"] &&
    !decide (c.shared.2.1.log.Pairwise fun e later => ¬ Before later.message e.message)

/-- Without the condition the second message of a connection can be handled and stored first. -/
theorem second_message_overtakes_first :
    ¬ ∀ workers db c, (ordered workers).Reaches Machine.unrestricted (orderedBoot db) c →
      InOrder db c.shared := by
  intro always
  have passes : (replay (books 2) overtaking (orderedBoot aliceDb)).any overtaken = true := by
    decide +kernel
  obtain ⟨c, run, swapped⟩ := reaches_of_replay passes
  simp only [overtaken, Bool.and_eq_true, Bool.not_eq_true', decide_eq_false_iff_not] at swapped
  exact swapped.2 (always 2 aliceDb c run).ordered

end LinuxChat.Guarantees.ConnectionOrder
