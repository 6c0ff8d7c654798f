import LinuxChat.Lib.Monitor
import LinuxChat.Lib.History
import LinuxChat.Guarantees.Handlers
import LinuxChat.Guarantees.Playback

/-!
# The books of the message flow

`Flow` is a history variable: which messages were received, taken from the queue, handled,
dropped as stale, and which are still in somebody's hand. The programs of the event loop and of
the workers treat the messages they have in hand as a monitor asks them to, and end with none.
-/

namespace LinuxChat.Guarantees.MessageFlow

open LinuxChat.Lib LinuxChat.Source Prog

/-! ## The books -/

/-- A message and the session it came in on. -/
structure Arrival where
  session : SessionRef
  msg : Json

/-- The message of a task. -/
def arrivalOf (task : Task) : Arrival := ⟨task.session, task.msg⟩

/-- What a thread has in hand: the session it has found, the rest of the batch it dispatches,
the generation it has captured, the task it has taken and not checked yet. -/
structure Hand where
  session : Option SessionRef := none
  pending : List Arrival := []
  stamp : Option (SessionRef × Nat) := none
  task : Option Task := none

/-- The messages that one `recv_msgs` returned, none where it gave up or threw. -/
def batch (session : SessionRef) : Except Exn (Option (List Json)) → List Arrival
  | .ok (some msgs) => msgs.map fun msg => ⟨session, msg⟩
  | _ => []

/-- A thread finds a session, receives a batch, stamps its messages and hands them on one by one;
a worker has the task it took until the check is over. -/
def Hand.follow (hand : Hand) : (action : Act) → action.Res → Hand
  | .findByFd _, found => { hand with session := found }
  | .recvMsgs session, result => { hand with pending := hand.pending ++ batch session result }
  | .hasMessageHandler, registered =>
    if registered then hand else { hand with pending := hand.pending.tail }
  | .generation session, captured => { hand with stamp := some (session, captured) }
  | .enqueue _, accepted => if accepted then { hand with pending := hand.pending.tail } else hand
  | .checkGeneration _, _ => { hand with task := none }
  | _, _ => hand

/-- The messages received, taken from the queue, handled and dropped as stale so far, and what
every thread has in hand. -/
structure Flow where
  received : List Arrival := []
  taken : List Arrival := []
  handled : List Arrival := []
  stale : List Arrival := []
  hand : Nat → Hand := fun _ => {}

namespace Flow

/-- The messages that an action receives. -/
def receive (received : List Arrival) : (action : Act) → action.Res → List Arrival
  | .recvMsgs session, result => received ++ batch session result
  | _, _ => received

/-- The messages whose check came out as `passes`. -/
def check (passes : Bool) (checked : List Arrival) : (action : Act) → action.Res → List Arrival
  | .checkGeneration task, current =>
    if current = passes then arrivalOf task :: checked else checked
  | _, _ => checked

/-- One action of a thread. -/
def record (flow : Flow) (t : Nat) (action : Act) (result : action.Res) : Flow where
  received := receive flow.received action result
  taken := flow.taken
  handled := check true flow.handled action result
  stale := check false flow.stale action result
  hand := Function.update flow.hand t ((flow.hand t).follow action result)

/-- A worker takes the oldest task. -/
def take (flow : Flow) (t : Nat) (tasks : List Task) : Flow :=
  if t = 0 then flow
  else { flow with
    taken := flow.taken ++ (tasks.head?.map arrivalOf).toList
    hand := Function.update flow.hand t { flow.hand t with task := tasks.head? } }

end Flow

/-- The history variable that follows messages. -/
def tracing (workers : Nat) : History (machine workers) Flow where
  record t action result _ _ flow := flow.record t action result
  start t s flow := flow.take t s.server.tasks

/-- The server with the messages received so far and what became of them. -/
abbrev Traced := Shared × Flow

/-- The server with that history. -/
abbrev traced (workers : Nat) : Machine serverInterface Exn Traced World :=
  (machine workers).recording (tracing workers)

/-- The server as `main` starts it; nothing has been received. -/
def tracedBoot (db : Database) : Config serverInterface Exn Traced :=
  ⟨((boot db).shared, {}), (boot db).thread⟩

/-! ## What the programs do with messages -/

/-- Only the event loop receives, on the session it has found, and it enqueues its batch in
order, each message under the generation just captured; a worker checks the task it has
taken. -/
def carrying : Monitor serverInterface (Bool × Hand) where
  next h action result := (h.1, h.2.follow action result)
  ok h
    | .recvMsgs _ => h.1 = true
    | .generation session => h.2.session = some session
    | .enqueue task => h.1 = true ∧ h.2.stamp = some (task.session, task.genAtDispatch) ∧
      ∃ rest, h.2.pending = arrivalOf task :: rest
    | .checkGeneration task => h.1 = false ∧ h.2.task = some task
    | _ => True

/-- A thread that has returned has nothing in hand any more. -/
def Empty (h : Bool × Hand) : Prop := h.2.pending = [] ∧ h.2.task = none

/-- How a thread may end: an exception leaves the event loop with the rest of its batch. -/
def Ended : Except Exn Unit → Bool × Hand → Prop
  | .ok _, h => Empty h
  | .error _, h => h.2.task = none

/-- Nothing is received, dispatched or checked. -/
def Handless : Act → Prop
  | .recvMsgs _ => False
  | .hasMessageHandler => False
  | .generation _ => False
  | .enqueue _ => False
  | .checkGeneration _ => False
  | _ => True

theorem handless_ok (action : Act) (handless : Handless action) (h : Bool × Hand) (empty : Empty h) :
    carrying.ok h action ∧ ∀ result, Empty (carrying.next h action result) := by
  cases action with
  | recvMsgs | hasMessageHandler | generation | enqueue | checkGeneration => cases handless
  | _ => exact ⟨trivial, fun _ => empty⟩

theorem meets_handless {α : Type} {p : Proc α} (handless : p.Forall Handless) {h : Bool × Hand}
    (empty : Empty h) : p.Meets carrying (fun _ h' => Empty h') h :=
  meets_of_forall (fun action handless h empty => handless_ok action handless h empty) handless empty

theorem handless_leaving : Leaving Handless where
  clock := trivial
  list := trivial
  scan _ := trivial
  find _ := trivial
  users _ _ _ := trivial
  notify _ _ _ := trivial
  gate _ := trivial
  name _ := trivial
  offline _ := trivial
  unname _ := trivial
  erase _ := trivial
  registered := trivial
  pending _ := trivial
  cleanup _ := trivial
  unpend _ := trivial
  drop _ := trivial

theorem handless_inRoute (action : Act) (inRoute : InRoute action) : Handless action := by
  cases action with
  | recvMsgs | hasMessageHandler | generation | enqueue | checkGeneration => cases inRoute
  | _ => trivial

/-- A worker checks the task it has taken first, and handles it or drops it. -/
theorem meets_runTask (task : Task) {h : Bool × Hand} (worker : h.1 = false)
    (own : h.2.task = some task) (idle : h.2.pending = []) :
    (runTask task).Meets carrying Ended h := by
  have drops : ∀ h : Bool × Hand, Empty h →
      (.act (.dropSession task.session) .ret : Proc Unit).Meets carrying Ended h :=
    fun h empty => ⟨trivial, fun _ => empty⟩
  rw [runTask_eq]
  refine ⟨⟨worker, own⟩, fun current => ?_⟩
  have empty : Empty (carrying.next h (.checkGeneration task) current) := ⟨idle, rfl⟩
  cases current with
  | false => exact drops _ empty
  | true =>
    have routed := meets_handless (forall_route_of handless_inRoute task.session task.msg) empty
    have caught : ((route task.session task.msg).tryCatch fun _ => .ret ()).Meets carrying
        (fun _ h' => Empty h') (carrying.next h (.checkGeneration task) true) :=
      routed.tryCatch (fun _ _ empty => empty) fun _ _ empty => empty
    exact caught.bind (fun _ h' empty => drops h' empty) fun _ _ empty => empty.2

/-- The event loop has this batch still to dispatch. -/
structure Carries (session : SessionRef) (msgs : List Json) (h : Bool × Hand) : Prop where
  loop : h.1 = true
  found : h.2.session = some session
  batch : h.2.pending = msgs.map fun msg => ⟨session, msg⟩
  untasked : h.2.task = none

theorem meets_dispatchOne {session : SessionRef} {msg : Json} {rest : List Json} {h : Bool × Hand}
    (carries : Carries session (msg :: rest) h) :
    (dispatchOne session msg).Meets carrying (fun o h' => match o with
      | .ok _ => Carries session rest h'
      | .error _ => h'.2.task = none) h := by
  obtain ⟨loop, found, batch, untasked⟩ := carries
  have shorter : h.2.pending.tail = rest.map fun msg => ⟨session, msg⟩ := by
    rw [batch]
    rfl
  have enqueues : (Prog.act .hasMessageHandler fun registered =>
      if registered then stampAndEnqueue session msg else .ret () : Proc Unit).Meets carrying
        (fun o h' => match o with
          | .ok _ => Carries session rest h'
          | .error _ => h'.2.task = none) h := by
    refine ⟨trivial, fun registered => ?_⟩
    cases registered with
    | false => exact ⟨loop, found, shorter, untasked⟩
    | true =>
      refine ⟨found, fun captured => ?_⟩
      dsimp only
      rw [enqueueTask_eq]
      refine ⟨⟨loop, rfl, rest.map fun msg => ⟨session, msg⟩, batch⟩, fun accepted => ?_⟩
      cases accepted with
      | true => exact ⟨loop, found, shorter, untasked⟩
      | false => exact untasked
  rw [dispatchOne_eq]
  refine ⟨trivial, fun authenticated => ?_⟩
  dsimp only
  split
  · unfold valueOf
    cases msg.value "type" "" with
    | error e => exact untasked
    | ok type => exact enqueues
  · exact enqueues

theorem meets_dispatch {session : SessionRef} {msgs : List Json} {h : Bool × Hand}
    (carries : Carries session msgs h) : (dispatch session msgs).Meets carrying Ended h := by
  induction msgs generalizing h with
  | nil => exact ⟨carries.batch, carries.untasked⟩
  | cons msg rest ih =>
    exact (meets_dispatchOne carries).bind (fun _ h' carries' => ih carries')
      fun _ _ untasked => untasked

/-- The event loop enqueues what it has received message by message, and has nothing left at the
end unless the dispatch loop threw. -/
theorem meets_event (e : Event) {h : Bool × Hand} (loop : h.1 = true) (empty : Empty h) :
    e.program.Meets carrying Ended h := by
  have ends : ∀ {p : Proc Unit} {h : Bool × Hand}, p.Forall Handless → Empty h →
      p.Meets carrying Ended h := by
    intro p h handless empty
    refine (meets_handless handless empty).mono fun o h' empty => ?_
    cases o with
    | ok value => exact empty
    | error e => exact empty.2
  cases e with
  | newConnection fd ip => exact ends ⟨trivial, fun _ => trivial⟩ empty
  | heartbeat => exact ends (forall_broadcast trivial fun _ => trivial) empty
  | client fd =>
    change (handleClientEvent fd).Meets carrying Ended h
    rw [handleClientEvent_eq]
    refine ⟨trivial, fun found => ?_⟩
    cases found with
    | none => exact empty
    | some session =>
      refine ⟨loop, fun received => ?_⟩
      have hand : h.2.pending ++ batch session received = batch session received := by
        rw [empty.1]
        rfl
      cases received with
      | error e => exact empty.2
      | ok msgs =>
        cases msgs with
        | none => exact ends (forall_removeClient handless_leaving fd) ⟨hand, empty.2⟩
        | some msgs => exact meets_dispatch ⟨loop, rfl, hand, empty.2⟩

/-- What the monitor sees of a thread: whether it is the event loop, and what it has in hand. -/
abbrev viewOf (s : Traced) (t : Nat) : Bool × Hand := (decide (t = 0), s.2.hand t)

/-- Every program keeps to the monitor, and the hands in the history variable are what the monitor
sees. -/
theorem follows (workers : Nat) : (traced workers).Follows carrying viewOf Ended where
  acts t w action s u := by
    by_cases same : u = t
    · subst same
      rw [if_pos rfl]
      exact Prod.ext rfl (Function.update_self _ _ _)
    · rw [if_neg same]
      exact Prod.ext rfl (Function.update_of_ne same _ _)
  starts t p s s' start := by
    obtain ⟨shared, flow⟩ := s'
    obtain ⟨started, takes⟩ := start
    replace takes : flow = s.2.take t s.1.server.tasks := takes
    subst takes
    dsimp only at started
    have others : ∀ u, u ≠ t → (s.2.take t s.1.server.tasks).hand u = s.2.hand u := by
      intro u differs
      unfold Flow.take
      split
      · rfl
      · exact Function.update_of_ne differs _ _
    refine ⟨fun u differs => Prod.ext rfl (others u differs), fun empty => ?_⟩
    cases started with
    | event e => exact meets_event e rfl empty
    | @task _ _ task rest worker inPool queued =>
      have hand : (s.2.take t s.1.server.tasks).hand t = { s.2.hand t with task := some task } := by
        unfold Flow.take
        rw [if_neg (Nat.ne_of_gt worker), queued]
        exact Function.update_self _ _ _
      refine meets_runTask task (decide_eq_false (Nat.ne_of_gt worker)) ?_ ?_
      · change ((s.2.take t s.1.server.tasks).hand t).task = some task
        rw [hand]
      · change ((s.2.take t s.1.server.tasks).hand t).pending = []
        rw [hand]
        exact empty.1

end LinuxChat.Guarantees.MessageFlow
