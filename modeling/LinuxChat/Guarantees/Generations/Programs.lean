import LinuxChat.Lib.Monitor
import LinuxChat.Guarantees.Handlers
import LinuxChat.Guarantees.Playback

/-!
# What the programs do with generations

`Removals` is a history variable: the session objects whose generation `remove_client` has
bumped. `handle_client_event` captures the generation of a session it has found, for a task of
that session; a worker checks the task it has taken, and only the event loop removes.
-/

namespace LinuxChat.Guarantees.Generations

open LinuxChat.Lib LinuxChat.Source Prog

/-! ## Accepting -/

/-- What an idle thread may start, with two freedoms more: `accept` may return any
descriptor, and a connection that `epoll_ctl` refuses has used up its generation. -/
inductive Accepting (workers : Nat) : Nat → Proc Unit → Shared → Shared → Prop
  | start {t : Nat} {p : Proc Unit} {s s' : Shared} (h : Start workers t p s s') :
      Accepting workers t p s s'
  | anyFd (fd : Nat) (ip : String) (s : Shared) :
      Accepting workers 0 (handleNewConnection fd ip) s s
  | refused (s : Shared) :
      Accepting workers 0 (.ret ()) s
        { s with server := { s.server with nextGeneration := s.server.nextGeneration + 1 } }

/-- The server whose event loop may also be in the middle of `accept4`. -/
def accepting (workers : Nat) : Machine serverInterface Exn Shared World where
  exec := execShared
  spawn := Accepting workers

/-! ## Removed sessions -/

/-- What a thread has in hand: the session it has found, the generation it has captured,
the task it has taken and not checked yet. -/
structure Dispatching where
  session : Option SessionRef := none
  stamp : Option (SessionRef × Nat) := none
  task : Option Task := none

/-- What the event loop has in hand: the session it has found, and the generation it has read of
it since. -/
def Dispatching.follow (d : Dispatching) : (action : Act) → action.Res → Dispatching
  | .findByFd _, found => { d with session := found, stamp := none }
  | .eraseSession _, _ => { d with session := none, stamp := none }
  | .generation session, captured => { d with stamp := some (session, captured) }
  | .checkGeneration _, _ => { d with task := none }
  | _, _ => d

/-- The sessions removed so far, and what every thread has in hand. -/
structure Removals where
  removed : List Nat := []
  inHand : Nat → Dispatching := fun _ => {}

namespace Removals

/-- The session that left the table counts as removed. -/
def bump (removed : List Nat) : (action : Act) → action.Res → List Nat
  | .eraseSession _, found => (found.map SessionRef.id).toList ++ removed
  | _, _ => removed

/-- One action of a thread. -/
def record (r : Removals) (t : Nat) (action : Act) (result : action.Res) : Removals where
  removed := bump r.removed action result
  inHand := Function.update r.inHand t ((r.inHand t).follow action result)

/-- A worker takes the oldest task. -/
def take (r : Removals) (t : Nat) (tasks : List Task) : Removals :=
  if t = 0 then r
  else { r with inHand := Function.update r.inHand t { r.inHand t with task := tasks.head? } }

end Removals

/-- The history variable that records removals. -/
def removing (workers : Nat) : History (accepting workers) Removals where
  record t action result _ _ r := r.record t action result
  start t s r := r.take t s.server.tasks

/-- The server with the removals so far. -/
abbrev Dated := Shared × Removals

/-- The server with the history of its removals. -/
abbrev dated (workers : Nat) : Machine serverInterface Exn Dated World :=
  (accepting workers).recording (removing workers)

/-- The server as `main` starts it; nothing has been removed. -/
def datedBoot (db : Database) : Config serverInterface Exn Dated :=
  ⟨((boot db).shared, {}), (boot db).thread⟩

/-! ## What the programs do with generations -/

/-- Only the event loop accepts, removes and dispatches. It captures the generation of
the session it has found, and enqueues with what it has captured; a worker checks the
task it has taken. -/
def dispatching : Monitor serverInterface (Bool × Dispatching) where
  next d action result := (d.1, d.2.follow action result)
  ok d
    | .storeSession _ _ => d.1 = true
    | .eraseSession _ => d.1 = true
    | .generation session => d.1 = true ∧ d.2.session = some session
    | .enqueue task => d.1 = true ∧ d.2.stamp = some (task.session, task.genAtDispatch)
    | .checkGeneration task => d.2.task = some task
    | _ => True

/-- The program meets `dispatching`, wherever it ends. -/
abbrev Dispatches {α : Type} (p : Proc α) (d : Bool × Dispatching) : Prop :=
  p.Meets dispatching (fun _ _ => True) d

theorem inRoute_ok (action : Act) (inRoute : InRoute action) (d : Bool × Dispatching) :
    dispatching.ok d action := by
  cases action with
  | storeSession | eraseSession | generation | enqueue | checkGeneration => cases inRoute
  | _ => trivial

theorem dispatches_route (session : SessionRef) (msg : Json) (d : Bool × Dispatching) :
    Dispatches (route session msg) d :=
  meets_of_forall (J := fun _ => True)
    (fun action inRoute d _ => ⟨inRoute_ok action inRoute d, fun _ => trivial⟩)
    (forall_route inRoute_routing session msg) trivial

theorem dispatches_runTask (task : Task) (d : Bool × Dispatching) (own : d.2.task = some task) :
    Dispatches (runTask task) d := by
  rw [runTask_eq]
  refine ⟨own, fun current => ?_⟩
  cases current with
  | false => exact ⟨trivial, fun _ => trivial⟩
  | true =>
    have caught : Dispatches ((route task.session task.msg).tryCatch fun _ => .ret ())
        (dispatching.next d (.checkGeneration task) true) :=
      (dispatches_route _ _ _).tryCatch (fun _ _ _ => trivial) fun _ _ _ => trivial
    exact caught.bind (fun _ _ _ => ⟨trivial, fun _ => trivial⟩) fun _ _ _ => trivial

/-- The event loop outside a dispatch. -/
def Looping : Act → Prop
  | .generation _ => False
  | .enqueue _ => False
  | .checkGeneration _ => False
  | _ => True

theorem looping_leaving : Leaving Looping where
  clock := trivial
  list := trivial
  scan _ := trivial
  find _ := trivial
  users _ _ _ := trivial
  notify _ _ _ := trivial
  gate _ := trivial
  name _ := trivial
  offline _ := trivial
  unname _ := trivial
  erase _ := trivial
  registered := trivial
  pending _ := trivial
  cleanup _ := trivial
  unpend _ := trivial
  drop _ := trivial

theorem dispatches_looping {p : Proc Unit} (h : p.Forall Looping) {d : Bool × Dispatching}
    (loop : d.1 = true) : Dispatches p d := by
  have keeps : ∀ action, Looping action → ∀ d : Bool × Dispatching, d.1 = true →
      dispatching.ok d action ∧ ∀ result, (dispatching.next d action result).1 = true := by
    intro action loops d loop
    refine ⟨?_, fun _ => loop⟩
    cases action with
    | generation | enqueue | checkGeneration => cases loops
    | storeSession | eraseSession => exact loop
    | _ => trivial
  exact (meets_of_forall (J := fun d => d.1 = true) keeps h loop).mono fun _ _ _ => trivial

/-- The event loop is dispatching the messages of this session. -/
def Serves (session : SessionRef) (d : Bool × Dispatching) : Prop :=
  d.1 = true ∧ d.2.session = some session

theorem meets_dispatchOne {session : SessionRef} (msg : Json) {d : Bool × Dispatching}
    (serves : Serves session d) :
    (dispatchOne session msg).Meets dispatching (fun _ d' => Serves session d') d := by
  have enqueues : (Prog.act .hasMessageHandler fun registered =>
      if registered then stampAndEnqueue session msg else .ret () : Proc Unit).Meets dispatching
        (fun _ d' => Serves session d') d := by
    refine ⟨trivial, fun registered => ?_⟩
    dsimp only
    split
    · refine ⟨serves, fun captured => ?_⟩
      dsimp only
      rw [enqueueTask_eq]
      refine ⟨⟨serves.1, rfl⟩, fun accepted => ?_⟩
      cases accepted <;> exact serves
    · exact serves
  rw [dispatchOne_eq]
  refine ⟨trivial, fun authenticated => ?_⟩
  dsimp only
  split
  · unfold valueOf
    cases msg.value "type" "" with
    | error e => exact serves
    | ok type => exact enqueues
  · exact enqueues

theorem meets_dispatch {session : SessionRef} (msgs : List Json) {d : Bool × Dispatching}
    (serves : Serves session d) :
    (dispatch session msgs).Meets dispatching (fun _ d' => Serves session d') d := by
  induction msgs generalizing d with
  | nil => exact serves
  | cons msg rest ih =>
    exact (meets_dispatchOne msg serves).bind (fun _ d' serves' => ih serves')
      fun _ _ serves' => serves'

theorem dispatches_handleClientEvent (fd : Nat) {d : Bool × Dispatching} (loop : d.1 = true) :
    Dispatches (handleClientEvent fd) d := by
  rw [handleClientEvent_eq]
  refine ⟨trivial, fun found => ?_⟩
  cases found with
  | none => trivial
  | some session =>
    refine ⟨trivial, fun received => ?_⟩
    cases received with
    | error e => trivial
    | ok msgs =>
      cases msgs with
      | none => exact dispatches_looping (forall_removeClient looping_leaving fd) loop
      | some msgs =>
        have serves : Serves session (d.1, d.2.follow (.findByFd fd) (some session)) := ⟨loop, rfl⟩
        exact (meets_dispatch msgs serves).mono fun _ _ _ => trivial

theorem dispatches_event (e : Event) {d : Bool × Dispatching} (loop : d.1 = true) :
    Dispatches e.program d := by
  cases e with
  | newConnection fd ip => exact ⟨loop, fun _ => trivial⟩
  | client fd => exact dispatches_handleClientEvent fd loop
  | heartbeat => exact dispatches_looping (forall_broadcast trivial fun _ => trivial) loop

/-- What the monitor sees of a thread: whether it is the event loop, and what it has in hand. -/
abbrev viewOf (s : Dated) (t : Nat) : Bool × Dispatching := (decide (t = 0), s.2.inHand t)

/-- Every program keeps to the monitor, and the history variable is what the monitor sees. -/
theorem follows (workers : Nat) :
    (dated workers).Follows dispatching viewOf fun _ _ => True where
  acts t w action s u := by
    by_cases same : u = t
    · subst same
      rw [if_pos rfl]
      exact Prod.ext rfl (Function.update_self _ _ _)
    · rw [if_neg same]
      exact Prod.ext rfl (Function.update_of_ne same _ _)
  starts t p s s' start := by
    obtain ⟨shared, removals⟩ := s'
    obtain ⟨started, takes⟩ := start
    replace takes : removals = s.2.take t s.1.server.tasks := takes
    subst takes
    dsimp only at started
    have others : ∀ u, u ≠ t → (s.2.take t s.1.server.tasks).inHand u = s.2.inHand u := by
      intro u differs
      unfold Removals.take
      split
      · rfl
      · exact Function.update_of_ne differs _ _
    refine ⟨fun u differs => Prod.ext rfl (others u differs), fun _ => ?_⟩
    cases started with
    | start h =>
      cases h with
      | event e => exact dispatches_event e rfl
      | @task _ _ task rest worker inPool queued =>
        refine dispatches_runTask task _ ?_
        unfold Removals.take
        rw [if_neg (Nat.ne_of_gt worker), queued]
        dsimp only
        rw [Function.update_self]
        rfl
    | anyFd fd ip => exact ⟨rfl, fun _ => trivial⟩
    | refused => trivial

end LinuxChat.Guarantees.Generations
