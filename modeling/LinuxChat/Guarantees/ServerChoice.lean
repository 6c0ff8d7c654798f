import LinuxChat.Source.LoginController

/-!
# The server that gets the credentials

`LoginController` and `ChatClient` guard against a second connection attempt with a flag
each. The connect timeout resets only the controller's
(client/src/login_controller.cpp:154-160), so that the next `connectToServer` passes the
first guard and is dropped at the second (client/src/chat_client.cpp:82-88). The old attempt
may still succeed. As long as no other server is asked for while an attempt is under way,
what is connected and what is sent belong to the server asked for last.
-/

namespace LinuxChat.Guarantees.ServerChoice

open LinuxChat.Source

/-- The client, the endpoint of the last `connectToServer` the controller has accepted, and
what has been seen from outside, each effect with that endpoint at its time. -/
structure Watched where
  client : Client := {}
  accepted : Option Endpoint := none
  log : List (Effect × Option Endpoint) := []

/-- The endpoint that the form has accepted last, after the event. -/
def choice (event : ClientEvent) (s : Watched) : Option Endpoint :=
  match event with
  | .connectToServer host port _ _ =>
    match accepts s.client.controller host port with
    | some endpoint => some endpoint
    | none => s.accepted
  | _ => s.accepted

/-- One event, with the endpoint accepted last and all that went out. -/
def watch (event : ClientEvent) (s : Watched) : Watched :=
  let after := event.step s.client
  { client := after.1
    accepted := choice event s
    log := s.log ++ after.2.map fun effect => (effect, choice event s) }

/-- Events one after the other. -/
def watchAll : List ClientEvent → Watched → Watched
  | [], s => s
  | event :: rest, s => watchAll rest (watch event s)

/-- Connections made and requests written belong to the endpoint accepted last. -/
def Faithful (s : Watched) : Prop :=
  ∀ entry ∈ s.log, entry.2 = some entry.1.endpoint

/-- `ChatClient` has an attempt under way for another endpoint. -/
def DialsElsewhere (endpoint : Endpoint) (connection : Connection) : Prop :=
  connection.isConnecting = true ∧
    ∃ socket, connection.socket = some socket ∧ socket.state ≠ .unconnected ∧
      socket.endpoint ≠ endpoint

/-- No `connectToServer` is accepted while an attempt for another endpoint is under way. -/
def Careful (event : ClientEvent) (client : Client) : Prop :=
  match event with
  | .connectToServer host port _ _ =>
    ∀ endpoint, accepts client.controller host port = some endpoint →
      ¬ DialsElsewhere endpoint client.connection
  | _ => True

/-- Every event is careful in the state it meets. -/
def AllCareful : List ClientEvent → Client → Prop
  | [], _ => True
  | event :: rest, client => Careful event client ∧ AllCareful rest (event.step client).1

/-- After every part of the run, whatever the socket still signals. -/
def Safe (events : List ClientEvent) (s : Watched) : Prop :=
  ∀ earlier, earlier <+: events → ∀ signals : List SocketEvent,
    Faithful (watchAll (earlier ++ signals.map .socket) s)

/-! ## The socket -/

/-- A socket that is not unconnected belongs to the endpoint. -/
def Serves (accepted : Option Endpoint) (connection : Connection) : Prop :=
  ∀ socket, connection.socket = some socket → socket.state ≠ .unconnected →
    accepted = some socket.endpoint

/-- A step of the client: it keeps `Serves`, and its effects are for the endpoint. -/
def Serving (accepted : Option Endpoint) (after : Client × List Effect) : Prop :=
  Serves accepted after.1.connection ∧ ∀ effect ∈ after.2, accepted = some effect.endpoint

variable {accepted : Option Endpoint} {client : Client} {endpoint : Endpoint}

theorem Serves.quiet {after : Client} (serves : Serves accepted client.connection)
    (same : after.connection = client.connection) : Serving accepted (after, []) := by
  constructor
  · change Serves accepted after.connection
    rw [same]
    exact serves
  · intro effect member
    exact nomatch member

/-- A signal of a socket that serves the endpoint. -/
theorem Serves.signalled {socket : TcpSocket} {state : SocketState} {connection : Connection}
    (serves : Serves accepted client.connection) (found : client.connection.socket = some socket)
    (alive : ¬ (socket.state = .unconnected ∧ state ≠ .unconnected))
    (moved : connection.socket = some { socket with state := state }) :
    Serves accepted connection := by
  intro other present connected
  rw [moved] at present
  cases present
  apply serves socket found
  intro unconnected
  exact alive ⟨unconnected, connected⟩

theorem onSocket_serving (event : SocketEvent) (serves : Serves accepted client.connection) :
    Serving accepted (onSocket event client) := by
  unfold onSocket
  cases found : client.connection.socket with
  | none => exact serves.quiet rfl
  | some socket =>
    dsimp only
    by_cases dead : socket.state = .unconnected ∧ event.state ≠ .unconnected
    · rw [if_pos dead]
      exact serves.quiet rfl
    · rw [if_neg dead]
      cases signalled : event.signal with
      | connected =>
        dsimp only
        have inState := event.valid signalled
        have live : socket.state ≠ .unconnected := by
          intro unconnected
          apply dead ⟨unconnected, _⟩
          rw [inState]
          exact SocketState.noConfusion
        constructor
        · exact serves.signalled found dead rfl
        · intro effect member
          cases List.mem_singleton.mp member
          exact serves socket found live
      | disconnected error =>
        dsimp only
        split
        · exact ⟨serves.signalled found dead rfl, fun effect member => nomatch member⟩
        · exact ⟨serves.signalled found dead rfl, fun effect member => nomatch member⟩
      | errorOccurred error =>
        dsimp only
        split
        · exact ⟨serves.signalled found dead rfl, fun effect member => nomatch member⟩
        · exact ⟨serves.signalled found dead rfl, fun effect member => nomatch member⟩

theorem onSockets_serving (events : List SocketEvent) (serves : Serves accepted client.connection) :
    Serving accepted (onSockets events client) := by
  induction events generalizing client with
  | nil => exact serves.quiet rfl
  | cons event rest ih =>
    have first := onSocket_serving event serves
    have later := ih first.1
    constructor
    · exact later.1
    · intro effect member
      rcases List.mem_append.mp member with now | next
      · exact first.2 effect now
      · exact later.2 effect next

/-- A fresh socket belongs to the endpoint it is dialled for; a call that is dropped leaves
the old one, which then has to be for the same endpoint already. -/
theorem connectToServer_serving (dial : List SocketEvent) (error : String)
    (serves : client.connection.isConnecting = true → Serves (some endpoint) client.connection) :
    Serving (some endpoint) (connectToServer endpoint dial error client) := by
  unfold connectToServer
  by_cases busy : client.connection.isConnecting = true
  · rw [if_pos busy]
    exact (serves busy).quiet rfl
  · rw [if_neg busy]
    have fresh : Serves (some endpoint) ⟨some { endpoint := endpoint }, true⟩ := by
      intro socket found _
      cases found
      rfl
    have dialled := @onSockets_serving _ ⟨client.controller, _⟩ dial fresh
    dsimp only
    split
    · exact dialled
    · split
      · exact ⟨fun socket found => dialled.1 socket found, dialled.2⟩
      · exact dialled

theorem disconnectFromServer_serving (signals : List SocketEvent)
    (serves : Serves accepted client.connection) :
    Serving accepted (disconnectFromServer signals client) := by
  unfold disconnectFromServer
  cases client.connection.socket with
  | none => exact serves.quiet rfl
  | some socket =>
    apply onSockets_serving
    intro other found live
    cases found
    exact absurd rfl live

theorem authenticate_serving (request : String → String → Request) (username password : String)
    (serves : Serves accepted client.connection) :
    Serving accepted (authenticate request username password client) := by
  unfold authenticate
  split
  · exact serves.quiet rfl
  · split
    · exact serves.quiet rfl
    · constructor
      · exact serves
      · unfold sendRequest
        cases found : client.connection.socket with
        | none => exact fun effect member => nomatch member
        | some socket =>
          dsimp only
          split
          next connected =>
            intro effect member
            cases List.mem_singleton.mp member
            apply serves socket found
            rw [connected]
            exact SocketState.noConfusion
          next => exact fun effect member => nomatch member

/-! ## Runs -/

/-- One event on the form, with whatever the socket signals meanwhile. -/
theorem step_serving (event : ClientEvent) (s : Watched) (careful : Careful event s.client)
    (serves : Serves s.accepted s.client.connection) :
    Serving (choice event s) (event.step s.client) := by
  cases event with
  | connectToServer host port dial error =>
    unfold choice
    dsimp only [ClientEvent.step]
    unfold chooseServer
    cases accepted : accepts s.client.controller host port with
    | none =>
      dsimp only
      split
      · exact serves.quiet rfl
      · exact serves.quiet rfl
    | some endpoint =>
      apply connectToServer_serving
      -- the call is dropped: the attempt under way is for this endpoint
      intro busy socket found live
      by_contra differs
      apply careful endpoint accepted
      exact ⟨busy, socket, found, live, fun same => differs (congrArg some same.symm)⟩
  | login username password =>
    simp only [ClientEvent.step, login, choice]
    exact authenticate_serving .login username password serves
  | registerUser username password =>
    simp only [ClientEvent.step, registerUser, choice]
    exact authenticate_serving .register username password serves
  | disconnectFromServer signals => exact disconnectFromServer_serving signals serves
  | connectTimeout =>
    change Serving s.accepted (ite _ _ _)
    split
    · exact serves.quiet rfl
    · exact serves.quiet rfl
  | loginTimeout =>
    change Serving s.accepted (ite _ _ _)
    split
    · exact serves.quiet rfl
    · exact serves.quiet rfl
  | socket event => exact onSocket_serving event serves
  | loginOk username => exact serves.quiet rfl
  | errorReceived code content => exact serves.quiet rfl

theorem watchAll_faithful (events : List ClientEvent) (s : Watched)
    (careful : AllCareful events s.client) (serves : Serves s.accepted s.client.connection)
    (faithful : Faithful s) : Faithful (watchAll events s) := by
  induction events generalizing s with
  | nil => exact faithful
  | cons event rest ih =>
    have serving := step_serving event s careful.1 serves
    apply ih (watch event s) careful.2 serving.1
    intro entry member
    rcases List.mem_append.mp member with old | new
    · exact faithful entry old
    · obtain ⟨effect, emitted, rfl⟩ := List.mem_map.mp new
      exact serving.2 effect emitted

theorem AllCareful.take {earlier later : List ClientEvent} {client : Client}
    (careful : AllCareful (earlier ++ later) client) : AllCareful earlier client := by
  induction earlier generalizing client with
  | nil => exact trivial
  | cons event rest ih => exact ⟨careful.1, ih careful.2⟩

/-- What the socket signals afterwards is not the user's choice. -/
theorem AllCareful.signals {events : List ClientEvent} {client : Client}
    (careful : AllCareful events client) (signals : List SocketEvent) :
    AllCareful (events ++ signals.map .socket) client := by
  induction events generalizing client with
  | nil =>
    induction signals generalizing client with
    | nil => exact trivial
    | cons signal rest ih => exact ⟨trivial, ih trivial⟩
  | cons event rest ih => exact ⟨careful.1, ih careful.2⟩

/-- The attempt under way succeeds. -/
def late : SocketEvent := ⟨.connected, .connected, fun _ => rfl⟩

/-- A call for another endpoint is dropped, and the old attempt may succeed after it. -/
theorem Safe.careful {event : ClientEvent} {rest : List ClientEvent} {s : Watched}
    (safe : Safe (event :: rest) s) : Careful event s.client := by
  cases event with
  | connectToServer host port dial error =>
    intro endpoint accepted elsewhere
    obtain ⟨busy, socket, found, live, differs⟩ := elsewhere
    have faithful := safe [.connectToServer host port dial error] ⟨rest, rfl⟩ [late]
    have dropped : ((ClientEvent.connectToServer host port dial error).step s.client).1.connection =
        s.client.connection := by
      simp only [ClientEvent.step, chooseServer, accepted, connectToServer, busy, if_true]
    have chosen : choice (.connectToServer host port dial error) s = some endpoint := by
      simp only [choice, accepted]
    have connects : (Effect.connected socket.endpoint, some endpoint) ∈
        (watchAll ([.connectToServer host port dial error] ++ [late].map .socket) s).log := by
      apply List.mem_append_right
      apply List.mem_map.mpr
      have signalled : Effect.connected socket.endpoint ∈
          (onSocket late (watch (.connectToServer host port dial error) s).client).2 := by
        simp [onSocket, watch, dropped, found, live, late]
      exact ⟨_, signalled, congrArg _ chosen⟩
    have same := faithful _ connects
    exact differs (Option.some.inj same).symm
  | _ => exact trivial

theorem Safe.tail {event : ClientEvent} {rest : List ClientEvent} {s : Watched}
    (safe : Safe (event :: rest) s) : Safe rest (watch event s) := by
  intro earlier part signals
  exact safe (event :: earlier) (List.prefix_cons_inj event |>.mpr part) signals

theorem Safe.allCareful {events : List ClientEvent} {s : Watched} (safe : Safe events s) :
    AllCareful events s.client := by
  induction events generalizing s with
  | nil => exact trivial
  | cons event rest ih => exact ⟨safe.careful, ih safe.tail⟩

/-- The credentials go to the server asked for last, as long as none is asked for while the
attempt for another one is under way; otherwise they may not. -/
theorem chosen_server_iff (events : List ClientEvent) :
    Safe events {} ↔ AllCareful events {} := by
  constructor
  · exact Safe.allCareful
  · intro careful earlier part signals
    obtain ⟨later, rfl⟩ := part
    apply watchAll_faithful
    · exact careful.take.signals signals
    · intro socket found
      exact nomatch found
    · intro entry member
      exact nomatch member

/-- An attempt that times out, a second server, and the first one answers. -/
def switched : List ClientEvent :=
  [.connectToServer "old.example" 8888 [] "", .connectTimeout,
    .connectToServer "new.example" 8888 [] "", .socket late, .login "alice" "secret"]

/-- The old server answers after the user has chosen another one, and it gets her password. -/
theorem credentials_to_old_server :
    (watchAll switched {}).log =
      [(.connected ⟨"old.example", 8888⟩, some ⟨"new.example", 8888⟩),
        (.sent ⟨"old.example", 8888⟩ (.login "alice" "secret"), some ⟨"new.example", 8888⟩)] ∧
      ¬ Faithful (watchAll switched {}) := by
  have seen : (watchAll switched {}).log =
      [(.connected ⟨"old.example", 8888⟩, some ⟨"new.example", 8888⟩),
        (.sent ⟨"old.example", 8888⟩ (.login "alice" "secret"), some ⟨"new.example", 8888⟩)] := rfl
  constructor
  · exact seen
  · intro faithful
    have first := faithful _ (seen ▸ List.mem_cons_self)
    exact absurd first (by decide)

end LinuxChat.Guarantees.ServerChoice
