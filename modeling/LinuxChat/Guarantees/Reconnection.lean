import LinuxChat.Source.LoginController

/-!
# Connecting again

`ChatClient` resets its flag in the slots of the socket's signals alone
(client/src/chat_client.cpp:221-247), and `disconnect_from_server` (:108-132) only aborts the
socket. A socket that is aborted while it still dials need not signal anything. From then on
every `connect_to_server` is dropped at the flag; otherwise the client can always be
connected to whatever server the user asks for.
-/

namespace LinuxChat.Guarantees.Reconnection

open LinuxChat.Source

/-! ## Runs -/

/-- The client after one event. -/
def afterEvent (event : ClientEvent) (client : Client) : Client :=
  (event.step client).1

/-- The client after events. -/
def clientAfter (events : List ClientEvent) (client : Client) : Client :=
  events.foldl (fun client event => afterEvent event client) client

/-- Every event satisfies this in the state it meets. -/
def Throughout (P : ClientEvent → Client → Prop) : List ClientEvent → Client → Prop
  | [], _ => True
  | event :: rest, client => P event client ∧ Throughout P rest (afterEvent event client)

variable {P : ClientEvent → Client → Prop} {client : Client}

theorem clientAfter_append (earlier later : List ClientEvent) (client : Client) :
    clientAfter (earlier ++ later) client = clientAfter later (clientAfter earlier client) :=
  List.foldl_append

theorem throughout_append {earlier later : List ClientEvent} :
    Throughout P (earlier ++ later) client ↔
      Throughout P earlier client ∧ Throughout P later (clientAfter earlier client) := by
  induction earlier generalizing client with
  | nil => simp [Throughout, clientAfter]
  | cons event rest ih => simp [Throughout, clientAfter, ih, and_assoc]

/-- The run rule: what every event keeps, holds at the end. -/
theorem clientAfter_invariant {J : Client → Prop}
    (step : ∀ event client, P event client → J client → J (afterEvent event client))
    {events : List ClientEvent} (proper : Throughout P events client) (start : J client) :
    J (clientAfter events client) := by
  induction events generalizing client with
  | nil => exact start
  | cons event rest ih => exact ih proper.2 (step event client proper.1 start)

/-! ## Vocabulary -/

/-- An unconnected socket does not signal, not even when it is aborted. -/
def Proper : ClientEvent → Client → Prop
  | .socket _, client =>
    ∃ socket, client.connection.socket = some socket ∧ socket.state ≠ .unconnected
  | .disconnectFromServer signals, client =>
    ∀ socket, client.connection.socket = some socket → socket.state = .unconnected → signals = []
  | _, _ => True

/-- The socket is aborted while it dials, and signals nothing. -/
def Silences : ClientEvent → Client → Prop
  | .disconnectFromServer signals, client =>
    client.connection.isConnecting = true ∧ ∀ signal ∈ signals, signal.state ≠ .unconnected
  | _, _ => False

/-- A fresh socket dials the endpoint. -/
def Dials (endpoint : Endpoint) (client : Client) : Prop :=
  client.connection = ⟨some { endpoint := endpoint }, true⟩

/-- An endpoint that the form lets through. -/
def Valid (endpoint : Endpoint) : Prop :=
  endpoint.host ≠ "" ∧ 0 < endpoint.port ∧ endpoint.port ≤ 65535

/-- An attempt is said to be under way on a socket that is unconnected. -/
def Stuck (client : Client) : Prop :=
  client.connection.isConnecting = true ∧
    ∃ socket, client.connection.socket = some socket ∧ socket.state = .unconnected

/-- `LoginController` waits only for an attempt, and there is an attempt only while a socket
is at it. -/
structure Free (client : Client) : Prop where
  waits : client.controller.isConnecting = true → client.connection.isConnecting = true
  live : client.connection.isConnecting = true →
    ∃ socket, client.connection.socket = some socket ∧ socket.state ≠ .unconnected

theorem free_idle {client : Client} (controller : client.controller.isConnecting = false)
    (connection : client.connection.isConnecting = false) : Free client := by
  constructor
  · intro waits
    rw [controller] at waits
    cases waits
  · intro dials
    rw [connection] at dials
    cases dials

/-! ## Signals -/

/-- The signal reaches the slots. -/
def Heard (event : SocketEvent) (client : Client) : Prop :=
  ∃ socket, client.connection.socket = some socket ∧
    ¬ (socket.state = .unconnected ∧ event.state ≠ .unconnected)

theorem onSocket_unheard {event : SocketEvent} (unheard : ¬ Heard event client) :
    onSocket event client = (client, []) := by
  unfold onSocket
  cases found : client.connection.socket with
  | none => rfl
  | some socket =>
    dsimp only
    split
    · rfl
    next alive => exact absurd ⟨socket, found, alive⟩ unheard

/-- Whatever is signalled, no attempt is under way afterwards. -/
theorem onSocket_heard {event : SocketEvent} (heard : Heard event client)
    (waits : client.controller.isConnecting = true → client.connection.isConnecting = true) :
    (onSocket event client).1.controller.isConnecting = false ∧
      (onSocket event client).1.connection.isConnecting = false := by
  obtain ⟨socket, found, alive⟩ := heard
  have calm : client.connection.isConnecting = false → client.controller.isConnecting = false := by
    intro off
    by_contra on
    rw [waits (Bool.eq_true_of_not_eq_false on)] at off
    cases off
  unfold onSocket
  rw [found]
  dsimp only
  rw [if_neg alive]
  cases event.signal with
  | connected => exact ⟨rfl, rfl⟩
  | disconnected error =>
    cases dialling : client.connection.isConnecting with
    | true => exact ⟨rfl, rfl⟩
    | false => exact ⟨rfl, rfl⟩
  | errorOccurred error =>
    cases dialling : client.connection.isConnecting with
    | true => exact ⟨rfl, rfl⟩
    | false => exact ⟨calm dialling, rfl⟩

theorem free_onSocket (event : SocketEvent) (free : Free client) :
    Free (onSocket event client).1 := by
  by_cases heard : Heard event client
  · obtain ⟨controller, connection⟩ := onSocket_heard heard free.waits
    exact free_idle controller connection
  · rw [onSocket_unheard heard]
    exact free

theorem free_onSockets (events : List SocketEvent) (free : Free client) :
    Free (onSockets events client).1 := by
  induction events generalizing client with
  | nil => exact free
  | cons event rest ih => exact ih (free_onSocket event free)

/-! ## A socket that is aborted -/

/-- The socket has been aborted. -/
def aborted (client : Client) (socket : TcpSocket) : Client :=
  { client with
    connection := { client.connection with socket := some { socket with state := .unconnected } } }

theorem disconnectFromServer_eq {socket : TcpSocket} (signals : List SocketEvent)
    (found : client.connection.socket = some socket) :
    disconnectFromServer signals client = onSockets signals (aborted client socket) := by
  unfold disconnectFromServer
  rw [found]
  rfl

theorem heard_aborted {socket : TcpSocket} {event : SocketEvent} :
    Heard event (aborted client socket) ↔ event.state = .unconnected := by
  simp [Heard, aborted]

/-- Nothing is heard of it. -/
theorem onSockets_silent {socket : TcpSocket} {signals : List SocketEvent}
    (silent : ∀ signal ∈ signals, signal.state ≠ .unconnected) :
    (onSockets signals (aborted client socket)).1 = aborted client socket := by
  induction signals with
  | nil => rfl
  | cons signal rest ih =>
    have unheard : ¬ Heard signal (aborted client socket) :=
      fun heard => silent signal List.mem_cons_self (heard_aborted.mp heard)
    simp only [onSockets, onSocket_unheard unheard]
    exact ih fun signal member => silent signal (List.mem_cons_of_mem _ member)

/-- Something is. -/
theorem free_aborted {socket : TcpSocket} {signals : List SocketEvent}
    (waits : client.controller.isConnecting = true → client.connection.isConnecting = true)
    (told : ∃ signal ∈ signals, signal.state = .unconnected) :
    Free (onSockets signals (aborted client socket)).1 := by
  induction signals with
  | nil =>
    obtain ⟨signal, member, _⟩ := told
    cases member
  | cons signal rest ih =>
    by_cases heard : Heard signal (aborted client socket)
    · obtain ⟨controller, connection⟩ := onSocket_heard heard waits
      exact free_onSockets rest (free_idle controller connection)
    · simp only [onSockets, onSocket_unheard heard]
      obtain ⟨other, member, state⟩ := told
      rcases List.mem_cons.mp member with rfl | later
      · exact absurd (heard_aborted.mpr state) heard
      · exact ih ⟨other, later, state⟩

/-! ## Steps -/

/-- A step that leaves the flags and the socket alone. -/
theorem Free.same {after : Client} (free : Free client)
    (controller : after.controller.isConnecting = true → client.controller.isConnecting = true)
    (connection : after.connection = client.connection) : Free after := by
  constructor
  · intro waits
    rw [connection]
    exact free.waits (controller waits)
  · intro dials
    rw [connection] at dials ⊢
    exact free.live dials

theorem authenticate_same (request : String → String → Request) (username password : String)
    (client : Client) :
    (authenticate request username password client).1.controller.isConnecting =
        client.controller.isConnecting ∧
      (authenticate request username password client).1.connection = client.connection := by
  unfold authenticate
  split
  · exact ⟨rfl, rfl⟩
  · split
    · exact ⟨rfl, rfl⟩
    · exact ⟨rfl, rfl⟩

theorem free_connectToServer (endpoint : Endpoint) (dial : List SocketEvent) (error : String)
    (live : client.connection.isConnecting = true →
      ∃ socket, client.connection.socket = some socket ∧ socket.state ≠ .unconnected) :
    Free (connectToServer endpoint dial error client).1 := by
  unfold connectToServer
  split
  next busy => exact ⟨fun _ => busy, live⟩
  next =>
    have fresh : Free ⟨client.controller, ⟨some { endpoint := endpoint }, true⟩⟩ :=
      ⟨fun _ => rfl, fun _ => ⟨_, rfl, SocketState.noConfusion⟩⟩
    have dialled := free_onSockets dial fresh
    dsimp only
    split
    · exact dialled
    · split
      · exact free_idle rfl rfl
      · exact dialled

theorem free_after (event : ClientEvent) (heard : ¬ Silences event client) (free : Free client) :
    Free (afterEvent event client) := by
  cases event with
  | connectToServer host port dial error =>
    change Free (chooseServer host port dial error client).1
    unfold chooseServer
    cases accepts client.controller host port with
    | none =>
      dsimp only
      split
      · exact free
      · exact free.same id rfl
    | some endpoint => exact free_connectToServer endpoint dial error free.live
  | login username password =>
    obtain ⟨controller, connection⟩ := authenticate_same .login username password client
    change Free (authenticate .login username password client).1
    exact free.same (fun waits => controller.symm.trans waits) connection
  | registerUser username password =>
    obtain ⟨controller, connection⟩ := authenticate_same .register username password client
    change Free (authenticate .register username password client).1
    exact free.same (fun waits => controller.symm.trans waits) connection
  | disconnectFromServer signals =>
    change Free (disconnectFromServer signals client).1
    cases found : client.connection.socket with
    | none =>
      unfold disconnectFromServer
      rw [found]
      exact free
    | some socket =>
      rw [disconnectFromServer_eq signals found]
      by_cases dialling : client.connection.isConnecting = true
      · apply free_aborted free.waits
        by_contra silent
        apply heard
        refine ⟨dialling, fun signal member state => silent ⟨signal, member, state⟩⟩
      · apply free_onSockets
        refine ⟨free.waits, fun dials => absurd dials dialling⟩
  | connectTimeout =>
    change Free (ite _ _ _ : Client × List Effect).1
    split
    · exact free.same (fun waits => nomatch waits) rfl
    · exact free
  | loginTimeout =>
    change Free (ite _ _ _ : Client × List Effect).1
    split
    · exact free.same id rfl
    · exact free
  | socket event => exact free_onSocket event free
  | loginOk username => exact free.same id rfl
  | errorReceived code content => exact free.same id rfl

/-- Nothing gets the client out of it. -/
theorem stuck_after (event : ClientEvent) (client : Client) (proper : Proper event client)
    (stuck : Stuck client) : Stuck (afterEvent event client) := by
  have same : (afterEvent event client).connection = client.connection →
      Stuck (afterEvent event client) := by
    intro connection
    unfold Stuck
    rw [connection]
    exact stuck
  obtain ⟨dialling, socket, found, dead⟩ := stuck
  apply same
  cases event with
  | connectToServer host port dial error =>
    change (chooseServer host port dial error client).1.connection = _
    unfold chooseServer
    cases accepts client.controller host port with
    | none =>
      dsimp only
      split
      · rfl
      · rfl
    | some endpoint => simp only [connectToServer, dialling, if_true]
  | login username password => exact (authenticate_same .login username password client).2
  | registerUser username password =>
    exact (authenticate_same .register username password client).2
  | disconnectFromServer signals =>
    rw [proper socket found dead]
    change (disconnectFromServer [] client).1.connection = _
    rw [disconnectFromServer_eq [] found, onSockets, aborted, ← dead, ← found]
  | connectTimeout =>
    change (ite _ _ _ : Client × List Effect).1.connection = _
    split
    · rfl
    · rfl
  | loginTimeout =>
    change (ite _ _ _ : Client × List Effect).1.connection = _
    split
    · rfl
    · rfl
  | socket event =>
    obtain ⟨other, held, alive⟩ := proper
    rw [found] at held
    cases held
    exact absurd dead alive
  | loginOk username => rfl
  | errorReceived code content => rfl

theorem stuck_silenced {event : ClientEvent} (silences : Silences event client)
    (free : Free client) : Stuck (afterEvent event client) := by
  cases event with
  | disconnectFromServer signals =>
    obtain ⟨dialling, silent⟩ := silences
    obtain ⟨socket, found, _⟩ := free.live dialling
    change Stuck (disconnectFromServer signals client).1
    rw [disconnectFromServer_eq signals found, onSockets_silent silent]
    exact ⟨dialling, _, rfl, rfl⟩
  | _ => cases silences

/-! ## The way back -/

/-- The server turns the attempt down. -/
def failure : SocketEvent := ⟨.errorOccurred "", .unconnected, fun connected => nomatch connected⟩

theorem dials_idle {endpoint : Endpoint} (valid : Valid endpoint)
    (controller : client.controller.isConnecting = false)
    (connection : client.connection.isConnecting = false) :
    Dials endpoint (afterEvent
      (.connectToServer endpoint.host endpoint.port [] "") client) := by
  obtain ⟨host, low, high⟩ := valid
  have accepted : accepts client.controller endpoint.host endpoint.port = some endpoint := by
    simp only [accepts, controller]
    simp [host]
    omega
  change (chooseServer endpoint.host endpoint.port [] "" client).1.connection = _
  unfold chooseServer
  rw [accepted]
  simp [connectToServer, connection, onSockets]

theorem dials_free {endpoint : Endpoint} (valid : Valid endpoint) (free : Free client) :
    ∃ later, Throughout Proper later client ∧ Dials endpoint (clientAfter later client) := by
  cases dialling : client.connection.isConnecting with
  | false =>
    have controller : client.controller.isConnecting = false := by
      by_contra on
      rw [free.waits (Bool.eq_true_of_not_eq_false on)] at dialling
      cases dialling
    refine ⟨[.connectToServer endpoint.host endpoint.port [] ""], ⟨trivial, trivial⟩, ?_⟩
    exact dials_idle valid controller dialling
  | true =>
    obtain ⟨socket, found, alive⟩ := free.live dialling
    have heard : Heard failure client := ⟨socket, found, fun dead => alive dead.1⟩
    obtain ⟨controller, connection⟩ := onSocket_heard heard free.waits
    refine ⟨[.socket failure, .connectToServer endpoint.host endpoint.port [] ""],
      ⟨⟨socket, found, alive⟩, trivial, trivial⟩, ?_⟩
    exact dials_idle valid controller connection

theorem never_silenced {endpoint : Endpoint} {events later : List ClientEvent} (free : Free client)
    (proper : Throughout Proper (events ++ later) client)
    (dials : Dials endpoint (clientAfter (events ++ later) client)) :
    Throughout (fun event client => ¬ Silences event client) events client := by
  induction events generalizing client with
  | nil => trivial
  | cons event rest ih =>
    by_cases silences : Silences event client
    · have stuck : Stuck (clientAfter (rest ++ later) (afterEvent event client)) :=
        clientAfter_invariant stuck_after proper.2 (stuck_silenced silences free)
      obtain ⟨_, socket, found, dead⟩ := stuck
      change (clientAfter (rest ++ later) (afterEvent event client)).connection = _ at dials
      rw [dials] at found
      cases found
      cases dead
    · exact ⟨silences, ih (free_after event silences free) proper.2 dials⟩

/-- After any run, the client can be got to dial a given server if and only if no attempt has
been aborted in silence: one such abort, and no call of the user and no signal or timeout ever
lets it connect again. -/
theorem reconnects_iff (events : List ClientEvent) (proper : Throughout Proper events {})
    (endpoint : Endpoint) (valid : Valid endpoint) :
    (∃ later, Throughout Proper (events ++ later) {} ∧
        Dials endpoint (clientAfter (events ++ later) {})) ↔
      Throughout (fun event client => ¬ Silences event client) events {} := by
  have start : Free {} := free_idle rfl rfl
  constructor
  · rintro ⟨later, lawful, dials⟩
    exact never_silenced start lawful dials
  · intro heard
    have free : Free (clientAfter events {}) :=
      clientAfter_invariant (fun event client => free_after event) heard start
    obtain ⟨later, lawful, dials⟩ := dials_free valid free
    refine ⟨later, throughout_append.mpr ⟨proper, lawful⟩, ?_⟩
    rw [clientAfter_append]
    exact dials

/-- The user logs out of the window while the client still dials. -/
def abortedAttempt : List ClientEvent :=
  [.connectToServer "chat.example" 8888 [] "", .disconnectFromServer []]

/-- After an attempt that was aborted while it was dialling no further event makes the client dial
again. -/
theorem reconnects_iff_abortedAttempt :
    ¬ ∃ later, Throughout Proper (abortedAttempt ++ later) {} ∧
      Dials ⟨"chat.example", 8888⟩ (clientAfter (abortedAttempt ++ later) {}) := by
  have proper : Throughout Proper abortedAttempt {} := ⟨trivial, fun _ _ _ => rfl, trivial⟩
  have valid : Valid ⟨"chat.example", 8888⟩ := by simp [Valid]
  rw [reconnects_iff abortedAttempt proper ⟨"chat.example", 8888⟩ valid]
  intro heard
  exact heard.2.1 ⟨rfl, fun signal member => nomatch member⟩

/-! ## The login form -/

/-- Frames come from a socket that has connected. -/
def Arrives : ClientEvent → Client → Prop
  | .loginOk _, client => client.connection.isConnecting = false
  | .errorReceived _ _, client => client.connection.isConnecting = false
  | _, _ => True

/-- Whatever the form waits for, a timer is running. -/
structure Timed (client : Client) : Prop where
  loading : client.controller.isLoading = true →
    client.controller.connectTimer = true ∨ client.controller.loginTimer = true
  attempt : client.controller.isConnecting = true → client.controller.connectTimer = true
  phase : client.controller.state = .connecting ↔ client.controller.isConnecting = true
  waits : client.controller.isConnecting = true → client.connection.isConnecting = true
  dialling : client.connection.isConnecting = true → client.connection.isConnected = false

/-- An attempt that is over, or has never been. -/
theorem timed_idle {client : Client} (loading : client.controller.isLoading = true →
      client.controller.connectTimer = true ∨ client.controller.loginTimer = true)
    (controller : client.controller.isConnecting = false)
    (state : client.controller.state ≠ .connecting)
    (connection : client.connection.isConnecting = false) : Timed client where
  loading := loading
  attempt on := by
    rw [controller] at on
    cases on
  phase := by simp [controller, state]
  waits on := by
    rw [controller] at on
    cases on
  dialling on := by
    rw [connection] at on
    cases on

theorem Timed.calm (timed : Timed client) (connection : client.connection.isConnecting = false) :
    client.controller.isConnecting = false ∧ client.controller.state ≠ .connecting := by
  have off : client.controller.isConnecting = false := by
    by_contra on
    rw [timed.waits (Bool.eq_true_of_not_eq_false on)] at connection
    cases connection
  refine ⟨off, fun state => ?_⟩
  rw [timed.phase.mp state] at off
  cases off

/-- A signal that reaches the slots ends the wait, unless it is an error on a socket that has
connected. -/
theorem onSocket_form {event : SocketEvent} (heard : Heard event client) :
    ((onSocket event client).1.controller.isLoading = false ∧
        (onSocket event client).1.controller.state ≠ .connecting) ∨
      (client.connection.isConnecting = false ∧
        (onSocket event client).1.controller = client.controller) := by
  obtain ⟨socket, found, alive⟩ := heard
  unfold onSocket
  rw [found]
  dsimp only
  rw [if_neg alive]
  cases event.signal with
  | connected => exact Or.inl ⟨rfl, LoginState.noConfusion⟩
  | disconnected error =>
    cases client.connection.isConnecting with
    | true => exact Or.inl ⟨rfl, LoginState.noConfusion⟩
    | false => exact Or.inl ⟨rfl, LoginState.noConfusion⟩
  | errorOccurred error =>
    cases client.connection.isConnecting with
    | true => exact Or.inl ⟨rfl, LoginState.noConfusion⟩
    | false => exact Or.inr ⟨rfl, rfl⟩

theorem timed_onSocket (event : SocketEvent) (timed : Timed client) :
    Timed (onSocket event client).1 := by
  by_cases heard : Heard event client
  · obtain ⟨controller, connection⟩ := onSocket_heard heard timed.waits
    rcases onSocket_form heard with ⟨loading, state⟩ | ⟨calm, same⟩
    · refine timed_idle (fun on => ?_) controller state connection
      rw [loading] at on
      cases on
    · refine timed_idle ?_ controller ?_ connection
      · rw [same]
        exact timed.loading
      · rw [same]
        exact (timed.calm calm).2
  · rw [onSocket_unheard heard]
    exact timed

theorem timed_onSockets (events : List SocketEvent) (timed : Timed client) :
    Timed (onSockets events client).1 := by
  induction events generalizing client with
  | nil => exact timed
  | cons event rest ih => exact ih (timed_onSocket event timed)

theorem timed_connectToServer (endpoint : Endpoint) (dial : List SocketEvent) (error : String)
    {controller : LoginController} {connection : Connection}
    (loading : controller.isLoading = true →
      controller.connectTimer = true ∨ controller.loginTimer = true)
    (attempt : controller.connectTimer = true)
    (phase : controller.state = .connecting ↔ controller.isConnecting = true)
    (dialling : connection.isConnecting = true → connection.isConnected = false) :
    Timed (connectToServer endpoint dial error ⟨controller, connection⟩).1 := by
  unfold connectToServer
  split
  next busy => exact ⟨loading, fun _ => attempt, phase, fun _ => busy, dialling⟩
  next =>
    have fresh : Timed ⟨controller, ⟨some { endpoint := endpoint }, true⟩⟩ :=
      ⟨loading, fun _ => attempt, phase, fun _ => rfl, fun _ => rfl⟩
    have dialled := timed_onSockets dial fresh
    dsimp only
    split
    · exact dialled
    · split
      · exact timed_idle (fun on => nomatch on) rfl LoginState.noConfusion rfl
      · exact dialled

theorem timed_authenticate (request : String → String → Request) (username password : String)
    (timed : Timed client) : Timed (authenticate request username password client).1 := by
  unfold authenticate
  split
  · exact ⟨timed.loading, timed.attempt, timed.phase, timed.waits, timed.dialling⟩
  · split
    · exact ⟨timed.loading, timed.attempt, timed.phase, timed.waits, timed.dialling⟩
    next connected =>
      have calm : client.connection.isConnecting = false := by
        by_contra on
        rw [timed.dialling (Bool.eq_true_of_not_eq_false on)] at connected
        exact connected rfl
      exact timed_idle (fun _ => Or.inr rfl) (timed.calm calm).1 LoginState.noConfusion calm

theorem timed_after (event : ClientEvent) (client : Client) (arrives : Arrives event client)
    (timed : Timed client) : Timed (afterEvent event client) := by
  cases event with
  | connectToServer host port dial error =>
    change Timed (chooseServer host port dial error client).1
    unfold chooseServer
    cases accepts client.controller host port with
    | none =>
      dsimp only
      split
      · exact timed
      · exact ⟨timed.loading, timed.attempt, timed.phase, timed.waits, timed.dialling⟩
    | some endpoint =>
      exact timed_connectToServer endpoint dial error (fun _ => Or.inl rfl) rfl
        ⟨fun _ => rfl, fun _ => rfl⟩ timed.dialling
  | login username password => exact timed_authenticate .login username password timed
  | registerUser username password => exact timed_authenticate .register username password timed
  | disconnectFromServer signals =>
    change Timed (disconnectFromServer signals client).1
    cases found : client.connection.socket with
    | none =>
      unfold disconnectFromServer
      rw [found]
      exact timed
    | some socket =>
      rw [disconnectFromServer_eq signals found]
      apply timed_onSockets
      exact ⟨timed.loading, timed.attempt, timed.phase, timed.waits, fun _ => rfl⟩
  | connectTimeout =>
    change Timed (ite _ _ _ : Client × List Effect).1
    split
    · refine ⟨fun on => ?_, fun on => ?_, ⟨fun on => ?_, fun on => ?_⟩, fun on => ?_, timed.dialling⟩
      all_goals cases on
    · exact timed
  | loginTimeout =>
    change Timed (ite _ _ _ : Client × List Effect).1
    split
    · exact ⟨(fun on => nomatch on), timed.attempt, timed.phase, timed.waits, timed.dialling⟩
    · exact timed
  | socket event => exact timed_onSocket event timed
  | loginOk username =>
    exact timed_idle (fun on => nomatch on) (timed.calm arrives).1 LoginState.noConfusion arrives
  | errorReceived code content =>
    exact timed_idle (fun on => nomatch on) (timed.calm arrives).1 LoginState.noConfusion arrives

/-- The two timers run out. -/
def timeouts : List ClientEvent := [.connectTimeout, .loginTimeout]

theorem connectTimeout_ends (timed : Timed client) :
    (afterEvent .connectTimeout client).controller.isConnecting = false ∧
      ((afterEvent .connectTimeout client).controller.isLoading = true →
        (afterEvent .connectTimeout client).controller.loginTimer = true) := by
  unfold afterEvent ClientEvent.step
  dsimp only
  split
  · exact ⟨rfl, fun on => nomatch on⟩
  next off =>
    constructor
    · by_contra on
      exact off (timed.attempt (Bool.eq_true_of_not_eq_false on))
    · intro on
      exact (timed.loading on).resolve_left off

theorem loginTimeout_ends (calm : client.controller.isConnecting = false)
    (loading : client.controller.isLoading = true → client.controller.loginTimer = true) :
    (afterEvent .loginTimeout client).controller.isLoading = false ∧
      (afterEvent .loginTimeout client).controller.isConnecting = false := by
  unfold afterEvent ClientEvent.step
  dsimp only
  split
  · exact ⟨rfl, calm⟩
  next off =>
    refine ⟨?_, calm⟩
    by_contra on
    exact off (loading (Bool.eq_true_of_not_eq_false on))

/-- In every run the login form shows that it is at work, or holds further clicks back, only
while a timer is running that ends it. -/
theorem form_recovers (events : List ClientEvent) (arrives : Throughout Arrives events {}) :
    Timed (clientAfter events {}) ∧
      (clientAfter (events ++ timeouts) {}).controller.isLoading = false ∧
      (clientAfter (events ++ timeouts) {}).controller.isConnecting = false := by
  have start : Timed {} :=
    timed_idle (fun on => nomatch on) rfl LoginState.noConfusion rfl
  have timed : Timed (clientAfter events {}) := clientAfter_invariant timed_after arrives start
  rw [clientAfter_append]
  obtain ⟨calm, loading⟩ := connectTimeout_ends timed
  exact ⟨timed, loginTimeout_ends calm loading⟩

/-- The server accepts the connection and does not answer the login. -/
def unanswered : List ClientEvent :=
  [.connectToServer "chat.example" 8888 [] "", .socket ⟨.connected, .connected, fun _ => rfl⟩,
    .login "alice" "secret"]

/-- Nobody answers; the form is loading until the two timeouts have passed. -/
theorem form_recovers_unanswered :
    (clientAfter unanswered {}).controller.isLoading = true ∧
      (clientAfter (unanswered ++ timeouts) {}).controller.isLoading = false :=
  ⟨by decide +kernel, (form_recovers unanswered ⟨trivial, trivial, trivial, trivial⟩).2.1⟩

end LinuxChat.Guarantees.Reconnection
