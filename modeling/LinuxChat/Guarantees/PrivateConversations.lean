import LinuxChat.Source.ChatBackend
import LinuxChat.Guarantees.FanOut

/-!
# Private conversations

Private messages between users whose clients are all connected: `sendPrivate`
(client/src/chat_backend.cpp:142-152) shows the message at once, the server answers
with one frame for the addressee and one for the sender, and each frame goes through
the slot of `private_received` (:73-83). Requests are handled one at a time; frames
arrive in any order. `origin` is a history variable: the mail behind each row of a
private model.
-/

namespace LinuxChat.Guarantees.PrivateConversations

open LinuxChat.Lib LinuxChat.Source Prog Serial SerialRuns SerialPlayback Rejections FanOut

/-! ## The network -/

/-- A private message as its sender typed it. -/
structure Mail where
  sender : String
  addressee : String
  content : String
  deriving DecidableEq

/-- A request on its way to the server, over the connection of its sender. -/
structure Pending where
  number : Nat
  session : SessionRef
  request : Request

/-- A frame on its way to a user. -/
structure Packet where
  number : Nat
  receiver : String
  frame : Json

/-- The server with its clients' backends, the mails so far, and what is on its way in either
direction. -/
structure Net where
  server : Server
  backends : String → ChatBackend := fun user => { currentUser := user }
  mails : List Mail := []
  requests : List Pending := []
  flight : List Packet := []
  origin : String → String → List Nat := fun _ _ => []

/-- The object that the server parses from a request. -/
def requestJson (request : Request) : Json :=
  .object (request.msg.map fun member => (member.1, .string member.2))

/-- The rows that a backend gained came from the mail of this number. -/
def grown (number : Nat) (before after : ChatBackend) (origin : String → List Nat) :
    String → List Nat := fun name =>
  origin name ++ List.replicate
    ((after.privateMessages name).length - (before.privateMessages name).length) number

/-- The network once the backend of a user has changed on account of a mail. -/
def Net.shows (net : Net) (user : String) (number : Nat) (after : ChatBackend) : Net :=
  { net with
    backends := Function.update net.backends user after
    origin := Function.update net.origin user
      (grown number (net.backends user) after (net.origin user)) }

/-- The user types a message. -/
def Net.send (net : Net) (x : SessionRef) (now : String) (mail : Mail) : Net :=
  let sent := (net.backends mail.sender).sendPrivate now mail.addressee mail.content
  { net.shows mail.sender net.mails.length sent.1 with
    mails := net.mails ++ [mail]
    requests := net.requests ++ [⟨net.mails.length, x, sent.2⟩] }

/-- What the server answers goes out to the users of the connections. -/
def Net.answer (net : Net) (number : Nat) (server : Server) : Net :=
  { net with
    server := server
    flight := net.flight ++ (newFrames net.server server).map fun sent =>
      ⟨number, net.server.name sent.1, sent.2⟩ }

/-- A frame has reached its client, whose backend shows it. -/
def Net.arrive (net : Net) (timeText : Int → String) (now : String) (packet : Packet) : Net :=
  net.shows packet.receiver packet.number
    ((net.backends packet.receiver).onFrame timeText now packet.frame)

/-- A user writes to a user; the server handles a request; a frame arrives. -/
inductive NetStep (timeText : Int → String) (net : Net) : Net → Prop
  | send (x y : SessionRef) (now : String) (mail : Mail) (online : x ∈ net.server.sessions)
      (own : net.server.name x = mail.sender) (bears : mail.sender ≠ "")
      (addressee : y ∈ net.server.sessions) (named : net.server.name y = mail.addressee)
      (checked : privateError mail.addressee mail.content = none) :
      NetStep timeText net (net.send x now mail)
  | serve (before after : List Pending) (pending : Pending) (o : Except Exn Unit)
      (server : Server) (waiting : net.requests = before ++ pending :: after)
      (ran : Runs Act.exec Works (route pending.session (requestJson pending.request))
        net.server o server) :
      NetStep timeText net { net.answer pending.number server with requests := before ++ after }
  | deliver (before after : List Packet) (packet : Packet) (now : String)
      (flying : net.flight = before ++ packet :: after) :
      NetStep timeText net { net.arrive timeText now packet with flight := before ++ after }

/-- Any number of such steps, from clients that show nothing on. -/
inductive Exchange (timeText : Int → String) (s : Server) : Net → Prop
  | start : Exchange timeText s { server := s }
  | step {net net' : Net} (run : Exchange timeText s net) (step : NetStep timeText net net') :
      Exchange timeText s net'

/-! ## What a conversation should show -/

/-- The mail went from one of the two to the other. -/
def Exchanged (mail : Mail) (a b : String) : Prop :=
  (mail.sender = a ∧ mail.addressee = b) ∨ (mail.sender = b ∧ mail.addressee = a)

/-- The model `privateMessages(b)` of `a` is the conversation of `a` and `b`. -/
structure Complete (net : Net) (a b : String) : Prop where
  once : ∀ i mail, net.mails[i]? = some mail → Exchanged mail a b → (net.origin a b).count i = 1
  shown : List.Forall₂ (fun i row => ∃ mail, net.mails[i]? = some mail ∧ Exchanged mail a b ∧
      row.sender = mail.sender ∧ row.content = mail.content ∧
      (row.isSelf = true ↔ mail.sender = a))
    (net.origin a b) ((net.backends a).privateMessages b)
  only : ∀ i mail, net.mails[i]? = some mail → Exchanged mail a b →
    ∀ c, c ≠ b → i ∉ net.origin a c

/-- Nothing is on its way. -/
def Quiescent (net : Net) : Prop := net.requests = [] ∧ net.flight = []

/-! ## Where the rows of a mail go -/

/-- The rows that the server's two frames add to the model `x` of `u`: the slot
chooses the model by the sender of the frame, also for the sender's own copy. -/
def answers (mail : Mail) (u x : String) : Nat :=
  if x = mail.sender then
    (if u = mail.addressee then 1 else 0) + (if u = mail.sender then 1 else 0)
  else 0

/-- The row that `sendPrivate` adds at once. -/
def localEcho (mail : Mail) (u x : String) : Nat :=
  if u = mail.sender ∧ x = mail.addressee then 1 else 0

/-- How many frames of a mail are on their way to `u`. -/
def arriving (flight : List Packet) (u : String) (i : Nat) : Nat :=
  flight.countP fun packet => u = packet.receiver ∧ packet.number = i

/-- How many requests for this mail the server still has before it. -/
def unserved (requests : List Pending) (i : Nat) : Nat :=
  requests.countP fun pending => pending.number = i

/-- A row of the model of `u` shows this mail, as an own one only if `u` sent it. -/
def Shows (mails : List Mail) (u : String) (i : Nat) (row : MessageItem) : Prop :=
  ∃ mail, mails[i]? = some mail ∧ row.sender = mail.sender ∧ row.content = mail.content ∧
    (row.isSelf = true → mail.sender = u)

/-- What a waiting request of a mail says. -/
structure Waits (s : Server) (pending : Pending) (mail : Mail) : Prop where
  request : pending.request = .privateTo mail.addressee mail.content
  online : pending.session ∈ s.sessions
  own : s.name pending.session = mail.sender
  bears : mail.sender ≠ ""
  addressee : ∃ y ∈ s.sessions, s.name y = mail.addressee
  checked : privateError mail.addressee mail.content = none

/-- Every row, frame and request is accounted for. -/
structure Accounted (s : Server) (net : Net) : Prop where
  book : SameBook s net.server
  users : ∀ u, (net.backends u).currentUser = u
  waiting : ∀ pending ∈ net.requests, ∃ mail, net.mails[pending.number]? = some mail ∧
    Waits s pending mail
  flying : ∀ packet ∈ net.flight, ∃ mail now, net.mails[packet.number]? = some mail ∧
    packet.frame = privateFrame mail.sender mail.addressee mail.content now
  rows : ∀ u x, List.Forall₂ (Shows net.mails u) (net.origin u x)
    ((net.backends u).privateMessages x)
  counts : ∀ i mail, net.mails[i]? = some mail → ∀ u x,
    (net.origin u x).count i + (if x = mail.sender then arriving net.flight u i else 0) +
      unserved net.requests i * answers mail u x = localEcho mail u x + answers mail u x

theorem accounted_start (s : Server) : Accounted s { server := s } where
  book := SameBook.refl s
  users _ := rfl
  waiting := by simp
  flying := by simp
  rows _ _ := List.Forall₂.nil
  counts := by simp

/-! ## Steps -/

/-- A user's model of `name` gained one row, and no other model changed. -/
def Gains (before after : ChatBackend) (name : String) (row : MessageItem) : Prop :=
  after = { before with
    privateMessages :=
      Function.update before.privateMessages name (before.privateMessages name ++ [row]) }

theorem shows_origin {net : Net} {user name : String} {number : Nat} {after : ChatBackend}
    {row : MessageItem} (gains : Gains (net.backends user) after name row) (u x : String) :
    (net.shows user number after).origin u x =
      if u = user ∧ x = name then net.origin u x ++ [number] else net.origin u x := by
  unfold Gains at gains
  subst gains
  unfold Net.shows grown
  by_cases own : u = user
  · subst own
    by_cases model : x = name
    · subst model
      simp
    · simp [model]
  · simp [own]

theorem shows_rows {net : Net} {user name : String} {number : Nat} {after : ChatBackend}
    {row : MessageItem} (gains : Gains (net.backends user) after name row) (u x : String) :
    ((net.shows user number after).backends u).privateMessages x =
      if u = user ∧ x = name then (net.backends u).privateMessages x ++ [row]
      else (net.backends u).privateMessages x := by
  unfold Gains at gains
  subst gains
  unfold Net.shows
  by_cases own : u = user
  · subst own
    by_cases model : x = name
    · subst model
      simp
    · simp [model]
  · simp [own]

theorem shows_user {net : Net} {user name : String} (number : Nat) {after : ChatBackend}
    {row : MessageItem} (gains : Gains (net.backends user) after name row)
    (users : ∀ u, (net.backends u).currentUser = u) (u : String) :
    ((net.shows user number after).backends u).currentUser = u := by
  unfold Gains at gains
  subst gains
  unfold Net.shows
  by_cases own : u = user
  · subst own
    simp [users]
  · simp [own, users]

theorem shows_count {net : Net} {user name : String} {number : Nat} {after : ChatBackend}
    {row : MessageItem} (gains : Gains (net.backends user) after name row) (u x : String)
    (i : Nat) : ((net.shows user number after).origin u x).count i =
      (net.origin u x).count i + if (u = user ∧ x = name) ∧ number = i then 1 else 0 := by
  rw [shows_origin gains]
  by_cases own : u = user ∧ x = name
  · by_cases same : number = i
    · simp [own, same]
    · simp [own, same]
  · simp [own]

/-- The rows and their mails still correspond. -/
theorem shows_related {net : Net} {user name : String} {number : Nat} {after : ChatBackend}
    {row : MessageItem} {mails : List Mail} (gains : Gains (net.backends user) after name row)
    (rows : ∀ u x, List.Forall₂ (Shows mails u) (net.origin u x)
      ((net.backends u).privateMessages x))
    (new : Shows mails user number row) (u x : String) :
    List.Forall₂ (Shows mails u) ((net.shows user number after).origin u x)
      (((net.shows user number after).backends u).privateMessages x) := by
  rw [shows_origin gains, shows_rows gains]
  by_cases own : u = user ∧ x = name
  · rw [if_pos own, if_pos own, own.1, own.2]
    exact List.rel_append (rows user name) (.cons new .nil)
  · rw [if_neg own, if_neg own]
    exact rows u x

theorem Shows.more {mails : List Mail} {mail : Mail} {u : String} {i : Nat} {row : MessageItem}
    (shows_ : Shows mails u i row) : Shows (mails ++ [mail]) u i row := by
  obtain ⟨m, found, rest⟩ := shows_
  have inside := (List.getElem?_eq_some_iff.mp found).1
  exact ⟨m, (List.getElem?_append_left inside).trans found, rest⟩

theorem gains_sendPrivate (now : String) (backend : ChatBackend) (addressee content : String) :
    Gains backend (backend.sendPrivate now addressee content).1 addressee
      { sender := backend.currentUser, content := content, timestamp := now, isSelf := true } :=
  rfl

/-- The slot of `private_received` on a frame of the server. -/
theorem gains_onFrame (timeText : Int → String) (now : String) (backend : ChatBackend)
    (sender addressee content : String) (timestamp : Int) :
    Gains backend (backend.onFrame timeText now (privateFrame sender addressee content timestamp))
      sender { sender := sender, content := content, timestamp := timeText timestamp } :=
  rfl

/-- The server reads the request as the client meant it. -/
theorem requestJson_private (addressee content : String) :
    (requestJson (.privateTo addressee content)).value "type" "" = .ok "PRIVATE" ∧
      (requestJson (.privateTo addressee content)).value "to" "" = .ok addressee ∧
      (requestJson (.privateTo addressee content)).value "content" "" = .ok content := by
  have first : "content" < "to" := by decide
  have second : "to" < "type" := by decide
  have fields : requestJson (.privateTo addressee content) =
      .object [("content", .string content), ("to", .string addressee),
        ("type", .string "PRIVATE")] := by
    simp [requestJson, Request.msg, TextObject.set, first, second]
  rw [fields]
  exact ⟨rfl, rfl, rfl⟩

variable {timeText : Int → String} {s : Server} {net : Net}

theorem Accounted.origin_bound (known : Accounted s net) {u x : String} {i : Nat}
    (member : i ∈ net.origin u x) : i < net.mails.length := by
  have related := known.rows u x
  obtain ⟨k, inside, rfl⟩ := List.mem_iff_getElem.mp member
  obtain ⟨mail, found, _⟩ := related.get inside (related.length_eq ▸ inside)
  exact (List.getElem?_eq_some_iff.mp found).1

theorem Accounted.arriving_unknown (known : Accounted s net) (u : String) :
    arriving net.flight u net.mails.length = 0 := by
  refine List.countP_eq_zero.mpr ?_
  intro packet member
  obtain ⟨mail, now, found, _⟩ := known.flying packet member
  have inside := (List.getElem?_eq_some_iff.mp found).1
  simp only [decide_eq_true_eq]
  omega

theorem Accounted.unserved_unknown (known : Accounted s net) :
    unserved net.requests net.mails.length = 0 := by
  refine List.countP_eq_zero.mpr ?_
  intro pending member
  obtain ⟨mail, found, _⟩ := known.waiting pending member
  have inside := (List.getElem?_eq_some_iff.mp found).1
  simp only [decide_eq_true_eq]
  omega

theorem Accounted.send (known : Accounted s net) {x y : SessionRef} (now : String) {mail : Mail}
    (online : x ∈ net.server.sessions) (own : net.server.name x = mail.sender)
    (bears : mail.sender ≠ "") (addressee : y ∈ net.server.sessions)
    (named : net.server.name y = mail.addressee)
    (checked : privateError mail.addressee mail.content = none) :
    Accounted s (net.send x now mail) := by
  have name : ∀ z, net.server.name z = s.name z := fun z => known.book.username z.id
  rw [known.book.sessions] at online addressee
  rw [name] at own named
  have keeps : ∀ {i : Nat} {m : Mail}, net.mails[i]? = some m →
      (net.mails ++ [mail])[i]? = some m := by
    intro i m found
    exact (List.getElem?_append_left (List.getElem?_eq_some_iff.mp found).1).trans found
  have last : (net.mails ++ [mail])[net.mails.length]? = some mail := by simp
  have gains := gains_sendPrivate now (net.backends mail.sender) mail.addressee mail.content
  refine ⟨known.book, shows_user net.mails.length gains known.users, ?_, ?_, ?_, ?_⟩
  · intro pending member
    rcases List.mem_append.mp member with old | new
    · obtain ⟨m, found, waits⟩ := known.waiting pending old
      exact ⟨m, keeps found, waits⟩
    · rw [List.mem_singleton.mp new]
      exact ⟨mail, last, rfl, online, own, bears, ⟨y, addressee, named⟩, checked⟩
  · intro packet member
    obtain ⟨m, sent, found, frame⟩ := known.flying packet member
    exact ⟨m, sent, keeps found, frame⟩
  · refine shows_related gains (fun u x => (known.rows u x).imp fun _ _ => Shows.more) ?_
    exact ⟨mail, last, known.users _, rfl, fun _ => rfl⟩
  · intro i m found u model
    have origin : ((net.send x now mail).origin u model).count i = _ :=
      shows_count gains u model i
    have waiting : (net.send x now mail).requests =
        net.requests ++ [⟨net.mails.length, x, .privateTo mail.addressee mail.content⟩] := rfl
    rw [origin, waiting, unserved, List.countP_append]
    change _ + (if model = m.sender then arriving net.flight u i else 0) +
      (unserved net.requests i + _) * answers m u model = _
    by_cases new : i = net.mails.length
    · subst new
      have same : m = mail := Option.some.inj (found.symm.trans last)
      subst same
      have noRow : (net.origin u model).count net.mails.length = 0 := by
        refine List.count_eq_zero.mpr ?_
        intro member
        exact absurd (known.origin_bound member) (Nat.lt_irrefl _)
      simp [noRow, known.arriving_unknown, known.unserved_unknown, localEcho]
    · have other : net.mails.length ≠ i := fun equal => new equal.symm
      have old : net.mails[i]? = some m := by
        have inside := (List.getElem?_eq_some_iff.mp found).1
        have total : (net.mails ++ [mail]).length = net.mails.length + 1 := by simp
        have less : i < net.mails.length := by
          have bound : i < (net.mails ++ [mail]).length := inside
          omega
        exact (List.getElem?_append_left less).symm.trans found
      have before := known.counts i m old u model
      simpa [new, other] using before

theorem Accounted.serve (known : Accounted s net) (orderly : Orderly s)
    {before after : List Pending} {pending : Pending} {o : Except Exn Unit} {server : Server}
    (waiting : net.requests = before ++ pending :: after)
    (ran : Runs Act.exec Works (route pending.session (requestJson pending.request))
      net.server o server) :
    Accounted s { net.answer pending.number server with requests := before ++ after } := by
  have name : ∀ z, net.server.name z = s.name z := fun z => known.book.username z.id
  have here : pending ∈ net.requests := by simp [waiting]
  obtain ⟨mail, found, waits⟩ := known.waiting pending here
  obtain ⟨y, online, named⟩ := waits.addressee
  obtain ⟨type, addressee, content⟩ := requestJson_private mail.addressee mail.content
  have own : net.server.name pending.session = mail.sender := (name _).trans waits.own
  have other : net.server.name y = mail.addressee := (name y).trans named
  have from_ : pending.session ∈ net.server.sessions := by
    rw [known.book.sessions]
    exact waits.online
  have bears : net.server.name pending.session ≠ "" := own ▸ waits.bears
  have reaches : y ∈ net.server.sessions := by
    rw [known.book.sessions]
    exact online
  rw [← waits.request] at type addressee content
  rw [← other] at addressee
  have checked : privateError (net.server.name y) mail.content = none := by
    rw [other]
    exact waits.checked
  have answered := always_private (orderly.same known.book) from_ bears reaches type addressee
    content checked _ _ ran
  cases o with
  | error e => exact answered.elim
  | ok value =>
    obtain ⟨now, w, _, state⟩ := answered
    have frames : newFrames net.server server =
        [(y, privateFrame mail.sender mail.addressee mail.content now),
          (pending.session, privateFrame mail.sender mail.addressee mail.content now)] := by
      rw [state, own, other]
      exact newFrames_told net.server _ _ rfl
    have flight : (net.answer pending.number server).flight = net.flight ++
        [⟨pending.number, mail.addressee, privateFrame mail.sender mail.addressee mail.content now⟩,
          ⟨pending.number, mail.sender,
            privateFrame mail.sender mail.addressee mail.content now⟩] := by
      unfold Net.answer
      rw [frames]
      simp [own, other]
    refine ⟨?_, known.users, ?_, ?_, known.rows, ?_⟩
    · refine known.book.trans ?_
      have stored := sameBook_stored net.server w.dbOk (net.server.name pending.session)
        (net.server.name y) mail.content now
      rw [state]
      exact stored.trans (sameBook_told _ _)
    · intro other member
      refine known.waiting other ?_
      rw [waiting]
      simp only [List.mem_append, List.mem_cons] at member ⊢
      tauto
    · intro packet member
      rw [flight] at member
      rcases List.mem_append.mp member with old | new
      · exact known.flying packet old
      · simp only [List.mem_cons, List.not_mem_nil, or_false] at new
        rcases new with rfl | rfl
        · exact ⟨mail, now, found, rfl⟩
        · exact ⟨mail, now, found, rfl⟩
    · intro i m there u x
      have balance := known.counts i m there u x
      have arrivals : arriving (net.answer pending.number server).flight u i =
          arriving net.flight u i + if pending.number = i then
            (if u = mail.addressee then 1 else 0) + (if u = mail.sender then 1 else 0) else 0 := by
        rw [flight, arriving, List.countP_append]
        by_cases same : pending.number = i
        · simp [arriving, List.countP_cons, same, Nat.add_comm]
        · simp [arriving, same]
      have served : unserved net.requests i =
          unserved (before ++ after) i + if pending.number = i then 1 else 0 := by
        simp only [waiting, unserved, List.countP_append, List.countP_cons, decide_eq_true_eq]
        omega
      change (net.origin u x).count i +
        (if x = m.sender then arriving (net.answer pending.number server).flight u i else 0) +
          unserved (before ++ after) i * answers m u x = _
      rw [arrivals]
      rw [served, Nat.add_mul] at balance
      by_cases same : pending.number = i
      · subst same
        have equal : m = mail := Option.some.inj (there.symm.trans found)
        subst equal
        unfold answers at balance ⊢
        by_cases model : x = m.sender
        · simp only [model, if_true] at balance ⊢
          omega
        · simp only [model, if_false] at balance ⊢
          omega
      · simpa [same] using balance

theorem Accounted.deliver (known : Accounted s net) {before after : List Packet}
    {packet : Packet} (timeText : Int → String) (now : String)
    (flying : net.flight = before ++ packet :: after) :
    Accounted s { net.arrive timeText now packet with flight := before ++ after } := by
  have here : packet ∈ net.flight := by simp [flying]
  obtain ⟨mail, sent, found, frame⟩ := known.flying packet here
  have gains := gains_onFrame timeText now (net.backends packet.receiver) mail.sender
    mail.addressee mail.content sent
  rw [← frame] at gains
  refine ⟨known.book, shows_user packet.number gains known.users, known.waiting, ?_,
    ?_, ?_⟩
  · intro other member
    refine known.flying other ?_
    rw [flying]
    simp only [List.mem_append, List.mem_cons] at member ⊢
    tauto
  · refine shows_related gains known.rows ?_
    exact ⟨mail, found, rfl, rfl, fun own => nomatch own⟩
  · intro i m there u x
    have balance := known.counts i m there u x
    have origin : ((net.arrive timeText now packet).origin u x).count i = _ :=
      shows_count gains u x i
    have arrived : arriving net.flight u i = arriving (before ++ after) u i +
        if u = packet.receiver ∧ packet.number = i then 1 else 0 := by
      simp only [flying, arriving, List.countP_append, List.countP_cons, decide_eq_true_eq]
      omega
    change ((net.arrive timeText now packet).origin u x).count i +
      (if x = m.sender then arriving (before ++ after) u i else 0) +
        unserved net.requests i * answers m u x = _
    rw [origin]
    rw [arrived] at balance
    by_cases same : packet.number = i
    · have equal : m = mail := by
        subst same
        exact Option.some.inj (there.symm.trans found)
      subst equal
      by_cases model : x = m.sender
      · simp only [model, same, and_true, if_true] at balance ⊢
        omega
      · simp only [model, and_false, false_and, if_false] at balance ⊢
        omega
    · simp only [same, and_false, if_false] at balance ⊢
      omega

theorem accounted_of_exchange (orderly : Orderly s) (run : Exchange timeText s net) :
    Accounted s net := by
  induction run with
  | start => exact accounted_start s
  | step run step ih =>
    cases step with
    | send x y now mail online own bears addressee named checked =>
      exact ih.send now online own bears addressee named checked
    | serve before after pending o server waiting ran => exact ih.serve orderly waiting ran
    | deliver before after packet now flying => exact ih.deliver timeText now flying

/-! ## When everything has arrived -/

theorem count_of_quiescent (known : Accounted s net) (quiet : Quiescent net) {i : Nat}
    {mail : Mail} (found : net.mails[i]? = some mail) (u x : String) :
    (net.origin u x).count i = localEcho mail u x + answers mail u x := by
  have balance := known.counts i mail found u x
  simpa [arriving, unserved, quiet.1, quiet.2] using balance

/-- In the quiescent states of every exchange, `a` sees the conversation with `b` whole
and nowhere else exactly when `a` has sent `b` nothing: the sender's copy of an own
message lands in the sender's model of its own name. -/
theorem private_conversation_complete_iff {db : Database} (run : SerialRun Works db s)
    (exchange : Exchange timeText s net) (quiet : Quiescent net) (a b : String) (other : a ≠ b) :
    Complete net a b ↔ ∀ mail ∈ net.mails, ¬ (mail.sender = a ∧ mail.addressee = b) := by
  have known := accounted_of_exchange (orderly_of_run run) exchange
  constructor
  · rintro complete mail member ⟨rfl, rfl⟩
    obtain ⟨i, inside, found⟩ := List.mem_iff_getElem.mp member
    have number : net.mails[i]? = some mail := List.getElem?_eq_some_iff.mpr ⟨inside, found⟩
    have echoed := count_of_quiescent known quiet number mail.sender mail.sender
    have positive : 0 < (net.origin mail.sender mail.sender).count i := by
      simp only [answers, if_true] at echoed
      omega
    exact complete.only i mail number (Or.inl ⟨rfl, rfl⟩) mail.sender other
      (List.count_pos_iff.mp positive)
  · intro silent
    have received : ∀ (i : Nat) mail, net.mails[i]? = some mail → Exchanged mail a b →
        mail.sender = b ∧ mail.addressee = a := by
      intro i mail found exchanged
      rcases exchanged with own | back
      · exact absurd own (silent mail (List.mem_of_getElem? found))
      · exact back
    have copies : ∀ (i : Nat) mail, net.mails[i]? = some mail → Exchanged mail a b → ∀ c,
        (net.origin a c).count i = if c = b then 1 else 0 := by
      intro i mail found exchanged c
      obtain ⟨sender, addressee⟩ := received i mail found exchanged
      have total := count_of_quiescent known quiet found a c
      simpa [localEcho, answers, sender, addressee, other] using total
    refine ⟨?_, ?_, ?_⟩
    · intro i mail found exchanged
      simpa using copies i mail found exchanged b
    · refine List.forall₂_iff_get.mpr ⟨(known.rows a b).length_eq, ?_⟩
      intro k inside inside'
      obtain ⟨mail, found, sender, content, own⟩ := (known.rows a b).get inside inside'
      have total := count_of_quiescent known quiet found a b
      have here : 0 < (net.origin a b).count ((net.origin a b).get ⟨k, inside⟩) :=
        List.count_pos_iff.mpr (List.get_mem _ _)
      have back : mail.sender = b ∧ mail.addressee = a := by
        by_cases mine : a = mail.sender
        · have unsent := silent mail (List.mem_of_getElem? found)
          have apart : b ≠ mail.addressee := fun same => unsent ⟨mine.symm, same.symm⟩
          have strange : b ≠ mail.sender := fun same => other (mine.trans same.symm)
          simp only [localEcho, answers, apart, strange, and_false, if_false] at total
          omega
        · by_cases theirs : b = mail.sender
          · by_cases addressed : a = mail.addressee
            · exact ⟨theirs.symm, addressed.symm⟩
            · simp only [localEcho, answers, mine, addressed, false_and, if_false, ite_self] at total
              omega
          · simp only [localEcho, answers, mine, theirs, false_and, if_false] at total
            omega
      have foreign : mail.sender ≠ a := by
        rw [back.1]
        exact fun same => other same.symm
      exact ⟨mail, found, Or.inr back, sender, content,
        fun self => absurd (own self) foreign, fun same => absurd same foreign⟩
    · intro i mail found exchanged c apart
      have none_ := copies i mail found exchanged c
      rw [if_neg apart] at none_
      exact List.count_eq_zero.mp none_

/-! ## One message -/

/-- The oldest frames on their way arrive. -/
def arrivals : Nat → Net → Net
  | 0, net => net
  | n + 1, net =>
    match net.flight with
    | [] => net
    | packet :: rest =>
      arrivals n { net.arrive (fun _ => "12:00:01") "12:00:01" packet with flight := rest }

theorem exchange_arrivals (n : Nat) {s : Server} {net : Net}
    (run : Exchange (fun _ => "12:00:01") s net) :
    Exchange (fun _ => "12:00:01") s (arrivals n net) := by
  induction n generalizing net with
  | zero => exact run
  | succ n ih =>
    unfold arrivals
    split
    next => exact run
    next packet rest flying => exact ih (run.step (.deliver [] rest packet "12:00:01" flying))

/-- What alice says. -/
def hello : Mail := ⟨"alice", "bob", "hello"⟩

/-- alice says hello to bob, and everything arrives. -/
def helloNet : Net :=
  let sent := Net.send { server := aliceAndBob } alice "12:00:00" hello
  let served := (eval Act.exec (tellingWorld .null) (route alice
    (requestJson (.privateTo "bob" "hello"))) aliceAndBob).2
  arrivals 2 { sent.answer 0 served with requests := [] }

theorem helloNet_exchange : Exchange (fun _ => "12:00:01") aliceAndBob helloNet := by
  have typed : NetStep (fun _ => "12:00:01") { server := aliceAndBob }
      (Net.send { server := aliceAndBob } alice "12:00:00" hello) :=
    .send alice bob "12:00:00" hello (by decide +kernel)
      (by decide +kernel) (by decide +kernel) (by decide +kernel) (by decide +kernel)
      (by decide +kernel)
  have ran := eval_runs Act.exec Works (tellingWorld .null) ⟨rfl, rfl⟩
    (route alice (requestJson (.privateTo "bob" "hello"))) aliceAndBob
  have served := (Exchange.start.step typed).step (.serve [] []
    ⟨0, alice, .privateTo "bob" "hello"⟩ _ _ rfl ran)
  exact exchange_arrivals 2 served

theorem helloNet_quiescent : Quiescent helloNet :=
  ⟨List.eq_nil_of_length_eq_zero (by decide +kernel),
    List.eq_nil_of_length_eq_zero (by decide +kernel)⟩

/-- Alice writes to Bob, and his side of the conversation is complete exactly because he wrote
nothing himself. -/
theorem private_conversation_complete_iff_hello :
    Complete helloNet "bob" "alice" ↔
      ∀ mail ∈ helloNet.mails, ¬ (mail.sender = "bob" ∧ mail.addressee = "alice") :=
  private_conversation_complete_iff (run_aliceAndBob works_telling) helloNet_exchange helloNet_quiescent
    "bob" "alice" (by decide)

/-- After one message alice has a conversation with herself. -/
theorem own_message_in_own_model :
    SerialRun Works {} aliceAndBob ∧ Exchange (fun _ => "12:00:01") aliceAndBob helloNet ∧
      Quiescent helloNet ∧ ¬ Complete helloNet "alice" "bob" := by
  refine ⟨run_aliceAndBob works_telling, helloNet_exchange, helloNet_quiescent, ?_⟩
  intro complete
  have found : helloNet.mails[0]? = some hello := by decide +kernel
  refine complete.only 0 hello found (Or.inl ⟨rfl, rfl⟩) "alice" (by decide) ?_
  decide +kernel

end LinuxChat.Guarantees.PrivateConversations
