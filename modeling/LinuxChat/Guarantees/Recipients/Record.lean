import LinuxChat.Lib.Monitor
import LinuxChat.Lib.History
import LinuxChat.Guarantees.Effects

/-!
# Who a frame is for

A history variable keeps the sessions each thread refers to, the names that sessions have
borne, and every frame with the session whose message it answers. `Entitled` says whom a frame
is for in these terms; `posts` watches one thread and says which frames it may send, given
what it has in hand.
-/

namespace LinuxChat.Guarantees.Recipients

open LinuxChat.Lib LinuxChat.Source Prog

/-! ## The record -/

/-- What a thread refers to: the session of its task, the addressee it has looked up by
name, the last session found under a descriptor, the last list of recipients. `admitted`
says that it has seen or given a name of its own session. -/
structure Custody where
  origin : Option SessionRef := none
  admitted : Bool := false
  addressee : Option (String × SessionRef) := none
  found : Option (Nat × SessionRef) := none
  recipients : List SessionRef := []

namespace Custody

/-- The thread works for the session of its task, is admitted when the gate says so or when it
gives a name, and notes the addressee, the session under a descriptor and the recipients it has
found. -/
def follow (c : Custody) : (action : Act) → action.Res → Custody
  | .isAuthenticated session, authenticated =>
    if authenticated = true ∧ c.origin = some session then { c with admitted := true } else c
  | .setUsername _ _, _ => { c with admitted := true }
  | .findSession username, target =>
    { c with addressee := target.map fun session => (username, session), found := none }
  | .findByFd fd, found => { c with found := found.map fun session => (fd, session) }
  | .eraseSession _, _ => { c with found := none }
  | .storeSession _ _, _ => { c with found := none }
  | .broadcastTargets _, targets => { c with recipients := targets }
  | .dropSession _, _ => {}
  | _, _ => c

end Custody

/-- A frame sent, and the session whose message it answers. -/
structure Parcel where
  origin : Option SessionRef
  recipient : SessionRef
  frame : Json

/-- What every thread has in hand, the names that sessions have ever borne, and every frame sent
with the session it was sent for. -/
structure Post where
  custody : Nat → Custody := fun _ => {}
  borne : List (Nat × String) := []
  sent : List Parcel := []

namespace Post

/-- Setting a username is recorded. -/
def names (borne : List (Nat × String)) : Act → List (Nat × String)
  | .setUsername session name => (session.id, name) :: borne
  | _ => borne

/-- Sending a frame is recorded, with the session that the thread works for. -/
def parcels (post : Post) (t : Nat) : Act → List Parcel
  | .sendMsg session _ frame => post.sent ++ [⟨(post.custody t).origin, session, frame⟩]
  | _ => post.sent

/-- One action of a thread. -/
def record (post : Post) (t : Nat) (action : Act) (result : action.Res) : Post where
  custody := Function.update post.custody t ((post.custody t).follow action result)
  borne := names post.borne action
  sent := post.parcels t action

/-- A worker takes the oldest task. -/
def take (post : Post) (t : Nat) (tasks : List Task) : Post :=
  if t = 0 then post
  else { post with
    custody := Function.update post.custody t { origin := tasks.head?.map Task.session } }

end Post

/-- The history variable that records names and frames. -/
def posting (workers : Nat) : History (machine workers) Post where
  record t action result _ _ post := post.record t action result
  start t s post := post.take t s.server.tasks

/-- The server with the frames sent so far. -/
abbrev Posted := Shared × Post

/-- The server with that history. -/
abbrev posted (workers : Nat) : Machine serverInterface Exn Posted World :=
  (machine workers).recording (posting workers)

/-- The server as `main` starts it; nothing has been sent. -/
def postedBoot (db : Database) : Config serverInterface Exn Posted :=
  ⟨((boot db).shared, {}), (boot db).thread⟩

/-- A session object that is alive, other than for a moment within `send_to_fd` or
`broadcast`. -/
def Held (s : Posted) (x : SessionRef) : Prop :=
  x ∈ s.1.server.sessions ∨ (∃ task ∈ s.1.server.tasks, task.session = x) ∨
    ∃ t, (s.2.custody t).origin = some x ∨ ∃ name, (s.2.custody t).addressee = some (name, x)

/-- `accept4` returns a descriptor that no living session object has. -/
def Closed (_ : Nat) (action : Act) (s : Posted) : Prop :=
  ∀ fd ip, action = .storeSession fd ip → ∀ x, Held s x → x.fd ≠ fd

/-! ## Whom a frame is for -/

/-- The types of the frames that go to all who are logged in. -/
def isPublic (type : String) : Bool :=
  type = "BROADCAST" || type = "USER_LIST" || type = "NOTIFY" || type = "PING"

/-- The types of the frames that go to a user about his own affairs. -/
def isPersonal (type : String) : Bool :=
  type = "LOGIN_OK" || type = "HISTORY_RESP" || type = "PRIVATE"

/-- The session has borne a name. -/
def Bore (borne : List (Nat × String)) (id : Nat) : Prop := ∃ name, name ≠ "" ∧ (id, name) ∈ borne

/-- Why a frame may have gone to its recipient: it answers his own message, he has borne the name
it is for, or it is for all who have been logged in. -/
inductive Entitled (borne : List (Nat × String)) (parcel : Parcel) : Prop
  /-- An ERROR answers the message of its recipient. -/
  | refused (type : parcel.frame.typeOf = "ERROR") (own : parcel.origin = some parcel.recipient)
  /-- So do the frames meant for one user, and that user has been logged in. -/
  | answered (type : isPersonal parcel.frame.typeOf = true)
      (own : parcel.origin = some parcel.recipient) (named : Bore borne parcel.recipient.id)
  /-- The addressee of a PRIVATE frame has borne the name it is addressed to. -/
  | addressed (name : String) (type : parcel.frame.typeOf = "PRIVATE")
      (reads : parcel.frame.value "to" "" = .ok name) (nonempty : name ≠ "")
      (named : (parcel.recipient.id, name) ∈ borne)
  /-- Frames for everybody go to those who have been logged in. -/
  | announced (type : isPublic parcel.frame.typeOf = true) (named : Bore borne parcel.recipient.id)

/-! ## What the programs send -/

/-- The last lookup by descriptor was for that of `y`. -/
def FoundAs (c : Custody) (x y : SessionRef) : Prop := c.found = some (y.fd, x)

/-- What a handler may send, given what it has in hand. -/
inductive Sends (c : Custody) (x : SessionRef) (frame : Json) : Prop
  | refuses (type : frame.typeOf = "ERROR") (own : c.origin = some x)
  | answers (type : isPersonal frame.typeOf = true) (admitted : c.admitted = true)
      (own : c.origin = some x)
  | returns (type : isPersonal frame.typeOf = true) (admitted : c.admitted = true)
      (origin : SessionRef) (own : c.origin = some origin) (found : FoundAs c x origin)
  | delivers (name : String) (target : SessionRef) (type : frame.typeOf = "PRIVATE")
      (reads : frame.value "to" "" = .ok name) (nonempty : name ≠ "")
      (addressee : c.addressee = some (name, target)) (found : FoundAs c x target)
  | announces (type : isPublic frame.typeOf = true) (listed : x ∈ c.recipients)

/-- Only the event loop accepts, removes and dispatches, and it dispatches for the session
it has found; a name is given to the session of the task; frames are sent as they should. -/
def posts : Monitor serverInterface (Bool × Custody) where
  next h action result := (h.1, h.2.follow action result)
  ok h
    | .storeSession _ _ => h.1 = true
    | .eraseSession _ => h.1 = true
    | .enqueue task => h.1 = true ∧ ∃ fd, h.2.found = some (fd, task.session)
    | .setUsername session name => h.2.origin = some session ∧ name ≠ ""
    | .sendMsg x _ frame => Sends h.2 x frame
    | _ => True

end LinuxChat.Guarantees.Recipients
