import LinuxChat.Guarantees.Rejections

/-!
# Recipients and names

What it means for a frame to fan out. The recipients of a broadcast come from the session
table, the listed names from the online set; that they are the same people is `Orderly`.
-/

namespace LinuxChat.Guarantees.FanOut

open LinuxChat.Lib LinuxChat.Source Prog Serial SerialRuns SerialPlayback Rejections

/-- Database calls and sends succeed. -/
def Works (w : World) : Prop := w.dbOk = true ∧ w.sendOk = true

/-! ## Vocabulary -/

/-- The live authenticated connections. -/
def live (s : Server) : List SessionRef := s.sessions.filter fun x => s.name x ≠ ""

/-- One copy of the frame for each of the targets, and nothing else. -/
def OneEach (frames : List (SessionRef × Json)) (frame : Json) (targets : List SessionRef) : Prop :=
  targets.Nodup ∧ frames.Perm (toAll frame targets)

/-- The names of the live authenticated connections, each once. -/
def Lists (names : List String) (s : Server) : Prop :=
  names.Nodup ∧ ∀ u, u ∈ names ↔ ∃ x ∈ live s, s.name x = u

/-- The oldest task of the queue is not stale, and its run ends in `s'`. -/
def Handles (task : Task) (s s' : Server) : Prop :=
  ∃ rest o, s.tasks = task :: rest ∧
    (s.heap task.session.id).generation = task.genAtDispatch ∧
    Runs Act.exec Works (runTask task) { s with tasks := rest } o s'

/-- A BROADCAST of an authenticated connection with a content that passes the checks. -/
structure AcceptedBroadcast (s : Server) (task : Task) (content : String) : Prop where
  bears : s.name task.session ≠ ""
  type : task.msg.value "type" "" = .ok "BROADCAST"
  reads : task.msg.value "content" "" = .ok content
  filled : content ≠ ""
  short : content.utf8ByteSize ≤ maxMessageLen

/-- A PRIVATE of an authenticated connection that passes the checks, to a live
connection `target` authenticated as `toUser`. -/
structure AcceptedPrivate (s : Server) (task : Task) (toUser content : String)
    (target : SessionRef) : Prop where
  bears : s.name task.session ≠ ""
  type : task.msg.value "type" "" = .ok "PRIVATE"
  addressee : task.msg.value "to" "" = .ok toUser
  reads : task.msg.value "content" "" = .ok content
  checked : privateError toUser content = none
  online : target ∈ s.sessions
  named : s.name target = toUser

/-- What the leaving of a connection that was named `username` makes the server send. -/
def Departure (s s' : Server) (username : String) : Prop :=
  ∃ names now now' lists notices, Lists names s' ∧ newFrames s s' = lists ++ notices ∧
    OneEach lists (userListFrame names now) (live s') ∧
    OneEach notices (notifyFrame (username ++ " 离开了聊天室") now') (live s')

/-- What the coming of `x` as `username` makes the server send. -/
def Arrival (s s' : Server) (x : SessionRef) (username : String) : Prop :=
  ∃ rows names now now' lists notices, x ∈ live s' ∧ s'.name x = username ∧ Lists names s' ∧
    newFrames s s' = (x, okFrame "LOGIN_OK" username) ::
      (x, historyFrame "__room__" rows) :: (lists ++ notices) ∧
    OneEach lists (userListFrame names now) (live s') ∧
    OneEach notices (notifyFrame (username ++ " 加入了聊天室") now')
      ((live s').filter (· ≠ x))

/-- An outside that works and in which `recv_msgs` gives the connection up. -/
def GivesUp (s : Server) (x : SessionRef) (w : World) : Prop :=
  Works w ∧ (Act.exec w (.recvMsgs x) s).1 = .ok none

/-- The fan-out of every kind of turn from `s`. A LOGIN or REGISTER is successful when the
connection bears a name afterwards; only then is LOGIN_OK sent. A connection is removed by
`remove_client`, on the event in which `recv_msgs` gives it up, and never leaves the
table in another way. -/
structure FansOut (s : Server) : Prop where
  broadcast : ∀ task content s', AcceptedBroadcast s task content → Handles task s s' →
    ∃ now row, s'.db.messages = s.db.messages ++ [row] ∧
      row.fromUser = cString (s.name task.session) ∧ row.toUser = "__room__" ∧
      row.content = cString content ∧ task.session ∈ live s' ∧
      OneEach (newFrames s s') (broadcastFrame (s.name task.session) content now) (live s')
  privately : ∀ task toUser content target s', AcceptedPrivate s task toUser content target →
    Handles task s s' →
    ∃ now row, s'.db.messages = s.db.messages ++ [row] ∧
      row.fromUser = cString (s.name task.session) ∧ row.toUser = cString toUser ∧
      row.content = cString content ∧
      newFrames s s' = [(target, privateFrame (s.name task.session) toUser content now),
        (task.session, privateFrame (s.name task.session) toUser content now)]
  login : ∀ task username s', Handles task s s' → s.name task.session = "" →
    s'.name task.session = username → username ≠ "" → Arrival s s' task.session username
  positive : ∀ task username s', Handles task s s' →
    (task.session, okFrame "LOGIN_OK" username) ∈ newFrames s s' →
    s.name task.session = "" ∧ username ≠ "" ∧ Arrival s s' task.session username
  logout : ∀ task s', s.name task.session ≠ "" →
    task.msg.value "type" "" = .ok "LOGOUT" → Handles task s s' →
    task.session ∉ live s' ∧ Departure s s' (s.name task.session)
  disconnect : ∀ x o s', x ∈ s.sessions → s.name x ≠ "" →
    Runs Act.exec (GivesUp s x) (handleClientEvent x.fd) s o s' →
    x ∉ s'.sessions ∧ Departure s s' (s.name x)
  removal : ∀ x o s', x ∈ s.sessions → s.name x ≠ "" →
    Runs Act.exec Works (removeClient x.fd) s o s' →
    x ∉ s'.sessions ∧ Departure s s' (s.name x)
  missing : ∀ x s', x ∈ s.sessions → s.name x ≠ "" → SerialTurn Works s s' → x ∉ s'.sessions →
    Departure s s' (s.name x)

/-! ## Recipients and names -/

theorem broadcastTargets_all (s : Server) : s.broadcastTargets "" = live s := by
  have everyone : ("" : String).isEmpty = true := by decide
  unfold Server.broadcastTargets live
  apply List.filter_congr
  intro x _
  simp only [everyone, Bool.true_or, Bool.and_true, ClientSession.isAuthenticated]
  by_cases blank : s.name x = ""
  · have empty : (s.heap x.id).username = "" := blank
    simp [blank, empty]
  · have nonempty : (s.heap x.id).username ≠ "" := blank
    simp [blank, nonempty]

theorem nodup_sessions {s : Server} (orderly : Orderly s) : s.sessions.Nodup :=
  orderly.fds.imp fun apart same => apart (congrArg SessionRef.fd same)

theorem nodup_live {s : Server} (orderly : Orderly s) : (live s).Nodup :=
  (nodup_sessions orderly).filter _

theorem mem_live {s : Server} {x : SessionRef} :
    x ∈ live s ↔ x ∈ s.sessions ∧ s.name x ≠ "" := by
  simp [live]

theorem lists_online {s : Server} (orderly : Orderly s) : Lists s.onlineUsers s := by
  refine ⟨orderly.nodup, ?_⟩
  intro u
  rw [orderly.online u]
  constructor
  · rintro ⟨filled, x, member, bears⟩
    subst bears
    exact ⟨x, mem_live.mpr ⟨member, filled⟩, rfl⟩
  · rintro ⟨x, member, bears⟩
    subst bears
    exact ⟨(mem_live.mp member).2, x, (mem_live.mp member).1, rfl⟩

theorem oneEach_toAll {frame : Json} {targets : List SessionRef} (nodup : targets.Nodup) :
    OneEach (toAll frame targets) frame targets :=
  ⟨nodup, List.Perm.refl _⟩

/-- Servers with the same book have the same recipients and names. -/
theorem live_same {s s' : Server} (same : SameBook s s') : live s' = live s := by
  unfold live Server.name
  rw [same.sessions]
  simp only [same.username]

theorem lists_same {s s' : Server} {names : List String} (same : SameBook s s')
    (lists : Lists names s) : Lists names s' := by
  refine ⟨lists.1, ?_⟩
  intro u
  rw [lists.2 u, live_same same]
  simp only [Server.name, same.username]

/-- Excluding by name excludes the one connection of that name. -/
theorem broadcastTargets_except {s : Server} {x : SessionRef} (orderly : Orderly s)
    (member : x ∈ live s) : s.broadcastTargets (s.name x) = (live s).filter (· ≠ x) := by
  obtain ⟨there, bears⟩ := mem_live.mp member
  have filled : (s.name x).isEmpty = false := by simpa using bears
  unfold Server.broadcastTargets live
  rw [List.filter_filter]
  apply List.filter_congr
  intro y hy
  have same : s.name y = s.name x ↔ y = x := by
    constructor
    · intro equal
      exact orderly.distinct y hy x there (equal ▸ bears) equal
    · intro equal
      rw [equal]
  simp only [filled, Bool.false_or, ClientSession.isAuthenticated]
  by_cases blank : s.name y = ""
  · have empty : (s.heap y.id).username = "" := blank
    simp [blank, empty]
  · have nonempty : (s.heap y.id).username ≠ "" := blank
    simp [blank, nonempty, same]

end LinuxChat.Guarantees.FanOut
