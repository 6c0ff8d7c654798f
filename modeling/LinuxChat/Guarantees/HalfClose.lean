import LinuxChat.Guarantees.HalfClose.Kept

/-!
# Data before FIN

A client writes some frames and closes its write side; the server reads to the end of the stream,
and the next round of the event loop removes the session, which makes its waiting tasks stale
(server/src/protocol.cpp:89-180, server/src/epoll_server.cpp:257-333). Nothing is lost on the way to
`on_message_` unless the removal overtakes a task, or the buffer is full.
-/

namespace LinuxChat.Guarantees.HalfClose

open LinuxChat.Lib LinuxChat.Source Prog MessageFlow

section
variable {workers n : Nat} {db : Database} {bytes : Bytes} {parse : Bytes → Parsed}
  {allowed : Nat → Act → Lined → Prop} {c : Config serverInterface Exn Lined}
  (run : (lined workers parse n).Reaches allowed (linedBoot db bytes) c)
include run

end

section
variable {dump : Json → Option Bytes} {parse : Bytes → Parsed} {msgs : List Json}

theorem kept_boot (n : Nat) (db : Database) (sendable : ∀ m ∈ msgs, Sendable dump parse m) :
    Kept n parse msgs (linedBoot db (msgs.flatMap (sentBytes dump))).shared where
  attended _ _ found := nomatch found
  lawful ended := nomatch ended
  toCome := by
    refine ⟨msgs, rfl, ?_⟩
    have decoder : decoderAt n (linedBoot db (msgs.flatMap (sentBytes dump))).shared.server =
        (0, []) := if_neg (Nat.not_lt_zero n)
    rw [decoder]
    exact run_sent msgs sendable
  givenUp _ _ found := nomatch found
  removed gone := nomatch gone
  queued _ member := nomatch member
  held _ _ own := nomatch own
  fresh _ member := nomatch member

end

/-- A REGISTER of bob, as nlohmann writes it. -/
def registerText : Bytes :=
  [123, 34, 99, 111, 110, 116, 101, 110, 116, 34, 58, 34, 112, 119, 34, 44, 34, 102, 114, 111, 109,
    34, 58, 34, 98, 111, 98, 34, 44, 34, 116, 121, 112, 101, 34, 58, 34, 82, 69, 71, 73, 83, 84, 69,
    82, 34, 125]

/-- A LOGOUT. -/
def logoutText : Bytes :=
  [123, 34, 116, 121, 112, 101, 34, 58, 34, 76, 79, 71, 79, 85, 84, 34, 125]

def registerBob : Json := request "REGISTER" "bob"

def logout : Json := .object [("type", .string "LOGOUT")]

/-- The JSON library on two texts. -/
def bobsDump (msg : Json) : Option Bytes :=
  if msg.typeOf = "REGISTER" then some registerText
  else if msg.typeOf = "LOGOUT" then some logoutText
  else none

def bobsParse (body : Bytes) : Parsed :=
  if body = registerText then .value registerBob
  else if body = logoutText then .value logout
  else .parseError

section
variable {workers n : Nat} {parse : Bytes → Parsed} {allowed : Nat → Act → Lined → Prop}
  {init : Config serverInterface Exn Lined} {s : Lined}

/-- Thread `t` has run a program, with the same input throughout. -/
def served (workers : Nat) (parse : Bytes → Parsed) (n t : Nat) (input : World × List Nat)
    (p : Proc Unit) (s : Lined) : Lined :=
  (eval ((lined workers parse n).exec t) input p s).2

/-- Thread `t` has taken the oldest task. -/
def takenBy (workers t : Nat) (s : Lined) : Lined :=
  ((dequeue s.1.1, (recorded workers).start t s.1.1 s.1.2), s.2)

end

/-- The connection of a client that has written these messages is accepted as session 0. -/
def accepted (workers : Nat) (msgs : List Json) : Lined :=
  served workers bobsParse 0 0 (steadyWorld, []) (handleNewConnection 5 "10.0.0.1")
    (linedBoot {} (msgs.flatMap (sentBytes bobsDump))).shared

/-- The event loop turns to the connection, while pieces of these sizes arrive. -/
def polled (workers : Nat) (pieces : List Nat) (s : Lined) : Lined :=
  served workers bobsParse 0 0 (steadyWorld, pieces) (handleClientEvent 5) s

/-- Worker `t` runs the oldest task. -/
def workedBy (workers t : Nat) (s : Lined) : Lined :=
  served workers bobsParse 0 t (steadyWorld, []) (runTask (oldest s.1.1)) (takenBy workers t s)

/-- The frame is read and its task enqueued; the end of the stream has come, too. -/
def readWhole : Lined := polled 1 [4095] (accepted 1 [registerBob])

/-- The event loop has removed the session before the worker takes the task. -/
def overtaken : Lined := workedBy 1 1 (polled 1 [] readWhole)

end LinuxChat.Guarantees.HalfClose
