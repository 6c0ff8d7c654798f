import LinuxChat.Source.Locking

/-!
# Sends in pieces

The programs of the server with their mutexes, where `send_msg` is as many calls of
`::send` as the socket makes of it (server/src/protocol.cpp:25-72): the header first, then
the body, and every call takes any positive number of the octets left of its buffer. A
session has its descriptor to itself until it is destroyed, so sockets go by session.
-/

namespace LinuxChat.Source

open LinuxChat.Lib Prog

/-- The parts of an action once more, with every `::send` a step of its own. -/
inductive Piece where
  | inner (part : Inner)
  -- one `::send` of `first :: rest`; the buffer `behind` comes after it
  | write (session : SessionRef) (locked : Bool) (msg : Json) (first : UInt8)
      (rest behind : Bytes)

/-- The result of a piece. -/
@[reducible] def Piece.Res : Piece → Type
  | inner part => part.Res
  -- the octets taken beyond the first
  | write _ _ _ _ _ _ => Nat

/-- A frame some of whose octets are still to be written. -/
structure UnderWay where
  id : Nat
  locked : Bool
  msg : Json
  left : Bytes

/-- What has been written to the socket of each session, the messages whose frames are
complete there, and the frame each thread is writing. -/
structure Wire where
  written : Nat → Bytes := fun _ => []
  complete : Nat → List Json := fun _ => []
  underWay : Nat → Option UnderWay := fun _ => none

/-- What is under way when `left` is still to be written. -/
def UnderWay.of (id : Nat) (locked : Bool) (msg : Json) : Bytes → Option UnderWay
  | [] => none
  | first :: rest => some ⟨id, locked, msg, first :: rest⟩

/-- The octets that one `::send` took go to the socket; with the last of them the frame is
complete. -/
def Wire.write (wire : Wire) (t id : Nat) (locked : Bool) (msg : Json) (taken left : Bytes) :
    Wire where
  written := Function.update wire.written id (wire.written id ++ taken)
  complete :=
    if left.isEmpty then Function.update wire.complete id (wire.complete id ++ [msg])
    else wire.complete
  underWay := Function.update wire.underWay t (UnderWay.of id locked msg left)

/-- The server with what is on its sockets, and the mutexes. -/
abbrev WireState := (Server × Wire) × Locks Mutex

/-- The second input is how many octets beyond the first `::send` takes. -/
def Piece.exec (t : Nat) (w : World × Nat) : (piece : Piece) → Server × Wire →
    piece.Res × (Server × Wire)
  | inner part, s => ((part.exec w.1 s.1).1, (part.exec w.1 s.1).2, s.2)
  | write session locked msg first rest behind, s =>
    (w.2, s.1, s.2.write t session.id locked msg (first :: rest.take w.2) (rest.drop w.2 ++ behind))

/-- Programs whose actions are pieces and the taking and giving of mutexes. -/
abbrev WireProc := Prog (lockInterface ⟨Piece, Piece.Res⟩ Mutex) Exn

/-- The loop of `write_all` on a socket that takes all octets in the end; every round
writes one octet at least, so `buffer.length` rounds are enough fuel. -/
def writePieces (session : SessionRef) (locked : Bool) (msg : Json) (behind : Bytes) :
    Nat → Bytes → WireProc Unit
  | 0, _ => .ret ()
  | _ + 1, [] => .ret ()
  | fuel + 1, first :: rest =>
    .act (.act (.write session locked msg first rest behind)) fun more : Nat =>
      writePieces session locked msg behind fuel (rest.drop more)

/-- `send_msg`. -/
def sendPieces (dump : Json → Option Bytes) (session : SessionRef) (locked : Bool) (msg : Json) :
    WireProc Bool :=
  match sendBuffers dump msg with
  | none => .ret false
  | some (header, body) =>
    (writePieces session locked msg body header.length header).bind fun _ =>
      (writePieces session locked msg [] body.length body).bind fun _ => .ret true

/-- Everything but a send stays one step. -/
def spell (dump : Json → Option Bytes) :
    (action : LockAct ⟨Inner, Inner.Res⟩ Mutex) → WireProc action.Res
  | .act (.act (.sendMsg session locked msg)) => sendPieces dump session locked msg
  | .act part => .act (.act (.inner part)) .ret
  | .acquire mutex shared => .act (.acquire mutex shared) .ret
  | .release mutex => .act (.release mutex) .ret

/-- What the threads start, with its sends in pieces. -/
inductive WireStart (dump : Json → Option Bytes) (workers : Nat) :
    Nat → WireProc Unit → WireState → WireState → Prop
  | event (e : Event) (s : WireState) (possible : e.possible s.1.1) :
      WireStart dump workers 0 ((expand false e.program).translate (spell dump)) s s
  | round {t : Nat} (s : WireState) (worker : 0 < t) (inPool : t ≤ workers) :
      WireStart dump workers t (workerRound.translate (spell dump)) s s

/-- The threads of the server, with every acquisition of a mutex and every `::send` a step of its
own. -/
def wireMachine (dump : Json → Option Bytes) (workers : Nat) :
    Machine (lockInterface ⟨Piece, Piece.Res⟩ Mutex) Exn WireState (World × Nat) where
  exec := locking Piece.exec
  spawn := WireStart dump workers

/-- Nothing is written yet, no mutex is held, and no thread has anything to do. -/
def wireBoot (db : Database) : Config (lockInterface ⟨Piece, Piece.Res⟩ Mutex) Exn WireState where
  shared := (({ db := db }, {}), fun _ => [])
  thread := fun _ => .ret ()

end LinuxChat.Source
