import LinuxChat.Source.Protocol

/-!
# Writing to a socket

`write_all` and `send_msg` (server/src/protocol.cpp:25-72) against the answers of
`::send`. A list of answers is what the socket says to the calls of one `write_all`;
where it is used up, the socket takes nothing more until the deadline of five seconds
has passed. Once the write side has been shut down every `::send` fails with EPIPE.
-/

namespace LinuxChat.Source

open LinuxChat.Lib

/-- The answer of one `::send`. A count above the requested length stands for all of
it; `late` says that the deadline had passed at an EAGAIN. -/
inductive SendResult where
  | accepted (count : Nat) (positive : 0 < count)
  | again (late : Bool)
  | zero
  | error

/-- What the socket has accepted, and whether `shutdown(fd, SHUT_WR)` was called. -/
structure Socket where
  accepted : Bytes := []
  shut : Bool := false
  deriving DecidableEq

/-- The loop of `write_all`, on the octets still to write. -/
def writeAll : List SendResult → Bytes → Socket → Bool × Socket
  | _, [], socket => (true, socket)
  | [], _ :: _, socket => (false, { socket with shut := true })
  | result :: later, octet :: rest, socket =>
    if socket.shut then (false, socket)
    else
      match result with
      | .accepted count _ =>
        writeAll later ((octet :: rest).drop count)
          { socket with accepted := socket.accepted ++ (octet :: rest).take count }
      | .again late =>
        if late then (false, { socket with shut := true })
        else writeAll later (octet :: rest) socket
      | .zero => (false, socket)
      | .error => (false, socket)

/-- `send_msg`: the header, then the body. -/
def sendMsg (dump : Json → Option Bytes) (msg : Json) (onHeader onBody : List SendResult)
    (socket : Socket) : Bool × Socket :=
  match sendBuffers dump msg with
  | none => (false, socket)
  | some (header, body) =>
    let (ok, socket) := writeAll onHeader header socket
    if !ok then (false, socket) else writeAll onBody body socket

end LinuxChat.Source
