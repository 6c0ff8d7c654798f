import LinuxChat.Source.Values

/-!
# Session state and JSON-over-TCP framing

server/include/client_session.h:24-91 and server/src/protocol.cpp:25-182.
A session is split into the fields fixed at accept time (`SessionRef`, what a
`ClientSession&` identifies) and the fields that change (`ClientSession`). Parsing
and dumping JSON are parameters. A `::recv` script stands for the socket: the
results of the calls of one `recv_msgs`, with EAGAIN once the script is used up.
Log lines are left out; the descriptor's close is not modelled here.
-/

namespace LinuxChat.Source

open LinuxChat.Lib

/-- What a `shared_ptr<ClientSession>` stands for here: which session object it is, and the two
members that are fixed when the connection is accepted. -/
structure SessionRef where
  id : Nat
  fd : Nat
  ipAddress : String
  deriving DecidableEq, Repr

/-- The members of a session object that change: what the event loop keeps for decoding, and what
the router keeps of the user. -/
structure ClientSession where
  recvBuf : Bytes := []
  generation : Nat := 0
  consecutiveParseFailures : UInt32 := 0
  username : String := ""
  pendingLogin : String := ""

/-- `is_authenticated()`: a session with a name is. -/
def ClientSession.isAuthenticated (session : ClientSession) : Bool :=
  !session.username.isEmpty

/-! ## Sending -/

/-- The limit of a frame's body, for `send_msg` and for `recv_msgs`. -/
def maxBodyLen : Nat := 16 * 1024 * 1024

/-- The two buffers `send_msg` hands to `write_all`, header then body, or `none`
where it refuses: `dump` threw, or the body is too long. -/
def sendBuffers (dump : Json → Option Bytes) (msg : Json) : Option (Bytes × Bytes) :=
  match dump msg with
  | none => none
  | some body =>
    if body.length > maxBodyLen then none
    else some (be32 (body.length % 2 ^ 32), body)

/-- The octets of `send_msg` on a socket that accepts all of them. -/
def sentBytes (dump : Json → Option Bytes) (msg : Json) : Bytes :=
  match sendBuffers dump msg with
  | none => []
  | some (header, body) => header ++ body

/-! ## Receiving -/

/-- The limit of `recv_buf` at which `recv_msgs` gives the client up. -/
def maxRecvBufSize : Nat := 32 * 1024 * 1024

/-- What one `::recv` into the 4096-octet array returns when it is positive. -/
structure Chunk where
  bytes : Bytes
  nonempty : 0 < bytes.length
  bounded : bytes.length ≤ 4096

/-- What one `::recv` on a non-blocking socket can return: octets, the end of the stream, nothing
for now, or an error. -/
inductive RecvResult where
  | data (chunk : Chunk)
  | closed
  | again
  | error

/-- How the receive loop of `recv_msgs` ended. -/
inductive Received where
  | drained
  | peerClosed
  | failed
  deriving DecidableEq

/-- The receive loop: the size check precedes every `::recv`, and the end of the
script stands for EAGAIN. -/
def receive (buf : Bytes) : List RecvResult → Bytes × Received
  | [] => if buf.length ≥ maxRecvBufSize then (buf, .failed) else (buf, .drained)
  | result :: rest =>
    if buf.length ≥ maxRecvBufSize then (buf, .failed)
    else
      match result with
      | .data chunk => receive (buf ++ chunk.bytes) rest
      | .closed => (buf, .peerClosed)
      | .again => (buf, .drained)
      | .error => (buf, .failed)

/-- What `nlohmann::json::parse` does with a body: it returns, throws
`parse_error`, or throws `out_of_range` 406 on a number that overflows. -/
inductive Parsed where
  | value (json : Json)
  | parseError
  | outOfRange

/-- State of the extraction loop: the outcome of the call, `recv_buf` and the
failure counter. -/
structure Extracted where
  result : Except Exn (Option (List Json))
  buf : Bytes
  failures : UInt32

/-- The extraction loop. Every iteration that continues removes at least five
octets, so `buf.length` rounds are enough fuel. -/
def extract (parse : Bytes → Parsed) : Nat → Bytes → UInt32 → List Json → Extracted
  | 0, buf, failures, messages => ⟨.ok (some messages), buf, failures⟩
  | fuel + 1, buf, failures, messages =>
    if buf.length ≥ 4 then
      let bodyLen := ofBe32 (buf.take 4)
      if bodyLen = 0 then ⟨.ok none, [], failures⟩
      else if bodyLen > maxBodyLen then ⟨.ok none, [], failures⟩
      else if buf.length < (4 + bodyLen) % 2 ^ 32 then ⟨.ok (some messages), buf, failures⟩
      else
        let jsonStr := (buf.drop 4).take bodyLen
        let rest := buf.drop (4 + bodyLen)
        match parse jsonStr with
        | .value json => extract parse fuel rest 0 (messages ++ [json])
        | .parseError =>
          if failures + 1 ≥ 3 then ⟨.ok none, rest, failures + 1⟩
          else extract parse fuel rest (failures + 1) messages
        -- only parse_error is caught: this one leaves recv_msgs
        | .outOfRange => ⟨.error (.outOfRange 406), rest, failures⟩
    else ⟨.ok (some messages), buf, failures⟩

/-- `recv_msgs`: the exception or return value of the call, and the session after it. -/
def recvMsgs (parse : Bytes → Parsed) (session : ClientSession) (results : List RecvResult) :
    Except Exn (Option (List Json)) × ClientSession :=
  let (buf, received) := receive session.recvBuf results
  match received with
  | .failed => (.ok none, { session with recvBuf := buf })
  | _ =>
    let out := extract parse buf.length buf session.consecutiveParseFailures []
    let after :=
      { session with recvBuf := out.buf, consecutiveParseFailures := out.failures }
    match received, out.result with
    | .peerClosed, .ok (some []) => (.ok none, after)
    | _, result => (result, after)

end LinuxChat.Source
