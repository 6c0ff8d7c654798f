import LinuxChat.Source.Protocol

/-!
# recv_msgs, step by step

server/src/protocol.cpp:89-180 once more, one round of a loop at a time over all the calls on
one session. The length is the 32-bit word of the source, its sum with 4 wraps, and a copy or
an `erase` that leaves the buffer is undefined. Each step tells what it appended to `recv_buf`
and which body it cut out of it.
-/

namespace LinuxChat.Source

open LinuxChat.Lib

/-- Where a session is. The next call may follow one that returned a list or threw, not one
that returned `nullopt`. -/
inductive RecvPhase where
  | returned
  | thrown
  | receiving
  | extracting (peerClosed : Bool) (messages : List Json)
  | discarded

/-- A session while `recv_msgs` is at work on it, or between two calls. -/
structure Decoding where
  phase : RecvPhase := .returned
  recvBuf : Bytes := []
  failures : UInt32 := 0

/-- What happens to `recv_buf` at either end. -/
inductive Edit where
  | inserted (bytes : Bytes)
  | extracted (body : Bytes)

/-- `count` octets of the buffer from `offset` on. -/
def slice (buf : Bytes) (offset count : Nat) : Option Bytes :=
  if offset + count ≤ buf.length then some ((buf.drop offset).take count) else none

/-- `recv_buf.erase` of the first `count` octets. -/
def erase (buf : Bytes) (count : Nat) : Option Bytes :=
  if count ≤ buf.length then some (buf.drop count) else none

/-- One round of the receive loop: the limit is looked at first, then one `::recv`. -/
def receiveOne (result : RecvResult) (d : Decoding) : Decoding × List Edit :=
  if d.recvBuf.length ≥ maxRecvBufSize then ({ d with phase := .discarded }, [])
  else
    match result with
    | .data chunk => ({ d with recvBuf := d.recvBuf ++ chunk.bytes }, [.inserted chunk.bytes])
    | .closed => ({ d with phase := .extracting true [] }, [])
    | .again => ({ d with phase := .extracting false [] }, [])
    | .error => ({ d with phase := .discarded }, [])

/-- The end of the call. -/
def finish (peerClosed : Bool) (messages : List Json) (d : Decoding) : Decoding × List Edit :=
  if peerClosed && messages.isEmpty then ({ d with phase := .discarded }, [])
  else ({ d with phase := .returned }, [])

/-- `ntohl(net_len)`. -/
def bodyLen (word : Bytes) : UInt32 := UInt32.ofNat (ofBe32 word)

/-- One round of the extraction loop: a length, its two checks, and a body if it is there;
otherwise the end of the call. -/
def extractOne (parse : Bytes → Parsed) (peerClosed : Bool) (messages : List Json) (d : Decoding) :
    Option (Decoding × List Edit) :=
  if d.recvBuf.length ≥ 4 then do
    let word ← slice d.recvBuf 0 4
    if bodyLen word = 0 then some ({ d with phase := .discarded, recvBuf := [] }, [])
    else if bodyLen word > UInt32.ofNat maxBodyLen then
      some ({ d with phase := .discarded, recvBuf := [] }, [])
    else if d.recvBuf.length < (4 + bodyLen word).toNat then some (finish peerClosed messages d)
    else do
      let jsonStr ← slice d.recvBuf 4 (bodyLen word).toNat
      let rest ← erase d.recvBuf (4 + (bodyLen word).toNat)
      match parse jsonStr with
      | .value json =>
        some (⟨.extracting peerClosed (messages ++ [json]), rest, 0⟩, [.extracted jsonStr])
      | .parseError =>
        if d.failures + 1 ≥ 3 then some (⟨.discarded, rest, d.failures + 1⟩, [.extracted jsonStr])
        else some (⟨.extracting peerClosed messages, rest, d.failures + 1⟩, [.extracted jsonStr])
      | .outOfRange => some (⟨.thrown, rest, d.failures⟩, [.extracted jsonStr])
  else some (finish peerClosed messages d)

namespace Decoding

/-- The result is what `::recv` returns, in a step that calls it. -/
def step (parse : Bytes → Parsed) (result : RecvResult) (d : Decoding) :
    Option (Decoding × List Edit) :=
  match d.phase with
  | .returned => some ({ d with phase := .receiving }, [])
  | .thrown => some ({ d with phase := .receiving }, [])
  | .receiving => some (receiveOne result d)
  | .extracting peerClosed messages => extractOne parse peerClosed messages d
  | .discarded => some (d, [])

/-- Steps one after the other, each with what `::recv` would return in it, and all that was
appended and cut out. -/
def run (parse : Bytes → Parsed) : List RecvResult → Decoding → Option (Decoding × List Edit)
  | [], d => some (d, [])
  | result :: rest, d => do
    let first ← step parse result d
    let later ← run parse rest first.1
    some (later.1, first.2 ++ later.2)

end Decoding

end LinuxChat.Source
