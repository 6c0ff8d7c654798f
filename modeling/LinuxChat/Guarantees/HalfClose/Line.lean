import LinuxChat.Lib.Environment
import LinuxChat.Guarantees.FrameDecoder
import LinuxChat.Guarantees.Effects

/-!
# The line of one client

What one client has written is on its way to the server in octets: a prefix has been read, some
pieces wait in the socket, and the rest has not arrived. The end of the stream arrives after the
last octet. `peer` is the environment in which the socket of session `n` is at the end of such a
line; it says nothing of the other sockets and of the rest of the outside.
-/

namespace LinuxChat.Guarantees.HalfClose

open LinuxChat.Lib LinuxChat.Source

/-- The octets that have not arrived, the pieces that have and were not read, and whether the end
of the stream has arrived too. -/
structure Line where
  left : Bytes
  arrived : List Chunk := []
  ended : Bool := false

/-- The octets of one piece: the first, and `more` of the others, 4096 at most. -/
def pieceOf (first : UInt8) (rest : Bytes) (more : Nat) : Bytes := first :: rest.take (min more 4095)

theorem pieceOf_nonempty (first : UInt8) (rest : Bytes) (more : Nat) :
    0 < (pieceOf first rest more).length :=
  Nat.succ_pos _

theorem pieceOf_bounded (first : UInt8) (rest : Bytes) (more : Nat) :
    (pieceOf first rest more).length ≤ 4096 := by
  rw [pieceOf, List.length_cons, List.length_take]
  omega

namespace Line

/-- The line of a client that has written `bytes` and closed its write side. -/
def of (bytes : Bytes) : Line := { left := bytes }

/-- A piece arrives, or the end of the stream when no octet is left. -/
def next (line : Line) (more : Nat) : Line :=
  match line.left with
  | [] => { line with ended := true }
  | first :: rest =>
    { line with
      left := rest.drop (min more 4095)
      arrived := line.arrived ++
        [⟨pieceOf first rest more, pieceOf_nonempty first rest more, pieceOf_bounded first rest more⟩] }

/-- Pieces arrive one after the other. -/
def advance (line : Line) (pieces : List Nat) : Line := pieces.foldl next line

/-- What `::recv` returns to one `recv_msgs`: all that has arrived, piece by piece, and then the end
of the stream or that there is nothing more for now. -/
def results (line : Line) : List RecvResult :=
  line.arrived.map .data ++ [ending line.ended]

/-- All that has arrived is read. -/
def read (line : Line) : Line := { line with arrived := [] }

/-- The end of the stream comes last. -/
def Lawful (line : Line) : Prop := line.ended = true → line.left = []

/-- The octets not read yet. -/
def unread (line : Line) : Bytes := batchBytes line.arrived ++ line.left

variable {line : Line}

theorem lawful_next (lawful : line.Lawful) (more : Nat) : (line.next more).Lawful := by
  unfold next
  split
  next nothing => exact fun _ => nothing
  next first rest left =>
    intro ended
    have nothing := lawful ended
    rw [left] at nothing
    cases nothing

theorem unread_next (line : Line) (more : Nat) : (line.next more).unread = line.unread := by
  unfold next
  split
  · rfl
  next first rest left =>
    simp only [unread, batchBytes, pieceOf, left, List.map_append, List.flatten_append, List.map_cons,
      List.map_nil, List.flatten_cons, List.flatten_nil, List.append_nil, List.append_assoc,
      List.cons_append, List.take_append_drop]

theorem lawful_advance (lawful : line.Lawful) (pieces : List Nat) :
    (line.advance pieces).Lawful := by
  induction pieces generalizing line with
  | nil => exact lawful
  | cons more later ih => exact ih (lawful_next lawful more)

/-- Nothing is lost or changed on the way. -/
theorem unread_advance (line : Line) (pieces : List Nat) :
    (line.advance pieces).unread = line.unread := by
  induction pieces generalizing line with
  | nil => rfl
  | cons more later ih => exact (ih (line.next more)).trans (unread_next line more)

end Line

/-- The socket of session `n` delivers what has arrived on the line, and its bodies are parsed by
`parse`; between the actions pieces arrive. -/
def peer (parse : Bytes → Parsed) (n : Nat) :
    Environment serverInterface World Line (World × List Nat) where
  supply input action line :=
    match action with
    | .recvMsgs session =>
      if session.id = n then
        ({ input.1 with parse := parse, recvs := line.results }, line.read.advance input.2)
      else (input.1, line.advance input.2)
    | _ => (input.1, line.advance input.2)

/-! ## What is still to come -/

variable {parse : Bytes → Parsed} {session : ClientSession} {line : Line}

/-- The buffer and the failure counter. -/
def decoderOf (c : ClientSession) : UInt32 × Bytes := (c.consecutiveParseFailures, c.recvBuf)

/-- With what a session has buffered, what is still on the line decodes to these messages. -/
def ToCome (parse : Bytes → Parsed) (decoder : UInt32 × Bytes) (line : Line) (later : List Json) :
    Prop :=
  (frameDecoder parse).run decoder.1 (decoder.2 ++ line.unread) = .idle later 0 []

/-- A call returns the first of the messages to come, and the others are still to come; it gives
up only when none is left. -/
theorem recvMsgs_line {later : List Json} (lawful : line.Lawful)
    (room : session.recvBuf.length + (batchBytes line.arrived).length < maxRecvBufSize)
    (toCome : ToCome parse (decoderOf session) line later) :
    ∃ out rest, later = out ++ rest ∧
      ToCome parse (decoderOf (recvMsgs parse session line.results).2) line.read rest ∧
      ((recvMsgs parse session line.results).1 = .ok (some out) ∨
        (recvMsgs parse session line.results).1 = .ok none ∧ later = []) := by
  unfold ToCome Line.unread decoderOf at toCome
  rw [← List.append_assoc, Decoder.run_append] at toCome
  obtain ⟨out, rest, failures, buffered, here, there, joined⟩ := idle_of_resume toCome
  have call := @recvMsgs_eq parse session line.results (batch_intact line.arrived line.ended _ room)
  unfold Line.results at call ⊢
  rw [arrived_batch, extract_eq_run _ _ _ _ (Nat.le_refl _), here,
    receive_batch line.arrived line.ended _ room] at call
  refine ⟨out, rest, joined, ?_, ?_⟩
  · have after : ∀ received, (endCall session received (settle [] (.idle out failures buffered))).2 =
        { session with recvBuf := buffered, consecutiveParseFailures := failures } := by
      intro received
      unfold endCall settle
      dsimp only
      split <;> rfl
    rw [call, after]
    exact there
  · rw [call]
    cases ended : line.ended with
    | false => exact Or.inl rfl
    | true =>
      rw [lawful ended, List.append_nil, Decoder.run_wait (Decoder.scan_of_run_idle here)] at there
      cases there
      rw [List.append_nil] at joined
      subst joined
      cases later with
      | nil => exact Or.inr ⟨rfl, rfl⟩
      | cons msg others => exact Or.inl rfl

/-- Only `recv_msgs` and the constructor write the buffer and the counter. -/
theorem exec_decoder (w : World) (action : Act) (s : Server) (id : Nat) :
    decoderOf ((action.exec w s).2.heap id) =
      match action with
      | .recvMsgs session =>
        if id = session.id then decoderOf (recvMsgs w.parse (s.heap id) w.recvs).2
        else decoderOf (s.heap id)
      | .storeSession _ _ => if id = s.nextId then (0, []) else decoderOf (s.heap id)
      | _ => decoderOf (s.heap id) := by
  cases action with
  | setUsername session name => simp only [Act.exec, modify_heap]; split <;> rfl
  | clearUsername session => simp only [Act.exec, modify_heap]; split <;> rfl
  | setPendingLogin session name => simp only [Act.exec, modify_heap]; split <;> rfl
  | clearPendingLogin session => simp only [Act.exec, modify_heap]; split <;> rfl
  | storeSession fd ip =>
    simp only [Act.exec, Server.storeSession]
    by_cases same : id = s.nextId
    · subst same
      simp [decoderOf]
    · simp [same]
  | eraseSession fd =>
    simp only [Act.exec, Server.eraseSession]
    split
    · rfl
    · simp only [modify_heap]
      split <;> rfl
  | recvMsgs session =>
    simp only [Act.exec, modify_heap]
    split
    next same =>
      subst same
      rfl
    · rfl
  | _ => simp only [Act.exec] <;> (repeat' split) <;> rfl

end LinuxChat.Guarantees.HalfClose
