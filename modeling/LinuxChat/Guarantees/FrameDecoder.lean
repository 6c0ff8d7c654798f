import LinuxChat.Source.Protocol

/-!
# The frame decoder

`recv_msgs` (server/src/protocol.cpp:89-182) over whole byte streams. Its
extraction loop is `Decoder.run` of `frameDecoder`, so what one call leaves in
`recv_buf` for the next does not depend on where the stream was cut. The second
part follows the two failure channels of the JSON parser through the loop: only
`parse_error` is caught there (protocol.cpp:153-170).
-/

namespace LinuxChat.Guarantees

open LinuxChat.Lib LinuxChat.Source

variable {parse : Bytes → Parsed}

/-! ## The receive loop -/

/-- The octets of the `::recv` calls before the first one that delivers none. -/
def arrived : List RecvResult → Bytes
  | .data chunk :: rest => chunk.bytes ++ arrived rest
  | _ => []

/-- The receive loop gives up with `buffered` octets in `recv_buf` at its start:
a size check finds the buffer full, or a `::recv` fails. -/
def brokenOff (buffered : Nat) : List RecvResult → Prop
  | [] => buffered ≥ maxRecvBufSize
  | result :: rest =>
    buffered ≥ maxRecvBufSize ∨
      match result with
      | .data chunk => brokenOff (buffered + chunk.bytes.length) rest
      | .error => True
      | _ => False

theorem receive_of_brokenOff (results : List RecvResult) (buf : Bytes)
    (broken : brokenOff buf.length results) : (receive buf results).2 = .failed := by
  induction results generalizing buf with
  | nil =>
    have full : buf.length ≥ maxRecvBufSize := broken
    rw [receive, if_pos full]
  | cons result rest ih =>
    by_cases full : buf.length ≥ maxRecvBufSize
    · unfold receive
      rw [if_pos full]
    · unfold receive
      rw [if_neg full]
      have later := broken.resolve_left full
      cases result with
      | data chunk =>
        apply ih
        rw [List.length_append]
        exact later
      | closed => exact absurd later id
      | again => exact absurd later id
      | error => rfl

/-- A receive loop that does not give up has appended all that arrived. -/
theorem receive_of_not_brokenOff (results : List RecvResult) (buf : Bytes)
    (intact : ¬ brokenOff buf.length results) :
    (receive buf results).1 = buf ++ arrived results ∧ (receive buf results).2 ≠ .failed := by
  induction results generalizing buf with
  | nil =>
    have room : ¬ buf.length ≥ maxRecvBufSize := intact
    rw [receive, if_neg room]
    exact ⟨(List.append_nil buf).symm, fun h => nomatch h⟩
  | cons result rest ih =>
    have room : ¬ buf.length ≥ maxRecvBufSize := fun full => intact (Or.inl full)
    unfold receive
    rw [if_neg room]
    cases result with
    | data chunk =>
      have later : ¬ brokenOff (buf ++ chunk.bytes).length rest := by
        rw [List.length_append]
        exact fun broken => intact (Or.inr broken)
      have tail := ih (buf ++ chunk.bytes) later
      rw [List.append_assoc] at tail
      exact tail
    | closed => exact ⟨(List.append_nil buf).symm, fun h => nomatch h⟩
    | again => exact ⟨(List.append_nil buf).symm, fun h => nomatch h⟩
    | error => exact absurd (Or.inr trivial) intact

/-! ## The extraction loop as a decoder -/

/-- One round of the loop, on what the buffer splits into. -/
theorem extract_succ (fuel : Nat) (buf : Bytes) (failures : UInt32) (messages : List Json) :
    extract parse (fuel + 1) buf failures messages =
      match split maxBodyLen buf with
      | .wait => ⟨.ok (some messages), buf, failures⟩
      | .illegal => ⟨.ok none, [], failures⟩
      | .body body =>
        let rest := buf.drop (4 + body.length)
        match parse body with
        | .value json => extract parse fuel rest 0 (messages ++ [json])
        | .parseError =>
          if failures + 1 ≥ 3 then ⟨.ok none, rest, failures + 1⟩
          else extract parse fuel rest (failures + 1) messages
        | .outOfRange => ⟨.error (.outOfRange 406), rest, failures⟩ := by
  unfold split
  rw [extract]
  by_cases short : buf.length < 4
  · rw [if_pos short, if_neg (by omega)]
  · rw [if_neg short, if_pos (by omega)]
    by_cases zero : ofBe32 (buf.take 4) = 0
    · simp [zero]
    · by_cases long : ofBe32 (buf.take 4) > maxBodyLen
      · simp [zero, long]
      · have small : (4 + ofBe32 (buf.take 4)) % 2 ^ 32 = 4 + ofBe32 (buf.take 4) := by
          apply Nat.mod_eq_of_lt
          have limit : maxBodyLen = 16777216 := rfl
          omega
        by_cases partly : buf.length < 4 + ofBe32 (buf.take 4)
        · simp only [zero, long, small, partly, or_self, if_true, if_false]
        · have size : ((buf.drop 4).take (ofBe32 (buf.take 4))).length = ofBe32 (buf.take 4) := by
            rw [List.length_take, List.length_drop]
            omega
          cases parsed : parse ((buf.drop 4).take (ofBe32 (buf.take 4))) <;>
            simp only [zero, long, small, partly, size, parsed, or_self, if_false]

/-- Why the loop ends a call for good. -/
inductive StopReason where
  | badLength
  | thirdFailure
  | thrown
  deriving DecidableEq

/-- One round of the extraction loop as a scan: the verdict on the buffer, then the parse and the
count of failures in a row. -/
def scanFrame (parse : Bytes → Parsed) (failures : UInt32) (buf : Bytes) :
    Scan UInt32 Json StopReason :=
  match split maxBodyLen buf with
  | .wait => .wait
  | .illegal => .stop .badLength
  | .body body =>
    match parse body with
    | .value json => .item [json] 0 (4 + body.length)
    | .parseError =>
      if failures + 1 ≥ 3 then .stop .thirdFailure else .item [] (failures + 1) (4 + body.length)
    | .outOfRange => .stop .thrown

theorem split_body_le {buf body : Bytes} (h : split maxBodyLen buf = .body body) :
    4 + body.length ≤ buf.length := by
  have whole := (split_body h).1
  have size := congrArg List.length whole
  rw [List.length_append, frame_length] at size
  omega

/-- Decoder of length-prefixed JSON whose state is `consecutive_parse_failures`. -/
def frameDecoder (parse : Bytes → Parsed) : Decoder UInt8 UInt32 Json StopReason where
  scan := scanFrame parse
  used_pos := by
    intro failures buf out next used h
    unfold scanFrame at h
    cases hs : split maxBodyLen buf with
    | wait => simp [hs] at h
    | illegal => simp [hs] at h
    | body body =>
      have bound := split_body_le hs
      simp only [hs] at h
      split at h
      · cases h
        omega
      · split at h
        · cases h
        · cases h
          omega
      · cases h
  scan_append := by
    intro failures buf h more
    unfold scanFrame at h ⊢
    have decided : split maxBodyLen buf ≠ .wait := by
      intro wait
      simp [wait] at h
    rw [split_append decided]

/-- How a call ends after the loop has decoded what it could. The frame of a
third failure, or of an escaping exception, is already gone from the buffer. -/
def settle (messages : List Json) : Decoded UInt8 UInt32 Json StopReason → Extracted
  | .idle out failures rest => ⟨.ok (some (messages ++ out)), rest, failures⟩
  | .halted _ .badLength failures _ => ⟨.ok none, [], failures⟩
  | .halted _ .thirdFailure failures rest =>
    ⟨.ok none, rest.drop (4 + ofBe32 (rest.take 4)), failures + 1⟩
  | .halted _ .thrown failures rest =>
    ⟨.error (.outOfRange 406), rest.drop (4 + ofBe32 (rest.take 4)), failures⟩

theorem settle_prepend (messages out : List Json) (d : Decoded UInt8 UInt32 Json StopReason) :
    settle messages (d.prepend out) = settle (messages ++ out) d := by
  cases d with
  | idle out' failures rest => simp [Decoded.prepend, settle]
  | halted out' reason failures rest => cases reason <;> rfl

theorem ofBe32_of_split {buf body : Bytes} (h : split maxBodyLen buf = .body body) :
    ofBe32 (buf.take 4) = body.length := by
  obtain ⟨whole, _, bounded⟩ := split_body h
  have head : buf.take 4 = be32 body.length := by
    rw [whole, frame, List.append_assoc]
    exact List.take_left' (be32_length _)
  rw [head, ofBe32_be32]
  apply Nat.mod_eq_of_lt
  have limit : maxBodyLen = 16777216 := rfl
  omega

/-- The extraction loop runs the decoder. The induction is on the fuel, which the
buffer's length bounds. -/
theorem extract_eq_run (fuel : Nat) (buf : Bytes) (failures : UInt32) (messages : List Json)
    (enough : buf.length ≤ fuel) :
    extract parse fuel buf failures messages =
      settle messages ((frameDecoder parse).run failures buf) := by
  induction fuel generalizing buf failures messages with
  | zero =>
    have empty : buf = [] := List.eq_nil_of_length_eq_zero (by omega)
    subst buf
    have wait : (frameDecoder parse).scan failures [] = .wait := rfl
    rw [Decoder.run_wait wait]
    simp [extract, settle]
  | succ fuel ih =>
    rw [extract_succ]
    cases hs : split maxBodyLen buf with
    | wait =>
      have wait : (frameDecoder parse).scan failures buf = .wait := by
        simp [frameDecoder, scanFrame, hs]
      rw [Decoder.run_wait wait]
      simp [settle]
    | illegal =>
      have stop : (frameDecoder parse).scan failures buf = .stop .badLength := by
        simp [frameDecoder, scanFrame, hs]
      rw [Decoder.run_stop stop]
      rfl
    | body body =>
      have bound := split_body_le hs
      have shorter : (buf.drop (4 + body.length)).length ≤ fuel := by
        rw [List.length_drop]
        omega
      have word := ofBe32_of_split hs
      cases hp : parse body with
      | value json =>
        have item : (frameDecoder parse).scan failures buf =
            .item [json] 0 (4 + body.length) := by
          simp [frameDecoder, scanFrame, hs, hp]
        rw [Decoder.run_item item, settle_prepend]
        simp only [hp]
        exact ih _ _ _ shorter
      | parseError =>
        by_cases third : failures + 1 ≥ 3
        · have stop : (frameDecoder parse).scan failures buf = .stop .thirdFailure := by
            simp [frameDecoder, scanFrame, hs, hp, third]
          rw [Decoder.run_stop stop]
          simp [hp, third, settle, word]
        · have item : (frameDecoder parse).scan failures buf =
              .item [] (failures + 1) (4 + body.length) := by
            simp [frameDecoder, scanFrame, hs, hp, third]
          rw [Decoder.run_item item, settle_prepend, List.append_nil]
          simp only [hp, if_neg third]
          exact ih _ _ _ shorter
      | outOfRange =>
        have stop : (frameDecoder parse).scan failures buf = .stop .thrown := by
          simp [frameDecoder, scanFrame, hs, hp]
        rw [Decoder.run_stop stop]
        simp [hp, settle, word]

/-! ## One call -/

/-- The end of a call after its extraction loop: a closed connection with no
message left is reported. -/
def endCall (session : ClientSession) (received : Received) (out : Extracted) :
    Except Exn (Option (List Json)) × ClientSession :=
  let after := { session with recvBuf := out.buf, consecutiveParseFailures := out.failures }
  match received, out.result with
  | .peerClosed, .ok (some []) => (.ok none, after)
  | _, result => (result, after)

theorem endCall_error (session : ClientSession) (received : Received) {out : Extracted} {e : Exn}
    (h : out.result = .error e) : (endCall session received out).1 = .error e := by
  unfold endCall
  rw [h]
  cases received <;> rfl

theorem endCall_ok {session : ClientSession} {received : Received} {out : Extracted}
    {value : Option (List Json)} (h : out.result = .ok value) :
    ∃ returned, (endCall session received out).1 = .ok returned := by
  unfold endCall
  rw [h]
  dsimp only
  split
  · exact ⟨none, rfl⟩
  · exact ⟨value, rfl⟩

theorem recvMsgs_of_brokenOff (session : ClientSession) (results : List RecvResult)
    (broken : brokenOff session.recvBuf.length results) :
    recvMsgs parse session results =
      (.ok none, { session with recvBuf := (receive session.recvBuf results).1 }) := by
  have failed := receive_of_brokenOff results session.recvBuf broken
  unfold recvMsgs
  cases hr : receive session.recvBuf results with
  | mk buf received =>
    rw [hr] at failed
    cases failed
    rfl

theorem recvMsgs_eq (session : ClientSession) (results : List RecvResult)
    (intact : ¬ brokenOff session.recvBuf.length results) :
    recvMsgs parse session results =
      endCall session (receive session.recvBuf results).2
        (extract parse (session.recvBuf ++ arrived results).length
          (session.recvBuf ++ arrived results) session.consecutiveParseFailures []) := by
  obtain ⟨buffered, goesOn⟩ := receive_of_not_brokenOff results session.recvBuf intact
  rw [← buffered]
  unfold recvMsgs
  cases hr : receive session.recvBuf results with
  | mk buf received =>
    rw [hr] at goesOn
    cases received with
    | drained => rfl
    | peerClosed => rfl
    | failed => exact absurd rfl goesOn

/-! ## Batches -/

/-- The bytes of a batch, and the `::recv` script that delivers it. -/
def batchBytes (batch : List Chunk) : Bytes :=
  (batch.map Chunk.bytes).flatten

/-- What `::recv` returns for a batch: its chunks, then nothing for now. -/
def script (batch : List Chunk) : List RecvResult :=
  batch.map .data ++ [.again]

/-- One `recv_msgs` after another on one session. -/
def recvAll (parse : Bytes → Parsed) (session : ClientSession) :
    List (List RecvResult) → List (Except Exn (Option (List Json))) × ClientSession
  | [] => ([], session)
  | results :: later =>
    let call := recvMsgs parse session results
    let calls := recvAll parse call.2 later
    (call.1 :: calls.1, calls.2)

/-- `recv_buf` is below its limit at every size check of the calls: before each
chunk of a batch and before the `::recv` that finds nothing more. -/
def BelowCap (parse : Bytes → Parsed) (session : ClientSession) : List (List Chunk) → Prop
  | [] => True
  | batch :: later =>
    (∀ taken ≤ batch.length,
      (session.recvBuf ++ batchBytes (batch.take taken)).length < maxRecvBufSize) ∧
    BelowCap parse (recvMsgs parse session (script batch)).2 later

/-- What `::recv` returns after a batch. -/
def ending (closed : Bool) : RecvResult := if closed then .closed else .again

theorem batchBytes_length (chunk : Chunk) (rest : List Chunk) :
    (batchBytes (chunk :: rest)).length = chunk.bytes.length + (batchBytes rest).length :=
  List.length_append

theorem arrived_batch (batch : List Chunk) (closed : Bool) :
    arrived (batch.map .data ++ [ending closed]) = batchBytes batch := by
  induction batch with
  | nil => cases closed <;> rfl
  | cons chunk rest ih => exact congrArg (chunk.bytes ++ ·) ih

theorem batch_intact (batch : List Chunk) (closed : Bool) (buffered : Nat)
    (room : buffered + (batchBytes batch).length < maxRecvBufSize) :
    ¬ brokenOff buffered (batch.map .data ++ [ending closed]) := by
  induction batch generalizing buffered with
  | nil =>
    rintro (full | broken)
    · exact Nat.lt_irrefl _ (Nat.lt_of_lt_of_le room full)
    · cases closed <;> exact broken
  | cons chunk rest ih =>
    rw [batchBytes_length] at room
    rintro (full | broken)
    · omega
    · exact ih (buffered + chunk.bytes.length) (by omega) broken

/-- The end of the stream is seen by the call that reads it. -/
theorem receive_batch (batch : List Chunk) (closed : Bool) (buf : Bytes)
    (room : buf.length + (batchBytes batch).length < maxRecvBufSize) :
    (receive buf (batch.map .data ++ [ending closed])).2 =
      if closed then .peerClosed else .drained := by
  induction batch generalizing buf with
  | nil =>
    have free : ¬ buf.length ≥ maxRecvBufSize := Nat.not_le.mpr room
    cases closed <;> simp [ending, receive, free]
  | cons chunk rest ih =>
    rw [batchBytes_length] at room
    have free : ¬ buf.length ≥ maxRecvBufSize := by omega
    rw [List.map_cons, List.cons_append]
    unfold receive
    rw [if_neg free]
    apply ih
    rw [List.length_append]
    omega

theorem arrived_script (batch : List Chunk) : arrived (script batch) = batchBytes batch :=
  arrived_batch batch false

theorem script_intact (batch : List Chunk) (buffered : Nat)
    (room : buffered + (batchBytes batch).length < maxRecvBufSize) :
    ¬ brokenOff buffered (script batch) :=
  batch_intact batch false buffered room

theorem receive_script (batch : List Chunk) (buf : Bytes)
    (room : buf.length + (batchBytes batch).length < maxRecvBufSize) :
    (receive buf (script batch)).2 = .drained :=
  receive_batch batch false buf room

/-- A batch on which the decoder does not stop: the call returns what it decoded. -/
theorem recvMsgs_script {session : ClientSession} {batch : List Chunk} {out : List Json}
    {failures : UInt32} {rest : Bytes}
    (room : (session.recvBuf ++ batchBytes batch).length < maxRecvBufSize)
    (decoded : (frameDecoder parse).run session.consecutiveParseFailures
      (session.recvBuf ++ batchBytes batch) = .idle out failures rest) :
    recvMsgs parse session (script batch) =
      (.ok (some out), { session with recvBuf := rest, consecutiveParseFailures := failures }) := by
  rw [List.length_append] at room
  rw [recvMsgs_eq session (script batch) (script_intact batch _ room), arrived_script,
    extract_eq_run _ _ _ _ (Nat.le_refl _), decoded, receive_script batch _ room]
  rfl

/-- A decoding that ends idle was idle before each further piece. -/
theorem idle_of_resume {d : Decoded UInt8 UInt32 Json StopReason} {more rest : Bytes}
    {out : List Json} {failures : UInt32}
    (h : (frameDecoder parse).resume d more = .idle out failures rest) :
    ∃ out₁ out₂ failures₁ rest₁, d = .idle out₁ failures₁ rest₁ ∧
      (frameDecoder parse).run failures₁ (rest₁ ++ more) = .idle out₂ failures rest ∧
      out = out₁ ++ out₂ := by
  cases d with
  | halted out₁ reason failures₁ rest₁ => cases h
  | idle out₁ failures₁ rest₁ =>
    rw [Decoder.resume] at h
    cases hr : (frameDecoder parse).run failures₁ (rest₁ ++ more) with
    | halted out₂ reason failures₂ rest₂ =>
      rw [hr] at h
      cases h
    | idle out₂ failures₂ rest₂ =>
      rw [hr] at h
      cases h
      exact ⟨out₁, out₂, failures₁, rest₁, rfl, hr, rfl⟩

/-- The calls on the batches of a stream together return what the decoder makes
of the stream. The induction is on the batches; the invariant is that what is
still to come, after what `recv_buf` holds, decodes to the messages still missing. -/
theorem recvAll_batches (batches : List (List Chunk)) (session : ClientSession)
    {out : List Json} {failures : UInt32} {rest : Bytes}
    (waiting : (frameDecoder parse).scan session.consecutiveParseFailures session.recvBuf = .wait)
    (below : BelowCap parse session batches)
    (decoded : (frameDecoder parse).run session.consecutiveParseFailures
      (session.recvBuf ++ (batches.map batchBytes).flatten) = .idle out failures rest) :
    ∃ lists : List (List Json),
      (recvAll parse session (batches.map script)).1 = lists.map (fun list => .ok (some list)) ∧
      lists.flatten = out ∧
      (recvAll parse session (batches.map script)).2 =
        { session with recvBuf := rest, consecutiveParseFailures := failures } := by
  induction batches generalizing session out with
  | nil =>
    simp only [List.map_nil, List.flatten_nil, List.append_nil] at decoded
    rw [Decoder.run_wait waiting] at decoded
    cases decoded
    exact ⟨[], rfl, rfl, rfl⟩
  | cons batch later ih =>
    rw [List.map_cons, List.flatten_cons, ← List.append_assoc, Decoder.run_append] at decoded
    obtain ⟨out₁, out₂, failures₁, rest₁, here, there, rfl⟩ := idle_of_resume decoded
    have room : (session.recvBuf ++ batchBytes batch).length < maxRecvBufSize := by
      have last := below.1 batch.length (Nat.le_refl _)
      rwa [List.take_length] at last
    have call := recvMsgs_script room here
    have belowLater := below.2
    rw [call] at belowLater
    obtain ⟨lists, calls, joined, final⟩ :=
      ih { session with recvBuf := rest₁, consecutiveParseFailures := failures₁ }
        (Decoder.scan_of_run_idle here) belowLater there
    refine ⟨out₁ :: lists, ?_, ?_, ?_⟩
    · rw [List.map_cons, recvAll, call]
      exact congrArg _ calls
    · rw [List.flatten_cons, joined]
    · rw [List.map_cons, recvAll, call]
      exact final

/-! ## Round trip -/

/-- `send_msg` can send the message and the parser reads it back. -/
def Sendable (dump : Json → Option Bytes) (parse : Bytes → Parsed) (m : Json) : Prop :=
  ∃ body, dump m = some body ∧ parse body = .value m ∧ 1 ≤ body.length ∧
    body.length ≤ maxBodyLen

theorem sentBytes_eq_frame {dump : Json → Option Bytes} {m : Json} {body : Bytes}
    (dumped : dump m = some body) (bounded : body.length ≤ maxBodyLen) :
    sentBytes dump m = frame body := by
  have limit : maxBodyLen = 16777216 := rfl
  have word : body.length % 2 ^ 32 = body.length := Nat.mod_eq_of_lt (by omega)
  have sendable : ¬ body.length > maxBodyLen := by omega
  simp only [sentBytes, sendBuffers, dumped, sendable, word, frame, if_false]

/-- The frames of sendable messages decode to the messages, one frame each. -/
theorem run_sent {dump : Json → Option Bytes} (ms : List Json)
    (sendable : ∀ m ∈ ms, Sendable dump parse m) :
    (frameDecoder parse).run 0 (ms.flatMap (sentBytes dump)) = .idle ms 0 [] := by
  induction ms with
  | nil =>
    have wait : (frameDecoder parse).scan 0 [] = .wait := rfl
    exact Decoder.run_wait wait
  | cons m ms ih =>
    obtain ⟨body, dumped, parsed, nonempty, bounded⟩ := sendable m List.mem_cons_self
    have tail := ih fun m' h => sendable m' (List.mem_cons_of_mem m h)
    have whole : split maxBodyLen (frame body ++ ms.flatMap (sentBytes dump)) = .body body :=
      split_frame (by decide) nonempty bounded _
    have item : (frameDecoder parse).scan 0 (frame body ++ ms.flatMap (sentBytes dump)) =
        .item [m] 0 (4 + body.length) := by
      simp [frameDecoder, scanFrame, whole, parsed]
    have used : (frame body ++ ms.flatMap (sentBytes dump)).drop (4 + body.length) =
        ms.flatMap (sentBytes dump) :=
      List.drop_left' (frame_length body)
    rw [List.flatMap_cons, sentBytes_eq_frame dumped bounded, Decoder.run_item item, used, tail]
    rfl

/-- Whatever the segmentation of the octets `send_msg` wrote, the calls of
`recv_msgs` return lists, the lists concatenate to the messages sent, and the
session ends with an empty buffer and no failure counted. -/
theorem framing_round_trip (dump : Json → Option Bytes) (parse : Bytes → Parsed)
    (ms : List Json) (sendable : ∀ m ∈ ms, Sendable dump parse m)
    (session : ClientSession) (unread : session.recvBuf = [])
    (unfailed : session.consecutiveParseFailures = 0)
    (batches : List (List Chunk))
    (cut : (batches.map batchBytes).flatten = ms.flatMap (sentBytes dump))
    (below : BelowCap parse session batches) :
    ∃ lists : List (List Json),
      (recvAll parse session (batches.map script)).1 = lists.map (fun list => .ok (some list)) ∧
      lists.flatten = ms ∧
      (recvAll parse session (batches.map script)).2.recvBuf = [] ∧
      (recvAll parse session (batches.map script)).2.consecutiveParseFailures = 0 := by
  have waiting : (frameDecoder parse).scan session.consecutiveParseFailures session.recvBuf =
      .wait := by
    rw [unread, unfailed]
    rfl
  have decoded : (frameDecoder parse).run session.consecutiveParseFailures
      (session.recvBuf ++ (batches.map batchBytes).flatten) = .idle ms 0 [] := by
    rw [unread, unfailed, List.nil_append, cut]
    exact run_sent ms sendable
  obtain ⟨lists, calls, joined, final⟩ := recvAll_batches batches session waiting below decoded
  refine ⟨lists, calls, joined, ?_, ?_⟩
  · rw [final]
  · rw [final]

/-- The JSON library on the two texts `null` and `true`. -/
def literalDump : Json → Option Bytes
  | .null => some [110, 117, 108, 108]
  | .boolean true => some [116, 114, 117, 101]
  | _ => none

/-- A parser that knows two texts. -/
def literalParse (body : Bytes) : Parsed :=
  if body = [110, 117, 108, 108] then .value .null
  else if body = [116, 114, 117, 101] then .value (.boolean true)
  else .parseError

/-- The frames of `null` and `true`, cut inside the first length, inside the first
body and inside the second length. -/
def cutFrames : List (List Chunk) :=
  [[⟨[0, 0], by decide, by decide⟩, ⟨[0, 4, 110], by decide, by decide⟩],
    [⟨[117, 108, 108, 0, 0, 0], by decide, by decide⟩],
    [⟨[4, 116, 114, 117, 101], by decide, by decide⟩]]

theorem literals_sendable (m : Json) (h : m ∈ [Json.null, Json.boolean true]) :
    Sendable literalDump literalParse m := by
  simp only [List.mem_cons, List.not_mem_nil, or_false] at h
  rcases h with rfl | rfl
  · exact ⟨_, rfl, rfl, by decide, by decide⟩
  · exact ⟨_, rfl, rfl, by decide, by decide⟩

/-- Two messages, cut inside the first header, the first body and the second header. -/
theorem framing_round_trip_literals :
    ∃ lists : List (List Json),
      (recvAll literalParse {} (cutFrames.map script)).1 =
        lists.map (fun list => .ok (some list)) ∧
      lists.flatten = [.null, .boolean true] ∧
      (recvAll literalParse {} (cutFrames.map script)).2.recvBuf = [] ∧
      (recvAll literalParse {} (cutFrames.map script)).2.consecutiveParseFailures = 0 :=
  framing_round_trip literalDump literalParse [.null, .boolean true] literals_sendable {} rfl rfl
    cutFrames rfl ⟨by decide, by decide, by decide, trivial⟩

end LinuxChat.Guarantees
