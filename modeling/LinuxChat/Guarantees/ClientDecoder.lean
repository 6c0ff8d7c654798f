import LinuxChat.Source.ChatClient
import LinuxChat.Guarantees.FrameDecoder

/-!
# The client's decoder

`process_frames` (client/src/chat_client.cpp:255-304) on whole byte streams. Its
loop is the frame decoder of the grammar; what the client adds is the filter of
object-valued bodies and the two rejecting exits. On lawful streams of objects it
agrees with `recv_msgs` (server/src/protocol.cpp:126-179), whose loop is an instance
of the same theory.
-/

namespace LinuxChat.Guarantees.ClientDecoder

open LinuxChat.Lib LinuxChat.Source LinuxChat.Guarantees

variable {fromJson : Bytes → Option Json}

/-! ## One round -/

theorem castInt_small {n : Nat} (small : n < 2 ^ 31) : castInt n = (n : Int) := by
  rw [castInt, if_pos small]

theorem midBytes_cast {n : Nat} (small : n < 2 ^ 31) (bytes : Bytes) (pos : Nat) :
    midBytes bytes pos (castInt n) = (bytes.drop pos).take n := by
  have nonneg : ¬ (n : Int) < 0 := by omega
  rw [castInt_small small, midBytes, if_neg nonneg, Int.toNat_natCast]

theorem removeBytes_cast {n : Nat} (small : n < 2 ^ 31) (bytes : Bytes) :
    removeBytes bytes (4 + castInt n) = bytes.drop (4 + n) := by
  have positive : ¬ (4 + (n : Int)) ≤ 0 := by omega
  have count : (4 + (n : Int)).toNat = 4 + n := by omega
  rw [castInt_small small, removeBytes, if_neg positive, count]

/-- What a body adds to the calls: a dispatch if it parses to an object. -/
def dispatchOf (fromJson : Bytes → Option Json) (body : Bytes) : Option ClientCall :=
  match fromJson body with
  | some (.object fields) => some (.dispatchMessage fields)
  | _ => none

/-- The objects among the bodies, dispatched in order; what does not parse and what is no object
is skipped. -/
def dispatches (fromJson : Bytes → Option Json) (bodies : List Bytes) : List ClientCall :=
  bodies.filterMap (dispatchOf fromJson)

/-- One round of the loop, on what the buffer splits into. -/
theorem processFrames_succ (fuel : Nat) (client : ChatClient) :
    client.processFrames fromJson (fuel + 1) =
      match split maxBodyLen client.recvBuf with
      | .wait => client
      | .illegal => client.reject
      | .body body =>
        ChatClient.processFrames fromJson fuel
          { client with
            recvBuf := client.recvBuf.drop (4 + body.length)
            calls := client.calls ++ (dispatchOf fromJson body).toList } := by
  have limit : maxBodyLen = 16 * 1024 * 1024 := rfl
  unfold split
  rw [ChatClient.processFrames, limit]
  by_cases short : client.recvBuf.length < 4
  · rw [if_pos short, if_neg (by omega)]
  · rw [if_neg short, if_pos (by omega)]
    by_cases zero : ofBe32 (client.recvBuf.take 4) = 0
    · simp [zero]
    · by_cases long : ofBe32 (client.recvBuf.take 4) > 16 * 1024 * 1024
      · simp [zero, long]
      · have word : (4 + ofBe32 (client.recvBuf.take 4)) % 2 ^ 32 =
            4 + ofBe32 (client.recvBuf.take 4) := by
          apply Nat.mod_eq_of_lt
          omega
        have small : ofBe32 (client.recvBuf.take 4) < 2 ^ 31 := by omega
        by_cases partly : client.recvBuf.length < 4 + ofBe32 (client.recvBuf.take 4)
        · simp only [zero, long, word, partly, or_self, if_true, if_false]
        · have size : ((client.recvBuf.drop 4).take (ofBe32 (client.recvBuf.take 4))).length =
              ofBe32 (client.recvBuf.take 4) := by
            rw [List.length_take, List.length_drop]
            omega
          simp only [zero, long, word, partly, size, or_self, if_false, midBytes_cast small,
            removeBytes_cast small, dispatchOf]
          cases fromJson ((client.recvBuf.drop 4).take (ofBe32 (client.recvBuf.take 4))) with
          | none => simp
          | some json => cases json <;> simp [ChatClient.dispatch]

/-! ## Streams -/

/-- The client after a decoding of what it received. -/
def afterDecoding (fromJson : Bytes → Option Json) (calls : List ClientCall) :
    Decoded UInt8 Unit Bytes Unit → ChatClient
  | .idle bodies _ rest => ⟨rest, true, calls ++ dispatches fromJson bodies⟩
  | .halted bodies _ _ _ =>
    ⟨[], false, calls ++ dispatches fromJson bodies ++ [.disconnectFromServer]⟩

theorem afterDecoding_prepend (calls : List ClientCall) (before : List Bytes)
    (d : Decoded UInt8 Unit Bytes Unit) :
    afterDecoding fromJson calls (d.prepend before) =
      afterDecoding fromJson (calls ++ dispatches fromJson before) d := by
  cases d <;> simp [afterDecoding, Decoded.prepend, dispatches]

/-- The loop runs the decoder of the grammar. The induction is on the fuel, which
the buffer's length bounds. -/
theorem processFrames_eq_run (fuel : Nat) (buf : Bytes) (calls : List ClientCall)
    (enough : buf.length ≤ fuel) :
    ChatClient.processFrames fromJson fuel ⟨buf, true, calls⟩ =
      afterDecoding fromJson calls ((frames maxBodyLen).run () buf) := by
  induction fuel generalizing buf calls with
  | zero =>
    have empty : buf = [] := List.eq_nil_of_length_eq_zero (by omega)
    subst empty
    have wait : (frames maxBodyLen).scan () [] = .wait := rfl
    rw [Decoder.run_wait wait]
    simp [ChatClient.processFrames, afterDecoding, dispatches]
  | succ fuel ih =>
    rw [processFrames_succ]
    cases hs : split maxBodyLen buf with
    | wait =>
      have wait : (frames maxBodyLen).scan () buf = .wait := by simp [frames, hs]
      rw [Decoder.run_wait wait]
      simp [afterDecoding, dispatches]
    | illegal =>
      have stop : (frames maxBodyLen).scan () buf = .stop () := by simp [frames, hs]
      rw [Decoder.run_stop stop]
      simp [afterDecoding, dispatches, ChatClient.reject]
    | body body =>
      have item : (frames maxBodyLen).scan () buf = .item [body] () (4 + body.length) := by
        simp [frames, hs]
      have bound := split_body_le hs
      have shorter : (buf.drop (4 + body.length)).length ≤ fuel := by
        rw [List.length_drop]
        omega
      have added : dispatches fromJson [body] = (dispatchOf fromJson body).toList := by
        cases hd : dispatchOf fromJson body <;> simp [dispatches, hd]
      rw [Decoder.run_item item, afterDecoding_prepend, added]
      exact ih _ _ shorter

/-- Delivering further pieces is feeding them to the decoder; after a rejected
header nothing is delivered, and the decoder has halted too. -/
theorem deliver_eq_feed (pieces : List Bytes) (d : Decoded UInt8 Unit Bytes Unit) :
    ChatClient.deliver fromJson (afterDecoding fromJson [] d) pieces =
      afterDecoding fromJson [] ((frames maxBodyLen).feed d pieces) := by
  induction pieces generalizing d with
  | nil => rfl
  | cons piece later ih =>
    have fed : (frames maxBodyLen).feed d (piece :: later) =
        (frames maxBodyLen).feed ((frames maxBodyLen).resume d piece) later := rfl
    rw [fed, ← ih]
    cases d with
    | idle bodies _ rest =>
      have read : ChatClient.onReadyRead fromJson
          ⟨rest, true, dispatches fromJson bodies⟩ piece =
          afterDecoding fromJson [] ((frames maxBodyLen).resume (.idle bodies () rest) piece) := by
        rw [Decoder.resume, afterDecoding_prepend]
        exact processFrames_eq_run _ _ _ (Nat.le_refl _)
      simp only [afterDecoding, List.nil_append, ChatClient.deliver, if_true]
      rw [read]
      rfl
    | halted bodies _ _ rest =>
      cases later <;> simp [afterDecoding, ChatClient.deliver, Decoder.resume]

/-- The client after a stream, whatever the pieces it came in. -/
theorem deliver_framed {stream tail : Bytes} {bodies : List Bytes}
    (framed : Framed maxBodyLen stream bodies tail) (pieces : List Bytes)
    (cut : pieces.flatten = stream) :
    ChatClient.deliver fromJson {} pieces =
      afterDecoding fromJson [] (framesEnd maxBodyLen bodies tail) := by
  have wait : (frames maxBodyLen).scan () [] = .wait := rfl
  have fresh : (⟨[], true, []⟩ : ChatClient) =
      afterDecoding fromJson [] ((frames maxBodyLen).run () []) := by
    rw [Decoder.run_wait wait]
    rfl
  calc
    ChatClient.deliver fromJson {} pieces
      = ChatClient.deliver fromJson
          (afterDecoding fromJson [] ((frames maxBodyLen).run () [])) pieces :=
        congrArg (ChatClient.deliver fromJson · pieces) fresh
    _ = afterDecoding fromJson []
          ((frames maxBodyLen).feed ((frames maxBodyLen).run () []) pieces) :=
        deliver_eq_feed pieces _
    _ = afterDecoding fromJson [] (framesEnd maxBodyLen bodies tail) := by
        rw [Decoder.feed_flatten, List.nil_append, cut, run_of_framed (by decide) framed]

/-! ## Agreement with the server -/

/-- Both JSON parsers read the body as the same object. -/
def ObjectText (parse : Bytes → Parsed) (fromJson : Bytes → Option Json) (body : Bytes) : Prop :=
  ∃ fields, parse body = .value (.object fields) ∧ fromJson body = some (.object fields)

/-- The message of a call, as the server's decoder would hand it on. -/
def ClientCall.message : ClientCall → Option Json
  | .dispatchMessage fields => some (.object fields)
  | .disconnectFromServer => none

/-- The server's decoder on a lawful stream of objects. -/
theorem server_run {parse : Bytes → Parsed} {bodies : List Bytes} {stream tail : Bytes}
    (framed : Framed maxBodyLen stream bodies tail) (lawful : ¬ IllegalHeader maxBodyLen tail)
    (objects : ∀ body ∈ bodies, ObjectText parse fromJson body) :
    (frameDecoder parse).run 0 stream =
      .idle ((dispatches fromJson bodies).filterMap ClientCall.message) 0 tail := by
  induction bodies generalizing stream with
  | nil =>
    have whole : stream = tail := framed.joined
    subst whole
    have wait : (frameDecoder parse).scan 0 stream = .wait := by
      cases hs : split maxBodyLen stream with
      | wait => simp [frameDecoder, scanFrame, hs]
      | illegal => exact absurd (split_illegal_iff.mp hs) lawful
      | body body =>
        obtain ⟨whole, nonempty, bounded⟩ := split_body hs
        exact absurd whole (framed.stuck body _ nonempty bounded)
    exact Decoder.run_wait wait
  | cons body bodies ih =>
    obtain ⟨nonempty, bounded⟩ := framed.legal body List.mem_cons_self
    obtain ⟨fields, parsed, read⟩ := objects body List.mem_cons_self
    have whole : stream = frame body ++ (bodies.flatMap frame ++ tail) := by
      rw [framed.joined, List.flatMap_cons, List.append_assoc]
    have rest : Framed maxBodyLen (bodies.flatMap frame ++ tail) bodies tail :=
      ⟨rfl, fun other h => framed.legal other (List.mem_cons_of_mem body h), framed.stuck⟩
    have tailRun := ih rest fun other h => objects other (List.mem_cons_of_mem body h)
    have first : split maxBodyLen stream = .body body := by
      rw [whole]
      exact split_frame (by decide) nonempty bounded _
    have item : (frameDecoder parse).scan 0 stream =
        .item [.object fields] 0 (4 + body.length) := by
      simp [frameDecoder, scanFrame, first, parsed]
    have used : stream.drop (4 + body.length) = bodies.flatMap frame ++ tail := by
      rw [whole]
      exact List.drop_left' (frame_length body)
    have called : dispatches fromJson (body :: bodies) =
        .dispatchMessage fields :: dispatches fromJson bodies := by
      simp [dispatches, dispatchOf, read]
    rw [Decoder.run_item item, used, tailRun, called]
    rfl

/-- Every stream is framed in one way. On it, whatever the pieces, the client
dispatches the objects among the bodies in order and disconnects exactly when an
illegal header is there; on a lawful stream of objects the server's calls, whatever
their batches below the cap, return the same messages and keep the same suffix. -/
theorem client_decodes_frames (fromJson : Bytes → Option Json) (parse : Bytes → Parsed)
    (stream : Bytes) :
    ∃ bodies tail, Framed maxBodyLen stream bodies tail ∧
      (∀ bodies' tail', Framed maxBodyLen stream bodies' tail' →
        bodies' = bodies ∧ tail' = tail) ∧
      ∀ pieces : List Bytes, pieces.flatten = stream →
        (ChatClient.deliver fromJson {} pieces).calls =
          dispatches fromJson bodies ++
            (if IllegalHeader maxBodyLen tail then [.disconnectFromServer] else []) ∧
        (¬ IllegalHeader maxBodyLen tail →
          (∀ body ∈ bodies, ObjectText parse fromJson body) →
          ∀ batches : List (List Chunk), (batches.map batchBytes).flatten = stream →
            BelowCap parse {} batches →
            ∃ lists : List (List Json),
              (recvAll parse {} (batches.map script)).1 =
                lists.map (fun list => .ok (some list)) ∧
              (ChatClient.deliver fromJson {} pieces).calls.filterMap ClientCall.message =
                lists.flatten ∧
              (ChatClient.deliver fromJson {} pieces).recvBuf =
                (recvAll parse {} (batches.map script)).2.recvBuf) := by
  obtain ⟨bodies, tail, framed⟩ := exists_framed maxBodyLen stream
  refine ⟨bodies, tail, framed, fun _ _ other => framed.unique (by decide) other, ?_⟩
  intro pieces cut
  have client : ChatClient.deliver fromJson {} pieces =
      afterDecoding fromJson [] (framesEnd maxBodyLen bodies tail) :=
    deliver_framed framed pieces cut
  constructor
  · rw [client, framesEnd]
    split <;> simp [afterDecoding]
  · intro lawful objects batches joined below
    have waiting : (frameDecoder parse).scan 0 [] = .wait := rfl
    have decoded := server_run framed lawful objects
    rw [← joined] at decoded
    obtain ⟨lists, calls, flat, final⟩ := recvAll_batches batches {} waiting below decoded
    refine ⟨lists, calls, ?_, ?_⟩
    · rw [client, flat, framesEnd, if_neg lawful]
      rfl
    · rw [client, final, framesEnd, if_neg lawful]
      rfl

/-- Two JSON parsers on the one text they both know, the empty object. -/
def braces : Bytes := [0x7B, 0x7D]

/-- A parser that knows one text. -/
def parseBraces (body : Bytes) : Parsed :=
  if body = braces then .value (.object []) else .parseError

/-- Qt's parser, as far as that text goes. -/
def fromJsonBraces (body : Bytes) : Option Json :=
  if body = braces then some (.object []) else none

theorem braces_framed : Framed maxBodyLen [0, 0, 0, 2, 123, 125, 0, 0] [braces] [0, 0] where
  joined := by decide
  legal := by decide
  stuck := by
    intro body rest _ _ same
    have size := congrArg List.length same
    rw [List.length_append, frame_length] at size
    simp at size
    omega

/-- One empty object and half a header, cut after the first octet for the client
and after the third for the server. -/
theorem client_decodes_frames_braces :
    ∃ lists : List (List Json),
      (recvAll parseBraces {}
          ([[⟨[0, 0, 0], by decide, by decide⟩],
            [⟨[2, 123, 125, 0, 0], by decide, by decide⟩]].map script)).1 =
        lists.map (fun list => .ok (some list)) ∧
      (ChatClient.deliver fromJsonBraces {} [[0], [0, 0, 2, 123, 125, 0, 0]]).calls.filterMap
        ClientCall.message = lists.flatten ∧
      (ChatClient.deliver fromJsonBraces {} [[0], [0, 0, 2, 123, 125, 0, 0]]).recvBuf =
        (recvAll parseBraces {}
          ([[⟨[0, 0, 0], by decide, by decide⟩],
            [⟨[2, 123, 125, 0, 0], by decide, by decide⟩]].map script)).2.recvBuf := by
  obtain ⟨bodies, tail, _, unique, delivered⟩ :=
    client_decodes_frames fromJsonBraces parseBraces [0, 0, 0, 2, 123, 125, 0, 0]
  obtain ⟨rfl, rfl⟩ := unique _ _ braces_framed
  refine (delivered [[0], [0, 0, 2, 123, 125, 0, 0]] rfl).2 (by decide) ?_ _ rfl
    ⟨by decide, by decide, trivial⟩
  intro body h
  cases List.mem_singleton.mp h
  exact ⟨[], rfl, rfl⟩

end LinuxChat.Guarantees.ClientDecoder
