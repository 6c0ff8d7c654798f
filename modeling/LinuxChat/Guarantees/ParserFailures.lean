import LinuxChat.Guarantees.FrameDecoder

/-!
# Both failure channels of the JSON parser

`recv_msgs` catches `nlohmann::json::parse_error` (server/src/protocol.cpp:157) and
nothing else, while the parser throws `out_of_range` 406 on a number that
overflows a double (server/third_party/nlohmann/json.hpp:13513-13517). The
reference is the same loop over a parser that reports every refusal as a
`parse_error`: there each refused body counts once and its frame is gone. The
main theorem says on exactly which streams the code agrees with it.
-/

namespace LinuxChat.Guarantees

open LinuxChat.Lib LinuxChat.Source

variable {parse : Bytes → Parsed}

/-- The parser with its two failure classes joined into the one that is caught. -/
def countAll (parse : Bytes → Parsed) (body : Bytes) : Parsed :=
  match parse body with
  | .value json => .value json
  | .parseError => .parseError
  | .outOfRange => .parseError

/-- With the joined parser, a refused body at the front of the buffer is one more
failure: the third in a row ends the call, any other leaves the buffer at the
next frame. -/
theorem refused_counted_once {failures : UInt32} {body rest : Bytes} (nonempty : 1 ≤ body.length)
    (bounded : body.length ≤ maxBodyLen) (refused : ∀ json, parse body ≠ .value json) :
    (frameDecoder (countAll parse)).run failures (frame body ++ rest) =
      if failures + 1 ≥ 3 then .halted [] .thirdFailure failures (frame body ++ rest)
      else (frameDecoder (countAll parse)).run (failures + 1) rest := by
  have whole : split maxBodyLen (frame body ++ rest) = .body body :=
    split_frame (by decide) nonempty bounded rest
  have counted : countAll parse body = .parseError := by
    unfold countAll
    cases hp : parse body with
    | value json => exact absurd hp (refused json)
    | parseError => rfl
    | outOfRange => rfl
  by_cases third : failures + 1 ≥ 3
  · have stop : (frameDecoder (countAll parse)).scan failures (frame body ++ rest) =
        .stop .thirdFailure := by
      simp [frameDecoder, scanFrame, whole, counted, third]
    rw [Decoder.run_stop stop, if_pos third]
  · have item : (frameDecoder (countAll parse)).scan failures (frame body ++ rest) =
        .item [] (failures + 1) (4 + body.length) := by
      simp [frameDecoder, scanFrame, whole, counted, third]
    have used : (frame body ++ rest).drop (4 + body.length) = rest :=
      List.drop_left' (frame_length body)
    rw [Decoder.run_item item, used, if_neg third, Decoded.prepend_nil]

/-! ## Streams that reach an overflowing number -/

/-- A body that a frame may carry. -/
def Legal (body : Bytes) : Prop :=
  1 ≤ body.length ∧ body.length ≤ maxBodyLen

/-- After complete frames with these bodies the loop is still going: none of them
throws, and no three refusals in a row were counted. -/
def survives (parse : Bytes → Parsed) : UInt32 → List Bytes → Prop
  | _, [] => True
  | failures, body :: later =>
    match parse body with
    | .value _ => survives parse 0 later
    | .parseError => ¬ failures + 1 ≥ 3 ∧ survives parse (failures + 1) later
    | .outOfRange => False

/-- The stream holds a complete frame whose body the parser refuses with
`out_of_range`, after frames that do not end the call. -/
def ReachesOverflow (parse : Bytes → Parsed) (failures : UInt32) (stream : Bytes) : Prop :=
  ∃ (before : List Bytes) (body rest : Bytes),
    stream = before.flatMap frame ++ (frame body ++ rest) ∧ (∀ b ∈ before, Legal b) ∧
      Legal body ∧ survives parse failures before ∧ parse body = .outOfRange

theorem split_of_legal {body : Bytes} (legal : Legal body) (rest : Bytes) :
    split maxBodyLen (frame body ++ rest) = .body body :=
  split_frame (by decide) legal.1 legal.2 rest

/-- What a stream that reaches an overflow starts with. -/
theorem split_of_reaches {failures : UInt32} {stream : Bytes}
    (h : ReachesOverflow parse failures stream) : ∃ body, split maxBodyLen stream = .body body := by
  obtain ⟨before, body, rest, rfl, legals, legal, _, _⟩ := h
  cases before with
  | nil => exact ⟨body, split_of_legal legal rest⟩
  | cons b later =>
    rw [List.flatMap_cons, List.append_assoc]
    exact ⟨b, split_of_legal (legals b List.mem_cons_self) _⟩

/-- One round of the loop, for the condition: the frame at the front of the stream
either is the overflow or is survived. -/
theorem reaches_iff {failures : UInt32} {stream body : Bytes}
    (hs : split maxBodyLen stream = .body body) :
    ReachesOverflow parse failures stream ↔
      match parse body with
      | .value _ => ReachesOverflow parse 0 (stream.drop (4 + body.length))
      | .parseError => ¬ failures + 1 ≥ 3 ∧
          ReachesOverflow parse (failures + 1) (stream.drop (4 + body.length))
      | .outOfRange => True := by
  obtain ⟨whole, nonempty, bounded⟩ := split_body hs
  constructor
  · rintro ⟨before, last, rest, shape, legals, legal, alive, overflow⟩
    cases before with
    | nil =>
      have same : Split.body body = .body last := by
        rw [← hs, shape]
        exact split_of_legal legal rest
      cases same
      simp [overflow]
    | cons b later =>
      rw [List.flatMap_cons, List.append_assoc] at shape
      have same : Split.body body = .body b := by
        rw [← hs, shape]
        exact split_of_legal (legals b List.mem_cons_self) _
      cases same
      have tail : stream.drop (4 + body.length) =
          later.flatMap frame ++ (frame last ++ rest) := by
        rw [shape]
        exact List.drop_left' (frame_length body)
      have legals' : ∀ b' ∈ later, Legal b' := fun b' h => legals b' (List.mem_cons_of_mem body h)
      rw [survives] at alive
      cases hp : parse body with
      | value json =>
        simp only [hp] at alive
        exact ⟨later, last, rest, tail, legals', legal, alive, overflow⟩
      | parseError =>
        simp only [hp] at alive
        exact ⟨alive.1, later, last, rest, tail, legals', legal, alive.2, overflow⟩
      | outOfRange => trivial
  · intro h
    cases hp : parse body with
    | value json =>
      simp only [hp] at h
      obtain ⟨later, last, rest, tail, legals, legal, alive, overflow⟩ := h
      refine ⟨body :: later, last, rest, ?_, ?_, legal, ?_, overflow⟩
      · rw [List.flatMap_cons, List.append_assoc, ← tail]
        exact whole
      · exact List.forall_mem_cons.mpr ⟨⟨nonempty, bounded⟩, legals⟩
      · simpa only [survives, hp] using alive
    | parseError =>
      simp only [hp] at h
      obtain ⟨early, later, last, rest, tail, legals, legal, alive, overflow⟩ := h
      refine ⟨body :: later, last, rest, ?_, ?_, legal, ?_, overflow⟩
      · rw [List.flatMap_cons, List.append_assoc, ← tail]
        exact whole
      · exact List.forall_mem_cons.mpr ⟨⟨nonempty, bounded⟩, legals⟩
      · simp only [survives, hp]
        exact ⟨early, alive⟩
    | outOfRange =>
      exact ⟨[], body, stream.drop (4 + body.length), whole, fun b h => absurd h List.not_mem_nil,
        ⟨nonempty, bounded⟩, trivial, hp⟩

/-! ## The extraction loop -/

/-- A loop that reaches an overflow ends in the exception. -/
theorem extract_throws (fuel : Nat) (buf : Bytes) (failures : UInt32) (messages : List Json)
    (enough : buf.length ≤ fuel) (h : ReachesOverflow parse failures buf) :
    (extract parse fuel buf failures messages).result = .error (.outOfRange 406) := by
  induction fuel generalizing buf failures messages with
  | zero =>
    obtain ⟨body, hs⟩ := split_of_reaches h
    have bound := split_body_le hs
    omega
  | succ fuel ih =>
    obtain ⟨body, hs⟩ := split_of_reaches h
    have bound := split_body_le hs
    have shorter : (buf.drop (4 + body.length)).length ≤ fuel := by
      rw [List.length_drop]
      omega
    have round := (reaches_iff hs).mp h
    rw [extract_succ]
    simp only [hs]
    cases hp : parse body with
    | value json =>
      simp only [hp] at round ⊢
      exact ih _ _ _ shorter round
    | parseError =>
      simp only [hp] at round ⊢
      rw [if_neg round.1]
      exact ih _ _ _ shorter round.2
    | outOfRange => rfl

/-- A loop that reaches none returns, and does what the joined parser makes it do. -/
theorem extract_returns (fuel : Nat) (buf : Bytes) (failures : UInt32) (messages : List Json)
    (enough : buf.length ≤ fuel) (h : ¬ ReachesOverflow parse failures buf) :
    (∃ value, (extract parse fuel buf failures messages).result = .ok value) ∧
      extract parse fuel buf failures messages =
        extract (countAll parse) fuel buf failures messages := by
  induction fuel generalizing buf failures messages with
  | zero => exact ⟨⟨_, rfl⟩, rfl⟩
  | succ fuel ih =>
    rw [extract_succ, extract_succ]
    cases hs : split maxBodyLen buf with
    | wait => exact ⟨⟨_, rfl⟩, rfl⟩
    | illegal => exact ⟨⟨_, rfl⟩, rfl⟩
    | body body =>
      have bound := split_body_le hs
      have shorter : (buf.drop (4 + body.length)).length ≤ fuel := by
        rw [List.length_drop]
        omega
      rw [reaches_iff hs] at h
      cases hp : parse body with
      | value json =>
        simp only [hp] at h
        simp only [hp, countAll]
        exact ih _ _ _ shorter h
      | parseError =>
        simp only [hp] at h
        simp only [hp, countAll]
        by_cases third : failures + 1 ≥ 3
        · simp only [if_pos third]
          exact ⟨⟨_, rfl⟩, trivial⟩
        · simp only [if_neg third]
          exact ih _ _ _ shorter fun reaches => h ⟨third, reaches⟩
      | outOfRange =>
        simp only [hp, not_true] at h

/-! ## One call -/

/-- A call returns, and treats every refused body as one parse failure, exactly
when its receive loop gives up or the stream it has reaches no overflowing
number. -/
theorem recvMsgs_counts_every_refusal (parse : Bytes → Parsed) (session : ClientSession)
    (results : List RecvResult) :
    ((∃ value, (recvMsgs parse session results).1 = .ok value) ∧
        recvMsgs parse session results = recvMsgs (countAll parse) session results) ↔
      (brokenOff session.recvBuf.length results ∨
        ¬ ReachesOverflow parse session.consecutiveParseFailures
          (session.recvBuf ++ arrived results)) := by
  by_cases broken : brokenOff session.recvBuf.length results
  · rw [recvMsgs_of_brokenOff session results broken, recvMsgs_of_brokenOff session results broken]
    exact ⟨fun _ => Or.inl broken, fun _ => ⟨⟨none, rfl⟩, rfl⟩⟩
  · rw [recvMsgs_eq session results broken, recvMsgs_eq session results broken]
    have size := Nat.le_refl (session.recvBuf ++ arrived results).length
    by_cases reaches : ReachesOverflow parse session.consecutiveParseFailures
        (session.recvBuf ++ arrived results)
    · have throws := endCall_error session (receive session.recvBuf results).2
        (extract_throws _ _ _ [] size reaches)
      constructor
      · rintro ⟨⟨value, returned⟩, _⟩
        rw [throws] at returned
        cases returned
      · rintro (h | h)
        · exact absurd h broken
        · exact absurd reaches h
    · obtain ⟨⟨value, returned⟩, same⟩ := extract_returns _ _ _ [] size reaches
      exact ⟨fun _ => Or.inr reaches, fun _ => ⟨endCall_ok returned, by rw [same]⟩⟩

/-- The JSON library on the text `1e999`. -/
def overflowParse (body : Bytes) : Parsed :=
  if body = [49, 101, 57, 57, 57] then .outOfRange else .parseError

/-- One frame with the body `1e999` on a fresh session leaves `recv_msgs` with an
exception. -/
theorem recvMsgs_throws_on_overflow :
    ¬ ∀ (parse : Bytes → Parsed) (session : ClientSession) (results : List RecvResult),
      (∃ value, (recvMsgs parse session results).1 = .ok value) ∧
        recvMsgs parse session results = recvMsgs (countAll parse) session results := by
  intro always
  obtain ⟨⟨value, returned⟩, _⟩ := always overflowParse {}
    [.data ⟨[0, 0, 0, 5, 49, 101, 57, 57, 57], by decide, by decide⟩, .again]
  cases returned

end LinuxChat.Guarantees
