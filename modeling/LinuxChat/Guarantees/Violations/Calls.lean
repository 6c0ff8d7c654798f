import LinuxChat.Guarantees.Violations.FatalOctets

/-!
# The calls of a connection

What one call after the other returns for a stream that comes in batches: lists as long as no
fatal octet has arrived, with the messages of the whole bodies so far, and nullopt in the call
whose batch holds it.
-/

namespace LinuxChat.Guarantees.Violations

open LinuxChat.Lib LinuxChat.Source

variable {parse : Bytes → Parsed}

/-! ## The messages of a stream -/

/-- The bodies of the complete legal frames a stream starts with. -/
def wholeBodies (stream : Bytes) : List Bytes :=
  ((frames maxBodyLen).run () stream).outputs

/-- The values of the parsable ones. -/
def messagesIn (parse : Bytes → Parsed) (stream : Bytes) : List Json :=
  (wholeBodies stream).filterMap fun body => value? (parse body)

/-- A decoder that is waiting has cut the same frames as the decoder of bare frames. -/
theorem frames_of_idle {failures failures' : UInt32} {stream rest : Bytes} {out : List Json}
    (h : (frameDecoder parse).run failures stream = .idle out failures' rest) :
    ∃ bodies, (frames maxBodyLen).run () stream = .idle bodies () rest ∧
      out = bodies.filterMap fun body => value? (parse body) := by
  induction hn : stream.length using Nat.strongRecOn generalizing failures stream out with
  | ind size ih =>
    subst hn
    cases hs : split maxBodyLen stream with
    | wait =>
      have wait : (frameDecoder parse).scan failures stream = .wait := by
        simp [frameDecoder, scanFrame, hs]
      have bare : (frames maxBodyLen).scan () stream = .wait := by simp [frames, hs]
      rw [Decoder.run_wait wait] at h
      cases h
      exact ⟨[], Decoder.run_wait bare, rfl⟩
    | illegal =>
      have stop : (frameDecoder parse).scan failures stream = .stop .badLength := by
        simp [frameDecoder, scanFrame, hs]
      rw [Decoder.run_stop stop] at h
      cases h
    | body body =>
      have bound := split_body_le hs
      have shorter : (stream.drop (4 + body.length)).length < stream.length := by
        rw [List.length_drop]
        omega
      have bare : (frames maxBodyLen).scan () stream = .item [body] () (4 + body.length) := by
        simp [frames, hs]
      have later : ∀ next, ((frameDecoder parse).run next (stream.drop (4 + body.length))).prepend
          (value? (parse body)).toList = .idle out failures' rest →
          ∃ bodies, (frames maxBodyLen).run () stream = .idle bodies () rest ∧
            out = bodies.filterMap fun body => value? (parse body) := by
        intro next tail
        cases hr : (frameDecoder parse).run next (stream.drop (4 + body.length)) with
        | halted out₂ reason f r =>
          rw [hr] at tail
          cases tail
        | idle out₂ f r =>
          rw [hr] at tail
          cases tail
          obtain ⟨bodies, cut, rfl⟩ := ih _ shorter hr rfl
          refine ⟨body :: bodies, ?_, ?_⟩
          · rw [Decoder.run_item bare, cut]
            rfl
          · rw [List.filterMap_cons]
            cases value? (parse body) <;> rfl
      cases hp : parse body with
      | value json =>
        have item : (frameDecoder parse).scan failures stream =
            .item [json] 0 (4 + body.length) := by
          simp [frameDecoder, scanFrame, hs, hp]
        rw [Decoder.run_item item] at h
        exact later 0 (by rw [hp]; exact h)
      | parseError =>
        by_cases third : failures + 1 ≥ 3
        · have stop : (frameDecoder parse).scan failures stream = .stop .thirdFailure := by
            simp [frameDecoder, scanFrame, hs, hp, third]
          rw [Decoder.run_stop stop] at h
          cases h
        · have item : (frameDecoder parse).scan failures stream =
              .item [] (failures + 1) (4 + body.length) := by
            simp [frameDecoder, scanFrame, hs, hp, third]
          rw [Decoder.run_item item] at h
          exact later (failures + 1) (by rw [hp]; exact h)
      | outOfRange =>
        have stop : (frameDecoder parse).scan failures stream = .stop .thrown := by
          simp [frameDecoder, scanFrame, hs, hp]
        rw [Decoder.run_stop stop] at h
        cases h

theorem messagesIn_of_idle {failures failures' : UInt32} {stream rest : Bytes} {out : List Json}
    (h : (frameDecoder parse).run failures stream = .idle out failures' rest) :
    out = messagesIn parse stream := by
  obtain ⟨bodies, cut, values⟩ := frames_of_idle h
  rw [values, messagesIn, wholeBodies, cut]
  rfl

theorem outputs_prepend {β σ γ ε : Type} (before : List γ) (d : Decoded β σ γ ε) :
    (d.prepend before).outputs = before ++ d.outputs := by
  cases d <;> rfl

theorem wholeBodies_append {stream rest : Bytes} {bodies : List Bytes}
    (cut : (frames maxBodyLen).run () stream = .idle bodies () rest) (more : Bytes) :
    wholeBodies (stream ++ more) = bodies ++ wholeBodies (rest ++ more) := by
  unfold wholeBodies
  rw [Decoder.run_append, cut, Decoder.resume, outputs_prepend]

/-- The stream is its whole bodies and a rest. -/
theorem joined_of_idle {stream rest : Bytes} {bodies : List Bytes}
    (cut : (frames maxBodyLen).run () stream = .idle bodies () rest) :
    stream = bodies.flatMap frame ++ rest := by
  obtain ⟨bodies', tail, framed⟩ := exists_framed maxBodyLen stream
  have run := run_of_framed (by decide) framed
  rw [cut, framesEnd] at run
  split at run
  · cases run
  · cases run
    exact framed.joined

/-! ## The calls of a connection -/

/-- What the calls return, up to the first that returns no list: `handle_client_event`
then drops the session. -/
def serve (parse : Bytes → Parsed) (session : ClientSession) :
    List (List RecvResult) → List (Except Exn (Option (List Json)))
  | [] => []
  | results :: later =>
    let call := recvMsgs parse session results
    match call.1 with
    | .ok (some msgs) => .ok (some msgs) :: serve parse call.2 later
    | other => [other]

/-- `recv_buf` is below its limit at every size check of these calls. -/
def Fits (parse : Bytes → Parsed) (session : ClientSession) : List (List Chunk) → Prop
  | [] => True
  | batch :: later =>
    (∀ taken ≤ batch.length,
      (session.recvBuf ++ batchBytes (batch.take taken)).length < maxRecvBufSize) ∧
    ∀ msgs, (recvMsgs parse session (script batch)).1 = .ok (some msgs) →
      Fits parse (recvMsgs parse session (script batch)).2 later

/-- The octets of the batches. -/
def bytes (batches : List (List Chunk)) : Bytes :=
  (batches.map batchBytes).flatten

theorem bytes_cons (batch : List Chunk) (later : List (List Chunk)) :
    bytes (batch :: later) = batchBytes batch ++ bytes later := rfl

theorem fits_room {session : ClientSession} {batch : List Chunk} {later : List (List Chunk)}
    (fits : Fits parse session (batch :: later)) :
    (session.recvBuf ++ batchBytes batch).length < maxRecvBufSize := by
  have last := fits.1 batch.length (Nat.le_refl _)
  rwa [List.take_length] at last

theorem reason_of_halted (reported : Reported parse) {failures failures' : UInt32}
    {stream rest : Bytes} {out : List Json} {reason : StopReason}
    (h : (frameDecoder parse).run failures stream = .halted out reason failures' rest) :
    reason ≠ .thrown := by
  have same := @extract_eq_run parse stream.length stream failures [] (Nat.le_refl _)
  have unreached : ¬ ReachesOverflow parse failures stream := by
    rintro ⟨_, body, _, _, _, _, _, overflow⟩
    exact reported body overflow
  obtain ⟨value, returned⟩ := (extract_returns stream.length stream failures [] (Nat.le_refl _)
    unreached).1
  rintro rfl
  rw [same, h] at returned
  cases returned

/-- A batch on which the decoder stops: the call returns nullopt. -/
theorem recvMsgs_halted (reported : Reported parse) {session : ClientSession} {batch : List Chunk}
    (room : (session.recvBuf ++ batchBytes batch).length < maxRecvBufSize)
    (halts : Halts parse session.consecutiveParseFailures (session.recvBuf ++ batchBytes batch)) :
    (recvMsgs parse session (script batch)).1 = .ok none := by
  obtain ⟨out, reason, failures, rest, decoded⟩ := halts
  have caught := reason_of_halted reported decoded
  rw [List.length_append] at room
  rw [recvMsgs_eq session (script batch) (script_intact batch _ room), arrived_script,
    extract_eq_run _ _ _ _ (Nat.le_refl _), decoded, receive_script batch _ room]
  cases reason with
  | badLength => rfl
  | thirdFailure => rfl
  | thrown => exact absurd rfl caught

/-- The session has decoded `before` and waits for more. -/
structure Waiting (parse : Bytes → Parsed) (session : ClientSession) (before : Bytes)
    (out : List Json) : Prop where
  decoded : (frameDecoder parse).run 0 before =
    .idle out session.consecutiveParseFailures session.recvBuf

theorem waiting_fresh : Waiting parse {} [] [] :=
  ⟨Decoder.run_wait rfl⟩

/-- One call of a waiting session: it returns nullopt if the octets received have a fatal
one by now, and otherwise a list, and waits again. -/
theorem waiting_step (reported : Reported parse) {session : ClientSession} {before : Bytes}
    {out : List Json} (waiting : Waiting parse session before out) {batch : List Chunk}
    (room : (session.recvBuf ++ batchBytes batch).length < maxRecvBufSize) :
    ((∃ n, FatalOctet parse 0 (before ++ batchBytes batch) n) ∧
      (recvMsgs parse session (script batch)).1 = .ok none) ∨
    (¬ (∃ n, FatalOctet parse 0 (before ++ batchBytes batch) n) ∧
      ∃ msgs, (recvMsgs parse session (script batch)).1 = .ok (some msgs) ∧
        Waiting parse (recvMsgs parse session (script batch)).2 (before ++ batchBytes batch)
          (out ++ msgs)) := by
  have whole : (frameDecoder parse).run 0 (before ++ batchBytes batch) =
      ((frameDecoder parse).run session.consecutiveParseFailures
        (session.recvBuf ++ batchBytes batch)).prepend out := by
    rw [Decoder.run_append, waiting.decoded, Decoder.resume]
  have fatal := @halts_iff _ reported 0 (by decide) (before ++ batchBytes batch)
  cases here : (frameDecoder parse).run session.consecutiveParseFailures
      (session.recvBuf ++ batchBytes batch) with
  | halted out₁ reason failures rest =>
    rw [here] at whole
    refine Or.inl ⟨fatal.mp ⟨_, _, _, _, whole⟩, ?_⟩
    exact recvMsgs_halted reported room ⟨_, _, _, _, here⟩
  | idle msgs failures rest =>
    rw [here] at whole
    have call := recvMsgs_script room here
    refine Or.inr ⟨fun reached => ?_, msgs, by rw [call], ⟨?_⟩⟩
    · obtain ⟨_, _, _, _, halted⟩ := fatal.mpr reached
      rw [whole] at halted
      cases halted
    · rw [call]
      exact whole

theorem no_fatal_before (reported : Reported parse) {session : ClientSession} {before : Bytes}
    {out : List Json} (waiting : Waiting parse session before out) (n : Nat) :
    ¬ FatalOctet parse 0 before n := by
  intro fatal
  obtain ⟨_, _, _, _, halted⟩ := (@halts_iff _ reported 0 (by decide) before).mpr
    ⟨n, fatal⟩
  rw [waiting.decoded] at halted
  cases halted

/-- Without a fatal octet every call returns a list, and nothing is lost. -/
theorem serve_quiet (reported : Reported parse) (batches : List (List Chunk))
    {session : ClientSession} {before : Bytes} {out : List Json}
    (waiting : Waiting parse session before out) (fits : Fits parse session batches)
    (quiet : ∀ n, ¬ FatalOctet parse 0 (before ++ bytes batches) n) :
    ∃ lists : List (List Json),
      serve parse session (batches.map script) = lists.map (fun list => .ok (some list)) ∧
      lists.length = batches.length ∧
      out ++ lists.flatten = messagesIn parse (before ++ bytes batches) := by
  induction batches generalizing session before out with
  | nil =>
    refine ⟨[], rfl, rfl, ?_⟩
    rw [bytes, List.map_nil, List.flatten_nil, List.append_nil, List.flatten_nil, List.append_nil]
    exact messagesIn_of_idle waiting.decoded
  | cons batch later ih =>
    rw [bytes_cons, ← List.append_assoc] at quiet ⊢
    rcases waiting_step reported waiting (fits_room fits) with
      ⟨⟨n, fatal⟩, _⟩ | ⟨_, msgs, returned, waiting'⟩
    · exact absurd ((fatal_append_iff (fatal_le_length fatal) _).mpr fatal) (quiet n)
    · obtain ⟨lists, calls, count, joined⟩ := ih waiting' (fits.2 msgs returned) quiet
      refine ⟨msgs :: lists, ?_, by rw [List.length_cons, List.length_cons, count], ?_⟩
      · rw [List.map_cons, serve]
        simp only [returned, calls, List.map_cons]
      · rw [List.flatten_cons, ← List.append_assoc]
        exact joined

/-- The call whose batch holds the first fatal octet returns nullopt, every earlier one a
list; what those handed over is what their batches held. -/
theorem serve_violation (reported : Reported parse) (batches : List (List Chunk))
    {session : ClientSession} {before : Bytes} {out : List Json} {n : Nat}
    (waiting : Waiting parse session before out) (fits : Fits parse session batches)
    (first : FirstViolation parse (before ++ bytes batches) n) :
    ∃ lists : List (List Json), lists.length < batches.length ∧
      serve parse session (batches.map script) =
        lists.map (fun list => .ok (some list)) ++ [.ok none] ∧
      (before ++ bytes (batches.take lists.length)).length < n ∧
      n ≤ (before ++ bytes (batches.take (lists.length + 1))).length ∧
      ∃ session', Waiting parse session' (before ++ bytes (batches.take lists.length))
        (out ++ lists.flatten) := by
  induction batches generalizing session before out with
  | nil =>
    rw [bytes, List.map_nil, List.flatten_nil, List.append_nil] at first
    exact absurd first.1 (no_fatal_before reported waiting n)
  | cons batch later ih =>
    rw [bytes_cons, ← List.append_assoc] at first
    rcases waiting_step reported waiting (fits_room fits) with
      ⟨⟨m, fatal⟩, returned⟩ | ⟨clean, msgs, returned, waiting'⟩
    · have inside := fatal_le_length fatal
      have least := first.2 m ((fatal_append_iff inside _).mpr fatal)
      refine ⟨[], Nat.zero_lt_succ _, ?_, ?_, ?_, session, ?_⟩
      · rw [List.map_cons, serve]
        simp only [returned, List.map_nil, List.nil_append]
      · rw [List.length_nil, List.take_zero, bytes, List.map_nil, List.flatten_nil, List.append_nil]
        by_contra inBefore
        have short : n ≤ before.length := by omega
        have early := first.1
        rw [List.append_assoc, fatal_append_iff short] at early
        exact no_fatal_before reported waiting n early
      · rw [List.length_nil, Nat.zero_add, List.take_succ_cons, List.take_zero, bytes_cons, bytes,
          List.map_nil, List.flatten_nil, List.append_nil]
        exact Nat.le_trans least inside
      · rw [List.length_nil, List.take_zero, bytes, List.map_nil, List.flatten_nil, List.append_nil,
          List.flatten_nil, List.append_nil]
        exact waiting
    · obtain ⟨lists, count, calls, low, high, session', waits⟩ :=
        ih waiting' (fits.2 msgs returned) first
      refine ⟨msgs :: lists, by simpa using count, ?_, ?_, ?_, session', ?_⟩
      · rw [List.map_cons, serve]
        simp only [returned, calls, List.map_cons, List.cons_append]
      · rw [List.length_cons, List.take_succ_cons, bytes_cons, ← List.append_assoc]
        exact low
      · rw [List.length_cons, List.take_succ_cons, bytes_cons, ← List.append_assoc]
        exact high
      · rw [List.length_cons, List.take_succ_cons, bytes_cons, ← List.append_assoc,
          List.flatten_cons, ← List.append_assoc]
        exact waits

end LinuxChat.Guarantees.Violations
