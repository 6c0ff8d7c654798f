import LinuxChat.Source.RecvMsgs
import LinuxChat.Guarantees.FrameDecoder

/-!
# What recv_buf holds

`recv_msgs` (server/src/protocol.cpp:89-180) round by round, over any calls on a fresh
session. Between the calls the buffer holds the stream after the last frame cut out of it,
less than one legal frame; inside a call it may grow by one `::recv` beyond its limit. The
steps together are the calls of `recvMsgs`.
-/

namespace LinuxChat.Guarantees.ResidualBuffer

open LinuxChat.Lib LinuxChat.Source

/-- All that was appended to the buffer. -/
def stream : List Edit → Bytes
  | [] => []
  | .inserted bytes :: rest => bytes ++ stream rest
  | .extracted _ :: rest => stream rest

/-- The bodies of the frames cut out of it. -/
def bodies : List Edit → List Bytes
  | [] => []
  | .inserted _ :: rest => bodies rest
  | .extracted body :: rest => body :: bodies rest

@[simp] theorem stream_append (first later : List Edit) :
    stream (first ++ later) = stream first ++ stream later := by
  induction first with
  | nil => rfl
  | cons edit rest ih =>
    cases edit with
    | inserted bytes => simp only [List.cons_append, stream, ih, List.append_assoc]
    | extracted body => simp only [List.cons_append, stream, ih]

@[simp] theorem bodies_append (first later : List Edit) :
    bodies (first ++ later) = bodies first ++ bodies later := by
  induction first with
  | nil => rfl
  | cons edit rest ih =>
    cases edit with
    | inserted bytes => simp only [List.cons_append, bodies, ih]
    | extracted body => simp only [List.cons_append, bodies, ih]

/-- What a step takes in from `::recv`: its chunk, in the receive loop below the limit. -/
def takenIn (result : RecvResult) (d : Decoding) : Bytes :=
  match d.phase, result with
  | .receiving, .data chunk => if d.recvBuf.length ≥ maxRecvBufSize then [] else chunk.bytes
  | _, _ => []

/-- What the steps take in, in the order of the results. -/
def arrivals (parse : Bytes → Parsed) : List RecvResult → Decoding → Bytes
  | [], _ => []
  | result :: rest, d =>
    takenIn result d ++
      match d.step parse result with
      | some next => arrivals parse rest next.1
      | none => []

/-- Too few octets for a length, or a legal length and not all of its body. -/
def Partial (buf : Bytes) : Prop :=
  buf.length < 4 ∨
    (1 ≤ ofBe32 (buf.take 4) ∧ ofBe32 (buf.take 4) ≤ maxBodyLen ∧
      buf.length < 4 + ofBe32 (buf.take 4))

/-- The session is in the extraction loop of a call, with the messages parsed so far and the
end of the stream noted or not. -/
def Extracting (d : Decoding) : Prop :=
  ∃ peerClosed messages, d.phase = .extracting peerClosed messages

/-- What holds of a session after these edits. -/
structure Bounded (parse : Bytes → Parsed) (edits : List Edit) (d : Decoding) : Prop where
  suffix : d.phase = .returned → stream edits = (bodies edits).flatMap frame ++ d.recvBuf
  waits : d.phase = .returned → Partial d.recvBuf
  small : d.phase = .returned → d.recvBuf.length < 16 * 1024 * 1024 + 4
  capped : d.recvBuf.length ≤ 32 * 1024 * 1024 + 4095
  sum : ∀ word, slice d.recvBuf 0 4 = some word → bodyLen word ≤ UInt32.ofNat maxBodyLen →
    (4 + bodyLen word).toNat = 4 + (bodyLen word).toNat
  shrinks : ∀ result after edits', Extracting d → d.step parse result = some (after, edits') →
    ¬ Extracting after ∨ after.recvBuf.length + 5 ≤ d.recvBuf.length
  leaves : Extracting d → ∃ rounds ≤ d.recvBuf.length / 5 + 1,
    ∀ results : List RecvResult, results.length = rounds →
      ∃ after edits', d.run parse results = some (after, edits') ∧ ¬ Extracting after

/-! ## One round of the extraction loop -/

variable {parse : Bytes → Parsed}

theorem slice_of_le {buf : Bytes} {offset count : Nat} (inside : offset + count ≤ buf.length) :
    slice buf offset count = some ((buf.drop offset).take count) := if_pos inside

theorem erase_of_le {buf : Bytes} {count : Nat} (inside : count ≤ buf.length) :
    erase buf count = some (buf.drop count) := if_pos inside

theorem bodyLen_toNat {word : Bytes} (four : word.length = 4) :
    (bodyLen word).toNat = ofBe32 word := by
  rw [bodyLen, UInt32.toNat_ofNat']
  exact Nat.mod_eq_of_lt (ofBe32_lt word four)

theorem sum_toNat {len : UInt32} (legal : len ≤ UInt32.ofNat maxBodyLen) :
    (4 + len).toNat = 4 + len.toNat := by
  have bound : len.toNat ≤ 16777216 := UInt32.le_iff_toNat_le.mp legal
  rw [UInt32.toNat_add]
  exact Nat.mod_eq_of_lt (by change 4 + len.toNat < _; omega)

/-- A round that cuts out a frame. -/
def cut (parse : Bytes → Parsed) (peerClosed : Bool) (messages : List Json) (body : Bytes)
    (d : Decoding) : Decoding :=
  let rest := d.recvBuf.drop (4 + body.length)
  match parse body with
  | .value json => ⟨.extracting peerClosed (messages ++ [json]), rest, 0⟩
  | .parseError =>
    if d.failures + 1 ≥ 3 then ⟨.discarded, rest, d.failures + 1⟩
    else ⟨.extracting peerClosed messages, rest, d.failures + 1⟩
  | .outOfRange => ⟨.thrown, rest, d.failures⟩

theorem cut_recvBuf (peerClosed : Bool) (messages : List Json) (body : Bytes) (d : Decoding) :
    (cut parse peerClosed messages body d).recvBuf = d.recvBuf.drop (4 + body.length) := by
  unfold cut
  dsimp only
  split
  · rfl
  · split
    · rfl
    · rfl
  · rfl

/-- No copy or `erase` of a round leaves the buffer. -/
theorem extractOne_eq (peerClosed : Bool) (messages : List Json) (d : Decoding) :
    extractOne parse peerClosed messages d =
      match split maxBodyLen d.recvBuf with
      | .wait => some (finish peerClosed messages d)
      | .illegal => some ({ d with phase := .discarded, recvBuf := [] }, [])
      | .body body => some (cut parse peerClosed messages body d, [.extracted body]) := by
  unfold extractOne split
  by_cases short : d.recvBuf.length < 4
  · rw [if_pos short, if_neg (by omega)]
  · rw [if_neg short, if_pos (by omega), slice_of_le (by omega), List.drop_zero]
    have four : (d.recvBuf.take 4).length = 4 := by
      rw [List.length_take]
      omega
    have value := bodyLen_toNat four
    have limit : (UInt32.ofNat maxBodyLen).toNat = maxBodyLen := rfl
    dsimp only [Option.bind_eq_bind, Option.bind_some]
    by_cases zero : ofBe32 (d.recvBuf.take 4) = 0
    · have empty : bodyLen (d.recvBuf.take 4) = 0 := UInt32.toNat_inj.mp (value.trans zero)
      rw [if_pos empty, if_pos (Or.inl zero)]
    · have nonempty : bodyLen (d.recvBuf.take 4) ≠ 0 := by
        intro empty
        rw [empty] at value
        exact zero value.symm
      rw [if_neg nonempty]
      by_cases long : maxBodyLen < ofBe32 (d.recvBuf.take 4)
      · have beyond : bodyLen (d.recvBuf.take 4) > UInt32.ofNat maxBodyLen := by
          apply UInt32.lt_iff_toNat_lt.mpr
          rw [limit, value]
          exact long
        rw [if_pos beyond, if_pos (Or.inr long)]
      · have legal : bodyLen (d.recvBuf.take 4) ≤ UInt32.ofNat maxBodyLen := by
          apply UInt32.le_iff_toNat_le.mpr
          rw [limit, value]
          omega
        have lawful : ¬ (ofBe32 (d.recvBuf.take 4) = 0 ∨ maxBodyLen < ofBe32 (d.recvBuf.take 4)) := by
          omega
        rw [if_neg (UInt32.not_lt.mpr legal), sum_toNat legal, value, if_neg lawful]
        by_cases partly : d.recvBuf.length < 4 + ofBe32 (d.recvBuf.take 4)
        · rw [if_pos partly, if_pos partly]
        · rw [if_neg partly, if_neg partly, slice_of_le (by omega), erase_of_le (by omega)]
          have size : ((d.recvBuf.drop 4).take (ofBe32 (d.recvBuf.take 4))).length =
              ofBe32 (d.recvBuf.take 4) := by
            rw [List.length_take, List.length_drop]
            omega
          dsimp only [Option.bind_some]
          unfold cut
          rw [size]
          cases parse ((d.recvBuf.drop 4).take (ofBe32 (d.recvBuf.take 4))) with
          | value json => rfl
          | parseError =>
            dsimp only
            split
            · rfl
            · rfl
          | outOfRange => rfl

/-! ## What is appended -/

theorem stream_receiveOne (result : RecvResult) (d : Decoding) (receiving : d.phase = .receiving) :
    stream (receiveOne result d).2 = takenIn result d := by
  unfold receiveOne takenIn
  rw [receiving]
  by_cases full : d.recvBuf.length ≥ maxRecvBufSize
  · rw [if_pos full]
    cases result with
    | data chunk => exact (if_pos full).symm
    | _ => rfl
  · rw [if_neg full]
    cases result with
    | data chunk => exact (List.append_nil _).trans (if_neg full).symm
    | _ => rfl

/-- Only the receive loop appends to the buffer, and it appends the chunk it was given. -/
theorem stream_step {d after : Decoding} {result : RecvResult} {edits : List Edit}
    (stepped : d.step parse result = some (after, edits)) : stream edits = takenIn result d := by
  unfold Decoding.step at stepped
  cases phase : d.phase with
  | receiving =>
    rw [phase] at stepped
    have same : receiveOne result d = (after, edits) := Option.some.inj stepped
    have appended := stream_receiveOne result d phase
    rw [same] at appended
    exact appended
  | extracting peerClosed messages =>
    have nothing : takenIn result d = [] := by
      unfold takenIn
      rw [phase]
    rw [nothing]
    rw [phase] at stepped
    dsimp only at stepped
    rw [extractOne_eq] at stepped
    cases verdict : split maxBodyLen d.recvBuf with
    | wait =>
      rw [verdict] at stepped
      unfold finish at stepped
      dsimp only at stepped
      split at stepped
      · cases stepped
        rfl
      · cases stepped
        rfl
    | illegal =>
      rw [verdict] at stepped
      cases stepped
      rfl
    | body body =>
      rw [verdict] at stepped
      cases stepped
      rfl
  | _ =>
    have nothing : takenIn result d = [] := by
      unfold takenIn
      rw [phase]
    rw [nothing]
    rw [phase] at stepped
    cases stepped
    rfl

/-- After any steps the octets appended are the chunks taken in so far, in order. -/
theorem stream_run {d after : Decoding} {results : List RecvResult} {edits : List Edit}
    (ran : Decoding.run parse results d = some (after, edits)) :
    stream edits = arrivals parse results d := by
  induction results generalizing d edits with
  | nil =>
    cases ran
    rfl
  | cons result rest ih =>
    simp only [Decoding.run, Option.bind_eq_bind, Option.bind_eq_some_iff] at ran
    obtain ⟨⟨next, first⟩, stepped, ⟨last, later⟩, others, same⟩ := ran
    cases same
    rw [stream_append, stream_step stepped, ih others]
    simp only [arrivals, stepped]

/-! ## Every step -/

/-- The invariant; it also covers a call under way and one that threw. -/
structure Kept (edits : List Edit) (d : Decoding) : Prop where
  joined : d.phase ≠ .discarded → stream edits = (bodies edits).flatMap frame ++ d.recvBuf
  waits : d.phase = .returned → Partial d.recvBuf
  capped : d.recvBuf.length ≤ 32 * 1024 * 1024 + 4095

variable {edits : List Edit} {d : Decoding}

theorem Kept.discard (kept : Kept edits d) : Kept edits { d with phase := .discarded } :=
  ⟨fun goesOn => absurd rfl goesOn, fun returned => (nomatch returned), kept.capped⟩

/-- A step that only moves on within a call. -/
theorem Kept.move {phase : RecvPhase} (kept : Kept edits d) (live : d.phase ≠ .discarded)
    (inside : phase ≠ .returned) : Kept edits { d with phase := phase } :=
  ⟨fun _ => kept.joined live, fun returned => absurd returned inside, kept.capped⟩

theorem Kept.receiveOne (kept : Kept edits d) (receiving : d.phase = .receiving)
    (result : RecvResult) :
    Kept (edits ++ (receiveOne result d).2) (receiveOne result d).1 := by
  have live : d.phase ≠ .discarded := by
    rw [receiving]
    exact RecvPhase.noConfusion
  unfold Source.receiveOne
  by_cases full : d.recvBuf.length ≥ maxRecvBufSize
  · rw [if_pos full, List.append_nil]
    exact kept.discard
  · rw [if_neg full]
    cases result with
    | data chunk =>
      have bounded := chunk.bounded
      have limit : maxRecvBufSize = 32 * 1024 * 1024 := rfl
      constructor
      · intro _
        simp only [stream_append, bodies_append, stream, bodies, List.append_nil]
        rw [kept.joined live, List.append_assoc]
      · intro returned
        exact absurd (receiving.symm.trans returned) RecvPhase.noConfusion
      · simp only [List.length_append]
        omega
    | closed =>
      rw [List.append_nil]
      exact kept.move live RecvPhase.noConfusion
    | again =>
      rw [List.append_nil]
      exact kept.move live RecvPhase.noConfusion
    | error =>
      rw [List.append_nil]
      exact kept.discard

theorem Kept.finish (kept : Kept edits d) (live : d.phase ≠ .discarded)
    (waits : Partial d.recvBuf) (peerClosed : Bool) (messages : List Json) :
    Kept (edits ++ (finish peerClosed messages d).2) (finish peerClosed messages d).1 := by
  unfold Source.finish
  split
  · rw [List.append_nil]
    exact kept.discard
  · rw [List.append_nil]
    exact ⟨fun _ => kept.joined live, fun _ => waits, kept.capped⟩

theorem Kept.cut {peerClosed : Bool} {messages : List Json} {body : Bytes} (kept : Kept edits d)
    (live : d.phase ≠ .discarded) (whole : split maxBodyLen d.recvBuf = .body body) :
    Kept (edits ++ [.extracted body]) (cut parse peerClosed messages body d) := by
  have parts := (split_body whole).1
  constructor
  · intro _
    simp only [stream_append, bodies_append, stream, bodies, List.append_nil, cut_recvBuf,
      List.flatMap_append, List.flatMap_singleton]
    rw [List.append_assoc, ← parts]
    exact kept.joined live
  · intro returned
    unfold ResidualBuffer.cut at returned
    dsimp only at returned
    split at returned
    · cases returned
    · split at returned
      · cases returned
      · cases returned
    · cases returned
  · rw [cut_recvBuf, List.length_drop]
    have capped := kept.capped
    omega

/-- One round of the receive loop, one of the extraction loop, or the end of the call. -/
theorem step_kept (kept : Kept edits d) (result : RecvResult) :
    ∃ after more, d.step parse result = some (after, more) ∧ Kept (edits ++ more) after := by
  unfold Decoding.step
  cases phase : d.phase with
  | returned =>
    refine ⟨_, _, rfl, ?_⟩
    rw [List.append_nil]
    exact kept.move (by rw [phase]; exact RecvPhase.noConfusion) RecvPhase.noConfusion
  | thrown =>
    refine ⟨_, _, rfl, ?_⟩
    rw [List.append_nil]
    exact kept.move (by rw [phase]; exact RecvPhase.noConfusion) RecvPhase.noConfusion
  | receiving => exact ⟨_, _, rfl, kept.receiveOne phase result⟩
  | extracting peerClosed messages =>
    have live : d.phase ≠ .discarded := by
      rw [phase]
      exact RecvPhase.noConfusion
    dsimp only
    rw [extractOne_eq]
    cases verdict : split maxBodyLen d.recvBuf with
    | wait => exact ⟨_, _, rfl, kept.finish live (split_wait verdict) peerClosed messages⟩
    | illegal =>
      refine ⟨_, _, rfl, fun goesOn => absurd rfl goesOn, fun returned => (nomatch returned), ?_⟩
      exact Nat.zero_le _
    | body body => exact ⟨_, _, rfl, kept.cut live verdict⟩
  | discarded =>
    refine ⟨_, _, rfl, ?_⟩
    rw [List.append_nil]
    exact kept

theorem run_kept (kept : Kept edits d) (results : List RecvResult) :
    ∃ after more, d.run parse results = some (after, more) ∧ Kept (edits ++ more) after := by
  induction results generalizing edits d with
  | nil =>
    refine ⟨d, [], rfl, ?_⟩
    rw [List.append_nil]
    exact kept
  | cons result rest ih =>
    obtain ⟨next, first, stepped, keptNext⟩ := @step_kept parse edits d kept result
    obtain ⟨after, later, ran, keptAfter⟩ := ih keptNext
    refine ⟨after, first ++ later, ?_, ?_⟩
    · simp only [Decoding.run, stepped, Option.bind_eq_bind, Option.bind_some, ran]
    · rw [← List.append_assoc]
      exact keptAfter

/-! ## Leaving the extraction loop -/

theorem not_extracting {phase : RecvPhase} {buf : Bytes} {failures : UInt32}
    (differs : ∀ peerClosed messages, phase ≠ .extracting peerClosed messages) :
    ¬ Extracting ⟨phase, buf, failures⟩ := by
  rintro ⟨peerClosed, messages, same⟩
  exact differs peerClosed messages same

theorem finish_leaves (peerClosed : Bool) (messages : List Json) (d : Decoding) :
    ¬ Extracting (finish peerClosed messages d).1 := by
  unfold finish
  split
  · exact not_extracting fun _ _ => RecvPhase.noConfusion
  · exact not_extracting fun _ _ => RecvPhase.noConfusion

/-- A round that goes on has removed a frame, of five octets at least. -/
theorem extracting_step (extracting : Extracting d) (result : RecvResult) :
    ∃ after more, d.step parse result = some (after, more) ∧
      (¬ Extracting after ∨ after.recvBuf.length + 5 ≤ d.recvBuf.length) := by
  obtain ⟨peerClosed, messages, phase⟩ := extracting
  unfold Decoding.step
  rw [phase]
  dsimp only
  rw [extractOne_eq]
  cases verdict : split maxBodyLen d.recvBuf with
  | wait => exact ⟨_, _, rfl, Or.inl (finish_leaves peerClosed messages d)⟩
  | illegal =>
    exact ⟨_, _, rfl, Or.inl (not_extracting fun _ _ => RecvPhase.noConfusion)⟩
  | body body =>
    refine ⟨_, _, rfl, Or.inr ?_⟩
    have inside := split_body_le verdict
    have nonempty := (split_body verdict).2.1
    rw [cut_recvBuf, List.length_drop]
    omega

theorem extracting_leaves (extracting : Extracting d) :
    ∃ rounds ≤ d.recvBuf.length / 5 + 1, ∀ results : List RecvResult, results.length = rounds →
      ∃ after more, d.run parse results = some (after, more) ∧ ¬ Extracting after := by
  induction size : d.recvBuf.length using Nat.strongRecOn generalizing d with
  | ind n ih =>
    subst size
    obtain ⟨next, first, stepped, progress⟩ :=
      @extracting_step parse d extracting RecvResult.again
    -- the round looks at no result
    have anyResult : ∀ result, d.step parse result = some (next, first) := by
      intro result
      obtain ⟨peerClosed, messages, phase⟩ := extracting
      unfold Decoding.step at stepped ⊢
      rw [phase] at stepped ⊢
      exact stepped
    by_cases left : Extracting next
    · have shorter := progress.resolve_left (not_not_intro left)
      obtain ⟨rounds, bound, leaves⟩ := ih next.recvBuf.length (by omega) left rfl
      refine ⟨rounds + 1, by omega, ?_⟩
      intro results counted
      cases results with
      | nil => cases counted
      | cons result rest =>
        obtain ⟨after, more, ran, gone⟩ := leaves rest (Nat.succ.inj counted)
        refine ⟨after, first ++ more, ?_, gone⟩
        simp only [Decoding.run, anyResult, Option.bind_eq_bind, Option.bind_some, ran]
    · refine ⟨1, by omega, ?_⟩
      intro results counted
      obtain ⟨result, rfl⟩ := List.length_eq_one_iff.mp counted
      refine ⟨next, first ++ [], ?_, left⟩
      simp only [Decoding.run, anyResult, Option.bind_eq_bind, Option.bind_some]

/-! ## Any calls -/

theorem Kept.bounded (kept : Kept edits d) : Bounded parse edits d where
  suffix returned := kept.joined (by rw [returned]; exact RecvPhase.noConfusion)
  waits := kept.waits
  small returned := by
    have limit : maxBodyLen = 16 * 1024 * 1024 := rfl
    rcases kept.waits returned with short | ⟨_, legal, partly⟩
    · omega
    · omega
  capped := kept.capped
  sum word _ legal := sum_toNat legal
  shrinks result after edits' extracting stepped := by
    obtain ⟨next, first, same, progress⟩ := extracting_step extracting result
    rw [same] at stepped
    cases stepped
    exact progress
  leaves := extracting_leaves

/-- Any calls on a fresh session, until one returns `nullopt`: nothing undefined happens, and
the bounds hold after every step. -/
theorem residual_buffer (parse : Bytes → Parsed) (results : List RecvResult) :
    ∃ d edits, Decoding.run parse results {} = some (d, edits) ∧ Bounded parse edits d := by
  have fresh : Kept [] {} := by
    constructor
    · intro _
      rfl
    · intro _
      exact Or.inl (by decide)
    · exact Nat.zero_le _
  obtain ⟨d, edits, ran, kept⟩ := @run_kept parse [] {} fresh results
  exact ⟨d, edits, ran, kept.bounded⟩

/-! ## The calls of recvMsgs -/

/-- Where a session is after a call. -/
def outcome (call : Except Exn (Option (List Json)) × ClientSession) : Decoding where
  phase :=
    match call.1 with
    | .ok (some _) => .returned
    | .ok none => .discarded
    | .error _ => .thrown
  recvBuf := call.2.recvBuf
  failures := call.2.consecutiveParseFailures

/-- The steps lead from one state to the other, with some results of `::recv`. -/
def Leads (parse : Bytes → Parsed) (d after : Decoding) : Prop :=
  ∃ results edits, Decoding.run parse results d = some (after, edits)

theorem Leads.refl (d : Decoding) : Leads parse d d := ⟨[], [], rfl⟩

theorem Leads.head {d next after : Decoding} (result : RecvResult) {edits : List Edit}
    (stepped : d.step parse result = some (next, edits)) (later : Leads parse next after) :
    Leads parse d after := by
  obtain ⟨results, more, ran⟩ := later
  refine ⟨result :: results, edits ++ more, ?_⟩
  simp only [Decoding.run, stepped, Option.bind_eq_bind, Option.bind_some, ran]

theorem Leads.trans {d next after : Decoding} (first : Leads parse d next)
    (later : Leads parse next after) : Leads parse d after := by
  obtain ⟨results, edits, ran⟩ := first
  induction results generalizing d edits with
  | nil =>
    cases ran
    exact later
  | cons result rest ih =>
    simp only [Decoding.run, Option.bind_eq_bind, Option.bind_eq_some_iff] at ran
    obtain ⟨stepped, one, ⟨last, more⟩, others, same⟩ := ran
    cases same
    exact Leads.head result one (ih _ others)

/-- Where a call goes on after its receive loop. -/
def receivedPhase : Received → RecvPhase
  | .drained => .extracting false []
  | .peerClosed => .extracting true []
  | .failed => .discarded

theorem receive_leads (results : List RecvResult) (buf : Bytes) (failures : UInt32) :
    Leads parse ⟨.receiving, buf, failures⟩
      ⟨receivedPhase (receive buf results).2, (receive buf results).1, failures⟩ := by
  induction results generalizing buf with
  | nil =>
    unfold receive
    split
    next full => exact Leads.head .again (congrArg some (if_pos full)) (Leads.refl _)
    next room =>
      exact Leads.head .again (congrArg some (if_neg room)) (Leads.refl _)
  | cons result rest ih =>
    unfold receive
    split
    next full => exact Leads.head result (congrArg some (if_pos full)) (Leads.refl _)
    next room =>
      have stepped : Decoding.step parse result ⟨.receiving, buf, failures⟩ = some _ :=
        congrArg some (if_neg room)
      cases result with
      | data chunk => exact Leads.head _ stepped (ih (buf ++ chunk.bytes))
      | closed => exact Leads.head _ stepped (Leads.refl _)
      | again => exact Leads.head _ stepped (Leads.refl _)
      | error => exact Leads.head _ stepped (Leads.refl _)

/-- The receive loop ended with the stream. -/
def closedBy : Received → Bool
  | .peerClosed => true
  | _ => false

theorem outcome_endCall (session : ClientSession) (received : Received) (messages : List Json)
    (buf : Bytes) (failures : UInt32) (phase : RecvPhase) :
    outcome (endCall session received ⟨.ok (some messages), buf, failures⟩) =
      (finish (closedBy received) messages ⟨phase, buf, failures⟩).1 := by
  cases received with
  | peerClosed =>
    cases messages with
    | nil => rfl
    | cons message rest => rfl
  | drained => rfl
  | failed => rfl

theorem outcome_none (session : ClientSession) (received : Received) (buf : Bytes)
    (failures : UInt32) :
    outcome (endCall session received ⟨.ok none, buf, failures⟩) = ⟨.discarded, buf, failures⟩ := by
  cases received with
  | peerClosed => rfl
  | drained => rfl
  | failed => rfl

theorem outcome_error (session : ClientSession) (received : Received) (error : Exn) (buf : Bytes)
    (failures : UInt32) :
    outcome (endCall session received ⟨.error error, buf, failures⟩) = ⟨.thrown, buf, failures⟩ := by
  cases received with
  | peerClosed => rfl
  | drained => rfl
  | failed => rfl

/-- The rounds of the extraction loop. The induction is on the fuel, as in `extract`. -/
theorem extract_leads (session : ClientSession) (received : Received) (fuel : Nat) (buf : Bytes)
    (failures : UInt32) (messages : List Json) (enough : buf.length ≤ fuel) :
    Leads parse ⟨.extracting (closedBy received) messages, buf, failures⟩
      (outcome (endCall session received (extract parse fuel buf failures messages))) := by
  have stepped := @extractOne_eq parse (closedBy received) messages
    ⟨.extracting (closedBy received) messages, buf, failures⟩
  induction fuel generalizing buf failures messages with
  | zero =>
    cases List.eq_nil_of_length_eq_zero (Nat.le_zero.mp enough)
    rw [extract, outcome_endCall]
    exact Leads.head .again stepped (Leads.refl _)
  | succ fuel ih =>
    rw [extract_succ]
    cases verdict : split maxBodyLen buf with
    | wait =>
      simp only [verdict] at stepped
      rw [outcome_endCall]
      exact Leads.head .again stepped (Leads.refl _)
    | illegal =>
      simp only [verdict] at stepped
      rw [outcome_none]
      exact Leads.head .again stepped (Leads.refl _)
    | body body =>
      have inside := split_body_le verdict
      have shorter : (buf.drop (4 + body.length)).length ≤ fuel := by
        rw [List.length_drop]
        omega
      cases parsed : parse body with
      | value json =>
        simp only [verdict, cut, parsed] at stepped ⊢
        exact Leads.head .again stepped (ih _ _ _ shorter (extractOne_eq _ _ _))
      | parseError =>
        by_cases third : failures + 1 ≥ 3
        · simp only [verdict, cut, parsed, if_pos third] at stepped ⊢
          rw [outcome_none]
          exact Leads.head .again stepped (Leads.refl _)
        · simp only [verdict, cut, parsed, if_neg third] at stepped ⊢
          exact Leads.head .again stepped (ih _ _ _ shorter (extractOne_eq _ _ _))
      | outOfRange =>
        simp only [verdict, cut, parsed] at stepped ⊢
        rw [outcome_error]
        exact Leads.head .again stepped (Leads.refl _)

/-- The rounds of a call, from a session that is between two calls, end where `recvMsgs` does. -/
theorem recvMsgs_leads (session : ClientSession) (results : List RecvResult) {phase : RecvPhase}
    (idle : phase = .returned ∨ phase = .thrown) :
    Leads parse ⟨phase, session.recvBuf, session.consecutiveParseFailures⟩
      (outcome (recvMsgs parse session results)) := by
  have received := @receive_leads parse results session.recvBuf
    session.consecutiveParseFailures
  have called : Leads parse ⟨phase, session.recvBuf, session.consecutiveParseFailures⟩
      ⟨.receiving, session.recvBuf, session.consecutiveParseFailures⟩ := by
    rcases idle with rfl | rfl
    · exact Leads.head .again rfl (Leads.refl _)
    · exact Leads.head .again rfl (Leads.refl _)
  apply called.trans
  unfold recvMsgs
  cases ended : receive session.recvBuf results with
  | mk buf ending =>
    rw [ended] at received
    apply received.trans
    cases ending with
    | drained => exact extract_leads session .drained _ _ _ _ (Nat.le_refl _)
    | peerClosed => exact extract_leads session .peerClosed _ _ _ _ (Nat.le_refl _)
    | failed => exact Leads.refl _

end LinuxChat.Guarantees.ResidualBuffer
