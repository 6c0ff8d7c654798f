import LinuxChat.Guarantees.Violations.Calls

/-!
# The first violation of a stream

The call whose batch holds the first fatal octet is the one that returns nullopt, however the
stream is cut; the messages decoded earlier in the same call are lost with it.
-/

namespace LinuxChat.Guarantees.Violations

open LinuxChat.Lib LinuxChat.Source

variable {parse : Bytes → Parsed}

/-! ## The drop decision -/

/-- However the stream is cut into batches: the call that receives the first fatal octet returns
nullopt and all before it return lists; without a fatal octet every call returns a list. -/
theorem dropped_at_first_violation (parse : Bytes → Parsed) (reported : Reported parse)
    (batches : List (List Chunk)) (fits : Fits parse {} batches) :
    (∀ n, FirstViolation parse (bytes batches) n → ∃ lists : List (List Json),
      lists.length < batches.length ∧
      serve parse {} (batches.map script) =
        lists.map (fun list => .ok (some list)) ++ [.ok none] ∧
      (bytes (batches.take lists.length)).length < n ∧
      n ≤ (bytes (batches.take (lists.length + 1))).length) ∧
    ((∀ n, ¬ FatalOctet parse 0 (bytes batches) n) → ∃ lists : List (List Json),
      lists.length = batches.length ∧
      serve parse {} (batches.map script) = lists.map (fun list => .ok (some list))) := by
  constructor
  · intro n first
    obtain ⟨lists, count, calls, low, high, _⟩ :=
      serve_violation reported batches waiting_fresh fits first
    exact ⟨lists, count, calls, low, high⟩
  · intro quiet
    obtain ⟨lists, calls, count, _⟩ := serve_quiet reported batches waiting_fresh fits quiet
    exact ⟨lists, count, calls⟩

/-- The body `1` is a number, nothing else is JSON. -/
def onesParse (body : Bytes) : Parsed :=
  if body = [49] then .value (.number 1) else .parseError

theorem onesParse_reported : Reported onesParse := by
  intro body
  unfold onesParse
  split <;> exact Parsed.noConfusion

/-- A frame with a body of one octet. -/
def oneFrame : Chunk := ⟨[0, 0, 0, 1, 49], by decide, by decide⟩

/-- A header with length zero. -/
def zeroHeader : Chunk := ⟨[0, 0, 0, 0], by decide, by decide⟩

theorem zeroHeader_first : FirstViolation onesParse (bytes [[oneFrame], [zeroHeader]]) 9 := by
  have front : split maxBodyLen (bytes [[oneFrame], [zeroHeader]]) = .body [49] := by decide
  have back : split maxBodyLen [0, 0, 0, 0] = .illegal := by decide
  have moved := fun m => @fatal_of_body onesParse 0 m _ _ (by decide) front
  refine ⟨(moved 9).mpr ⟨4, rfl, fatal_of_illegal back⟩, fun m fatal => ?_⟩
  obtain ⟨k, rfl, later⟩ := (moved m).mp fatal
  by_contra early
  have short : k ≤ 3 := by
    simp only [List.length_cons, List.length_nil] at early
    omega
  have inside : FatalOctet onesParse 0 ([0, 0, 0] ++ [0]) k := later
  rw [fatal_append_iff (by simpa using short)] at inside
  exact not_fatal_of_wait (by decide) (by decide) inside

/-- One frame, then a bare zero header in the next batch. -/
theorem dropped_at_first_violation_zero : ∃ lists : List (List Json), lists.length < 2 ∧
    serve onesParse {} ([[oneFrame], [zeroHeader]].map script) =
      lists.map (fun list => .ok (some list)) ++ [.ok none] ∧
    (bytes ([[oneFrame], [zeroHeader]].take lists.length)).length < 9 ∧
    9 ≤ (bytes ([[oneFrame], [zeroHeader]].take (lists.length + 1))).length := by
  have fits : Fits onesParse {} [[oneFrame], [zeroHeader]] :=
    ⟨by decide, fun _ _ => ⟨by decide, fun _ _ => trivial⟩⟩
  exact (dropped_at_first_violation onesParse onesParse_reported _ fits).1 9 zeroHeader_first

/-! ## The messages before the violation -/

/-- The `::recv` scripts of the batches; with the last one the peer may close. -/
def closing (fin : Bool) : List (List Chunk) → List (List RecvResult)
  | [] => []
  | [last] => [last.map .data ++ [if fin then .closed else .again]]
  | batch :: next :: later => script batch :: closing fin (next :: later)

/-- What `handle_client_event` is handed. -/
def handed (returned : List (Except Exn (Option (List Json)))) : List Json :=
  returned.flatMap fun
    | .ok (some msgs) => msgs
    | _ => []

/-- `n` octets precede the first violation, or there is none and `n` is the whole stream. -/
def Extent (parse : Bytes → Parsed) (stream : Bytes) (n : Nat) : Prop :=
  FirstViolation parse stream n ∨ (∀ m, ¬ FatalOctet parse 0 stream m) ∧ n = stream.length

/-- No parsable frame before the violation ends in the batch that holds the violation. -/
def Spread (parse : Bytes → Parsed) (batches : List (List Chunk)) (n : Nat) : Prop :=
  FirstViolation parse (bytes batches) n → ∀ i, (bytes (batches.take i)).length < n →
    n ≤ (bytes (batches.take (i + 1))).length →
      ∀ bodies body, (bodies ++ [body]) <+: wholeBodies ((bytes batches).take n) →
        parsable parse body = true →
          ((bodies ++ [body]).flatMap frame).length ≤ (bytes (batches.take i)).length

theorem handed_lists (lists : List (List Json)) (rest : List (Except Exn (Option (List Json)))) :
    handed (lists.map (fun list => .ok (some list)) ++ rest) = lists.flatten ++ handed rest := by
  induction lists with
  | nil => rfl
  | cons list lists ih =>
    rw [List.map_cons, List.cons_append, handed, List.flatMap_cons, List.flatten_cons,
      List.append_assoc]
    exact congrArg _ ih

theorem receive_closing (batch : List Chunk) (buf : Bytes)
    (room : buf.length + (batchBytes batch).length < maxRecvBufSize) :
    receive buf (batch.map .data ++ [.closed]) = (buf ++ batchBytes batch, .peerClosed) := by
  induction batch generalizing buf with
  | nil =>
    have free : ¬ buf.length ≥ maxRecvBufSize := by omega
    rw [List.map_nil, List.nil_append]
    unfold receive
    rw [if_neg free]
    simp [batchBytes]
  | cons chunk rest ih =>
    have size : (batchBytes (chunk :: rest)).length =
        chunk.bytes.length + (batchBytes rest).length := by
      simp [batchBytes]
    have free : ¬ buf.length ≥ maxRecvBufSize := by omega
    have joined : batchBytes (chunk :: rest) = chunk.bytes ++ batchBytes rest := by
      simp [batchBytes]
    rw [List.map_cons, List.cons_append]
    unfold receive
    rw [if_neg free]
    dsimp only
    rw [ih (buf ++ chunk.bytes) (by rw [List.length_append]; omega), joined, List.append_assoc]

/-- A FIN in the same call as the last octets changes nothing of what is handed over. -/
theorem handed_closed (session : ClientSession) (batch : List Chunk)
    (room : (session.recvBuf ++ batchBytes batch).length < maxRecvBufSize) :
    handed (serve parse session [batch.map .data ++ [.closed]]) =
      handed (serve parse session [script batch]) := by
  rw [List.length_append] at room
  have drained := @recvMsgs_eq parse session (script batch) (script_intact batch _ room)
  rw [arrived_script, receive_script batch _ room] at drained
  have closed : recvMsgs parse session (batch.map .data ++ [.closed]) =
      endCall session .peerClosed (extract parse (session.recvBuf ++ batchBytes batch).length
        (session.recvBuf ++ batchBytes batch) session.consecutiveParseFailures []) := by
    unfold recvMsgs
    rw [receive_closing batch _ room]
    rfl
  unfold serve
  rw [drained, closed]
  unfold endCall
  generalize extract parse (session.recvBuf ++ batchBytes batch).length
    (session.recvBuf ++ batchBytes batch) session.consecutiveParseFailures [] = out
  obtain ⟨result, buf, failures⟩ := out
  cases result with
  | error e => rfl
  | ok returned =>
    cases returned with
    | none => rfl
    | some msgs =>
      cases msgs with
      | nil => rfl
      | cons msg rest => rfl

theorem handed_closing (fin : Bool) (batches : List (List Chunk)) {session : ClientSession}
    (fits : Fits parse session batches) :
    handed (serve parse session (closing fin batches)) =
      handed (serve parse session (batches.map script)) := by
  cases fin with
  | false =>
    have same : ∀ batches, closing false batches = batches.map script := by
      intro batches
      induction batches with
      | nil => rfl
      | cons batch later ih =>
        cases later with
        | nil => rfl
        | cons next later => rw [closing, ih, List.map_cons, List.map_cons, List.map_cons]
    rw [same]
  | true =>
    induction batches generalizing session with
    | nil => rfl
    | cons batch later ih =>
      cases later with
      | nil => exact handed_closed session batch (fits_room fits)
      | cons next later =>
        rw [closing, List.map_cons, serve, serve]
        cases returned : (recvMsgs parse session (script batch)).1 with
        | error e => rfl
        | ok value =>
          cases value with
          | none => rfl
          | some msgs =>
            dsimp only
            have rest := ih (fits.2 msgs returned)
            unfold handed at rest ⊢
            rw [List.flatMap_cons, List.flatMap_cons, rest]

theorem filterMap_eq_nil_of_unparsable {bodies : List Bytes} :
    (bodies.filterMap fun body => value? (parse body)) = [] ↔
      ∀ body ∈ bodies, parsable parse body ≠ true := by
  rw [List.filterMap_eq_nil_iff]
  refine forall_congr' fun body => imp_congr_right fun _ => ?_
  unfold parsable
  cases value? (parse body) <;> simp

theorem exists_tail (stream : Bytes) :
    ∃ tail, Framed maxBodyLen stream (wholeBodies stream) tail := by
  obtain ⟨bodies, tail, framed⟩ := exists_framed maxBodyLen stream
  have same : wholeBodies stream = bodies := by
    rw [wholeBodies, run_of_framed (by decide) framed, framesEnd]
    split <;> rfl
  rw [same]
  exact ⟨tail, framed⟩

/-- Octets that end inside a frame do not hold the next one. -/
theorem rest_shorter {rest more : Bytes} {first : Bytes} {later : List Bytes}
    (waits : split maxBodyLen rest = .wait) (next : wholeBodies (rest ++ more) = first :: later) :
    rest.length < (frame first).length := by
  obtain ⟨tail, framed⟩ := exists_tail (rest ++ more)
  rw [next] at framed
  have joined := framed.joined
  rw [List.flatMap_cons, List.append_assoc] at joined
  by_contra long
  have fits : (frame first).length ≤ rest.length := by omega
  have head : frame first = rest.take (frame first).length := by
    have taken := congrArg (List.take (frame first).length) joined
    rw [List.take_append_of_le_length fits, List.take_left] at taken
    exact taken.symm
  have whole : rest = frame first ++ rest.drop (frame first).length := by
    calc
      rest = rest.take (frame first).length ++ rest.drop (frame first).length :=
        (List.take_append_drop _ _).symm
      _ = frame first ++ rest.drop (frame first).length := by rw [← head]
  rw [whole, split_of_legal (framed.legal first List.mem_cons_self)] at waits
  cases waits

/-- Behind octets that end inside a frame, the messages of the longer stream are the
same exactly when no parsable frame ends there. -/
theorem messages_eq_iff {before rest more : Bytes} {bodies : List Bytes}
    (cut : (frames maxBodyLen).run () before = .idle bodies () rest) :
    messagesIn parse before = messagesIn parse (before ++ more) ↔
      ∀ earlier body, (earlier ++ [body]) <+: wholeBodies (before ++ more) →
        parsable parse body = true → ((earlier ++ [body]).flatMap frame).length ≤ before.length := by
  have joined := joined_of_idle cut
  have front : wholeBodies before = bodies := by
    rw [wholeBodies, cut]
    rfl
  have whole := wholeBodies_append cut more
  have size : before.length = (bodies.flatMap frame).length + rest.length := by
    rw [joined, List.length_append]
  have waits : split maxBodyLen rest = .wait := by
    have idle := Decoder.scan_of_run_idle cut
    cases hs : split maxBodyLen rest with
    | wait => rfl
    | illegal => simp [frames, hs] at idle
    | body body => simp [frames, hs] at idle
  have nothing : messagesIn parse before = messagesIn parse (before ++ more) ↔
      ∀ body ∈ wholeBodies (rest ++ more), parsable parse body ≠ true := by
    unfold messagesIn
    rw [whole, front, List.filterMap_append, ← filterMap_eq_nil_of_unparsable]
    exact List.self_eq_append_right
  have inFront : ∀ earlier body, (earlier ++ [body]) <+: bodies →
      ((earlier ++ [body]).flatMap frame).length ≤ before.length := by
    rintro earlier body ⟨others, rfl⟩
    have longer : (((earlier ++ [body]) ++ others).flatMap frame).length =
        ((earlier ++ [body]).flatMap frame).length + (others.flatMap frame).length :=
      (congrArg List.length List.flatMap_append).trans List.length_append
    omega
  rw [nothing, whole]
  constructor
  · intro unparsable earlier body inside parses
    have ordered := List.prefix_or_prefix_of_prefix inside
      (List.prefix_append bodies (wholeBodies (rest ++ more)))
    rcases ordered with within | ⟨others, same⟩
    · exact inFront earlier body within
    · rcases List.eq_nil_or_concat others with rfl | ⟨others', last, rfl⟩
      · rw [List.append_nil] at same
        exact inFront earlier body ⟨[], by rw [List.append_nil, same]⟩
      · rw [List.concat_eq_append, ← List.append_assoc] at same
        obtain ⟨rfl, lasts⟩ := List.append_inj' same rfl
        obtain rfl : last = body := (List.cons.inj lasts).1
        rw [List.append_assoc, List.prefix_append_right_inj] at inside
        have member := inside.subset (List.mem_append_right others' List.mem_cons_self)
        exact absurd parses (unparsable last member)
  · intro early body member parses
    obtain ⟨front', back, split'⟩ := List.append_of_mem member
    have inside : (bodies ++ front') ++ [body] <+: bodies ++ wholeBodies (rest ++ more) := by
      refine ⟨back, ?_⟩
      rw [split', List.append_assoc, List.append_assoc]
      rfl
    have bound := early (bodies ++ front') body inside parses
    rw [List.append_assoc, List.flatMap_append, List.length_append, size] at bound
    cases front' with
    | nil =>
      have longer := rest_shorter waits split'
      simp only [List.nil_append, List.flatMap_cons, List.flatMap_nil, List.append_nil] at bound
      omega
    | cons first front' =>
      have longer := rest_shorter waits split'
      rw [List.cons_append, List.flatMap_cons, List.length_append] at bound
      omega

theorem received_mono (batches : List (List Chunk)) {i j : Nat} (ordered : i ≤ j) :
    (bytes (batches.take i)).length ≤ (bytes (batches.take j)).length := by
  have inner : batches.take i = (batches.take j).take i := by
    rw [List.take_take, Nat.min_eq_left ordered]
  have joined : bytes (batches.take j) =
      bytes ((batches.take j).take i) ++ bytes ((batches.take j).drop i) := by
    unfold bytes
    rw [← List.flatten_append, ← List.map_append, List.take_append_drop]
  rw [inner, joined, List.length_append]
  omega

/-- The messages handed over, against the messages before the violation. -/
theorem handed_iff (reported : Reported parse) (batches : List (List Chunk)) (fin : Bool) {n : Nat}
    (fits : Fits parse {} batches) (extent : Extent parse (bytes batches) n) :
    handed (serve parse {} (closing fin batches)) = messagesIn parse ((bytes batches).take n) ↔
      Spread parse batches n := by
  rw [handed_closing fin batches fits]
  rcases extent with first | ⟨quiet, rfl⟩
  · obtain ⟨lists, count, calls, low, high, session, waits⟩ :=
      serve_violation reported batches waiting_fresh fits first
    have inside := fatal_le_length first.1
    simp only [List.nil_append] at low high waits
    obtain ⟨bodies, cut, _⟩ := frames_of_idle waits.decoded
    have said : handed (serve parse {} (batches.map script)) =
        messagesIn parse (bytes (batches.take lists.length)) := by
      rw [calls, handed_lists, ← messagesIn_of_idle waits.decoded]
      exact List.append_nil _
    have parted : (bytes batches).take n = bytes (batches.take lists.length) ++
        (bytes (batches.drop lists.length)).take (n - (bytes (batches.take lists.length)).length) := by
      have joined : bytes batches =
          bytes (batches.take lists.length) ++ bytes (batches.drop lists.length) := by
        unfold bytes
        rw [← List.flatten_append, ← List.map_append, List.take_append_drop]
      conv_lhs => rw [joined]
      rw [List.take_append, List.take_of_length_le (by omega)]
    rw [said, parted, messages_eq_iff cut, ← parted]
    constructor
    · intro early _ i low' high' earlier body within parses
      have same : i = lists.length := by
        rcases Nat.lt_trichotomy i lists.length with less | equal | more
        · have ordered := received_mono batches (show i + 1 ≤ lists.length from less)
          omega
        · exact equal
        · have ordered := received_mono batches (show lists.length + 1 ≤ i from more)
          omega
      subst same
      exact early earlier body within parses
    · intro spread
      exact spread first lists.length low high
  · obtain ⟨lists, calls, _, joined⟩ := serve_quiet reported batches waiting_fresh fits quiet
    rw [List.nil_append, List.nil_append] at joined
    have said := handed_lists lists []
    rw [List.append_nil] at said
    rw [calls, said, joined, List.take_length]
    constructor
    · intro _ first
      exact absurd first.1 (quiet _)
    · intro _
      exact List.append_nil _

/-- Two ways of cutting one stream: both hand over every message before the violation
exactly when neither cuts a parsable frame's end into the batch of the violation. -/
theorem messages_survive_iff (parse : Bytes → Parsed) (reported : Reported parse)
    (stream : Bytes) (n : Nat) (extent : Extent parse stream n)
    (batches batches' : List (List Chunk)) (fin fin' : Bool) (cut : bytes batches = stream)
    (cut' : bytes batches' = stream) (fits : Fits parse {} batches)
    (fits' : Fits parse {} batches') :
    (handed (serve parse {} (closing fin batches)) = messagesIn parse (stream.take n) ∧
      handed (serve parse {} (closing fin' batches')) =
        handed (serve parse {} (closing fin batches))) ↔
      Spread parse batches n ∧ Spread parse batches' n := by
  have first := handed_iff reported batches fin fits (cut ▸ extent)
  have second := handed_iff reported batches' fin' fits' (cut' ▸ extent)
  rw [cut] at first
  rw [cut'] at second
  constructor
  · rintro ⟨all, same⟩
    exact ⟨first.mp all, second.mp (same.trans all)⟩
  · rintro ⟨spread, spread'⟩
    exact ⟨first.mpr spread, (second.mpr spread').trans (first.mpr spread).symm⟩

theorem oneFrame_spread : Spread onesParse [[oneFrame], [zeroHeader]] 9 := by
  intro _ i low high earlier body inside _
  have front : (frames maxBodyLen).scan () [0, 0, 0, 1, 49, 0, 0, 0, 0] = .item [[49]] () 5 := by
    rfl
  have back : (frames maxBodyLen).scan () [0, 0, 0, 0] = .stop () := by
    rfl
  have whole : wholeBodies [0, 0, 0, 1, 49, 0, 0, 0, 0] = [[49]] := by
    have rest := Decoder.run_stop back
    rw [wholeBodies, Decoder.run_item front]
    exact congrArg (fun d : Decoded UInt8 Unit Bytes Unit => (d.prepend [[49]]).outputs) rest
  have one : i = 1 := by
    cases i with
    | zero => exact absurd high (by decide)
    | succ i =>
      cases i with
      | zero => rfl
      | succ i => exact absurd low (by simp [bytes, batchBytes, oneFrame, zeroHeader])
  subst one
  have within : earlier ++ [body] <+: [[49]] := whole ▸ inside
  obtain ⟨rfl, rfl⟩ : earlier = [] ∧ body = [49] := by
    cases earlier with
    | nil => exact ⟨rfl, by simpa using within⟩
    | cons other earlier =>
      have size := within.length_le
      simp at size
  decide

/-- The frame in a batch of its own is handed over, twice the same. -/
theorem messages_survive_iff_apart :
    handed (serve onesParse {} (closing false [[oneFrame], [zeroHeader]])) =
      messagesIn onesParse ((bytes [[oneFrame], [zeroHeader]]).take 9) ∧
    handed (serve onesParse {} (closing true [[oneFrame], [zeroHeader]])) =
      handed (serve onesParse {} (closing false [[oneFrame], [zeroHeader]])) := by
  have fits : Fits onesParse {} [[oneFrame], [zeroHeader]] :=
    ⟨by decide, fun _ _ => ⟨by decide, fun _ _ => trivial⟩⟩
  exact (messages_survive_iff onesParse onesParse_reported _ 9 (Or.inl zeroHeader_first) _ _ false
    true rfl rfl fits fits).mpr ⟨oneFrame_spread, oneFrame_spread⟩

/-- Both in one chunk. -/
def bothChunk : Chunk := ⟨[0, 0, 0, 1, 49, 0, 0, 0, 0], by decide, by decide⟩

/-- One frame and a zero header, in one batch and in two. -/
theorem message_lost_with_violation :
    ¬ ∀ (parse : Bytes → Parsed) (batches batches' : List (List Chunk)), Reported parse →
      Fits parse {} batches → Fits parse {} batches' → bytes batches = bytes batches' →
        handed (serve parse {} (closing false batches)) =
          handed (serve parse {} (closing false batches')) := by
  intro always
  have fits : Fits onesParse {} [[oneFrame], [zeroHeader]] :=
    ⟨by decide, fun _ _ => ⟨by decide, fun _ _ => trivial⟩⟩
  have fits' : Fits onesParse {} [[bothChunk]] := ⟨by decide, fun _ _ => trivial⟩
  have same := congrArg List.length (always onesParse _ _ onesParse_reported fits fits' rfl)
  revert same
  decide

end LinuxChat.Guarantees.Violations
