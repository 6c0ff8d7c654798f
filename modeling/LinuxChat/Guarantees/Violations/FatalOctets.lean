import LinuxChat.Guarantees.ParserFailures

/-!
# Fatal octets

Which octet of a stream makes `recv_msgs` give the connection up
(server/src/protocol.cpp:126-179): defined on the whole stream, for a parser that reports every
body it refuses as a `parse_error`. Cutting the stream anywhere before that octet moves nothing,
and the decoder stops exactly when the octet has arrived.
-/

namespace LinuxChat.Guarantees.Violations

open LinuxChat.Lib LinuxChat.Source

variable {parse : Bytes → Parsed}

/-- Every body the parser refuses is reported as a `parse_error`. -/
def Reported (parse : Bytes → Parsed) : Prop :=
  ∀ body, parse body ≠ .outOfRange

/-- The value, where the body parses. -/
def value? : Parsed → Option Json
  | .value json => some json
  | _ => none

/-- The body parses. -/
def parsable (parse : Bytes → Parsed) (body : Bytes) : Bool :=
  (value? (parse body)).isSome

/-- How many unparsable bodies in a row the bodies end with, `row` of them before the
first. -/
def refusals (parse : Bytes → Parsed) (row : Nat) (bodies : List Bytes) : Nat :=
  bodies.foldl (fun row body => if parsable parse body then 0 else row + 1) row

/-- The octets up to the `n`-th end in the header of a frame whose length is 0 or above
the limit, or in a body that is the third unparsable one in a row. -/
def FatalOctet (parse : Bytes → Parsed) (row : Nat) (stream : Bytes) (n : Nat) : Prop :=
  ∃ bodies rest, stream = bodies.flatMap frame ++ rest ∧ (∀ body ∈ bodies, Legal body) ∧
    ((IllegalHeader maxBodyLen rest ∧ n = (bodies.flatMap frame).length + 4) ∨
      (refusals parse row bodies = 3 ∧ n = (bodies.flatMap frame).length))

/-- The earliest fatal octet of a stream on a fresh session. -/
def FirstViolation (parse : Bytes → Parsed) (stream : Bytes) (n : Nat) : Prop :=
  FatalOctet parse 0 stream n ∧ ∀ m, FatalOctet parse 0 stream m → n ≤ m

theorem illegalHeader_append {limit : Nat} {tail : Bytes} (illegal : IllegalHeader limit tail)
    (more : Bytes) : IllegalHeader limit (tail ++ more) := by
  obtain ⟨long, outside⟩ := illegal
  constructor
  · rw [List.length_append]
    omega
  · rw [List.take_append_of_le_length long]
    exact outside

theorem illegalHeader_of_append {limit : Nat} {tail more : Bytes} (long : 4 ≤ tail.length)
    (illegal : IllegalHeader limit (tail ++ more)) : IllegalHeader limit tail := by
  refine ⟨long, ?_⟩
  have same : (tail ++ more).take 4 = tail.take 4 := List.take_append_of_le_length long
  rw [← same]
  exact illegal.2

/-- Whether an octet is fatal depends on nothing behind it. -/
theorem fatal_append_iff {row n : Nat} {stream : Bytes} (inside : n ≤ stream.length)
    (more : Bytes) :
    FatalOctet parse row (stream ++ more) n ↔ FatalOctet parse row stream n := by
  constructor
  · rintro ⟨bodies, rest, joined, legal, ends⟩
    have fits : (bodies.flatMap frame).length ≤ stream.length := by
      rcases ends with ⟨_, rfl⟩ | ⟨_, rfl⟩ <;> omega
    have head : bodies.flatMap frame = stream.take (bodies.flatMap frame).length := by
      have taken := congrArg (List.take (bodies.flatMap frame).length) joined
      rw [List.take_append_of_le_length fits, List.take_left] at taken
      exact taken.symm
    have whole : stream = bodies.flatMap frame ++ stream.drop (bodies.flatMap frame).length := by
      calc
        stream = stream.take (bodies.flatMap frame).length ++
            stream.drop (bodies.flatMap frame).length := (List.take_append_drop _ _).symm
        _ = bodies.flatMap frame ++ stream.drop (bodies.flatMap frame).length := by rw [← head]
    refine ⟨bodies, _, whole, legal, ends.imp ?_ id⟩
    rintro ⟨illegal, rfl⟩
    refine ⟨@illegalHeader_of_append _ _ more ?_ ?_, rfl⟩
    · rw [List.length_drop]
      omega
    · have tail : rest = stream.drop (bodies.flatMap frame).length ++ more := by
        have dropped := congrArg (List.drop (bodies.flatMap frame).length) joined
        rw [List.drop_append_of_le_length fits, List.drop_left] at dropped
        exact dropped.symm
      rw [← tail]
      exact illegal
  · rintro ⟨bodies, rest, rfl, legal, ends⟩
    refine ⟨bodies, rest ++ more, List.append_assoc _ _ _, legal, ends.imp ?_ id⟩
    exact fun header => ⟨illegalHeader_append header.1 more, header.2⟩

theorem fatal_le_length {row n : Nat} {stream : Bytes} (fatal : FatalOctet parse row stream n) :
    n ≤ stream.length := by
  obtain ⟨bodies, rest, rfl, _, ⟨header, rfl⟩ | ⟨_, rfl⟩⟩ := fatal
  · have long := header.1
    rw [List.length_append]
    omega
  · rw [List.length_append]
    omega

/-- The row after one more body. -/
def nextRow (parse : Bytes → Parsed) (row : Nat) (body : Bytes) : Nat :=
  if parsable parse body then 0 else row + 1

/-- A complete frame at the front moves every fatal octet behind it. -/
theorem fatal_of_body {row n : Nat} {stream body : Bytes} (early : row ≠ 3)
    (hs : split maxBodyLen stream = .body body) :
    FatalOctet parse row stream n ↔
      ∃ m, n = 4 + body.length + m ∧
        FatalOctet parse (nextRow parse row body) (stream.drop (4 + body.length)) m := by
  obtain ⟨whole, nonempty, bounded⟩ := split_body hs
  constructor
  · rintro ⟨bodies, rest, joined, legal, ends⟩
    cases bodies with
    | nil =>
      rcases ends with ⟨header, _⟩ | ⟨third, _⟩
      · have same : stream = rest := joined
        rw [← same, ← split_illegal_iff, hs] at header
        cases header
      · exact absurd third early
    | cons first later =>
      have shape : stream = frame first ++ (later.flatMap frame ++ rest) := by
        rw [joined, List.flatMap_cons, List.append_assoc]
      have same : Split.body body = .body first := by
        rw [← hs, shape]
        exact split_of_legal (legal first List.mem_cons_self) _
      cases same
      have tail : stream.drop (4 + body.length) = later.flatMap frame ++ rest := by
        rw [shape]
        exact List.drop_left' (frame_length body)
      have size : ((body :: later).flatMap frame).length =
          4 + body.length + (later.flatMap frame).length := by
        rw [List.flatMap_cons, List.length_append, frame_length]
      have legal' : ∀ b ∈ later, Legal b := fun b h => legal b (List.mem_cons_of_mem body h)
      rcases ends with ⟨header, rfl⟩ | ⟨third, rfl⟩
      · refine ⟨(later.flatMap frame).length + 4, by omega, later, rest, tail, legal', ?_⟩
        exact Or.inl ⟨header, rfl⟩
      · refine ⟨(later.flatMap frame).length, size, later, rest, tail, legal', ?_⟩
        exact Or.inr ⟨third, rfl⟩
  · rintro ⟨m, rfl, bodies, rest, tail, legal, ends⟩
    have size : ((body :: bodies).flatMap frame).length =
        4 + body.length + (bodies.flatMap frame).length := by
      rw [List.flatMap_cons, List.length_append, frame_length]
    refine ⟨body :: bodies, rest, ?_, ?_, ?_⟩
    · rw [List.flatMap_cons, List.append_assoc, ← tail]
      exact whole
    · exact List.forall_mem_cons.mpr ⟨⟨nonempty, bounded⟩, legal⟩
    · rcases ends with ⟨header, rfl⟩ | ⟨third, rfl⟩
      · exact Or.inl ⟨header, by omega⟩
      · exact Or.inr ⟨third, by omega⟩

/-- Before a complete frame or a bad header there is no fatal octet. -/
theorem not_fatal_of_wait {row n : Nat} {stream : Bytes} (early : row ≠ 3)
    (hs : split maxBodyLen stream = .wait) : ¬ FatalOctet parse row stream n := by
  rintro ⟨bodies, rest, rfl, legal, ends⟩
  cases bodies with
  | nil =>
    rcases ends with ⟨header, _⟩ | ⟨third, _⟩
    · have illegal := split_illegal_iff.mpr header
      rw [List.flatMap_nil, List.nil_append, illegal] at hs
      cases hs
    · exact early third
  | cons first later =>
    rw [List.flatMap_cons, List.append_assoc,
      split_of_legal (legal first List.mem_cons_self)] at hs
    cases hs

theorem fatal_of_illegal {row : Nat} {stream : Bytes} (hs : split maxBodyLen stream = .illegal) :
    FatalOctet parse row stream 4 :=
  ⟨[], stream, rfl, fun _ h => absurd h List.not_mem_nil,
    Or.inl ⟨split_illegal_iff.mp hs, rfl⟩⟩

/-! ## The decoder stops for fatal octets only -/

/-- Decoding the stream ends for good. -/
def Halts (parse : Bytes → Parsed) (failures : UInt32) (stream : Bytes) : Prop :=
  ∃ out reason failures' rest,
    (frameDecoder parse).run failures stream = .halted out reason failures' rest

theorem halts_of_item {failures next : UInt32} {stream : Bytes} {out : List Json} {used : Nat}
    (item : (frameDecoder parse).scan failures stream = .item out next used) :
    Halts parse failures stream ↔ Halts parse next (stream.drop used) := by
  unfold Halts
  rw [Decoder.run_item item]
  cases (frameDecoder parse).run next (stream.drop used) with
  | idle out' failures' rest => simp [Decoded.prepend]
  | halted out' reason failures' rest => simp [Decoded.prepend]

theorem counter_succ {failures : UInt32} (early : ¬ failures + 1 ≥ 3) (few : failures.toNat < 3) :
    (failures + 1).toNat = failures.toNat + 1 ∧ (failures + 1).toNat < 3 := by
  have size : (failures + 1).toNat = failures.toNat + 1 := by
    rw [UInt32.toNat_add]
    simp only [UInt32.reduceToNat]
    omega
  rw [ge_iff_le, UInt32.le_iff_toNat_le, size] at early
  simp only [UInt32.reduceToNat] at early
  omega

theorem counter_third {failures : UInt32} (third : failures + 1 ≥ 3) (few : failures.toNat < 3) :
    failures.toNat + 1 = 3 := by
  rw [ge_iff_le, UInt32.le_iff_toNat_le, UInt32.toNat_add] at third
  simp only [UInt32.reduceToNat] at third
  omega

/-- The induction is on the stream; a frame at its front is the same step for the decoder
and for the fatal octets. -/
theorem halts_iff (reported : Reported parse) {failures : UInt32} (few : failures.toNat < 3)
    (stream : Bytes) :
    Halts parse failures stream ↔ ∃ n, FatalOctet parse failures.toNat stream n := by
  induction hn : stream.length using Nat.strongRecOn generalizing failures stream with
  | ind size ih =>
    subst hn
    have early : failures.toNat ≠ 3 := by omega
    cases hs : split maxBodyLen stream with
    | wait =>
      have wait : (frameDecoder parse).scan failures stream = .wait := by
        simp [frameDecoder, scanFrame, hs]
      unfold Halts
      rw [Decoder.run_wait wait]
      constructor
      · rintro ⟨_, _, _, _, impossible⟩
        cases impossible
      · rintro ⟨n, fatal⟩
        exact absurd fatal (not_fatal_of_wait early hs)
    | illegal =>
      have stop : (frameDecoder parse).scan failures stream = .stop .badLength := by
        simp [frameDecoder, scanFrame, hs]
      exact ⟨fun _ => ⟨4, fatal_of_illegal hs⟩, fun _ => ⟨_, _, _, _, Decoder.run_stop stop⟩⟩
    | body body =>
      have bound := split_body_le hs
      have shorter : (stream.drop (4 + body.length)).length < stream.length := by
        rw [List.length_drop]
        omega
      have shift : (∃ n, FatalOctet parse failures.toNat stream n) ↔
          ∃ m, FatalOctet parse (nextRow parse failures.toNat body)
            (stream.drop (4 + body.length)) m := by
        constructor
        · rintro ⟨n, fatal⟩
          obtain ⟨m, _, later⟩ := (fatal_of_body early hs).mp fatal
          exact ⟨m, later⟩
        · rintro ⟨m, fatal⟩
          exact ⟨_, (fatal_of_body early hs).mpr ⟨m, rfl, fatal⟩⟩
      rw [shift]
      cases hp : parse body with
      | value json =>
        have item : (frameDecoder parse).scan failures stream =
            .item [json] 0 (4 + body.length) := by
          simp [frameDecoder, scanFrame, hs, hp]
        have row : nextRow parse failures.toNat body = (0 : UInt32).toNat := by
          simp [nextRow, parsable, hp, value?]
        rw [halts_of_item item, row]
        exact ih _ shorter (by decide) _ rfl
      | parseError =>
        have refused : nextRow parse failures.toNat body = failures.toNat + 1 := by
          simp [nextRow, parsable, hp, value?]
        rw [refused]
        by_cases third : failures + 1 ≥ 3
        · have stop : (frameDecoder parse).scan failures stream = .stop .thirdFailure := by
            simp [frameDecoder, scanFrame, hs, hp, third]
          have full := counter_third third few
          refine ⟨fun _ => ⟨0, [], _, rfl, ?_, Or.inr ⟨full, rfl⟩⟩,
            fun _ => ⟨_, _, _, _, Decoder.run_stop stop⟩⟩
          exact fun _ h => absurd h List.not_mem_nil
        · have item : (frameDecoder parse).scan failures stream =
              .item [] (failures + 1) (4 + body.length) := by
            simp [frameDecoder, scanFrame, hs, hp, third]
          obtain ⟨row, few'⟩ := counter_succ third few
          rw [halts_of_item item, ← row]
          exact ih _ shorter few' _ rfl
      | outOfRange => exact absurd hp (reported body)

end LinuxChat.Guarantees.Violations
