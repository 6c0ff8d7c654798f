import Mathlib.Data.List.Basic
import Mathlib.Data.UInt
import Mathlib.Tactic.Common

/-!
# Length-prefixed framing and incremental decoding

The first part is the frame grammar: a 4-octet big-endian length followed by that
many octets. The second is a theory of decoders that look at a growing buffer:
`Decoder.scan` inspects the buffer once, and a verdict other than `wait` must
survive appending more input. From that one law, `Decoder.feed_flatten`: feeding
a stream piece by piece gives the outputs, the state and the undecoded suffix of
decoding it whole, for every segmentation. The last part puts the two together:
every stream is framed in exactly one way, and `frames` finds it.
-/

namespace LinuxChat.Lib

/-- Octets in the order in which they are sent. -/
abbrev Bytes := List UInt8

/-! ## Big-endian 32-bit words -/

/-- The four octets of `n` modulo `2 ^ 32`, most significant first. -/
def be32 (n : Nat) : Bytes :=
  [UInt8.ofNat (n / 2 ^ 24), UInt8.ofNat (n / 2 ^ 16), UInt8.ofNat (n / 2 ^ 8), UInt8.ofNat n]

/-- The value of a word, most significant octet first. -/
def ofBe32 (word : Bytes) : Nat :=
  word.foldl (fun acc octet => acc * 256 + octet.toNat) 0

@[simp] theorem be32_length (n : Nat) : (be32 n).length = 4 := rfl

theorem ofBe32_be32 (n : Nat) : ofBe32 (be32 n) = n % 2 ^ 32 := by
  simp only [ofBe32, be32, List.foldl_cons, List.foldl_nil, UInt8.toNat_ofNat']
  omega

theorem ofBe32_lt (word : Bytes) (h : word.length = 4) : ofBe32 word < 2 ^ 32 := by
  match word, h with
  | [a, b, c, d], _ =>
    have ha := a.toNat_lt
    have hb := b.toNat_lt
    have hc := c.toNat_lt
    have hd := d.toNat_lt
    simp only [ofBe32, List.foldl_cons, List.foldl_nil]
    omega

/-- Every 4-octet word is the encoding of its value. -/
theorem be32_ofBe32 (word : Bytes) (h : word.length = 4) : be32 (ofBe32 word) = word := by
  match word, h with
  | [a, b, c, d], _ =>
    have ha := a.toNat_lt
    have hb := b.toNat_lt
    have hc := c.toNat_lt
    have hd := d.toNat_lt
    simp only [ofBe32, be32, List.foldl_cons, List.foldl_nil, List.cons.injEq, and_true]
    refine ⟨?_, ?_, ?_, ?_⟩ <;> apply UInt8.toNat_inj.mp <;> simp only [UInt8.toNat_ofNat'] <;> omega

/-! ## Frames -/

/-- A body behind its length. -/
def frame (body : Bytes) : Bytes := be32 body.length ++ body

/-- What a buffer starts with: not enough octets to tell, a length outside
`1 .. limit`, or one complete frame. -/
inductive Split where
  | wait
  | illegal
  | body (bytes : Bytes)
  deriving DecidableEq

/-- The verdict on a buffer. Nothing is looked at before the length is complete. -/
def split (limit : Nat) (buf : Bytes) : Split :=
  if buf.length < 4 then .wait
  else
    let len := ofBe32 (buf.take 4)
    if len = 0 ∨ limit < len then .illegal
    else if buf.length < 4 + len then .wait
    else .body ((buf.drop 4).take len)

theorem frame_length (body : Bytes) : (frame body).length = 4 + body.length := by
  simp [frame]

theorem split_frame {limit : Nat} (small : limit < 2 ^ 32) {body : Bytes}
    (nonempty : 1 ≤ body.length) (bounded : body.length ≤ limit) (rest : Bytes) :
    split limit (frame body ++ rest) = .body body := by
  have htake : (frame body ++ rest).take 4 = be32 body.length := by
    rw [frame, List.append_assoc]
    exact List.take_left' (be32_length _)
  have hdrop : (frame body ++ rest).drop 4 = body ++ rest := by
    rw [frame, List.append_assoc]
    exact List.drop_left' (be32_length _)
  have hlen : ofBe32 (be32 body.length) = body.length := by
    rw [ofBe32_be32, Nat.mod_eq_of_lt (by omega)]
  have hsize : (frame body ++ rest).length = 4 + body.length + rest.length := by
    simp [frame_length]
  unfold split
  rw [if_neg (by omega)]
  simp only [htake, hdrop, hlen]
  rw [if_neg (by omega), if_neg (by omega)]
  simp

theorem split_body {limit : Nat} {buf body : Bytes} (h : split limit buf = .body body) :
    buf = frame body ++ buf.drop (4 + body.length) ∧ 1 ≤ body.length ∧ body.length ≤ limit := by
  unfold split at h
  split at h
  · cases h
  next h4 =>
    dsimp only at h
    split at h
    · cases h
    next hlen =>
      split at h
      · cases h
      next hfull =>
        have hbody := Split.body.inj h
        have hword : (buf.take 4).length = 4 := by
          rw [List.length_take]
          omega
        have hsize : body.length = ofBe32 (buf.take 4) := by
          rw [← hbody, List.length_take, List.length_drop]
          omega
        refine ⟨?_, by omega, by omega⟩
        have hhead : be32 body.length = buf.take 4 := by
          rw [hsize, be32_ofBe32 _ hword]
        have htail : body = (buf.drop 4).take body.length := by
          rw [hsize]
          exact hbody.symm
        calc
          buf = buf.take 4 ++ buf.drop 4 := (List.take_append_drop 4 buf).symm
          _ = buf.take 4 ++ ((buf.drop 4).take body.length ++ (buf.drop 4).drop body.length) :=
            congrArg (buf.take 4 ++ ·) (List.take_append_drop _ _).symm
          _ = frame body ++ buf.drop (4 + body.length) := by
            rw [← htail, List.drop_drop, ← hhead, frame, List.append_assoc]

/-- A verdict of `split` other than `wait` does not depend on later octets. -/
theorem split_append {limit : Nat} {buf : Bytes} (h : split limit buf ≠ .wait) (more : Bytes) :
    split limit (buf ++ more) = split limit buf := by
  unfold split at h ⊢
  by_cases h4 : buf.length < 4
  · simp [h4] at h
  · have htake : (buf ++ more).take 4 = buf.take 4 :=
      List.take_append_of_le_length (by omega)
    have hmore : ¬ (buf ++ more).length < 4 := by
      rw [List.length_append]
      omega
    simp only [if_neg h4, if_neg hmore, htake] at h ⊢
    by_cases hlen : ofBe32 (buf.take 4) = 0 ∨ limit < ofBe32 (buf.take 4)
    · simp [hlen]
    · simp only [if_neg hlen] at h ⊢
      by_cases hfull : buf.length < 4 + ofBe32 (buf.take 4)
      · simp [hfull] at h
      · have hfull' : ¬ (buf ++ more).length < 4 + ofBe32 (buf.take 4) := by
          rw [List.length_append]
          omega
        simp only [if_neg hfull, if_neg hfull']
        rw [List.drop_append_of_le_length (by omega),
          List.take_append_of_le_length (by rw [List.length_drop]; omega)]

/-- A buffer that splits into `wait` and holds a length holds a legal one and
less than a frame. -/
theorem split_wait {limit : Nat} {buf : Bytes} (h : split limit buf = .wait) :
    buf.length < 4 ∨
      (1 ≤ ofBe32 (buf.take 4) ∧ ofBe32 (buf.take 4) ≤ limit ∧
        buf.length < 4 + ofBe32 (buf.take 4)) := by
  unfold split at h
  split at h
  · exact Or.inl ‹_›
  · dsimp only at h
    split at h
    · cases h
    next hlen =>
      split at h
      next hfull => exact Or.inr ⟨by omega, by omega, hfull⟩
      · cases h

/-! ## Incremental decoders -/

/-- The verdict on a buffer: more input is needed; `used` elements were decoded
into `out`; or the stream is fatally wrong. -/
inductive Scan (σ γ ε : Type) where
  | wait
  | item (out : List γ) (next : σ) (used : Nat)
  | stop (reason : ε)

/-- A decoder that cuts items off the front of its buffer. What it says of a buffer it goes on
saying when more arrives behind it, unless it had to wait. -/
structure Decoder (β σ γ ε : Type) where
  scan : σ → List β → Scan σ γ ε
  used_pos : ∀ {s buf out next used}, scan s buf = .item out next used →
    0 < used ∧ used ≤ buf.length
  scan_append : ∀ {s buf}, scan s buf ≠ .wait → ∀ more, scan s (buf ++ more) = scan s buf

/-- Decoding stopped for lack of input, or for good, in state `s` at `rest`. -/
inductive Decoded (β σ γ ε : Type) where
  | idle (out : List γ) (s : σ) (rest : List β)
  | halted (out : List γ) (reason : ε) (s : σ) (rest : List β)
  deriving DecidableEq

namespace Decoded

variable {β σ γ ε : Type}

/-- The items, in order. -/
def outputs : Decoded β σ γ ε → List γ
  | idle out _ _ => out
  | halted out _ _ _ => out

/-- The same with earlier items in front. -/
def prepend (before : List γ) : Decoded β σ γ ε → Decoded β σ γ ε
  | idle out s rest => idle (before ++ out) s rest
  | halted out reason s rest => halted (before ++ out) reason s rest

@[simp] theorem prepend_nil (d : Decoded β σ γ ε) : d.prepend [] = d := by
  cases d <;> rfl

@[simp] theorem prepend_prepend (a b : List γ) (d : Decoded β σ γ ε) :
    (d.prepend b).prepend a = d.prepend (a ++ b) := by
  cases d <;> simp [prepend]

end Decoded

namespace Decoder

variable {β σ γ ε : Type} (D : Decoder β σ γ ε)

/-- Decode until the buffer is exhausted; every item removes input. -/
def run (s : σ) (buf : List β) : Decoded β σ γ ε :=
  match _h : D.scan s buf with
  | .wait => .idle [] s buf
  | .item out next used => (run next (buf.drop used)).prepend out
  | .stop reason => .halted [] reason s buf
termination_by buf.length
decreasing_by
  have used := D.used_pos _h
  rw [List.length_drop]
  omega

variable {D}

theorem run_wait {s : σ} {buf : List β} (h : D.scan s buf = .wait) :
    D.run s buf = .idle [] s buf := by
  rw [run]
  split <;> simp_all

theorem run_item {s next : σ} {buf : List β} {out : List γ} {used : Nat}
    (h : D.scan s buf = .item out next used) :
    D.run s buf = (D.run next (buf.drop used)).prepend out := by
  rw [run]
  split <;> simp_all

theorem run_stop {s : σ} {buf : List β} {reason : ε} (h : D.scan s buf = .stop reason) :
    D.run s buf = .halted [] reason s buf := by
  rw [run]
  split <;> simp_all

/-- Input that arrives after a decoding. -/
def resume (d : Decoded β σ γ ε) (more : List β) : Decoded β σ γ ε :=
  match d with
  | .idle out s rest => (D.run s (rest ++ more)).prepend out
  | .halted out reason s rest => .halted out reason s (rest ++ more)

theorem resume_prepend (before : List γ) (d : Decoded β σ γ ε) (more : List β) :
    D.resume (d.prepend before) more = (D.resume d more).prepend before := by
  cases d with
  | idle out s rest => exact (Decoded.prepend_prepend before out _).symm
  | halted out reason s rest => rfl

/-- Decoding a longer buffer is decoding the shorter one and resuming. The
induction is on the items of the shorter buffer; `scan_append` carries each
verdict over to the longer one. -/
theorem run_append (s : σ) (buf more : List β) :
    D.run s (buf ++ more) = D.resume (D.run s buf) more := by
  induction hn : buf.length using Nat.strongRecOn generalizing s buf with
  | ind n ih =>
    subst hn
    cases h : D.scan s buf with
    | wait => simp [run_wait h, resume]
    | item out next used =>
      have bound := D.used_pos h
      have h' : D.scan s (buf ++ more) = .item out next used := by
        rw [D.scan_append (by simp [h]) more, h]
      have shorter : (buf.drop used).length < buf.length := by
        rw [List.length_drop]
        omega
      rw [run_item h, run_item h', List.drop_append_of_le_length bound.2,
        ih _ shorter next (buf.drop used) rfl, resume_prepend]
    | stop reason =>
      have h' : D.scan s (buf ++ more) = .stop reason := by
        rw [D.scan_append (by simp [h]) more, h]
      rw [run_stop h, run_stop h', resume]

/-- Decode a stream that arrives in pieces, one `run` for each piece. -/
def feed (d : Decoded β σ γ ε) (pieces : List (List β)) : Decoded β σ γ ε :=
  pieces.foldl (fun d piece => D.resume d piece) d

/-- Segmentation independence. -/
theorem feed_flatten (s : σ) (buf : List β) (pieces : List (List β)) :
    D.feed (D.run s buf) pieces = D.run s (buf ++ pieces.flatten) := by
  induction pieces generalizing buf with
  | nil => simp [feed]
  | cons piece pieces ih =>
    have step : D.resume (D.run s buf) piece = D.run s (buf ++ piece) :=
      (run_append s buf piece).symm
    change D.feed (D.resume (D.run s buf) piece) pieces = _
    rw [step, ih, List.flatten_cons, List.append_assoc]

/-- Once idle, a decoder stays idle at the undecoded suffix. -/
theorem scan_of_run_idle {s s' : σ} {buf rest : List β} {out : List γ}
    (h : D.run s buf = .idle out s' rest) : D.scan s' rest = .wait := by
  induction hn : buf.length using Nat.strongRecOn generalizing s buf out with
  | ind n ih =>
    subst hn
    cases hs : D.scan s buf with
    | wait =>
      rw [run_wait hs] at h
      cases h
      exact hs
    | item out' next used =>
      have bound := D.used_pos hs
      have shorter : (buf.drop used).length < buf.length := by
        rw [List.length_drop]
        omega
      rw [run_item hs] at h
      cases hr : D.run next (buf.drop used) with
      | idle out₁ s₁ rest₁ =>
        rw [hr] at h
        cases h
        exact ih _ shorter hr rfl
      | halted out₁ reason s₁ rest₁ =>
        rw [hr] at h
        cases h
    | stop reason =>
      rw [run_stop hs] at h
      cases h

end Decoder

/-! ## Streams of frames -/

/-- The decoder that cuts a stream into the bodies of its frames and stops for
good at a length outside `1 .. limit`. -/
def frames (limit : Nat) : Decoder UInt8 Unit Bytes Unit where
  scan _ buf :=
    match split limit buf with
    | .wait => .wait
    | .illegal => .stop ()
    | .body body => .item [body] () (4 + body.length)
  used_pos := by
    intro s buf out next used h
    cases hs : split limit buf with
    | wait => simp [hs] at h
    | illegal => simp [hs] at h
    | body body =>
      have size := congrArg List.length (split_body hs).1
      rw [List.length_append, frame_length] at size
      simp only [hs] at h
      cases h
      omega
  scan_append := by
    intro s buf h more
    have decided : split limit buf ≠ .wait := by
      intro wait
      simp [wait] at h
    simp only [split_append decided more]

/-- The stream is the frames of `bodies`, all of legal length, and then a tail
that does not start with a complete legal frame. -/
structure Framed (limit : Nat) (stream : Bytes) (bodies : List Bytes) (tail : Bytes) : Prop where
  joined : stream = bodies.flatMap frame ++ tail
  legal : ∀ body ∈ bodies, 1 ≤ body.length ∧ body.length ≤ limit
  stuck : ∀ body rest, 1 ≤ body.length → body.length ≤ limit → tail ≠ frame body ++ rest

/-- The tail starts with the four octets of a length outside `1 .. limit`. -/
def IllegalHeader (limit : Nat) (tail : Bytes) : Prop :=
  4 ≤ tail.length ∧ (ofBe32 (tail.take 4) = 0 ∨ limit < ofBe32 (tail.take 4))

instance (limit : Nat) (tail : Bytes) : Decidable (IllegalHeader limit tail) :=
  inferInstanceAs (Decidable (_ ∧ _))

theorem split_illegal_iff {limit : Nat} {buf : Bytes} :
    split limit buf = .illegal ↔ IllegalHeader limit buf := by
  unfold split IllegalHeader
  by_cases short : buf.length < 4
  · have brief : ¬ 4 ≤ buf.length := by omega
    simp [short, brief]
  · rw [if_neg short]
    by_cases outside : ofBe32 (buf.take 4) = 0 ∨ limit < ofBe32 (buf.take 4)
    · simp [outside]
      omega
    · simp only [outside, if_false, and_false, iff_false]
      split <;> simp

/-- How the decoder ends on a framed stream. -/
def framesEnd (limit : Nat) (bodies : List Bytes) (tail : Bytes) :
    Decoded UInt8 Unit Bytes Unit :=
  if IllegalHeader limit tail then .halted bodies () () tail else .idle bodies () tail

theorem framesEnd_prepend (limit : Nat) (before bodies : List Bytes) (tail : Bytes) :
    (framesEnd limit bodies tail).prepend before = framesEnd limit (before ++ bodies) tail := by
  unfold framesEnd
  split <;> rfl

theorem run_of_framed {limit : Nat} (small : limit < 2 ^ 32) {stream tail : Bytes}
    {bodies : List Bytes} (framed : Framed limit stream bodies tail) :
    (frames limit).run () stream = framesEnd limit bodies tail := by
  induction bodies generalizing stream with
  | nil =>
    have whole : stream = tail := framed.joined
    subst whole
    cases hs : split limit stream with
    | wait =>
      have wait : (frames limit).scan () stream = .wait := by simp [frames, hs]
      have lawful : ¬ IllegalHeader limit stream := by simp [← split_illegal_iff, hs]
      rw [Decoder.run_wait wait, framesEnd, if_neg lawful]
    | illegal =>
      have stop : (frames limit).scan () stream = .stop () := by simp [frames, hs]
      rw [Decoder.run_stop stop, framesEnd, if_pos (split_illegal_iff.mp hs)]
    | body body =>
      obtain ⟨whole, nonempty, bounded⟩ := split_body hs
      exact absurd whole (framed.stuck body _ nonempty bounded)
  | cons body bodies ih =>
    obtain ⟨nonempty, bounded⟩ := framed.legal body List.mem_cons_self
    have whole : stream = frame body ++ (bodies.flatMap frame ++ tail) := by
      rw [framed.joined, List.flatMap_cons, List.append_assoc]
    have rest : Framed limit (bodies.flatMap frame ++ tail) bodies tail :=
      ⟨rfl, fun other h => framed.legal other (List.mem_cons_of_mem body h), framed.stuck⟩
    have item : (frames limit).scan () stream = .item [body] () (4 + body.length) := by
      simp [frames, whole, split_frame small nonempty bounded]
    have used : stream.drop (4 + body.length) = bodies.flatMap frame ++ tail := by
      rw [whole]
      exact List.drop_left' (frame_length body)
    rw [Decoder.run_item item, used, ih rest, framesEnd_prepend, List.singleton_append]

/-- Every stream is framed, in one way. -/
theorem exists_framed (limit : Nat) (stream : Bytes) :
    ∃ bodies tail, Framed limit stream bodies tail := by
  induction hn : stream.length using Nat.strongRecOn generalizing stream with
  | ind n ih =>
    subst hn
    by_cases whole : ∃ body rest, 1 ≤ body.length ∧ body.length ≤ limit ∧
        stream = frame body ++ rest
    · obtain ⟨body, rest, nonempty, bounded, rfl⟩ := whole
      have shorter : rest.length < (frame body ++ rest).length := by
        rw [List.length_append, frame_length]
        omega
      obtain ⟨bodies, tail, framed⟩ := ih _ shorter rest rfl
      refine ⟨body :: bodies, tail, ?_, ?_, framed.stuck⟩
      · rw [List.flatMap_cons, List.append_assoc, ← framed.joined]
      · intro other h
        cases h with
        | head => exact ⟨nonempty, bounded⟩
        | tail _ h => exact framed.legal other h
    · refine ⟨[], stream, rfl, ?_, ?_⟩
      · intro body h
        cases h
      · intro body rest nonempty bounded same
        exact whole ⟨body, rest, nonempty, bounded, same⟩

theorem Framed.unique {limit : Nat} (small : limit < 2 ^ 32) {stream tail tail' : Bytes}
    {bodies bodies' : List Bytes} (framed : Framed limit stream bodies tail)
    (framed' : Framed limit stream bodies' tail') : bodies' = bodies ∧ tail' = tail := by
  have same := run_of_framed small framed'
  rw [run_of_framed small framed] at same
  unfold framesEnd at same
  split at same <;> split at same <;> cases same <;> exact ⟨rfl, rfl⟩

end LinuxChat.Lib
