import LinuxChat.Guarantees.Playback
import LinuxChat.Guarantees.WholeFrames.Sockets

/-!
# Whole frames on a socket

`send_mutex_` keeps the octets of two frames apart as long as both senders take it;
`send_error` and `send_ok` do not (server/src/protocol.cpp:74-87). In every run in which no
`::send` of theirs falls into the middle of another frame, and none of another sender into
the middle of theirs, what a socket gets is frame after frame.
-/

namespace LinuxChat.Guarantees.WholeFrames

open LinuxChat.Lib LinuxChat.Source Prog

variable {dump : Json → Option Bytes}

/-- The socket has got complete frames, each of one `send_msg`, and at most the beginning of
one more, which some thread is writing. -/
def FrameAfterFrame (dump : Json → Option Bytes) (wire : Wire) (id : Nat) : Prop :=
  ∃ part, wire.written id = (wire.complete id).flatMap (sentBytes dump) ++ part ∧
    (part ≠ [] → ∃ t w, wire.underWay t = some w ∧ w.id = id ∧
      part ++ w.left = sentBytes dump w.msg)

/-- In every run of careful steps, on every socket and at any time. -/
theorem frames_stay_whole (dump : Json → Option Bytes) (workers : Nat) (db : Database)
    (c : Config (lockInterface ⟨Piece, Piece.Res⟩ Mutex) Exn WireState)
    (run : (wireMachine dump workers).Reaches careful (wireBoot db) c) (id : Nat) :
    FrameAfterFrame dump c.shared.1.2 id := by
  have sound := sound_reached run
  by_cases busy : ∃ t w, c.shared.1.2.underWay t = some w ∧ w.id = id
  · obtain ⟨t, w, under, here⟩ := busy
    obtain ⟨part, rest, prefixed⟩ := sound.begun t w under
    rw [here] at prefixed
    exact ⟨part, prefixed, fun _ => ⟨t, w, under, here, rest⟩⟩
  · refine ⟨[], ?_, fun impossible => absurd rfl impossible⟩
    rw [List.append_nil]
    apply sound.whole
    exact fun t w under here => busy ⟨t, w, under, here⟩

/-! ## Two answers at once -/

/-- The threads from `bound` on have nothing. -/
def Few (bound : Nat) (s : WireState) : Prop :=
  ∀ t, bound ≤ t → s.2 t = [] ∧ s.1.2.underWay t = none

/-- Whether the step is possible, and careful where that is asked for. -/
def allows (bound : Nat) (asked : Bool) (t : Nat) :
    LockAct ⟨Piece, Piece.Res⟩ Mutex → WireState → Bool
  | .acquire mutex shared, s =>
    (List.range bound).all fun u =>
      (s.2 u).all fun entry => entry.1 ≠ mutex || (shared && entry.2)
  | .act (.write session locked _ _ _ _), s =>
    !asked || (List.range bound).all fun u =>
      u = t || match s.1.2.underWay u with
        | none => true
        | some w => w.id ≠ session.id || (locked && w.locked)
  | _, _ => true

/-- Blocking steps, all careful if asked for. -/
def Allowed (asked : Bool) (t : Nat) (action : LockAct ⟨Piece, Piece.Res⟩ Mutex) (s : WireState) :
    Prop :=
  blocking t action s ∧ (asked = true → Apart t action s)

theorem allowed_of_allows {bound : Nat} {asked : Bool} {t : Nat}
    {action : LockAct ⟨Piece, Piece.Res⟩ Mutex} {s : WireState} (few : Few bound s)
    (allows : allows bound asked t action s = true) : Allowed asked t action s := by
  cases action with
  | acquire mutex shared =>
    refine ⟨fun u held member => ?_, fun _ => trivial⟩
    by_cases small : u < bound
    · have entries := List.all_eq_true.mp allows u (List.mem_range.mpr small)
      simpa using List.all_eq_true.mp entries _ member
    · rw [(few u (Nat.le_of_not_lt small)).1] at member
      cases member
  | release mutex => exact ⟨trivial, fun _ => trivial⟩
  | act piece =>
    cases piece with
    | inner part => exact ⟨trivial, fun _ => trivial⟩
    | write session locked msg first rest behind =>
      refine ⟨trivial, fun careful u w other under here => ?_⟩
      subst careful
      by_cases small : u < bound
      · have entry := List.all_eq_true.mp allows u (List.mem_range.mpr small)
        rw [under] at entry
        simpa [other, here] using entry
      · rw [(few u (Nat.le_of_not_lt small)).2] at under
        cases under

/-- One turn of a schedule: the event loop meets an event, a worker begins a round, or a thread
performs so many steps, each `::send` taking so many octets. -/
inductive WireTurn where
  | event (e : Event)
  | round (t : Nat)
  | act (t steps : Nat) (w : World) (more : Nat)

section
variable (dump) (asked : Bool)

/-- A configuration of the server with its sockets. -/
abbrev WireConfig := Config (lockInterface ⟨Piece, Piece.Res⟩ Mutex) Exn WireState

/-- Start a program on a thread, if the thread is idle. -/
def wireLaunch (t : Nat) (p : WireProc Unit) (c : WireConfig) : Option WireConfig :=
  match c.thread t with
  | .ret () => some ⟨c.shared, Function.update c.thread t p⟩
  | _ => none

/-- One action of thread `t`, if it has one left. -/
def wireAct (t : Nat) (w : World × Nat) (c : WireConfig) : Option WireConfig :=
  match c.thread t with
  | .act action next =>
    if t < 3 ∧ allows 3 asked t action c.shared = true then
      some ⟨(locking Piece.exec t w action c.shared).2,
        Function.update c.thread t (next (locking Piece.exec t w action c.shared).1)⟩
    else none
  | _ => some c

/-- The event loop and two workers. -/
def wireTurn (c : WireConfig) : WireTurn → Option WireConfig
  | .event e =>
    if e.possible c.shared.1.1 then wireLaunch 0 ((expand false e.program).translate (spell dump)) c
    else none
  | .round t =>
    if 0 < t ∧ t ≤ 2 then wireLaunch t (workerRound.translate (spell dump)) c else none
  | .act t steps w more => (List.replicate steps ()).foldlM (fun c _ => wireAct asked t (w, more) c) c

variable {dump} {asked}

theorem few_locking {s : WireState} (few : Few 3 s) {t : Nat} (small : t < 3) (w : World × Nat)
    (action : LockAct ⟨Piece, Piece.Res⟩ Mutex) : Few 3 (locking Piece.exec t w action s).2 := by
  intro u large
  have other : u ≠ t := by omega
  have before := few u large
  have after := (follows (fun _ => none) 2).acts t w action s u
  rw [if_neg other] at after
  exact ⟨(congrArg Prod.fst after).trans before.1, (congrArg Prod.snd after).trans before.2⟩

/-- A configuration reached by such steps, of three threads. -/
def Played (dump : Json → Option Bytes) (asked : Bool) (init c : WireConfig) : Prop :=
  (wireMachine dump 2).Reaches (Allowed asked) init c ∧ Few 3 c.shared

variable {init c c' : WireConfig}

theorem played_launch {t : Nat} {p : WireProc Unit} (played : Played dump asked init c)
    (start : WireStart dump 2 t p c.shared c.shared) (launched : wireLaunch t p c = some c') :
    Played dump asked init c' := by
  unfold wireLaunch at launched
  split at launched
  next idle =>
    cases launched
    exact ⟨played.1.spawn (wireMachine dump 2) t p _ idle start, played.2⟩
  · cases launched

theorem played_act {t : Nat} {w : World × Nat} (played : Played dump asked init c)
    (acted : wireAct asked t w c = some c') : Played dump asked init c' := by
  unfold wireAct at acted
  split at acted
  next action next running =>
    split at acted
    next possible =>
      cases acted
      exact ⟨played.1.tail (.act w running (allowed_of_allows played.2 possible.2)),
        few_locking played.2 possible.1 w action⟩
    · cases acted
  · cases acted
    exact played

theorem played_acts {t steps : Nat} {w : World × Nat} (played : Played dump asked init c)
    (acted : (List.replicate steps ()).foldlM (fun c _ => wireAct asked t w c) c = some c') :
    Played dump asked init c' := by
  induction steps generalizing c with
  | zero =>
    cases acted
    exact played
  | succ steps ih =>
    rw [List.replicate_succ, List.foldlM_cons] at acted
    obtain ⟨next, first, others⟩ := Option.bind_eq_some_iff.mp acted
    exact ih (played_act played first) others

theorem played_turn {turn : WireTurn} (played : Played dump asked init c)
    (turned : wireTurn dump asked c turn = some c') : Played dump asked init c' := by
  cases turn with
  | event e =>
    simp only [wireTurn] at turned
    split at turned
    next possible => exact played_launch played (.event e c.shared possible) turned
    · cases turned
  | round t =>
    simp only [wireTurn] at turned
    split at turned
    next worker => exact played_launch played (.round c.shared worker.1 worker.2) turned
    · cases turned
  | act t steps w more => exact played_acts played turned

theorem played_turns (turns : List WireTurn) (played : Played dump asked init c)
    (turned : turns.foldlM (wireTurn dump asked) c = some c') : Played dump asked init c' := by
  induction turns generalizing c with
  | nil =>
    cases turned
    exact played
  | cons turn rest ih =>
    rw [List.foldlM_cons] at turned
    obtain ⟨next, first, others⟩ := Option.bind_eq_some_iff.mp turned
    exact ih (played_turn played first) others

theorem reaches_of_turns {db : Database} {turns : List WireTurn} {test : WireConfig → Bool}
    (passes : (turns.foldlM (wireTurn dump asked) (wireBoot db)).any test = true) :
    ∃ c, (wireMachine dump 2).Reaches (Allowed asked) (wireBoot db) c ∧ test c = true := by
  have start : Played dump asked (wireBoot db) (wireBoot db) := ⟨.refl, fun _ _ => ⟨rfl, rfl⟩⟩
  cases turned : turns.foldlM (wireTurn dump asked) (wireBoot db) with
  | none =>
    rw [turned] at passes
    cases passes
  | some c =>
    rw [turned] at passes
    exact ⟨c, (played_turns turns start turned).1, passes⟩

end

/-- A request that is answered with NOT_AUTHENTICATED. -/
def stranger : Json := .object [("type", .string "HELLO")]

/-- The text of that answer. -/
def answerText (_ : Json) : Option Bytes :=
  some ("\x7b\"code\":\"NOT_AUTHENTICATED\",\"content\":\"".toList.map (fun c => UInt8.ofNat c.toNat) ++
    [232, 175, 183, 229, 133, 136, 231, 153, 187, 229, 189, 149, 230, 136, 150, 230, 179, 168,
    229, 134, 140] ++
    "\",\"type\":\"ERROR\"\x7d".toList.map (fun c => UInt8.ofNat c.toNat))

/-- A connection is accepted, and its client has sent two such requests. -/
def twoRequests : List WireTurn :=
  [.event (.newConnection 5 "10.0.0.1"), .act 0 3 steadyWorld 0,
    .event (.client 5), .act 0 12 (deliver stranger) 0,
    .event (.client 5), .act 0 12 (deliver stranger) 0]

/-- One worker has written one octet of its answer when the other writes the whole of its own. -/
def overlapping : List WireTurn :=
  twoRequests ++ [.round 1, .act 1 8 steadyWorld 0, .round 2, .act 2 12 steadyWorld 100,
    .act 1 12 steadyWorld 100]

/-- The socket does not start with the answer that is complete. -/
def broken (c : WireConfig) : Bool :=
  match c.shared.1.2.complete 0 with
  | [] => false
  | msg :: _ =>
    decide (4 ≤ (sentBytes answerText msg).length) &&
      decide ((c.shared.1.2.written 0).take 4 ≠ (sentBytes answerText msg).take 4)

/-- Neither answer takes `send_mutex_`. -/
theorem answers_overlap :
    ¬ ∀ dump workers db c, (wireMachine dump workers).Reaches blocking (wireBoot db) c →
      ∀ id, FrameAfterFrame dump c.shared.1.2 id := by
  intro always
  have passes : (overlapping.foldlM (wireTurn answerText false) (wireBoot {})).any broken = true := by
    decide +kernel
  obtain ⟨c, run, ends⟩ := reaches_of_turns passes
  have free := run.mono (wireMachine answerText 2) fun t action s allowed => allowed.1
  obtain ⟨part, whole, _⟩ := always answerText 2 {} c free 0
  unfold broken at ends
  split at ends
  · cases ends
  next msg rest complete =>
    obtain ⟨long, differs⟩ := Bool.and_eq_true_iff.mp ends
    rw [complete, List.flatMap_cons, List.append_assoc] at whole
    apply of_decide_eq_true differs
    rw [whole, List.take_append_of_le_length (of_decide_eq_true long)]

/-- One after the other. -/
def inTurn : List WireTurn :=
  twoRequests ++ [.round 1, .act 1 8 steadyWorld 0, .act 1 12 steadyWorld 100, .round 2,
    .act 2 12 steadyWorld 100]

/-- Both answers are on the socket, one behind the other. -/
theorem frames_stay_whole_in_turn :
    ∃ c, (wireMachine answerText 2).Reaches careful (wireBoot {}) c ∧
      (c.shared.1.2.complete 0).length = 2 ∧ FrameAfterFrame answerText c.shared.1.2 0 := by
  have passes : (inTurn.foldlM (wireTurn answerText true) (wireBoot {})).any
      (fun c => (c.shared.1.2.complete 0).length == 2) = true := by
    decide +kernel
  obtain ⟨c, run, both⟩ := reaches_of_turns passes
  have safe := run.mono (wireMachine answerText 2) fun t action s allowed =>
    show careful t action s from ⟨allowed.1, allowed.2 rfl⟩
  exact ⟨c, safe, beq_iff_eq.mp both, frames_stay_whole answerText 2 {} c safe 0⟩

end LinuxChat.Guarantees.WholeFrames
