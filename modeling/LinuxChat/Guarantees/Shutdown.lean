import LinuxChat.Source.EventLoop

/-!
# Stopping the server

`stop` first looks whether `running_` is set, and `run` sets it only when the listening
socket is ready (server/src/epoll_server.cpp:156, 198-206). A signal that comes earlier is
lost. One that is not lost ends the loop from wherever it is: the pipe stays readable, so
that `epoll_wait` does not block once `running_` is lowered.
-/

namespace LinuxChat.Guarantees.Shutdown

open LinuxChat.Source

/-! ## Vocabulary -/

/-- A call of `stop` has found the server running. -/
def Heard (loop : EventLoop) : Prop := StopCall.finished true ∈ loop.stops

/-- No call of `stop` is under way. -/
def Settled (loop : EventLoop) : Prop := ∀ call ∈ loop.stops, ∃ found, call = .finished found

/-- How many of the moves are those of the thread of `run`. -/
def mainMoves (moves : List LoopMove) : Nat := moves.countP LoopMove.main

/-- However it goes on, the thread of `run` has only so many moves left, and it never waits
for anything but its turn. -/
structure Ends (loop : EventLoop) : Prop where
  bounded : ∃ n, ∀ later after, loop.run later = some after → mainMoves later ≤ n
  awake : ∀ later after, loop.run later = some after → after.position = .waiting →
    after.reports [.wakeup] = true

/-! ## The invariant -/

/-- The invariant: before the loop is entered no call has found it running, the pipe has octets
exactly once a call was heard, and the flag is down only for a reason. -/
structure Sound (loop : EventLoop) : Prop where
  starting : loop.position = .starting → loop.running = false ∧
    ∀ call ∈ loop.stops, call = .testing ∨ call = .finished false
  told : 0 < loop.pipe ↔ Heard loop
  lowered : Heard loop ∨ .writing ∈ loop.stops → loop.running = false
  cause : loop.running = false → loop.position = .starting ∨ loop.position = .exited ∨
    Heard loop ∨ .writing ∈ loop.stops
  ready : ∀ ready, loop.position = .handling ready → .wakeup ∈ ready → Heard loop

theorem mem_set_iff {calls : List StopCall} {i : Nat} {call other new : StopCall}
    (found : calls[i]? = some call) (old : other ≠ call) (differs : other ≠ new) :
    other ∈ calls.set i new ↔ other ∈ calls := by
  constructor
  · intro member
    exact (List.mem_or_eq_of_mem_set member).resolve_right differs
  · intro member
    obtain ⟨j, same⟩ := List.mem_iff_getElem?.mp member
    refine List.mem_iff_getElem?.mpr ⟨j, ?_⟩
    rw [List.getElem?_set_ne, same]
    intro equal
    rw [equal, same] at found
    exact old (Option.some.inj found)

theorem mem_set_self {calls : List StopCall} {i : Nat} {call new : StopCall}
    (found : calls[i]? = some call) : new ∈ calls.set i new := by
  obtain ⟨inside, _⟩ := List.getElem?_eq_some_iff.mp found
  exact List.mem_set inside new

/-! ## What a step keeps -/

variable {loop after : EventLoop}

theorem sound_test {i : Nat} (sound : Sound loop) (found : loop.stops[i]? = some .testing) :
    Sound { loop with
      stops := loop.stops.set i (if loop.running then .clearing else .finished false) } := by
  have heard : .finished true ∈ loop.stops.set i (if loop.running then .clearing else .finished false)
      ↔ Heard loop := by
    apply mem_set_iff found
    · exact StopCall.noConfusion
    · cases loop.running with
      | true => exact StopCall.noConfusion
      | false => decide
  have writing : .writing ∈ loop.stops.set i (if loop.running then .clearing else .finished false)
      ↔ StopCall.writing ∈ loop.stops := by
    apply mem_set_iff found
    · exact StopCall.noConfusion
    · cases loop.running with
      | true => exact StopCall.noConfusion
      | false => exact StopCall.noConfusion
  constructor
  · intro starting
    obtain ⟨off, calls⟩ := sound.starting starting
    refine ⟨off, fun call member => ?_⟩
    rcases List.mem_or_eq_of_mem_set member with old | new
    · exact calls call old
    · right
      rw [new, off]
      rfl
  · exact sound.told.trans heard.symm
  · intro told
    exact sound.lowered (told.imp heard.mp writing.mp)
  · intro off
    have before := sound.cause off
    unfold Heard
    dsimp only
    rw [heard, writing]
    exact before
  · intro ready position member
    exact heard.mpr (sound.ready ready position member)

theorem sound_clear {i : Nat} (sound : Sound loop) (found : loop.stops[i]? = some .clearing) :
    Sound { loop with running := false, stops := loop.stops.set i .writing } := by
  have heard : .finished true ∈ loop.stops.set i .writing ↔ Heard loop :=
    mem_set_iff found StopCall.noConfusion StopCall.noConfusion
  constructor
  · intro starting
    have calls := (sound.starting starting).2 .clearing (List.mem_of_getElem? found)
    rcases calls with impossible | impossible
    · cases impossible
    · cases impossible
  · exact sound.told.trans heard.symm
  · exact fun _ => rfl
  · exact fun _ => Or.inr (Or.inr (Or.inr (mem_set_self found)))
  · intro ready position member
    exact heard.mpr (sound.ready ready position member)

theorem sound_write {i : Nat} (sound : Sound loop) (found : loop.stops[i]? = some .writing) :
    Sound { loop with
      pipe := if loop.pipe < pipeCapacity then loop.pipe + 1 else loop.pipe
      stops := loop.stops.set i (.finished true) } := by
  have heard : .finished true ∈ loop.stops.set i (.finished true) := mem_set_self found
  have writing : StopCall.writing ∈ loop.stops := List.mem_of_getElem? found
  constructor
  · intro starting
    rcases (sound.starting starting).2 .writing writing with impossible | impossible
    · cases impossible
    · cases impossible
  · refine ⟨fun _ => heard, fun _ => ?_⟩
    dsimp only
    split
    · omega
    next full =>
      unfold pipeCapacity at full
      omega
  · exact fun _ => sound.lowered (Or.inr writing)
  · exact fun _ => Or.inr (Or.inr (Or.inl heard))
  · exact fun _ _ _ => heard

theorem sound_stopLine {i : Nat} {call : StopCall} (sound : Sound loop)
    (found : loop.stops[i]? = some call) (stepped : loop.stopLine i call = some after) :
    Sound after := by
  cases call with
  | testing =>
    cases stepped
    exact sound_test sound found
  | clearing =>
    cases stepped
    exact sound_clear sound found
  | writing =>
    cases stepped
    exact sound_write sound found
  | finished told => cases stepped

theorem sound_signal (sound : Sound loop) :
    Sound { loop with stops := loop.stops ++ [.testing] } := by
  have same : ∀ call, call ≠ .testing → (call ∈ loop.stops ++ [.testing] ↔ call ∈ loop.stops) := by
    intro call differs
    simp [differs]
  have heard : .finished true ∈ loop.stops ++ [.testing] ↔ Heard loop :=
    same _ StopCall.noConfusion
  have writing := same .writing StopCall.noConfusion
  constructor
  · intro starting
    obtain ⟨off, calls⟩ := sound.starting starting
    refine ⟨off, fun call member => ?_⟩
    rcases List.mem_append.mp member with old | new
    · exact calls call old
    · exact Or.inl (List.mem_singleton.mp new)
  · exact sound.told.trans heard.symm
  · intro told
    exact sound.lowered (told.imp heard.mp writing.mp)
  · intro off
    have before := sound.cause off
    unfold Heard
    dsimp only
    rw [heard, writing]
    exact before
  · intro ready position member
    exact heard.mpr (sound.ready ready position member)

/-- The loop moves on. -/
theorem sound_move {position : LoopPosition} (sound : Sound loop)
    (begun : loop.position ≠ .starting) (alive : loop.position ≠ .exited)
    (on : position ≠ .starting)
    (ready : ∀ ready, position = .handling ready → .wakeup ∈ ready → Heard loop) :
    Sound { loop with position := position } := by
  refine ⟨fun starting => absurd starting on, sound.told, sound.lowered, ?_, ready⟩
  intro off
  rcases sound.cause off with starting | exited | told
  · exact absurd starting begun
  · exact absurd exited alive
  · exact Or.inr (Or.inr told)

theorem sound_start (sound : Sound loop) (starting : loop.position = .starting) (ok : Bool) :
    Sound (if ok then { loop with running := true, position := .checking }
      else { loop with position := .exited }) := by
  have calls := (sound.starting starting).2
  have unheard : ¬ (Heard loop ∨ .writing ∈ loop.stops) := by
    rintro (heard | writing)
    · rcases calls _ heard with impossible | impossible
      · cases impossible
      · cases impossible
    · rcases calls _ writing with impossible | impossible
      · cases impossible
      · cases impossible
  cases ok with
  | true =>
    refine ⟨(fun same => nomatch same), sound.told, fun told => absurd told unheard, ?_, ?_⟩
    · intro off
      cases off
    · intro ready same
      cases same
  | false =>
    refine ⟨(fun same => nomatch same), sound.told, sound.lowered, ?_, ?_⟩
    · exact fun _ => Or.inr (Or.inl rfl)
    · intro ready same
      cases same

theorem reports_wakeup {ready : List Ready} (reported : loop.reports ready = true)
    (member : .wakeup ∈ ready) : 0 < loop.pipe := by
  simp only [EventLoop.reports, Bool.and_eq_true, Bool.or_eq_true, decide_eq_true_eq] at reported
  rcases reported.2 with absent | filled
  · have contains : ready.contains .wakeup = true := List.contains_iff_mem.mpr member
    rw [contains] at absent
    cases absent
  · exact filled

theorem sound_poll {polled : Polled} (sound : Sound loop) (waiting : loop.position = .waiting)
    (moved : loop.poll polled = some after) : Sound after := by
  have begun : loop.position ≠ .starting := by simp [waiting]
  have alive : loop.position ≠ .exited := by simp [waiting]
  cases polled with
  | events ready =>
    simp only [EventLoop.poll] at moved
    split at moved
    next reported =>
      cases moved
      refine sound_move sound begun alive LoopPosition.noConfusion ?_
      intro other same member
      cases same
      exact sound.told.mp (reports_wakeup reported member)
    · cases moved
  | interrupted =>
    cases moved
    exact sound_move sound begun alive LoopPosition.noConfusion fun _ same => nomatch same
  | failed =>
    cases moved
    exact sound_move sound begun alive LoopPosition.noConfusion fun _ same => nomatch same

theorem sound_round {ready : List Ready} (sound : Sound loop)
    (handling : loop.position = .handling ready) (raised : Bool) :
    Sound (loop.round raised ready) := by
  have begun : loop.position ≠ .starting := by simp [handling]
  have alive : loop.position ≠ .exited := by simp [handling]
  have further : ∀ first rest, ready = first :: rest →
      Sound { loop with position := if raised then .exited else .handling rest } := by
    intro first rest same
    apply sound_move sound begun alive
    · cases raised with
      | true => exact LoopPosition.noConfusion
      | false => exact LoopPosition.noConfusion
    · intro other position member
      cases raised with
      | true => cases position
      | false =>
        cases position
        apply sound.ready ready handling
        rw [same]
        exact List.mem_cons_of_mem first member
  cases ready with
  | nil => exact sound_move sound begun alive LoopPosition.noConfusion fun _ same => nomatch same
  | cons first rest =>
    cases first with
    | wakeup =>
      have heard := sound.ready _ handling List.mem_cons_self
      refine ⟨(fun same => nomatch same), sound.told, fun _ => rfl, ?_, fun _ same => nomatch same⟩
      exact fun _ => Or.inr (Or.inr (Or.inl heard))
    | heartbeat => exact further _ rest rfl
    | listening => exact further _ rest rfl
    | client fd => exact further _ rest rfl

/-- What one move of the loop or of a call of `stop()` keeps. -/
theorem sound_step {move : LoopMove} (sound : Sound loop) (stepped : loop.step move = some after) :
    Sound after := by
  unfold EventLoop.step at stepped
  split at stepped
  next ok starting =>
    cases stepped
    exact sound_start sound starting ok
  next checking =>
    cases stepped
    apply sound_move sound (by simp [checking]) (by simp [checking])
    · cases loop.running with
      | true => exact LoopPosition.noConfusion
      | false => exact LoopPosition.noConfusion
    · intro ready same
      cases running : loop.running with
      | true => simp [running] at same
      | false => simp [running] at same
  next polled waiting => exact sound_poll sound waiting stepped
  next raised ready handling =>
    cases stepped
    exact sound_round sound handling raised
  next =>
    cases stepped
    exact sound_signal sound
  next call =>
    obtain ⟨line, found, stepped⟩ := Option.bind_eq_some_iff.mp stepped
    exact sound_stopLine sound found stepped
  next => cases stepped

/-- What every run keeps. -/
theorem sound_run {moves : List LoopMove} (sound : Sound loop) (ran : loop.run moves = some after) :
    Sound after := by
  induction moves generalizing loop with
  | nil =>
    cases ran
    exact sound
  | cons move rest ih =>
    unfold EventLoop.run at ran
    rw [List.foldlM_cons] at ran
    obtain ⟨next, stepped, ran⟩ := Option.bind_eq_some_iff.mp ran
    exact ih (sound_step sound stepped) ran

theorem sound_boot : Sound {} := by
  refine ⟨fun _ => ⟨rfl, fun _ member => nomatch member⟩, ?_, ?_, fun _ => Or.inl rfl,
    fun _ same => nomatch same⟩
  · simp [Heard]
  · simp [Heard]

/-! ## A loop that has been told -/

/-- The moves that the thread of `run` has left once `running_` is lowered. -/
def left : LoopPosition → Nat
  | .starting => 0
  | .checking => 1
  | .waiting => maxEvents + 3
  | .handling ready => ready.length + 2
  | .exited => 0

/-- `running_` was set and has been lowered. -/
def Lowered (loop : EventLoop) : Prop := loop.running = false ∧ loop.position ≠ .starting

theorem lowered_poll {polled : Polled} (off : loop.running = false)
    (moved : loop.poll polled = some after) :
    Lowered after ∧ left after.position + 1 ≤ left .waiting := by
  cases polled with
  | events ready =>
    simp only [EventLoop.poll] at moved
    split at moved
    next reported =>
      cases moved
      simp only [EventLoop.reports, Bool.and_eq_true, decide_eq_true_eq] at reported
      refine ⟨⟨off, LoopPosition.noConfusion⟩, ?_⟩
      simp only [left]
      omega
    · cases moved
  | interrupted =>
    cases moved
    exact ⟨⟨off, LoopPosition.noConfusion⟩, by simp [left]⟩
  | failed =>
    cases moved
    exact ⟨⟨off, LoopPosition.noConfusion⟩, by simp [left]⟩

theorem lowered_round (off : loop.running = false) (raised : Bool) (ready : List Ready) :
    Lowered (loop.round raised ready) ∧
      left (loop.round raised ready).position + 1 ≤ left (.handling ready) := by
  have further : ∀ first rest,
      Lowered { loop with position := if raised then .exited else .handling rest } ∧
        left (if raised then .exited else .handling rest) + 1 ≤ left (.handling (first :: rest)) := by
    intro first rest
    cases raised with
    | true => exact ⟨⟨off, LoopPosition.noConfusion⟩, by simp [left]⟩
    | false => exact ⟨⟨off, LoopPosition.noConfusion⟩, by simp [left]⟩
  cases ready with
  | nil => exact ⟨⟨off, LoopPosition.noConfusion⟩, by simp [left, EventLoop.round]⟩
  | cons first rest =>
    cases first with
    | wakeup =>
      refine ⟨⟨rfl, LoopPosition.noConfusion⟩, ?_⟩
      simp only [EventLoop.round, left, List.length_cons]
      omega
    | heartbeat => exact further _ rest
    | listening => exact further _ rest
    | client fd => exact further _ rest

theorem lowered_stopLine {i : Nat} {call : StopCall} (lowered : Lowered loop)
    (stepped : loop.stopLine i call = some after) :
    Lowered after ∧ after.position = loop.position := by
  obtain ⟨off, begun⟩ := lowered
  cases call with
  | testing =>
    cases stepped
    exact ⟨⟨off, begun⟩, rfl⟩
  | clearing =>
    cases stepped
    exact ⟨⟨rfl, begun⟩, rfl⟩
  | writing =>
    cases stepped
    exact ⟨⟨off, begun⟩, rfl⟩
  | finished told => cases stepped

theorem lowered_step {move : LoopMove} (lowered : Lowered loop)
    (stepped : loop.step move = some after) :
    Lowered after ∧ left after.position + mainMoves [move] ≤ left loop.position := by
  unfold EventLoop.step at stepped
  split at stepped
  next ok starting => exact absurd starting lowered.2
  next checking =>
    cases stepped
    simp [Lowered, lowered.1, checking, left, mainMoves, LoopMove.main]
  next polled waiting =>
    rw [waiting]
    exact lowered_poll lowered.1 stepped
  next raised ready handling =>
    cases stepped
    rw [handling]
    exact lowered_round lowered.1 raised ready
  next =>
    cases stepped
    exact ⟨lowered, Nat.le_refl _⟩
  next call =>
    obtain ⟨line, found, stepped⟩ := Option.bind_eq_some_iff.mp stepped
    obtain ⟨still, same⟩ := lowered_stopLine lowered stepped
    rw [same]
    exact ⟨still, Nat.le_refl _⟩
  next => cases stepped

/-- Once `running_` is lowered, `run()` makes no more moves than it has left in its round. -/
theorem lowered_run {moves : List LoopMove} (lowered : Lowered loop)
    (ran : loop.run moves = some after) : mainMoves moves ≤ left loop.position := by
  induction moves generalizing loop with
  | nil => exact Nat.zero_le _
  | cons move rest ih =>
    unfold EventLoop.run at ran
    rw [List.foldlM_cons] at ran
    obtain ⟨next, stepped, ran⟩ := Option.bind_eq_some_iff.mp ran
    obtain ⟨still, less⟩ := lowered_step lowered stepped
    have later := ih still ran
    have split : mainMoves (move :: rest) = mainMoves [move] + mainMoves rest := by
      unfold mainMoves
      rw [← List.countP_append]
      rfl
    omega

/-- Nothing is read from the pipe, and only the thread of `run` moves the loop. -/
theorem step_cases {move : LoopMove} (stepped : loop.step move = some after) :
    (loop.position ≠ .exited ∧ after.pipe = loop.pipe) ∨
      (move.main = false ∧ after.position = loop.position ∧ loop.pipe ≤ after.pipe) := by
  unfold EventLoop.step at stepped
  split at stepped
  next ok starting =>
    cases stepped
    left
    cases ok with
    | true => exact ⟨by simp [starting], rfl⟩
    | false => exact ⟨by simp [starting], rfl⟩
  next checking =>
    cases stepped
    exact Or.inl ⟨by simp [checking], rfl⟩
  next polled waiting =>
    refine Or.inl ⟨by simp [waiting], ?_⟩
    cases polled with
    | events ready =>
      simp only [EventLoop.poll] at stepped
      split at stepped
      · cases stepped
        rfl
      · cases stepped
    | interrupted =>
      cases stepped
      rfl
    | failed =>
      cases stepped
      rfl
  next raised ready handling =>
    cases stepped
    refine Or.inl ⟨by simp [handling], ?_⟩
    unfold EventLoop.round
    split
    · rfl
    · rfl
    · rfl
  next =>
    cases stepped
    exact Or.inr ⟨rfl, rfl, Nat.le_refl _⟩
  next call =>
    obtain ⟨line, found, stepped⟩ := Option.bind_eq_some_iff.mp stepped
    right
    cases line with
    | testing =>
      cases stepped
      exact ⟨rfl, rfl, Nat.le_refl _⟩
    | clearing =>
      cases stepped
      exact ⟨rfl, rfl, Nat.le_refl _⟩
    | writing =>
      cases stepped
      refine ⟨rfl, rfl, ?_⟩
      dsimp only
      split
      · exact Nat.le_succ _
      · exact Nat.le_refl _
    | finished told => cases stepped
  next => cases stepped

/-- What was written to the wakeup pipe stays in it. -/
theorem pipe_run {moves : List LoopMove} (ran : loop.run moves = some after) :
    loop.pipe ≤ after.pipe := by
  induction moves generalizing loop with
  | nil =>
    cases ran
    exact Nat.le_refl _
  | cons move rest ih =>
    unfold EventLoop.run at ran
    rw [List.foldlM_cons] at ran
    obtain ⟨next, stepped, ran⟩ := Option.bind_eq_some_iff.mp ran
    rcases step_cases stepped with ⟨_, same⟩ | ⟨_, _, more⟩
    · exact same ▸ ih ran
    · exact Nat.le_trans more (ih ran)

theorem ends_of_heard (sound : Sound loop) (heard : Heard loop) : Ends loop := by
  have begun : loop.position ≠ .starting := by
    intro starting
    rcases (sound.starting starting).2 _ heard with impossible | impossible
    · cases impossible
    · cases impossible
  have lowered : Lowered loop := ⟨sound.lowered (Or.inl heard), begun⟩
  refine ⟨⟨left loop.position, fun later after ran => lowered_run lowered ran⟩, ?_⟩
  intro later after ran _
  have filled : 0 < after.pipe := Nat.lt_of_lt_of_le (sound.told.mpr heard) (pipe_run ran)
  simp [EventLoop.reports, maxEvents, filled]

theorem exited_run {moves : List LoopMove} (exited : loop.position = .exited)
    (ran : loop.run moves = some after) : mainMoves moves = 0 ∧ after.position = .exited := by
  induction moves generalizing loop with
  | nil =>
    cases ran
    exact ⟨rfl, exited⟩
  | cons move rest ih =>
    unfold EventLoop.run at ran
    rw [List.foldlM_cons] at ran
    obtain ⟨next, stepped, ran⟩ := Option.bind_eq_some_iff.mp ran
    rcases step_cases stepped with ⟨alive, _⟩ | ⟨other, same, _⟩
    · exact absurd exited alive
    · obtain ⟨none, ended⟩ := ih (same.trans exited) ran
      refine ⟨?_, ended⟩
      unfold mainMoves at none ⊢
      rw [List.countP_cons, none, other]
      rfl

theorem ends_of_exited (exited : loop.position = .exited) : Ends loop := by
  constructor
  · refine ⟨0, fun later after ran => ?_⟩
    exact Nat.le_of_eq (exited_run exited ran).1
  · intro later after ran waiting
    rw [(exited_run exited ran).2] at waiting
    cases waiting

/-! ## A loop that has not -/

/-- A heartbeat is all that happens. -/
def cycle : List LoopMove := [.check, .wait (.events [.heartbeat]), .handle false, .handle false]

theorem cycle_run (checking : loop.position = .checking) (on : loop.running = true) :
    loop.run cycle = some loop := by
  obtain ⟨position, running, pipe, stops⟩ := loop
  cases checking
  cases on
  rfl

theorem cycles_run (n : Nat) (checking : loop.position = .checking) (on : loop.running = true) :
    loop.run (List.replicate n cycle).flatten = some loop := by
  induction n with
  | zero => rfl
  | succ n ih =>
    rw [List.replicate_succ, List.flatten_cons]
    unfold EventLoop.run at ih ⊢
    have first := cycle_run checking on
    unfold EventLoop.run at first
    rw [List.foldlM_append, first]
    exact ih

theorem mainMoves_cycles (n : Nat) : mainMoves (List.replicate n cycle).flatten = 4 * n := by
  induction n with
  | zero => rfl
  | succ n ih =>
    have one : cycle.countP LoopMove.main = 4 := rfl
    unfold mainMoves at ih ⊢
    rw [List.replicate_succ, List.flatten_cons, List.countP_append, one, ih]
    omega

/-- Descriptors other than the pipe are handled, and the loop checks again. -/
theorem handles_run (ready : List Ready) (other : .wakeup ∉ ready)
    (handling : loop.position = .handling ready) :
    loop.run (List.replicate (ready.length + 1) (.handle false)) =
      some { loop with position := .checking } := by
  obtain ⟨position, running, pipe, stops⟩ := loop
  cases handling
  induction ready with
  | nil => rfl
  | cons first rest ih =>
    have next : EventLoop.step ⟨.handling (first :: rest), running, pipe, stops⟩ (.handle false) =
        some ⟨.handling rest, running, pipe, stops⟩ := by
      cases first with
      | wakeup => exact absurd List.mem_cons_self other
      | heartbeat => rfl
      | listening => rfl
      | client fd => rfl
    have later := ih fun member => other (List.mem_cons_of_mem first member)
    unfold EventLoop.run at later ⊢
    rw [List.length_cons, List.replicate_succ, List.foldlM_cons, next]
    exact later

/-- The loop can come to the head of its `while` with `running_` set. -/
theorem returns_to_check (sound : Sound loop) (settled : Settled loop) (unheard : ¬ Heard loop)
    (alive : loop.position ≠ .exited) :
    ∃ moves after, loop.run moves = some after ∧ after.position = .checking ∧
      after.running = true := by
  have on : loop.position ≠ .starting → loop.running = true := by
    intro begun
    by_contra off
    rcases sound.cause (eq_false_of_ne_true off) with start | exited | heard | writing
    · exact begun start
    · exact alive exited
    · exact unheard heard
    · obtain ⟨found, finished⟩ := settled _ writing
      cases finished
  cases position : loop.position with
  | starting =>
    refine ⟨[.start true], { loop with running := true, position := .checking }, ?_, rfl, rfl⟩
    simp [EventLoop.run, EventLoop.step, position]
  | checking => exact ⟨[], loop, rfl, position, on (by simp [position])⟩
  | waiting =>
    refine ⟨[.wait .interrupted], { loop with position := .checking }, ?_, rfl,
      on (by simp [position])⟩
    simp [EventLoop.run, EventLoop.step, position, EventLoop.poll]
  | handling ready =>
    have other : .wakeup ∉ ready := fun member => unheard (sound.ready ready position member)
    exact ⟨_, _, handles_run ready other position, rfl, on (by simp [position])⟩
  | exited => exact absurd position alive

theorem endless (sound : Sound loop) (settled : Settled loop) (unheard : ¬ Heard loop)
    (alive : loop.position ≠ .exited) : ¬ Ends loop := by
  intro ends
  obtain ⟨n, bounded⟩ := ends.bounded
  obtain ⟨moves, after, ran, checking, on⟩ := returns_to_check sound settled unheard alive
  have further : loop.run (moves ++ (List.replicate (n + 1) cycle).flatten) = some after := by
    unfold EventLoop.run at ran ⊢
    rw [List.foldlM_append, ran]
    exact cycles_run (n + 1) checking on
  have many := bounded _ after further
  unfold mainMoves at many
  rw [List.countP_append] at many
  have cycles := mainMoves_cycles (n + 1)
  unfold mainMoves at cycles
  omega

/-- Whatever signals come, and whenever: once the calls of `stop` under way are over, the
thread of `run` is bound to leave the loop, without ever blocking in `epoll_wait` again, if and
only if one of the calls has found `running_` set or the loop has been left already. -/
theorem ends_iff (moves : List LoopMove) (loop : EventLoop)
    (ran : EventLoop.run moves {} = some loop) (settled : Settled loop) :
    Ends loop ↔ Heard loop ∨ loop.position = .exited := by
  have sound := sound_run sound_boot ran
  constructor
  · intro ends
    by_contra neither
    rw [not_or] at neither
    exact endless sound settled neither.1 neither.2 ends
  · rintro (heard | exited)
    · exact ends_of_heard sound heard
    · exact ends_of_exited exited

/-- A signal comes while the listening socket is being set up. -/
def early : List LoopMove := [.signal, .stop 0, .start true, .check]

/-- The server goes on. -/
def deaf : EventLoop := ⟨.waiting, true, 0, [.finished false]⟩

/-- The signal comes before `run()` has set `running_`, which then waits for a wakeup that nobody
will send. -/
theorem ends_iff_early : EventLoop.run early {} = some deaf ∧ ¬ Ends deaf := by
  have ran : EventLoop.run early {} = some deaf := rfl
  have settled : Settled deaf := fun call member => ⟨false, List.mem_singleton.mp member⟩
  refine ⟨ran, fun ends => ?_⟩
  rcases (ends_iff early deaf ran settled).mp ends with heard | exited
  · simp [Heard, deaf] at heard
  · cases exited

end LinuxChat.Guarantees.Shutdown
