import LinuxChat.Source.Socket

/-!
# What a failed send leaves in the stream

`send_msg` calls on one socket, one after the other (server/src/protocol.cpp:17-72).
`write_all` shuts the write side down when its deadline passes, and not when `::send`
fails otherwise or takes nothing; the stream stays a sequence of frames exactly when no
call that such a failure stops inside its frame is followed by one that writes.
-/

namespace LinuxChat.Guarantees.SendFailures

open LinuxChat.Lib LinuxChat.Source

/-- One call of `send_msg`: its message, and what `::send` returns for the header and for the
body. -/
structure SendCall where
  msg : Json
  onHeader : List SendResult
  onBody : List SendResult

/-- What one call did: its frame, the octets that the socket took, its result. -/
structure Sent where
  frame : Bytes
  written : Bytes
  ok : Bool
  deriving DecidableEq

/-- The calls in turn, and the socket after them. -/
def sends (dump : Json → Option Bytes) : List SendCall → Socket → List Sent × Socket
  | [], socket => ([], socket)
  | call :: later, socket =>
    let done := sendMsg dump call.msg call.onHeader call.onBody socket
    let rest := sends dump later done.2
    (⟨sentBytes dump call.msg, done.2.accepted.drop socket.accepted.length, done.1⟩ :: rest.1,
      rest.2)

/-- Complete frames, then at most one proper prefix of a frame and nothing after it. -/
def WellEnded (sent : List Sent) : Prop :=
  ∃ whole rest, sent = whole ++ rest ∧ (∀ s ∈ whole, s.written = s.frame ∨ s.written = []) ∧
    (rest = [] ∨ ∃ cut quiet, rest = cut :: quiet ∧ cut.written <+: cut.frame ∧
      cut.written ≠ cut.frame ∧ ∀ s ∈ quiet, s.written = [])

/-! ## The condition -/

/-- The first answer other than a retry takes an octet. -/
def takes : List SendResult → Bool
  | .accepted _ _ :: _ => true
  | .again false :: later => takes later
  | _ => false

/-- All of `left` octets get written. -/
def completes : Nat → List SendResult → Bool
  | 0, _ => true
  | _ + 1, [] => false
  | left + 1, .accepted count _ :: later => completes (left + 1 - count) later
  | left + 1, .again late :: later => !late && completes (left + 1) later
  | _ + 1, .zero :: _ => false
  | _ + 1, .error :: _ => false

/-- A failure other than the deadline comes before `left` octets are written. -/
def fails : Nat → List SendResult → Bool
  | 0, _ => false
  | _ + 1, [] => false
  | left + 1, .accepted count _ :: later => fails (left + 1 - count) later
  | left + 1, .again late :: later => !late && fails (left + 1) later
  | _ + 1, .zero :: _ => true
  | _ + 1, .error :: _ => true

/-- The deadline passes first. -/
def expires (left : Nat) (results : List SendResult) : Bool :=
  !completes left results && !fails left results

variable (dump : Json → Option Bytes)

/-- The call starts to write. -/
def begins (call : SendCall) : Bool :=
  (sendBuffers dump call.msg).isSome && takes call.onHeader

/-- The call shuts the write side down. -/
def shuts (call : SendCall) : Bool :=
  match sendBuffers dump call.msg with
  | none => false
  | some (header, body) =>
    expires header.length call.onHeader ||
      completes header.length call.onHeader && expires body.length call.onBody

/-- The call stops inside its frame and leaves the write side open. -/
def breaks (call : SendCall) : Bool :=
  match sendBuffers dump call.msg with
  | none => false
  | some (header, body) =>
    fails header.length call.onHeader && takes call.onHeader ||
      completes header.length call.onHeader && fails body.length call.onBody

/-- No call starts to write, up to one that shuts the write side down. -/
def Silent : List SendCall → Prop
  | [] => True
  | call :: later => begins dump call = false ∧ (shuts dump call = true ∨ Silent later)

/-- Up to the call that shuts the write side down, none that breaks off inside its frame
is followed by one that starts to write. -/
def Harmless : List SendCall → Prop
  | [] => True
  | call :: later =>
    shuts dump call = true ∨ (breaks dump call = true → Silent dump later) ∧ Harmless later

variable {dump}

/-! ## One `write_all` -/

theorem writeAll_shut (results : List SendResult) {buf : Bytes} {socket : Socket}
    (shut : socket.shut = true) : (writeAll results buf socket).2 = socket ∧
      ((writeAll results buf socket).1 = true ↔ buf = []) := by
  cases buf with
  | nil => simp [writeAll]
  | cons octet rest =>
    cases results with
    | nil =>
      cases socket
      cases shut
      simp [writeAll]
    | cons result later =>
      unfold writeAll
      rw [if_pos shut]
      simp

/-- The part of the buffer that the socket took, and how the loop ended. -/
theorem writeAll_open (results : List SendResult) (buf : Bytes) (socket : Socket)
    (openSide : socket.shut = false) :
    ∃ n ≤ buf.length, writeAll results buf socket =
        (completes buf.length results,
          ⟨socket.accepted ++ buf.take n, expires buf.length results⟩) ∧
      (completes buf.length results = true ↔ n = buf.length) ∧
      (buf ≠ [] → (n ≠ 0 ↔ takes results = true)) := by
  induction results generalizing buf socket with
  | nil =>
    cases buf with
    | nil =>
      refine ⟨0, Nat.le_refl _, ?_, ?_, ?_⟩
      · cases socket
        cases openSide
        simp [writeAll, completes, expires]
      · simp [completes]
      · simp
    | cons octet rest =>
      refine ⟨0, Nat.zero_le _, ?_, ?_, ?_⟩
      · simp [writeAll, completes, fails, expires]
      · simp [completes]
      · simp [takes]
  | cons result later ih =>
    cases buf with
    | nil =>
      refine ⟨0, Nat.le_refl _, ?_, ?_, ?_⟩
      · cases socket
        cases openSide
        simp [writeAll, completes, expires]
      · simp [completes]
      · simp
    | cons octet rest =>
      have openIf : ¬ socket.shut = true := by
        rw [openSide]
        exact Bool.false_ne_true
      unfold writeAll
      rw [if_neg openIf]
      cases result with
      | accepted count positive =>
        obtain ⟨n, bound, written, all, _⟩ := ih ((octet :: rest).drop count)
          { socket with accepted := socket.accepted ++ (octet :: rest).take count } openSide
        have size : ((octet :: rest).drop count).length = rest.length + 1 - count := by
          rw [List.length_drop, List.length_cons]
        rw [size] at bound written all
        have done : completes (octet :: rest).length (.accepted count positive :: later) =
            completes (rest.length + 1 - count) later := rfl
        have failed : fails (octet :: rest).length (.accepted count positive :: later) =
            fails (rest.length + 1 - count) later := rfl
        refine ⟨min count (rest.length + 1) + n, ?_, ?_, ?_, ?_⟩
        · rw [List.length_cons]
          omega
        · have taken : (octet :: rest).take (min count (rest.length + 1) + n) =
              (octet :: rest).take count ++ ((octet :: rest).drop count).take n := by
            rw [List.take_add]
            by_cases small : count ≤ rest.length + 1
            · rw [Nat.min_eq_left small]
            · have large : (octet :: rest).length ≤ count := by
                rw [List.length_cons]
                omega
              rw [Nat.min_eq_right (by omega), List.take_of_length_le large,
                List.drop_eq_nil_of_le large]
              simp
          rw [taken, done]
          unfold expires
          rw [done, failed]
          refine written.trans ?_
          rw [List.append_assoc]
          rfl
        · rw [done, all, List.length_cons]
          omega
        · intro _
          have first : takes (.accepted count positive :: later) = true := rfl
          have some : min count (rest.length + 1) + n ≠ 0 := by omega
          exact ⟨fun _ => first, fun _ => some⟩
      | again late =>
        cases late with
        | true =>
          refine ⟨0, Nat.zero_le _, ?_, ?_, ?_⟩
          · simp [completes, fails, expires]
          · simp [completes]
          · simp [takes]
        | false =>
          obtain ⟨n, bound, written, all, some⟩ := ih (octet :: rest) socket openSide
          refine ⟨n, bound, ?_, ?_, ?_⟩
          · have same : expires (octet :: rest).length (.again false :: later) =
                expires (octet :: rest).length later := by
              simp [expires, completes, fails]
            rw [same]
            refine written.trans ?_
            simp [completes]
          · rw [← all]
            simp [completes]
          · intro present
            exact some present
      | zero =>
        refine ⟨0, Nat.zero_le _, ?_, ?_, ?_⟩
        · cases socket
          cases openSide
          simp [completes, fails, expires]
        · simp [completes]
        · simp [takes]
      | error =>
        refine ⟨0, Nat.zero_le _, ?_, ?_, ?_⟩
        · cases socket
          cases openSide
          simp [completes, fails, expires]
        · simp [completes]
        · simp [takes]

/-- A loop that stops short either ran into the deadline or failed otherwise. -/
theorem expires_of_stopped {left : Nat} {results : List SendResult}
    (stopped : completes left results = false) :
    expires left results = !fails left results := by
  rw [expires, stopped]
  rfl

theorem expires_of_completes {left : Nat} {results : List SendResult}
    (complete : completes left results = true) : expires left results = false := by
  rw [expires, complete]
  rfl

theorem fails_of_completes {left : Nat} {results : List SendResult}
    (complete : completes left results = true) : fails left results = false := by
  induction results generalizing left with
  | nil =>
    cases left with
    | zero => rfl
    | succ left => cases complete
  | cons result later ih =>
    cases left with
    | zero => rfl
    | succ left =>
      cases result with
      | accepted count positive => exact ih complete
      | again late =>
        cases late with
        | true => cases complete
        | false => exact ih complete
      | zero => cases complete
      | error => cases complete

/-! ## One `send_msg` -/

theorem header_ne_nil {msg : Json} {header body : Bytes}
    (sent : sendBuffers dump msg = some (header, body)) : header ≠ [] := by
  unfold sendBuffers at sent
  split at sent
  · cases sent
  · split at sent
    · cases sent
    · cases sent
      exact List.cons_ne_nil _ _

theorem sendMsg_shut (call : SendCall) {socket : Socket} (shut : socket.shut = true) :
    sendMsg dump call.msg call.onHeader call.onBody socket = (false, socket) := by
  unfold sendMsg
  cases sent : sendBuffers dump call.msg with
  | none => rfl
  | some buffers =>
    obtain ⟨header, body⟩ := buffers
    obtain ⟨same, ok⟩ := @writeAll_shut call.onHeader header _ shut
    have refused : (writeAll call.onHeader header socket).1 = false := by
      rw [← Bool.not_eq_true]
      exact fun accepted => header_ne_nil sent (ok.mp accepted)
    dsimp only
    rw [refused, same]
    rfl

/-- What a call on an open socket does with `n` octets of its frame written. -/
structure Wrote (dump : Json → Option Bytes) (call : SendCall) (socket : Socket) (n : Nat) :
    Prop where
  bound : n ≤ (sentBytes dump call.msg).length
  after : (sendMsg dump call.msg call.onHeader call.onBody socket).2 =
    ⟨socket.accepted ++ (sentBytes dump call.msg).take n, shuts dump call⟩
  ok : (sendMsg dump call.msg call.onHeader call.onBody socket).1 = true ↔
    sentBytes dump call.msg ≠ [] ∧ n = (sentBytes dump call.msg).length
  begins : begins dump call = true ↔ n ≠ 0
  breaks : shuts dump call = false →
    (breaks dump call = true ↔ n ≠ 0 ∧ n ≠ (sentBytes dump call.msg).length)

theorem sendMsg_open (call : SendCall) {socket : Socket} (openSide : socket.shut = false) :
    ∃ n, Wrote dump call socket n := by
  cases sent : sendBuffers dump call.msg with
  | none =>
    have empty : sentBytes dump call.msg = [] := by simp [sentBytes, sent]
    refine ⟨0, ⟨Nat.zero_le _, ?_, ?_, ?_, ?_⟩⟩
    · cases socket
      cases openSide
      simp [sendMsg, shuts, sent]
    · simp [sendMsg, sent, empty]
    · simp [begins, sent]
    · simp [breaks, sent]
  | some buffers =>
    obtain ⟨header, body⟩ := buffers
    have present := header_ne_nil sent
    have positive := List.length_pos_iff.mpr present
    have whole : sentBytes dump call.msg = header ++ body := by simp [sentBytes, sent]
    have size : (sentBytes dump call.msg).length = header.length + body.length := by
      rw [whole, List.length_append]
    have nonempty : sentBytes dump call.msg ≠ [] := by
      rw [whole]
      exact List.append_ne_nil_of_left_ne_nil present body
    obtain ⟨n, bound, wrote, all, some⟩ := writeAll_open call.onHeader header socket openSide
    have first := some present
    have starts : begins dump call = takes call.onHeader := by simp [begins, sent]
    cases complete : completes header.length call.onHeader with
    | false =>
      have short : n ≠ header.length := fun full => by simp [all.mpr full] at complete
      have stopped := expires_of_stopped complete
      have ends : shuts dump call = expires header.length call.onHeader := by
        simp [shuts, sent, complete]
      refine ⟨n, ⟨by omega, ?_, ?_, ?_, ?_⟩⟩
      · rw [ends, whole, List.take_append_of_le_length bound]
        simp [sendMsg, sent, wrote, complete]
      · have refused : (sendMsg dump call.msg call.onHeader call.onBody socket).1 = false := by
          simp [sendMsg, sent, wrote, complete]
        rw [refused]
        constructor
        · intro impossible
          cases impossible
        · rintro ⟨_, full⟩
          omega
      · rw [starts, first]
      · intro quiet
        rw [ends, stopped] at quiet
        have failed : fails header.length call.onHeader = true := by simpa using quiet
        have cut : breaks dump call = takes call.onHeader := by
          simp [breaks, sent, complete, failed]
        rw [cut, ← first]
        constructor
        · intro begun
          exact ⟨begun, by omega⟩
        · exact fun both => both.1
    | true =>
      have full := all.mp complete
      have goesOn := expires_of_completes complete
      have unfailed := fails_of_completes complete
      subst full
      rw [complete, goesOn, List.take_length] at wrote
      obtain ⟨m, bound', wrote', all', _⟩ :=
        writeAll_open call.onBody body ⟨socket.accepted ++ header, false⟩ rfl
      have ends : shuts dump call = expires body.length call.onBody := by
        simp [shuts, sent, complete, goesOn]
      have called : sendMsg dump call.msg call.onHeader call.onBody socket =
          writeAll call.onBody body ⟨socket.accepted ++ header, false⟩ := by
        simp [sendMsg, sent, wrote]
      have begun : header.length ≠ 0 := by omega
      refine ⟨header.length + m, ⟨by omega, ?_, ?_, ?_, ?_⟩⟩
      · rw [called, wrote', ends, whole, List.take_length_add_append]
        simp
      · rw [called, wrote', size]
        constructor
        · intro written
          exact ⟨nonempty, by rw [all'.mp written]⟩
        · rintro ⟨_, equal⟩
          exact all'.mpr (by omega)
      · rw [starts, ← first]
        constructor
        · intro _
          omega
        · exact fun _ => begun
      · intro quiet
        rw [ends] at quiet
        have cut : breaks dump call = fails body.length call.onBody := by
          simp [breaks, sent, complete, unfailed]
        rw [cut, size]
        cases done : completes body.length call.onBody with
        | true =>
          have finished := all'.mp done
          rw [fails_of_completes done]
          constructor
          · intro impossible
            cases impossible
          · rintro ⟨_, short⟩
            omega
        | false =>
          have short : m ≠ body.length := fun filled => by simp [all'.mpr filled] at done
          rw [expires_of_stopped done] at quiet
          have failed : fails body.length call.onBody = true := by simpa using quiet
          constructor
          · intro _
            exact ⟨by omega, by omega⟩
          · exact fun _ => failed

/-! ## Calls in a row -/

theorem sends_shut (calls : List SendCall) {socket : Socket} (shut : socket.shut = true) :
    (sends dump calls socket).2 = socket ∧
      ∀ s ∈ (sends dump calls socket).1, s.written = [] ∧ s.ok = false := by
  induction calls with
  | nil => exact ⟨rfl, fun s member => absurd member List.not_mem_nil⟩
  | cons call later ih =>
    have refused := @sendMsg_shut dump call _ shut
    unfold sends
    rw [refused]
    refine ⟨ih.1, fun s member => ?_⟩
    rcases List.mem_cons.mp member with rfl | member
    · exact ⟨List.drop_length, rfl⟩
    · exact ih.2 s member

theorem sends_open {call : SendCall} {later : List SendCall} {socket : Socket} {n : Nat}
    (wrote : Wrote dump call socket n) :
    sends dump (call :: later) socket =
      (⟨sentBytes dump call.msg, (sentBytes dump call.msg).take n,
          (sendMsg dump call.msg call.onHeader call.onBody socket).1⟩ ::
        (sends dump later ⟨socket.accepted ++ (sentBytes dump call.msg).take n,
          shuts dump call⟩).1,
        (sends dump later ⟨socket.accepted ++ (sentBytes dump call.msg).take n,
          shuts dump call⟩).2) := by
  rw [sends, wrote.after]
  simp

theorem wellEnded_nil : WellEnded [] :=
  ⟨[], [], rfl, fun _ member => absurd member List.not_mem_nil, Or.inl rfl⟩

theorem wellEnded_of_quiet {sent : List Sent} (quiet : ∀ s ∈ sent, s.written = []) :
    WellEnded sent :=
  ⟨sent, [], (List.append_nil sent).symm, fun s member => Or.inr (quiet s member), Or.inl rfl⟩

/-- A call that wrote all or nothing does not matter. -/
theorem wellEnded_cons_whole {s : Sent} {rest : List Sent}
    (clean : s.written = s.frame ∨ s.written = []) : WellEnded (s :: rest) ↔ WellEnded rest := by
  constructor
  · rintro ⟨whole, tail, split, cleans, ends⟩
    cases whole with
    | nil =>
      rcases ends with rfl | ⟨cut, quiet, rfl, _, _, silent⟩
      · cases split
      · cases split
        exact wellEnded_of_quiet silent
    | cons first whole =>
      cases split
      exact ⟨whole, tail, rfl, fun s member => cleans s (List.mem_cons_of_mem _ member), ends⟩
  · rintro ⟨whole, tail, rfl, cleans, ends⟩
    exact ⟨s :: whole, tail, rfl, List.forall_mem_cons.mpr ⟨clean, cleans⟩, ends⟩

/-- After a call that stopped inside its frame nothing may be written. -/
theorem wellEnded_cons_cut {s : Sent} {rest : List Sent} (part : s.written <+: s.frame)
    (short : s.written ≠ s.frame) (some : s.written ≠ []) :
    WellEnded (s :: rest) ↔ ∀ r ∈ rest, r.written = [] := by
  constructor
  · rintro ⟨whole, tail, split, cleans, ends⟩
    cases whole with
    | nil =>
      rcases ends with rfl | ⟨cut, quiet, rfl, _, _, silent⟩
      · cases split
      · cases split
        exact silent
    | cons first whole =>
      cases split
      exact absurd (cleans s List.mem_cons_self) (not_or.mpr ⟨short, some⟩)
  · intro quiet
    exact ⟨[], s :: rest, rfl, fun s member => absurd member List.not_mem_nil,
      Or.inr ⟨s, rest, rfl, part, short, quiet⟩⟩

theorem take_eq_nil_iff {frame : Bytes} {n : Nat} (bound : n ≤ frame.length) :
    frame.take n = [] ↔ n = 0 := by
  constructor
  · intro empty
    have size := congrArg List.length empty
    rw [List.length_take, List.length_nil] at size
    omega
  · rintro rfl
    rfl

/-- Nothing is written exactly by silent calls. -/
theorem silent_iff (calls : List SendCall) {socket : Socket} (openSide : socket.shut = false) :
    (∀ s ∈ (sends dump calls socket).1, s.written = []) ↔ Silent dump calls := by
  induction calls generalizing socket with
  | nil => simp [sends, Silent]
  | cons call later ih =>
    obtain ⟨n, wrote⟩ := @sendMsg_open dump call _ openSide
    rw [sends_open wrote]
    dsimp only
    rw [List.forall_mem_cons, Silent]
    dsimp only
    rw [take_eq_nil_iff wrote.bound, ← Bool.not_eq_true, wrote.begins, not_not]
    refine and_congr_right fun _ => ?_
    cases ends : shuts dump call with
    | true =>
      have quiet := (@sends_shut dump later
        ⟨socket.accepted ++ (sentBytes dump call.msg).take n, true⟩ rfl).2
      simp only [true_or, iff_true]
      exact fun s member => (quiet s member).1
    | false =>
      simp only [Bool.false_eq_true, false_or]
      exact ih rfl

theorem wellEnded_iff (calls : List SendCall) {socket : Socket} (openSide : socket.shut = false) :
    WellEnded (sends dump calls socket).1 ↔ Harmless dump calls := by
  induction calls generalizing socket with
  | nil => simp [sends, Harmless, wellEnded_nil]
  | cons call later ih =>
    obtain ⟨n, wrote⟩ := @sendMsg_open dump call _ openSide
    rw [sends_open wrote, Harmless]
    dsimp only
    have part := List.take_prefix n (sentBytes dump call.msg)
    have empty := take_eq_nil_iff wrote.bound
    have full : (sentBytes dump call.msg).take n = sentBytes dump call.msg ↔
        n = (sentBytes dump call.msg).length := by
      rw [List.take_eq_self_iff]
      have bound := wrote.bound
      omega
    cases ends : shuts dump call with
    | true =>
      have quiet := (@sends_shut dump later
        ⟨socket.accepted ++ (sentBytes dump call.msg).take n, true⟩ rfl).2
      have silent := fun s member => (quiet s member).1
      simp only [true_or, iff_true]
      by_cases clean : n = (sentBytes dump call.msg).length ∨ n = 0
      · refine (wellEnded_cons_whole ?_).mpr (wellEnded_of_quiet silent)
        exact clean.imp full.mpr empty.mpr
      · have cut := not_or.mp clean
        exact (wellEnded_cons_cut part (mt full.mp cut.1) (mt empty.mp cut.2)).mpr silent
    | false =>
      simp only [Bool.false_eq_true, false_or]
      rw [wrote.breaks ends]
      by_cases clean : n = (sentBytes dump call.msg).length ∨ n = 0
      · rw [wellEnded_cons_whole (clean.imp full.mpr empty.mpr), ih rfl]
        constructor
        · exact fun harmless => ⟨fun cut => absurd clean (not_or.mpr ⟨cut.2, cut.1⟩), harmless⟩
        · exact And.right
      · have cut := not_or.mp clean
        rw [wellEnded_cons_cut part (mt full.mp cut.1) (mt empty.mp cut.2), silent_iff later rfl]
        constructor
        · intro silent
          have quiet := (@silent_iff dump later socket openSide).mpr silent
          exact ⟨fun _ => silent, (ih openSide).mp (wellEnded_of_quiet quiet)⟩
        · exact fun both => both.1 ⟨cut.2, cut.1⟩

/-- `send_msg` returns true exactly when its whole frame was written. -/
theorem ok_iff (calls : List SendCall) (socket : Socket) :
    ∀ s ∈ (sends dump calls socket).1, s.ok = true ↔ s.frame ≠ [] ∧ s.written = s.frame := by
  induction calls generalizing socket with
  | nil => exact fun s member => absurd member List.not_mem_nil
  | cons call later ih =>
    cases side : socket.shut with
    | true =>
      intro s member
      obtain ⟨written, ok⟩ := (sends_shut (call :: later) side).2 s member
      rw [ok, written]
      constructor
      · intro impossible
        cases impossible
      · rintro ⟨present, empty⟩
        exact absurd empty.symm present
    | false =>
      obtain ⟨n, wrote⟩ := @sendMsg_open dump call _ side
      rw [sends_open wrote]
      refine List.forall_mem_cons.mpr ⟨?_, ih _⟩
      have bound := wrote.bound
      rw [wrote.ok, List.take_eq_self_iff]
      exact and_congr_right fun _ => by omega

/-- The socket took what the calls wrote. -/
theorem accepted_eq (calls : List SendCall) (socket : Socket) :
    (sends dump calls socket).2.accepted =
      socket.accepted ++ (sends dump calls socket).1.flatMap Sent.written := by
  induction calls generalizing socket with
  | nil => exact (List.append_nil _).symm
  | cons call later ih =>
    cases side : socket.shut with
    | true =>
      obtain ⟨same, quiet⟩ := @sends_shut dump (call :: later) _ side
      have nothing : (sends dump (call :: later) socket).1.flatMap Sent.written = [] := by
        rw [List.flatMap_eq_nil_iff]
        exact fun s member => (quiet s member).1
      rw [same, nothing, List.append_nil]
    | false =>
      obtain ⟨n, wrote⟩ := @sendMsg_open dump call _ side
      rw [sends_open wrote, List.flatMap_cons]
      refine (ih _).trans ?_
      rw [List.append_assoc]

/-- What the socket took on the whole is what the calls wrote, each call wrote its whole
frame exactly when it returned true, and a call that stopped inside its frame was the
last to write. -/
structure StreamKept (dump : Json → Option Bytes) (calls : List SendCall) : Prop where
  stream : (sends dump calls {}).2.accepted = (sends dump calls {}).1.flatMap Sent.written
  ended : WellEnded (sends dump calls {}).1
  results : ∀ s ∈ (sends dump calls {}).1, s.ok = true ↔ s.frame ≠ [] ∧ s.written = s.frame

/-- The exact condition on the calls and on what each `::send` answered. Everything else a call
does (its return value, the octets the socket accepts) is as documented whatever the outcomes. -/
theorem stream_kept_iff (dump : Json → Option Bytes) (calls : List SendCall) :
    StreamKept dump calls ↔ Harmless dump calls := by
  constructor
  · intro kept
    exact (wellEnded_iff calls rfl).mp kept.ended
  · intro harmless
    exact ⟨accepted_eq calls {}, (wellEnded_iff calls rfl).mpr harmless, ok_iff calls {}⟩

/-! ## A frame cut short by EINTR -/

/-- The first call is interrupted after its header, the second one is not. -/
def interrupted : List SendCall :=
  [⟨.null, [.accepted 4 (by decide)], [.error]⟩,
    ⟨.null, [.accepted 4 (by decide)], [.accepted 4 (by decide)]⟩]

/-- The text of `null`. -/
def dumpNull (_ : Json) : Option Bytes := some [110, 117, 108, 108]

/-- The second frame begins inside the first. -/
theorem frame_inside_a_frame : ¬ ∀ dump calls, StreamKept dump calls := by
  intro always
  have harmless := (wellEnded_iff interrupted rfl).mp (always dumpNull interrupted).ended
  rcases harmless with shut | ⟨silent, _⟩
  · exact absurd shut (by decide)
  · exact absurd (silent (by decide)).1 (by decide)

end LinuxChat.Guarantees.SendFailures
