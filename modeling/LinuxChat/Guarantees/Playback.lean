import LinuxChat.Lib.Environment
import LinuxChat.Lib.History
import LinuxChat.Guarantees.Core

/-!
# Playing a schedule

Concrete runs of the server, for counterexamples: which thread starts what, and how
many actions it then performs in which outside.
-/

namespace LinuxChat.Guarantees

open LinuxChat.Lib LinuxChat.Source Prog

/-- One turn of a schedule: the event loop meets an event, a worker takes the oldest task, or a
thread performs so many actions. -/
inductive Turn where
  | event (e : Event)
  | take (t : Nat)
  | act (t steps : Nat) (w : World)

instance (s : Server) (e : Event) : Decidable (e.possible s) := by
  cases e with
  | newConnection fd ip =>
    exact inferInstanceAs (Decidable (∀ session ∈ s.sessions, session.fd ≠ fd))
  | client fd => exact isTrue trivial
  | heartbeat => exact isTrue trivial

/-- How the turns drive a machine that runs the server's programs: where the server stands in its
state, and what becomes of the state when thread `t` starts a program. -/
structure Player (workers : Nat) {σ : Type} (M : Machine serverInterface Exn σ World) where
  shared : σ → Shared
  start : Nat → σ → Shared → σ
  starts : ∀ {t : Nat} {p : Proc Unit} {s : σ} {s' : Shared},
    Start workers t p (shared s) s' → M.spawn t p s (start t s s')

namespace Player

variable {workers : Nat} {σ γ κ : Type} {M : Machine serverInterface Exn σ World}

/-- The server itself. -/
def plain (workers : Nat) : Player workers (machine workers) where
  shared s := s
  start _ _ s' := s'
  starts start := start

theorem starts_recording (P : Player workers M) (H : History M γ) {t : Nat} {p : Proc Unit}
    {s : σ × γ} {s' : Shared} (start : Start workers t p (P.shared s.1) s') :
    (M.recording H).spawn t p s (P.start t s.1 s', H.start t s.1 s.2) :=
  ⟨P.starts start, rfl⟩

/-- With a history. -/
def recording (P : Player workers M) (H : History M γ) : Player workers (M.recording H) where
  shared s := P.shared s.1
  start t s s' := (P.start t s.1 s', H.start t s.1 s.2)
  starts := P.starts_recording H

theorem starts_within (P : Player workers M) (E : Environment serverInterface World κ World)
    {t : Nat} {p : Proc Unit} {s : σ × κ} {s' : Shared}
    (start : Start workers t p (P.shared s.1) s') :
    (M.within E).spawn t p s (P.start t s.1 s', s.2) :=
  ⟨P.starts start, rfl⟩

/-- In an environment. -/
def within (P : Player workers M) (E : Environment serverInterface World κ World) :
    Player workers (M.within E) where
  shared s := P.shared s.1
  start t s s' := (P.start t s.1 s', s.2)
  starts := P.starts_within E

variable (P : Player workers M)

/-- Start a program on a thread, if the thread is idle. -/
def launch (t : Nat) (p : Proc Unit) (s : Shared) (c : Config serverInterface Exn σ) :
    Option (Config serverInterface Exn σ) :=
  match c.thread t with
  | .ret () => some ⟨P.start t c.shared s, Function.update c.thread t p⟩
  | _ => none

/-- The turn, if it can be taken. -/
def playTurn (c : Config serverInterface Exn σ) : Turn → Option (Config serverInterface Exn σ)
  | .event e =>
    if e.possible (P.shared c.shared).server then P.launch 0 e.program (P.shared c.shared) c
    else none
  | .take t =>
    match (P.shared c.shared).server.tasks with
    | task :: rest =>
      if 0 < t ∧ t ≤ workers then
        P.launch t (runTask task)
          { P.shared c.shared with server := { (P.shared c.shared).server with tasks := rest } } c
      else none
    | [] => none
  | .act t steps w => some (M.follow (List.replicate steps (t, w)) c)

/-- The configuration after the turns, if each of them can be taken. -/
def play (turns : List Turn) (c : Config serverInterface Exn σ) :
    Option (Config serverInterface Exn σ) :=
  turns.foldlM P.playTurn c

variable {P} {init c c' : Config serverInterface Exn σ}

theorem launch_reaches {t : Nat} {p : Proc Unit} {s : Shared}
    (run : M.Reaches Machine.unrestricted init c) (start : Start workers t p (P.shared c.shared) s)
    (launched : P.launch t p s c = some c') : M.Reaches Machine.unrestricted init c' := by
  unfold launch at launched
  split at launched
  next idle =>
    cases launched
    exact run.spawn M t p _ idle (P.starts start)
  · cases launched

theorem playTurn_reaches {turn : Turn} (run : M.Reaches Machine.unrestricted init c)
    (played : P.playTurn c turn = some c') : M.Reaches Machine.unrestricted init c' := by
  cases turn with
  | event e =>
    simp only [playTurn] at played
    split at played
    next possible => exact launch_reaches run (.event e (P.shared c.shared) possible) played
    · cases played
  | take t =>
    simp only [playTurn] at played
    split at played
    next task rest queued =>
      split at played
      next worker => exact launch_reaches run (.task worker.1 worker.2 queued) played
      · cases played
    · cases played
  | act t steps w =>
    cases played
    exact run.follow M _

theorem play_reaches (turns : List Turn) (run : M.Reaches Machine.unrestricted init c)
    (played : P.play turns c = some c') : M.Reaches Machine.unrestricted init c' := by
  induction turns generalizing c with
  | nil =>
    cases played
    exact run
  | cons turn rest ih =>
    unfold play at played
    rw [List.foldlM_cons] at played
    obtain ⟨next, first, others⟩ := Option.bind_eq_some_iff.mp played
    exact ih (playTurn_reaches run first) others

/-- A property of the final configuration that evaluates to true is one of a
reachable configuration. -/
theorem reaches_of_play {turns : List Turn} {test : Config serverInterface Exn σ → Bool}
    (passes : (P.play turns init).any test = true) :
    ∃ c, M.Reaches Machine.unrestricted init c ∧ test c = true := by
  cases played : P.play turns init with
  | none =>
    rw [played] at passes
    cases passes
  | some c =>
    rw [played] at passes
    exact ⟨c, play_reaches turns .refl played, passes⟩

end Player

/-- The server after the turns, if each of them can be taken. -/
def play (workers : Nat) (turns : List Turn) (c : Config serverInterface Exn Shared) :
    Option (Config serverInterface Exn Shared) :=
  (Player.plain workers).play turns c

variable {workers : Nat} {init c c' : Config serverInterface Exn Shared}

/-- The threads beyond the pool have nothing to do. -/
theorem idle_beyond {allowed : Nat → Act → Shared → Prop} {db : Database}
    (run : (machine workers).Reaches allowed (boot db) c) (t : Nat) (beyond : workers < t) :
    c.thread t = .ret () := by
  induction run with
  | refl => rfl
  | @tail c c' _ step ih =>
    cases step with
    | @act t' action next input running ok =>
      by_cases actor : t = t'
      · subst actor
        rw [ih] at running
        cases running
      · exact (Function.update_of_ne actor _ _).trans ih
    | @spawn t' p s' idle start =>
      have differs : t ≠ t' := by
        intro same
        cases start with
        | event e s possible => omega
        | task worker inPool queued => omega
      exact (Function.update_of_ne differs _ _).trans ih

/-- The event loop and the workers have nothing to do. -/
def poolResting (workers : Nat) (c : Config serverInterface Exn Shared) : Bool :=
  decide (∀ t, t < workers + 1 → (c.thread t).Halted)

theorem quiescent_of_pool {db : Database}
    (run : (machine workers).Reaches Machine.unrestricted (boot db) c)
    (resting : poolResting workers c = true) : c.Quiescent := by
  have pool : ∀ t, t < workers + 1 → (c.thread t).Halted := of_decide_eq_true resting
  intro t
  by_cases inPool : t < workers + 1
  · exact pool t inPool
  · rw [idle_beyond run t (by omega)]
    trivial

theorem reaches_of_play {db : Database} {turns : List Turn}
    {test : Config serverInterface Exn Shared → Bool}
    (passes : (play workers turns (boot db)).any test = true) :
    ∃ c, (machine workers).Reaches Machine.unrestricted (boot db) c ∧ test c = true :=
  Player.reaches_of_play passes

/-! ## With a history -/

section
variable {γ : Type} (H : History (machine workers) γ)

/-- A configuration with a history. -/
abbrev Recorded (γ : Type) := Config serverInterface Exn (Shared × γ)

/-- `play`, recording. -/
def replay (turns : List Turn) (c : Recorded γ) : Option (Recorded γ) :=
  ((Player.plain workers).recording H).play turns c

variable {H} {init : Recorded γ}

theorem reaches_of_replay {turns : List Turn} {test : Recorded γ → Bool}
    (passes : (replay H turns init).any test = true) :
    ∃ c, ((machine workers).recording H).Reaches Machine.unrestricted init c ∧ test c = true :=
  Player.reaches_of_play passes

end

/-! ## Outsides -/

/-- OpenSSL and SQLite work; every digest is zero. -/
def steadyWorld : World :=
  { (default : World) with
    rand := some (Octets.zeros 16)
    sha256 := fun _ => some (Octets.zeros 32) }

/-- `RAND_bytes` fails. -/
def dryWorld : World := { steadyWorld with rand := none }

/-- The socket delivers one frame, and it parses as `msg`. -/
def deliver (msg : Json) : World :=
  { steadyWorld with
    recvs := [.data ⟨[0, 0, 0, 1, 32], by decide, by decide⟩]
    parse := fun _ => .value msg }

/-- The peer closes the connection. -/
def hangUp : World := { steadyWorld with recvs := [.closed] }

/-- Alice's record is the digest of every password in `steadyWorld`. -/
def aliceDb : Database := { users := [("alice", hex (List.replicate 32 0))] }

/-- A LOGIN of alice. -/
def loginAlice : Json :=
  .object [("type", .string "LOGIN"), ("from", .string "alice"), ("content", .string "pw")]

/-- A LOGIN or REGISTER. -/
def request (type username : String) : Json :=
  .object [("type", .string type), ("from", .string username), ("content", .string "pw")]

/-- A connection is accepted. -/
def accept (fd : Nat) : List Turn :=
  [.event (.newConnection fd "10.0.0.1"), .act 0 1 steadyWorld]

/-- The event loop reads one message and enqueues it. -/
def read (fd : Nat) (msg : Json) : List Turn := [.event (.client fd), .act 0 12 (deliver msg)]

/-- A worker takes the oldest task and performs so many actions of it. -/
def work (t steps : Nat) : List Turn := [.take t, .act t steps steadyWorld]

/-! ## One program after the other -/

/-- The shared state once thread `t` has run a program in an outside, all others idle. -/
def after (t : Nat) (w : World) (p : Proc Unit) (s : Shared) : Shared :=
  (eval (execShared t) w p s).2

/-- The oldest task of the queue, and the state without it. -/
def oldest (s : Shared) : Task := s.server.tasks.headD ⟨⟨0, 0, ""⟩, 0, .null⟩

/-- The state without its oldest task. -/
def dequeue (s : Shared) : Shared :=
  { s with server := { s.server with tasks := s.server.tasks.tail } }

/-- Thread `t` has run the oldest task. -/
def worked (t : Nat) (w : World) (s : Shared) : Shared :=
  after t w (runTask (oldest s)) (dequeue s)

variable {allowed : Nat → Act → Shared → Prop} {s : Shared}

theorem serve_event (e : Event) (w : World)
    (run : (machine workers).Reaches allowed init ⟨s, fun _ => .ret ()⟩)
    (possible : e.possible s.server)
    (permitted : Machine.Permitted (allowed 0) (execShared 0) w e.program s)
    (returns : (eval (execShared 0) w e.program s).1 = .ok ()) :
    (machine workers).Reaches allowed init ⟨after 0 w e.program s, fun _ => .ret ()⟩ :=
  run.serve (machine workers) 0 w e.program s (.event e s possible) permitted returns

theorem start_oldest {t : Nat} (worker : 0 < t ∧ t ≤ workers)
    (queued : s.server.tasks.isEmpty = false) :
    Start workers t (runTask (oldest s)) s (dequeue s) := by
  unfold dequeue oldest
  cases tasks : s.server.tasks with
  | nil =>
    rw [tasks] at queued
    cases queued
  | cons task rest => exact .task worker.1 worker.2 tasks

theorem serve_task (t : Nat) (w : World)
    (run : (machine workers).Reaches allowed init ⟨s, fun _ => .ret ()⟩)
    (worker : 0 < t ∧ t ≤ workers) (queued : s.server.tasks.isEmpty = false)
    (permitted : Machine.Permitted (allowed t) (execShared t) w (runTask (oldest s)) (dequeue s))
    (returns : (eval (execShared t) w (runTask (oldest s)) (dequeue s)).1 = .ok ()) :
    (machine workers).Reaches allowed init ⟨worked t w s, fun _ => .ret ()⟩ :=
  run.serve (machine workers) t w (runTask (oldest s)) (dequeue s) (start_oldest worker queued)
    permitted returns

/-! ## One program after the other, with a history -/

section
variable {γ : Type} {H : History (machine workers) γ} {init : Config serverInterface Exn (Shared × γ)}
  {allowed : Nat → Act → Shared × γ → Prop} {s : Shared × γ}

/-- The oldest task is taken from the queue. -/
def taken (H : History (machine workers) γ) (t : Nat) (s : Shared × γ) : Shared × γ :=
  (dequeue s.1, H.start t s.1 s.2)

theorem record_event (e : Event) (w : World)
    (run : ((machine workers).recording H).Reaches allowed init ⟨s, fun _ => .ret ()⟩)
    (possible : e.possible s.1.server) (unstarted : H.start 0 s.1 s.2 = s.2)
    (permitted : Machine.Permitted (allowed 0) (((machine workers).recording H).exec 0) w e.program s)
    (returns : (eval (((machine workers).recording H).exec 0) w e.program s).1 = .ok ()) :
    ((machine workers).recording H).Reaches allowed init
      ⟨(eval (((machine workers).recording H).exec 0) w e.program s).2, fun _ => .ret ()⟩ :=
  run.serve _ 0 w e.program s ⟨.event e s.1 possible, unstarted.symm⟩ permitted returns

theorem record_task (t : Nat) (w : World)
    (run : ((machine workers).recording H).Reaches allowed init ⟨s, fun _ => .ret ()⟩)
    (worker : 0 < t ∧ t ≤ workers) (queued : s.1.server.tasks.isEmpty = false)
    (permitted : Machine.Permitted (allowed t) (((machine workers).recording H).exec t) w
      (runTask (oldest s.1)) (taken H t s))
    (returns : (eval (((machine workers).recording H).exec t) w (runTask (oldest s.1))
      (taken H t s)).1 = .ok ()) :
    ((machine workers).recording H).Reaches allowed init
      ⟨(eval (((machine workers).recording H).exec t) w (runTask (oldest s.1)) (taken H t s)).2,
        fun _ => .ret ()⟩ :=
  run.serve _ t w (runTask (oldest s.1)) (taken H t s) ⟨start_oldest worker queued, rfl⟩ permitted
    returns

end

/-- No thread is at work on a task or a removal. -/
def Quiet (s : Shared) : Prop := ∀ t, s.aux.job t = none

theorem exec_job_other {t other : Nat} (differs : other ≠ t) (w : World) (action : Act) (s : Shared) :
    (execShared t w action s).2.aux.job other = s.aux.job other := by
  have core := congrArg Core.job (coreOf_exec t w action s)
  have same : ((coreOf s).step t w.dbOk action).job other = s.aux.job other := job_other differs
  rw [← core] at same
  exact same

theorem after_job_other {t other : Nat} (differs : other ≠ t) (w : World) (p : Proc Unit)
    (s : Shared) : (after t w p s).aux.job other = s.aux.job other := by
  unfold after
  induction p generalizing s with
  | ret value => rfl
  | raise error => rfl
  | act action next ih => exact (ih _ _).trans (exec_job_other differs w action s)

/-- Quiet again once the program has ended its job. -/
theorem Quiet.after {t : Nat} {w : World} {p : Proc Unit} (quiet : Quiet s)
    (ended : ((after t w p s).aux.job t).isNone = true) : Quiet (after t w p s) := by
  intro other
  by_cases actor : other = t
  · rw [actor]
    exact Option.isNone_iff_eq_none.mp ended
  · rw [after_job_other actor]
    exact quiet other

theorem Quiet.worked {t : Nat} {w : World} (quiet : Quiet s)
    (ended : ((worked t w s).aux.job t).isNone = true) : Quiet (worked t w s) :=
  Quiet.after (s := dequeue s) quiet ended

/-- A condition that only other threads at work can break is met by a thread alone. -/
theorem permitted_alone {allowed : Act → Shared → Prop} {t : Nat}
    (alone : ∀ action s, (∀ other, other ≠ t → s.aux.job other = none) → allowed action s)
    (w : World) (p : Proc Unit) (quiet : Quiet s) :
    Machine.Permitted allowed (execShared t) w p s := by
  have others : ∀ other, other ≠ t → s.aux.job other = none := fun other _ => quiet other
  clear quiet
  induction p generalizing s with
  | ret value => trivial
  | raise error => trivial
  | act action next ih =>
    refine ⟨alone action s others, ih _ fun other differs => ?_⟩
    exact (exec_job_other differs w action s).trans (others other differs)

end LinuxChat.Guarantees
