import LinuxChat.Lib.Program

/-!
# Interleaved programs and a rely-guarantee logic

A machine runs one program per thread over a shared state, one atomic action at
a time, in any order; a thread whose program has returned may start a new one.
`Reaches allowed` is the run relation restricted to steps that satisfy
`allowed`; the unrestricted runs are those with `allowed` always true.

A discipline fixes an invariant of the shared state and, for every thread, what
that thread relies on the others for. `Discipline.wp` is the weakest
precondition of a thread's program against it: before each action the others
may have moved the state along the rely, and the action must keep the invariant
and every other thread's rely. `Discipline.sound` is the one induction over runs:
it turns a `wp` for every program a thread may start into an invariant of every
reachable configuration.
-/

namespace LinuxChat.Lib

open Prog

/-- Atomic actions are handled per thread, so that a state may record who acts.
`spawn t p s s'`: an idle thread `t` may start program `p`, moving the state. -/
structure Machine (I : Interface) (ε σ ω : Type) where
  exec : Nat → Handler I ω σ
  spawn : Nat → Prog I ε Unit → σ → σ → Prop

/-- The shared state, and what each thread has left to do. -/
structure Config (I : Interface) (ε σ : Type) where
  shared : σ
  thread : Nat → Prog I ε Unit

/-- No thread has anything left to do. -/
def Config.Quiescent {I : Interface} {ε σ : Type} (c : Config I ε σ) : Prop :=
  ∀ t, (c.thread t).Halted

namespace Machine

variable {I : Interface} {ε σ ω : Type} (M : Machine I ε σ ω)

/-- One step of one thread; the action taken must be `allowed` where it is taken. -/
inductive Step (allowed : Nat → I.Act → σ → Prop) : Config I ε σ → Config I ε σ → Prop
  | act {c : Config I ε σ} {t : Nat} {action : I.Act} {next : I.Res action → Prog I ε Unit}
      (input : ω) (running : c.thread t = .act action next) (ok : allowed t action c.shared) :
      Step allowed c
        ⟨(M.exec t input action c.shared).2,
          Function.update c.thread t (next (M.exec t input action c.shared).1)⟩
  | spawn {c : Config I ε σ} {t : Nat} {p : Prog I ε Unit} {s' : σ}
      (idle : c.thread t = .ret ()) (start : M.spawn t p c.shared s') :
      Step allowed c ⟨s', Function.update c.thread t p⟩

/-- What the steps that are allowed lead to. -/
inductive Reaches (allowed : Nat → I.Act → σ → Prop) (init : Config I ε σ) :
    Config I ε σ → Prop
  | refl : Reaches allowed init init
  | tail {c c' : Config I ε σ} (run : Reaches allowed init c) (step : M.Step allowed c c') :
      Reaches allowed init c'

/-- Every step is allowed. -/
def unrestricted : Nat → I.Act → σ → Prop := fun _ _ _ => True

/-- Let thread `t` perform its next action, if it has one. -/
def advance (t : Nat) (input : ω) (c : Config I ε σ) : Config I ε σ :=
  match c.thread t with
  | .act action next =>
      ⟨(M.exec t input action c.shared).2,
        Function.update c.thread t (next (M.exec t input action c.shared).1)⟩
  | _ => c

/-- Let the threads of a schedule act in turn, each with its external input. -/
def follow (schedule : List (Nat × ω)) (c : Config I ε σ) : Config I ε σ :=
  schedule.foldl (fun c turn => M.advance turn.1 turn.2 c) c

theorem Reaches.advance {init c : Config I ε σ} (run : M.Reaches unrestricted init c)
    (t : Nat) (input : ω) : M.Reaches unrestricted init (M.advance t input c) := by
  unfold Machine.advance
  split
  next action next running => exact .tail run (.act input running trivial)
  next => exact run

theorem Reaches.follow {init : Config I ε σ} (schedule : List (Nat × ω)) {c : Config I ε σ}
    (run : M.Reaches unrestricted init c) :
    M.Reaches unrestricted init (M.follow schedule c) := by
  induction schedule generalizing c with
  | nil => exact run
  | cons turn rest ih => exact ih (run.advance M turn.1 turn.2)

/-- A run goes on where another has led. -/
theorem Reaches.trans {M : Machine I ε σ ω} {allowed : Nat → I.Act → σ → Prop}
    {init c c' : Config I ε σ} (first : M.Reaches allowed init c)
    (second : M.Reaches allowed c c') : M.Reaches allowed init c' := by
  induction second with
  | refl => exact first
  | tail _ step ih => exact ih.tail step

/-- Fewer steps allowed, fewer runs. -/
theorem Reaches.mono {allowed allowed' : Nat → I.Act → σ → Prop} {init c : Config I ε σ}
    (imp : ∀ t action s, allowed t action s → allowed' t action s)
    (run : M.Reaches allowed init c) : M.Reaches allowed' init c := by
  induction run with
  | refl => exact .refl
  | tail _ step ih =>
    cases step with
    | act input running ok => exact ih.tail (.act input running (imp _ _ _ ok))
    | spawn idle start => exact ih.tail (.spawn idle start)

/-- What holds of every action that is about to be taken can be asked of the steps as well. -/
theorem Reaches.also {allowed extra : Nat → I.Act → σ → Prop} {init c : Config I ε σ}
    (holds : ∀ c t action next, M.Reaches allowed init c → c.thread t = .act action next →
      extra t action c.shared)
    (run : M.Reaches allowed init c) :
    M.Reaches (fun t action s => allowed t action s ∧ extra t action s) init c := by
  induction run with
  | refl => exact .refl
  | tail run step ih =>
    refine ih.tail ?_
    cases step with
    | act input running ok => exact .act input running ⟨ok, holds _ _ _ _ run running⟩
    | spawn idle start => exact .spawn idle start

/-- More programs to start, more runs. -/
theorem Reaches.of_spawns {M M' : Machine I ε σ ω} {allowed : Nat → I.Act → σ → Prop}
    {init c : Config I ε σ} (run : M.Reaches allowed init c) (same : M'.exec = M.exec)
    (more : ∀ t p s s', M.spawn t p s s' → M'.spawn t p s s') : M'.Reaches allowed init c := by
  induction run with
  | refl => exact .refl
  | tail _ step ih =>
    refine ih.tail ?_
    cases step with
    | act input running ok =>
      rw [← same]
      exact .act input running ok
    | spawn idle start => exact .spawn idle (more _ _ _ _ start)

theorem Reaches.spawn {allowed : Nat → I.Act → σ → Prop} {init c : Config I ε σ}
    (run : M.Reaches allowed init c) (t : Nat) (p : Prog I ε Unit) (s' : σ)
    (idle : c.thread t = .ret ()) (start : M.spawn t p c.shared s') :
    M.Reaches allowed init ⟨s', Function.update c.thread t p⟩ :=
  .tail run (.spawn idle start)

/-- What holds of the programs that start, and goes on from action to action, holds of
every thread's program. -/
theorem Reaches.programs {T : Nat → Prog I ε Unit → Prop} {allowed : Nat → I.Act → σ → Prop}
    {init c : Config I ε σ} (start : ∀ t, T t (init.thread t))
    (acts : ∀ t action next, T t (.act action next) → ∀ result, T t (next result))
    (spawns : ∀ t p s s', M.spawn t p s s' → T t p) (run : M.Reaches allowed init c) (t : Nat) :
    T t (c.thread t) := by
  induction run with
  | refl => exact start t
  | @tail c c' _ step ih =>
    cases step with
    | @act u action next input running ok =>
      by_cases actor : t = u
      · subst actor
        rw [running] at ih
        dsimp only
        rw [Function.update_self]
        exact acts t action next ih _
      · dsimp only
        rw [Function.update_of_ne actor]
        exact ih
    | @spawn u p s' idle started =>
      by_cases actor : t = u
      · subst actor
        dsimp only
        rw [Function.update_self]
        exact spawns t p c.shared s' started
      · dsimp only
        rw [Function.update_of_ne actor]
        exact ih

/-- Executed alone with the same external input throughout, the program performs
allowed actions only. -/
def Permitted {α : Type} (allowed : I.Act → σ → Prop) (exec : Handler I ω σ) (input : ω) :
    Prog I ε α → σ → Prop
  | .ret _, _ => True
  | .raise _, _ => True
  | .act action next, s =>
      allowed action s ∧
        Permitted allowed exec input (next (exec input action s).1) (exec input action s).2

instance {α : Type} (allowed : I.Act → σ → Prop) [∀ action s, Decidable (allowed action s)]
    (exec : Handler I ω σ) (input : ω) :
    (p : Prog I ε α) → (s : σ) → Decidable (Permitted allowed exec input p s)
  | .ret _, _ => isTrue trivial
  | .raise _, _ => isTrue trivial
  | .act action next, s =>
      have : Decidable (Permitted allowed exec input (next (exec input action s).1)
          (exec input action s).2) :=
        instDecidablePermitted allowed exec input _ _
      inferInstanceAs (Decidable (_ ∧ _))

theorem permitted_unrestricted {α : Type} (t : Nat) (exec : Handler I ω σ) (input : ω)
    (p : Prog I ε α) (s : σ) : Permitted (unrestricted t) exec input p s := by
  induction p generalizing s with
  | ret value => trivial
  | raise error => trivial
  | act action next ih => exact ⟨trivial, ih _ _⟩

theorem Permitted.mono {α : Type} {allowed allowed' : I.Act → σ → Prop} {exec : Handler I ω σ}
    {input : ω} (imp : ∀ action s, allowed action s → allowed' action s) {p : Prog I ε α} {s : σ}
    (h : Permitted allowed exec input p s) : Permitted allowed' exec input p s := by
  induction p generalizing s with
  | ret value => trivial
  | raise error => trivial
  | act action next ih => exact ⟨imp action s h.1, ih _ h.2⟩

theorem Permitted.mp {α : Type} {allowed allowed' : I.Act → σ → Prop} {exec : Handler I ω σ}
    {input : ω} {p : Prog I ε α} {s : σ}
    (imp : Permitted (fun action s => allowed action s → allowed' action s) exec input p s)
    (h : Permitted allowed exec input p s) : Permitted allowed' exec input p s := by
  induction p generalizing s with
  | ret value => trivial
  | raise error => trivial
  | act action next ih => exact ⟨imp.1 h.1, ih _ imp.2 h.2⟩

/-- One thread runs to the end of its program while the others wait. -/
theorem Reaches.solo {allowed : Nat → I.Act → σ → Prop} {init c : Config I ε σ}
    (run : M.Reaches allowed init c) (t : Nat) (input : ω) (p : Prog I ε Unit)
    (running : c.thread t = p) (permitted : Permitted (allowed t) (M.exec t) input p c.shared)
    (returns : (eval (M.exec t) input p c.shared).1 = .ok ()) :
    M.Reaches allowed init
      ⟨(eval (M.exec t) input p c.shared).2, Function.update c.thread t (.ret ())⟩ := by
  induction p generalizing c with
  | ret value =>
    have same : Function.update c.thread t (.ret ()) = c.thread := by
      rw [← running]
      exact Function.update_eq_self t c.thread
    rw [same]
    exact run
  | raise error => cases returns
  | act action next ih =>
    have step := Reaches.tail run (.act input running permitted.1)
    have acted := Function.update_self t (next (M.exec t input action c.shared).1) c.thread
    have rest := ih _ step acted permitted.2 returns
    rw [Function.update_idem] at rest
    exact rest

/-- With all threads idle, one of them runs a program from start to end. -/
theorem Reaches.serve {allowed : Nat → I.Act → σ → Prop} {init : Config I ε σ} {s : σ}
    (run : M.Reaches allowed init ⟨s, fun _ => .ret ()⟩) (t : Nat) (input : ω)
    (p : Prog I ε Unit) (s' : σ) (start : M.spawn t p s s')
    (permitted : Permitted (allowed t) (M.exec t) input p s')
    (returns : (eval (M.exec t) input p s').1 = .ok ()) :
    M.Reaches allowed init ⟨(eval (M.exec t) input p s').2, fun _ => .ret ()⟩ := by
  have started := run.spawn M t p s' rfl start
  have running : Function.update (fun _ : Nat => (.ret () : Prog I ε Unit)) t p t = p :=
    Function.update_self _ _ _
  have done := started.solo M t input p running permitted returns
  rw [Function.update_idem, Function.update_eq_self] at done
  exact done

end Machine

/-- What the threads of `M` agree on: an invariant, which steps are assumed to
be taken, and what each thread relies on the others for. -/
structure Discipline {I : Interface} {ε σ ω : Type} (M : Machine I ε σ ω) where
  inv : σ → Prop
  allowed : Nat → I.Act → σ → Prop
  rely : Nat → σ → σ → Prop
  rely_refl : ∀ t s, rely t s s
  rely_trans : ∀ t s₁ s₂ s₃, rely t s₁ s₂ → rely t s₂ s₃ → rely t s₁ s₃

namespace Discipline

variable {I : Interface} {ε σ ω α β : Type} {M : Machine I ε σ ω} (D : Discipline M)

/-- A step of thread `t` keeps the invariant and what every other thread relies on. -/
def Keeps (t : Nat) (s s' : σ) : Prop :=
  D.inv s' ∧ ∀ other, other ≠ t → D.rely other s s'

/-- An assertion of thread `t` that the other threads cannot invalidate. -/
def Stable (t : Nat) (P : σ → Prop) : Prop :=
  ∀ s s', D.rely t s s' → P s → P s'

/-- What has to hold of the state for thread `t` to run the program: wherever the others may have
brought the state, an action that is allowed there keeps the discipline, and the program ends in
`Q` or `X`. -/
def wp (t : Nat) (Q : α → σ → Prop) (X : ε → σ → Prop) : Prog I ε α → σ → Prop
  | .ret value, s => Q value s
  | .raise error, s => X error s
  | .act action next, s =>
      ∀ s₁, D.rely t s s₁ → D.inv s₁ → D.allowed t action s₁ → ∀ input,
        D.Keeps t s₁ (M.exec t input action s₁).2 ∧
          wp t Q X (next (M.exec t input action s₁).1) (M.exec t input action s₁).2

variable {D} {t : Nat} {Q : α → σ → Prop} {X : ε → σ → Prop}

@[simp] theorem wp_ret (value : α) (s : σ) : D.wp t Q X (.ret value) s ↔ Q value s := Iff.rfl

@[simp] theorem wp_raise (error : ε) (s : σ) :
    D.wp t Q X (.raise error : Prog I ε α) s ↔ X error s := Iff.rfl

/-- The action rule: hold a stable assertion up to the action, then execute it. -/
theorem wp_act {P : σ → Prop} (stable : D.Stable t P) {action : I.Act}
    {next : I.Res action → Prog I ε α} {s : σ} (hP : P s)
    (h : ∀ s₁, P s₁ → D.inv s₁ → D.allowed t action s₁ → ∀ input,
      D.Keeps t s₁ (M.exec t input action s₁).2 ∧
        D.wp t Q X (next (M.exec t input action s₁).1) (M.exec t input action s₁).2) :
    D.wp t Q X (.act action next) s :=
  fun s₁ moved inv ok input => h s₁ (stable s s₁ moved hP) inv ok input

theorem wp_mono {p : Prog I ε α} {s : σ} {Q' : α → σ → Prop} {X' : ε → σ → Prop}
    (h : D.wp t Q X p s) (hQ : ∀ value s, Q value s → Q' value s)
    (hX : ∀ error s, X error s → X' error s) : D.wp t Q' X' p s := by
  induction p generalizing s with
  | ret value => exact hQ value s h
  | raise error => exact hX error s h
  | act action next ih =>
    intro s₁ moved inv ok input
    obtain ⟨keeps, rest⟩ := h s₁ moved inv ok input
    exact ⟨keeps, ih _ rest⟩

/-- A program that never raises meets any exceptional postcondition. -/
theorem wp_noRaise {p : Prog I ε α} {s : σ} {Y : ε → σ → Prop} (quiet : p.NoRaise)
    (h : D.wp t Q X p s) : D.wp t Q Y p s := by
  induction p generalizing s with
  | ret value => exact h
  | raise error => exact quiet.elim
  | act action next ih =>
    intro s₁ moved inv ok input
    obtain ⟨keeps, rest⟩ := h s₁ moved inv ok input
    exact ⟨keeps, ih _ (quiet _) rest⟩

theorem wp_bind (p : Prog I ε α) (f : α → Prog I ε β) (s : σ) {Q : β → σ → Prop} :
    D.wp t Q X (p.bind f) s ↔ D.wp t (fun value s₁ => D.wp t Q X (f value) s₁) X p s := by
  induction p generalizing s with
  | ret value => exact Iff.rfl
  | raise error => exact Iff.rfl
  | act action next ih =>
    refine forall_congr' fun s₁ => forall_congr' fun _ => forall_congr' fun _ =>
      forall_congr' fun _ => forall_congr' fun input => and_congr_right fun _ => ih _ _

/-- The sequence rule: the second program starts where the first one returns. -/
theorem wp_seq {p : Prog I ε α} {f : α → Prog I ε β} {s : σ} {R : α → σ → Prop}
    {Y : ε → σ → Prop} {Q : β → σ → Prop} (first : D.wp t R Y p s)
    (second : ∀ value s₁, R value s₁ → D.wp t Q X (f value) s₁)
    (exits : ∀ error s₁, Y error s₁ → X error s₁) : D.wp t Q X (p.bind f) s :=
  (wp_bind p f s).mpr (wp_mono first second exits)

theorem wp_tryCatch (p : Prog I ε α) (h : ε → Prog I ε α) (s : σ) :
    D.wp t Q X (p.tryCatch h) s ↔ D.wp t Q (fun error s₁ => D.wp t Q X (h error) s₁) p s := by
  induction p generalizing s with
  | ret value => exact Iff.rfl
  | raise error => exact Iff.rfl
  | act action next ih =>
    refine forall_congr' fun s₁ => forall_congr' fun _ => forall_congr' fun _ =>
      forall_congr' fun _ => forall_congr' fun input => and_congr_right fun _ => ih _ _

/-- Steps of the other threads do not invalidate a precondition. -/
theorem wp_stable (hQ : ∀ value, D.Stable t (Q value)) (hX : ∀ error, D.Stable t (X error))
    (p : Prog I ε α) : D.Stable t (D.wp t Q X p) := by
  intro s s' moved h
  cases p with
  | ret value => exact hQ value s s' moved h
  | raise error => exact hX error s s' moved h
  | act action next =>
    intro s₁ moved' inv ok input
    exact h s₁ (D.rely_trans t s s' s₁ moved moved') inv ok input

/-- The frame rule: a program all of whose actions keep a stable assertion
needs no proof of its own. -/
theorem wp_of_forall {H : I.Act → Prop} {P : σ → Prop} (stable : D.Stable t P)
    (step : ∀ action, H action → ∀ s, P s → D.inv s → D.allowed t action s → ∀ input,
      D.Keeps t s (M.exec t input action s).2 ∧ P (M.exec t input action s).2)
    (hQ : ∀ value s, P s → Q value s) (hX : ∀ error s, P s → X error s)
    {p : Prog I ε α} (hp : p.Forall H) {s : σ} (hs : P s) : D.wp t Q X p s := by
  induction p generalizing s with
  | ret value => exact hQ value s hs
  | raise error => exact hX error s hs
  | act action next ih =>
    refine wp_act stable hs fun s₁ hs₁ inv ok input => ?_
    obtain ⟨keeps, after⟩ := step action hp.1 s₁ hs₁ inv ok input
    exact ⟨keeps, ih _ (hp.2 _) after⟩

variable (D)

/-- Every program a thread may start meets its precondition: with `done t` true
of an idle thread `t`, starting and running the program restores `done t`. -/
structure Verified (done : Nat → σ → Prop) : Prop where
  stable : ∀ t, D.Stable t (done t)
  spawn : ∀ t p s s', D.inv s → done t s → M.spawn t p s s' →
    D.Keeps t s s' ∧ D.wp t (fun _ => done t) (fun _ => done t) p s'

/-- What holds of every configuration the disciplined runs reach. -/
structure Holds (done : Nat → σ → Prop) (c : Config I ε σ) : Prop where
  inv : D.inv c.shared
  threads : ∀ t, D.wp t (fun _ => done t) (fun _ => done t) (c.thread t) c.shared

variable {D} {done : Nat → σ → Prop}

theorem Holds.step (verified : D.Verified done) {c c' : Config I ε σ} (h : D.Holds done c)
    (step : M.Step D.allowed c c') : D.Holds done c' := by
  -- a step rewrites one thread's program and moves the others along their rely
  have settle : ∀ (t : Nat) (p : Prog I ε Unit) (s' : σ), D.Keeps t c.shared s' →
      D.wp t (fun _ => done t) (fun _ => done t) p s' →
      D.Holds done ⟨s', Function.update c.thread t p⟩ := by
    intro t p s' keeps own
    refine ⟨keeps.1, fun other => ?_⟩
    by_cases same : other = t
    · subst other
      simpa using own
    · simp only [Function.update_of_ne same]
      exact wp_stable (fun _ => verified.stable other) (fun _ => verified.stable other) _
        c.shared s' (keeps.2 other same) (h.threads other)
  cases step with
  | @act t action next input running ok =>
    have own := h.threads t
    rw [running] at own
    obtain ⟨keeps, rest⟩ := own c.shared (D.rely_refl t c.shared) h.inv ok input
    exact settle t _ _ keeps rest
  | @spawn t p s' idle start =>
    have own := h.threads t
    rw [idle] at own
    obtain ⟨keeps, rest⟩ := verified.spawn t p c.shared s' h.inv own start
    exact settle t p s' keeps rest

/-- The run rule: a verified discipline holds of every reachable configuration. -/
theorem sound (verified : D.Verified done) {init c : Config I ε σ} (start : D.Holds done init)
    (run : M.Reaches D.allowed init c) : D.Holds done c := by
  induction run with
  | refl => exact start
  | tail _ step ih => exact ih.step verified step

/-- An idle thread of a reachable configuration is in its `done` state. -/
theorem Holds.idle {c : Config I ε σ} (h : D.Holds done c) {t : Nat}
    (idle : c.thread t = .ret ()) : done t c.shared := by
  have own := h.threads t
  rwa [idle] at own

/-- So is a thread that has nothing more to do. -/
theorem Holds.halted {c : Config I ε σ} (h : D.Holds done c) {t : Nat}
    (halted : (c.thread t).Halted) : done t c.shared := by
  have own := h.threads t
  cases program : c.thread t with
  | ret value =>
    rw [program] at own
    exact own
  | raise error =>
    rw [program] at own
    exact own
  | act action next =>
    rw [program] at halted
    cases halted

end Discipline

end LinuxChat.Lib
