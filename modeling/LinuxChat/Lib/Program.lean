import Mathlib.Logic.Function.Basic

/-!
# Programs of atomic actions

A program is a resumption: it returns, raises, or performs one atomic action
and continues with the action's result. What an action does to a shared state
is fixed separately, by a handler, so one program text serves a sequential
reading (`Runs`) and an interleaved one (`Machine.Reaches`, in the next
module). The outside world (clocks, random numbers, library calls) enters each
action as one input `ω`; `Runs` quantifies over every admissible input.
-/

namespace LinuxChat.Lib

/-- The atomic actions a family of programs may perform, with their result types. -/
structure Interface where
  Act : Type
  Res : Act → Type

/-- A tree of actions with one branch for each result. It is finite along every branch. -/
inductive Prog (I : Interface) (ε α : Type) where
  | ret (value : α)
  | raise (error : ε)
  | act (action : I.Act) (next : I.Res action → Prog I ε α)

namespace Prog

variable {I : Interface} {ε α β γ σ ω : Type}

/-- One program after the other. -/
def bind : Prog I ε α → (α → Prog I ε β) → Prog I ε β
  | ret value, f => f value
  | raise error, _ => raise error
  | act action next, f => act action fun result => bind (next result) f

/-- An exception ends the program at the point where it is raised; the handler
takes over in the state reached there. -/
def tryCatch : Prog I ε α → (ε → Prog I ε α) → Prog I ε α
  | ret value, _ => ret value
  | raise error, h => h error
  | act action next, h => act action fun result => tryCatch (next result) h

instance : Monad (Prog I ε) where
  pure := ret
  bind := bind

/-- The program with a program of other actions in place of each action. -/
def translate {J : Interface} (f : (action : I.Act) → Prog J ε (I.Res action)) :
    Prog I ε α → Prog J ε α
  | ret value => .ret value
  | raise error => .raise error
  | act action next => (f action).bind fun result => translate f (next result)

/-- One action, and its result. -/
def call (action : I.Act) : Prog I ε (I.Res action) :=
  act action ret

/-- The value, or the exception. -/
def ofExcept : Except ε α → Prog I ε α
  | .ok value => ret value
  | .error error => raise error

@[simp] theorem pure_eq (value : α) : (pure value : Prog I ε α) = ret value := rfl

@[simp] theorem bind_eq (p : Prog I ε α) (f : α → Prog I ε β) : (p >>= f) = p.bind f := rfl

@[simp] theorem ret_bind (value : α) (f : α → Prog I ε β) : (ret value).bind f = f value := rfl

@[simp] theorem raise_bind (error : ε) (f : α → Prog I ε β) :
    (raise error : Prog I ε α).bind f = raise error := rfl

@[simp] theorem act_bind (action : I.Act) (next : I.Res action → Prog I ε α)
    (f : α → Prog I ε β) :
    (act action next).bind f = act action fun result => (next result).bind f := rfl

@[simp] theorem ofExcept_ok (value : α) :
    (ofExcept (.ok value) : Prog I ε α) = ret value := rfl

@[simp] theorem ofExcept_error (error : ε) :
    (ofExcept (.error error) : Prog I ε α) = raise error := rfl

/-- Every action of the program satisfies `P`, whatever the results are. -/
def Forall (P : I.Act → Prop) : Prog I ε α → Prop
  | ret _ => True
  | raise _ => True
  | act action next => P action ∧ ∀ result, Forall P (next result)

@[simp] theorem forall_ret (P : I.Act → Prop) (value : α) :
    Forall P (ret value : Prog I ε α) := trivial

@[simp] theorem forall_raise (P : I.Act → Prop) (error : ε) :
    Forall P (raise error : Prog I ε α) := trivial

@[simp] theorem forall_act (P : I.Act → Prop) (action : I.Act)
    (next : I.Res action → Prog I ε α) :
    Forall P (act action next) ↔ P action ∧ ∀ result, Forall P (next result) := Iff.rfl

@[simp] theorem forall_call (P : I.Act → Prop) (action : I.Act) :
    Forall P (call action : Prog I ε (I.Res action)) ↔ P action := by
  simp [call]

theorem Forall.bind {P : I.Act → Prop} {p : Prog I ε α} {f : α → Prog I ε β}
    (hp : p.Forall P) (hf : ∀ value, (f value).Forall P) : (p.bind f).Forall P := by
  induction p with
  | ret value => exact hf value
  | raise error => trivial
  | act action next ih => exact ⟨hp.1, fun result => ih result (hp.2 result)⟩

theorem Forall.mono {P P' : I.Act → Prop} {p : Prog I ε α} (h : p.Forall P)
    (imp : ∀ action, P action → P' action) : p.Forall P' := by
  induction p with
  | ret value => trivial
  | raise error => trivial
  | act action next ih => exact ⟨imp action h.1, fun result => ih result (h.2 result)⟩

theorem Forall.tryCatch {P : I.Act → Prop} {p : Prog I ε α} {h : ε → Prog I ε α}
    (hp : p.Forall P) (hh : ∀ error, (h error).Forall P) : (p.tryCatch h).Forall P := by
  induction p with
  | ret value => trivial
  | raise error => exact hh error
  | act action next ih => exact ⟨hp.1, fun result => ih result (hp.2 result)⟩

theorem forall_ofExcept (P : I.Act → Prop) (result : Except ε α) :
    Forall P (ofExcept result : Prog I ε α) := by
  cases result <;> trivial

theorem forall_true (p : Prog I ε α) : p.Forall fun _ => True := by
  induction p with
  | ret value => trivial
  | raise error => trivial
  | act action next ih => exact ⟨trivial, fun result => ih result⟩

/-- The program never raises, whatever the results are. -/
def NoRaise : Prog I ε α → Prop
  | ret _ => True
  | raise _ => False
  | act _ next => ∀ result, NoRaise (next result)

theorem NoRaise.bind {p : Prog I ε α} {f : α → Prog I ε β} (hp : p.NoRaise)
    (hf : ∀ value, (f value).NoRaise) : (p.bind f).NoRaise := by
  induction p with
  | ret value => exact hf value
  | raise error => exact hp.elim
  | act action next ih => exact fun result => ih result (hp result)

/-- Nothing is left to do: the program has returned or raised. -/
def Halted : Prog I ε α → Prop
  | ret _ => True
  | raise _ => True
  | act _ _ => False

instance : (p : Prog I ε α) → Decidable p.Halted
  | ret _ => isTrue trivial
  | raise _ => isTrue trivial
  | act _ _ => isFalse id

/-- What one action does: the external input, the action and the state give
the result and the next state. -/
abbrev Handler (I : Interface) (ω σ : Type) := ω → (action : I.Act) → σ → I.Res action × σ

/-- `Runs exec E p s o s'`: executed alone from `s`, with external inputs that
all satisfy `E`, the program can end in `s'` with outcome `o`. -/
inductive Runs (exec : Handler I ω σ) (E : ω → Prop) :
    Prog I ε α → σ → Except ε α → σ → Prop
  | ret (value : α) (s : σ) : Runs exec E (ret value) s (.ok value) s
  | raise (error : ε) (s : σ) : Runs exec E (raise error) s (.error error) s
  | act {action : I.Act} {next : I.Res action → Prog I ε α} {s s' : σ} {o : Except ε α}
      (input : ω) (admissible : E input)
      (rest : Runs exec E (next (exec input action s).1) (exec input action s).2 o s') :
      Runs exec E (act action next) s o s'

/-- Every sequential execution of `p` from `s` ends in an outcome and a state
satisfying `Q`. -/
def Always (exec : Handler I ω σ) (E : ω → Prop) (p : Prog I ε α) (s : σ)
    (Q : Except ε α → σ → Prop) : Prop :=
  ∀ o s', Runs exec E p s o s' → Q o s'

variable {exec : Handler I ω σ} {E : ω → Prop}

/-- The execution in which every external input is the same `input`. -/
def eval (exec : Handler I ω σ) (input : ω) : Prog I ε α → σ → Except ε α × σ
  | ret value, s => (.ok value, s)
  | raise error, s => (.error error, s)
  | act action next, s =>
      eval exec input (next (exec input action s).1) (exec input action s).2

theorem eval_runs (exec : Handler I ω σ) (E : ω → Prop) (input : ω) (admissible : E input)
    (p : Prog I ε α) (s : σ) :
    Runs exec E p s (eval exec input p s).1 (eval exec input p s).2 := by
  induction p generalizing s with
  | ret value => exact .ret value s
  | raise error => exact .raise error s
  | act action next ih => exact .act input admissible (ih _ _)

theorem eval_bind_ok (exec : Handler I ω σ) (input : ω) {p : Prog I ε α} (f : α → Prog I ε β)
    {s s' : σ} {value : α} (h : eval exec input p s = (.ok value, s')) :
    eval exec input (p.bind f) s = eval exec input (f value) s' := by
  induction p generalizing s with
  | ret value' =>
    cases h
    rfl
  | raise error => cases h
  | act action next ih => exact ih _ h

theorem eval_tryCatch_ok (exec : Handler I ω σ) (input : ω) {p : Prog I ε α}
    (h : ε → Prog I ε α) {s s' : σ} {value : α} (returns : eval exec input p s = (.ok value, s')) :
    eval exec input (p.tryCatch h) s = (.ok value, s') := by
  induction p generalizing s with
  | ret value' =>
    cases returns
    rfl
  | raise error => cases returns
  | act action next ih => exact ih _ returns

@[simp] theorem always_ret (value : α) (s : σ) (Q : Except ε α → σ → Prop) :
    Always exec E (ret value) s Q ↔ Q (.ok value) s := by
  constructor
  · intro h
    exact h _ _ (.ret value s)
  · rintro h o s' ⟨⟩
    exact h

@[simp] theorem always_raise (error : ε) (s : σ) (Q : Except ε α → σ → Prop) :
    Always exec E (raise error : Prog I ε α) s Q ↔ Q (.error error) s := by
  constructor
  · intro h
    exact h _ _ (.raise error s)
  · rintro h o s' ⟨⟩
    exact h

@[simp] theorem always_act (action : I.Act) (next : I.Res action → Prog I ε α) (s : σ)
    (Q : Except ε α → σ → Prop) :
    Always exec E (act action next) s Q ↔
      ∀ input, E input →
        Always exec E (next (exec input action s).1) (exec input action s).2 Q := by
  constructor
  · intro h input admissible o s' rest
    exact h _ _ (.act input admissible rest)
  · rintro h o s' (_ | _ | ⟨input, admissible, rest⟩)
    exact h input admissible o s' rest

@[simp] theorem always_call (action : I.Act) (s : σ)
    (Q : Except ε (I.Res action) → σ → Prop) :
    Always exec E (call action : Prog I ε (I.Res action)) s Q ↔
      ∀ input, E input → Q (.ok (exec input action s).1) (exec input action s).2 := by
  simp [call]

/-- Two properties of every execution hold together of one. -/
theorem Always.both (input : ω) (admissible : E input) {p : Prog I ε α} {s : σ}
    {Q Q' : Except ε α → σ → Prop} (h : Always exec E p s Q) (h' : Always exec E p s Q') :
    ∃ o s', Q o s' ∧ Q' o s' := by
  have run := eval_runs exec E input admissible p s
  exact ⟨_, _, h _ _ run, h' _ _ run⟩

theorem Always.mono {p : Prog I ε α} {s : σ} {Q Q' : Except ε α → σ → Prop}
    (h : Always exec E p s Q) (imp : ∀ o s', Q o s' → Q' o s') : Always exec E p s Q' :=
  fun o s' run => imp o s' (h o s' run)

/-- Fewer external inputs, fewer executions. -/
theorem Always.restrict {E' : ω → Prop} {p : Prog I ε α} {s : σ} {Q : Except ε α → σ → Prop}
    (h : Always exec E p s Q) (fewer : ∀ input, E' input → E input) : Always exec E' p s Q := by
  induction p generalizing s with
  | ret value => exact (always_ret value s Q).mpr ((always_ret value s Q).mp h)
  | raise error => exact (always_raise error s Q).mpr ((always_raise error s Q).mp h)
  | act action next ih =>
    refine (always_act _ _ _ _).mpr fun input admissible => ?_
    exact ih _ ((always_act _ _ _ _).mp h input (fewer input admissible))

/-- The sequence rule: an exception of the first program skips the second. -/
theorem always_bind (p : Prog I ε α) (f : α → Prog I ε β) (s : σ)
    (Q : Except ε β → σ → Prop) :
    Always exec E (p.bind f) s Q ↔
      Always exec E p s fun o s₁ =>
        match o with
        | .ok value => Always exec E (f value) s₁ Q
        | .error error => Q (.error error) s₁ := by
  induction p generalizing s with
  | ret value => simp
  | raise error => simp
  | act action next ih =>
    simp only [act_bind, always_act]
    exact forall_congr' fun input => forall_congr' fun _ => ih _ _

theorem always_tryCatch (p : Prog I ε α) (h : ε → Prog I ε α) (s : σ)
    (Q : Except ε α → σ → Prop) :
    Always exec E (p.tryCatch h) s Q ↔
      Always exec E p s fun o s₁ =>
        match o with
        | .ok value => Q (.ok value) s₁
        | .error error => Always exec E (h error) s₁ Q := by
  induction p generalizing s with
  | ret value => simp [tryCatch]
  | raise error => simp [tryCatch]
  | act action next ih =>
    simp only [tryCatch, always_act]
    exact forall_congr' fun input => forall_congr' fun _ => ih _ _

/-- The sequence rule for a first program that does not raise. -/
theorem always_seq {p : Prog I ε α} {f : α → Prog I ε β} {s : σ} {R : σ → Prop}
    {Q : Except ε β → σ → Prop} (hp : p.NoRaise) (first : Always exec E p s fun _ s₁ => R s₁)
    (second : ∀ value s₁, R s₁ → Always exec E (f value) s₁ Q) :
    Always exec E (p.bind f) s Q := by
  induction p generalizing s with
  | ret value => exact second value s ((always_ret value s _).mp first)
  | raise error => exact hp.elim
  | act action next ih =>
    refine (always_act _ _ _ _).mpr fun input admissible => ?_
    exact ih _ (hp _) ((always_act _ _ _ _).mp first input admissible)

/-- The frame rule: what every action of the program keeps, the program keeps. -/
theorem always_of_forall {H : I.Act → Prop} {P : σ → Prop}
    (step : ∀ action, H action → ∀ s, P s → ∀ input, E input → P (exec input action s).2)
    {p : Prog I ε α} (hp : p.Forall H) {s : σ} (hs : P s) :
    Always exec E p s fun _ s' => P s' := by
  induction p generalizing s with
  | ret value => exact (always_ret value s _).mpr hs
  | raise error => exact (always_raise error s _).mpr hs
  | act action next ih =>
    refine (always_act action next s _).mpr fun input admissible => ?_
    exact ih _ (hp.2 _) (step action hp.1 s hs input admissible)

/-- A handler that also writes down the actions it performs. -/
def logging (exec : Handler I ω σ) : Handler I ω (σ × List I.Act) :=
  fun input action s => ((exec input action s.1).1, (exec input action s.1).2, s.2 ++ [action])

end Prog

end LinuxChat.Lib
