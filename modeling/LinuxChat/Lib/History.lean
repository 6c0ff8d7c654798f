import LinuxChat.Lib.RelyGuarantee

/-!
# History variables

A history variable is written next to every step of a machine and read by no
program: it remembers what the state alone does not tell. A machine that records one
has the runs of the machine it records, with the variable on top, so a property of
its reachable states that does not mention the variable is one of the machine's own.
-/

namespace LinuxChat.Lib

variable {I : Interface} {ε σ ω γ δ : Type}

/-- How the variable follows an action, given the result and the states around it, and
the start of a program. -/
structure History (M : Machine I ε σ ω) (γ : Type) where
  record : Nat → (action : I.Act) → I.Res action → σ → σ → γ → γ
  start : Nat → σ → γ → γ

/-- Two variables written side by side. -/
def History.both {M : Machine I ε σ ω} (H : History M γ) (H' : History M δ) : History M (γ × δ) where
  record t action result s s' g :=
    (H.record t action result s s' g.1, H'.record t action result s s' g.2)
  start t s g := (H.start t s g.1, H'.start t s g.2)

/-- Beside a variable, whether all actions so far have passed a test. -/
def History.tested {M : Machine I ε σ ω} (H : History M γ) (test : Nat → I.Act → σ × γ → Bool) :
    History M (γ × Bool) where
  record t action result s s' g :=
    (H.record t action result s s' g.1, g.2 && test t action (s, g.1))
  start t s g := (H.start t s g.1, g.2)

namespace Machine

variable (M : Machine I ε σ ω) (H : History M γ)

/-- The machine with the history beside its state. The history takes no part in the steps. -/
def recording : Machine I ε (σ × γ) ω where
  exec t input action s :=
    ((M.exec t input action s.1).1, (M.exec t input action s.1).2,
      H.record t action (M.exec t input action s.1).1 s.1 (M.exec t input action s.1).2 s.2)
  spawn t p s s' := M.spawn t p s.1 s'.1 ∧ s'.2 = H.start t s.1 s.2

/-- The configuration without the variable. -/
def forget (c : Config I ε (σ × γ)) : Config I ε σ :=
  ⟨c.shared.1, c.thread⟩

variable {M} {H}

theorem Step.forget {allowed : Nat → I.Act → σ × γ → Prop} {c c' : Config I ε (σ × γ)}
    (step : (M.recording H).Step allowed c c') :
    M.Step unrestricted (Machine.forget c) (Machine.forget c') := by
  cases step with
  | act input running ok => exact .act input running trivial
  | spawn idle start => exact .spawn idle start.1

theorem Step.record {c c' : Config I ε σ} (step : M.Step unrestricted c c') (g : γ) :
    ∃ g', (M.recording H).Step unrestricted ⟨(c.shared, g), c.thread⟩
      ⟨(c'.shared, g'), c'.thread⟩ := by
  cases step with
  | @act t action next input running ok =>
    exact ⟨H.record t action (M.exec t input action c.shared).1 c.shared
      (M.exec t input action c.shared).2 g, .act input running trivial⟩
  | @spawn t p s' idle start =>
    have started : (M.recording H).spawn t p (c.shared, g) (s', H.start t c.shared g) :=
      ⟨start, rfl⟩
    exact ⟨H.start t c.shared g, .spawn idle started⟩

/-- A recorded run is a run. -/
theorem Reaches.forget {allowed : Nat → I.Act → σ × γ → Prop} {init c : Config I ε (σ × γ)}
    (run : (M.recording H).Reaches allowed init c) :
    M.Reaches unrestricted (Machine.forget init) (Machine.forget c) := by
  induction run with
  | refl => exact .refl
  | tail run step ih => exact ih.tail step.forget

/-- Every run can be recorded. -/
theorem Reaches.record {init c : Config I ε σ} (run : M.Reaches unrestricted init c) (g : γ) :
    ∃ g', (M.recording H).Reaches unrestricted ⟨(init.shared, g), init.thread⟩
      ⟨(c.shared, g'), c.thread⟩ := by
  induction run with
  | refl => exact ⟨g, .refl⟩
  | tail run step ih =>
    obtain ⟨g₁, recorded⟩ := ih
    obtain ⟨g₂, next⟩ := step.record (H := H) g₁
    exact ⟨g₂, recorded.tail next⟩

/-- A run whose actions have all passed a test is one whose steps are allowed, if in the states
that such runs reach the test is enough. -/
theorem Reaches.of_tested {test : Nat → I.Act → σ × γ → Bool}
    {allowed : Nat → I.Act → σ × γ → Prop} {init c : Config I ε (σ × γ × Bool)}
    (sound : ∀ c, (M.recording H).Reaches allowed
        ⟨(init.shared.1, init.shared.2.1), init.thread⟩ c →
      ∀ t action, test t action c.shared = true → allowed t action c.shared)
    (run : (M.recording (H.tested test)).Reaches unrestricted init c)
    (passed : c.shared.2.2 = true) :
    (M.recording H).Reaches allowed ⟨(init.shared.1, init.shared.2.1), init.thread⟩
      ⟨(c.shared.1, c.shared.2.1), c.thread⟩ := by
  induction run with
  | refl => exact .refl
  | tail run step ih =>
    cases step with
    | act input running ok =>
      obtain ⟨earlier, passes⟩ := Bool.and_eq_true_iff.mp passed
      have before := ih earlier
      exact before.tail (.act input running (sound _ before _ _ passes))
    | spawn idle start =>
      obtain ⟨started, kept⟩ := start
      have earlier : _ = true := (congrArg (fun g => g.2) kept).symm.trans passed
      exact (ih earlier).tail (.spawn idle ⟨started, congrArg Prod.fst kept⟩)

variable {H' : History M δ}

/-- A run that writes two variables is one that writes the first. -/
theorem Reaches.first {allowed : Nat → I.Act → σ × γ × δ → Prop}
    {allowed' : Nat → I.Act → σ × γ → Prop} {init c : Config I ε (σ × γ × δ)}
    (run : (M.recording (H.both H')).Reaches allowed init c)
    (imp : ∀ t action s, allowed t action s → allowed' t action (s.1, s.2.1)) :
    (M.recording H).Reaches allowed' ⟨(init.shared.1, init.shared.2.1), init.thread⟩
      ⟨(c.shared.1, c.shared.2.1), c.thread⟩ := by
  induction run with
  | refl => exact .refl
  | tail run step ih =>
    refine ih.tail ?_
    cases step with
    | act input running ok => exact .act input running (imp _ _ _ ok)
    | spawn idle start => exact .spawn idle ⟨start.1, congrArg Prod.fst start.2⟩

theorem Reaches.second {allowed : Nat → I.Act → σ × γ × δ → Prop}
    {allowed' : Nat → I.Act → σ × δ → Prop} {init c : Config I ε (σ × γ × δ)}
    (run : (M.recording (H.both H')).Reaches allowed init c)
    (imp : ∀ t action s, allowed t action s → allowed' t action (s.1, s.2.2)) :
    (M.recording H').Reaches allowed' ⟨(init.shared.1, init.shared.2.2), init.thread⟩
      ⟨(c.shared.1, c.shared.2.2), c.thread⟩ := by
  induction run with
  | refl => exact .refl
  | tail run step ih =>
    refine ih.tail ?_
    cases step with
    | act input running ok => exact .act input running (imp _ _ _ ok)
    | spawn idle start => exact .spawn idle ⟨start.1, congrArg Prod.snd start.2⟩

end Machine

end LinuxChat.Lib
