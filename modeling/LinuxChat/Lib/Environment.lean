import LinuxChat.Lib.Monitor

/-!
# Machines in an environment

A machine takes its external inputs from anywhere. An environment has a state of its own and
supplies them from it: what a peer has sent arrives, a clock goes on. What a machine does in an
environment it can do without, so what holds of all its runs holds of those in the environment.
-/

namespace LinuxChat.Lib

variable {I : Interface} {ε σ ω κ ν τ : Type}

/-- From an input of its own, the environment supplies the input of an action and moves on. -/
structure Environment (I : Interface) (ω κ ν : Type) where
  supply : ν → I.Act → κ → ω × κ

namespace Machine

variable (M : Machine I ε σ ω) (E : Environment I ω κ ν)

/-- The machine with the environment beside its state. -/
def within : Machine I ε (σ × κ) ν where
  exec t input action s :=
    ((M.exec t (E.supply input action s.2).1 action s.1).1,
      (M.exec t (E.supply input action s.2).1 action s.1).2, (E.supply input action s.2).2)
  spawn t p s s' := M.spawn t p s.1 s'.1 ∧ s'.2 = s.2

variable {M E}

/-- A run in the environment is a run. -/
theorem Reaches.outside {allowed : Nat → I.Act → σ × κ → Prop} {init c : Config I ε (σ × κ)}
    (run : (M.within E).Reaches allowed init c) :
    M.Reaches unrestricted (Machine.forget init) (Machine.forget c) := by
  induction run with
  | refl => exact .refl
  | tail run step ih =>
    refine ih.tail ?_
    cases step with
    | act input running ok => exact .act (E.supply input _ _).1 running trivial
    | spawn idle start => exact .spawn idle start.1

/-- What a monitor knows of the programs it knows in every environment. -/
theorem Follows.within {m : Monitor I τ} {view : σ → Nat → τ} {done : Except ε Unit → τ → Prop}
    (follows : Follows M m view done) :
    Follows (M.within E) m (fun s => view s.1) done where
  acts t input action s u := follows.acts t (E.supply input action s.2).1 action s.1 u
  starts t p s s' start := follows.starts t p s.1 s'.1 start.1

end Machine

end LinuxChat.Lib
