import LinuxChat.Lib.History

/-!
# Monitors of programs

A monitor follows the actions of one thread and their results, whatever they are: it
moves a state of its own and admits some actions in each state. That a program meets a
monitor is a fact about its text alone. In a machine whose state holds the monitor state
of every thread, programs that meet the monitor when they start meet it in every
configuration reached.
-/

namespace LinuxChat.Lib

open Prog

/-- A state that follows a program's actions and their results, and the actions that are
acceptable in it. -/
structure Monitor (I : Interface) (τ : Type) where
  next : τ → (action : I.Act) → I.Res action → τ
  ok : τ → I.Act → Prop

namespace Prog

variable {I : Interface} {ε α β τ : Type} (m : Monitor I τ)

/-- From monitor state `s` every action is admitted, and the end satisfies `Q`. -/
def Meets (Q : Except ε α → τ → Prop) : Prog I ε α → τ → Prop
  | ret value, s => Q (.ok value) s
  | raise error, s => Q (.error error) s
  | act action next, s => m.ok s action ∧ ∀ result, Meets Q (next result) (m.next s action result)

variable {m} {Q Q' : Except ε α → τ → Prop}

/-- A program that has come to its end has left the monitor as it was to leave it. -/
theorem Meets.of_halted {p : Prog I ε α} {s : τ} (h : p.Meets m Q s) (halted : p.Halted) :
    ∃ outcome, Q outcome s := by
  cases p with
  | ret value => exact ⟨.ok value, h⟩
  | raise error => exact ⟨.error error, h⟩
  | act action next => exact halted.elim

theorem Meets.mono {p : Prog I ε α} {s : τ} (h : p.Meets m Q s)
    (imp : ∀ o s, Q o s → Q' o s) : p.Meets m Q' s := by
  induction p generalizing s with
  | ret value => exact imp _ _ h
  | raise error => exact imp _ _ h
  | act action next ih => exact ⟨h.1, fun result => ih result (h.2 result)⟩

/-- The sequence rule: an exception of the first program skips the second. -/
theorem Meets.bind {p : Prog I ε α} {f : α → Prog I ε β} {s : τ} {R : Except ε β → τ → Prop}
    (h : p.Meets m Q s) (values : ∀ value s, Q (.ok value) s → (f value).Meets m R s)
    (errors : ∀ error s, Q (.error error) s → R (.error error) s) : (p.bind f).Meets m R s := by
  induction p generalizing s with
  | ret value => exact values _ _ h
  | raise error => exact errors _ _ h
  | act action next ih => exact ⟨h.1, fun result => ih result (h.2 result)⟩

theorem Meets.tryCatch {p : Prog I ε α} {handle : ε → Prog I ε α} {s : τ}
    (h : p.Meets m Q s) (values : ∀ value s, Q (.ok value) s → Q' (.ok value) s)
    (errors : ∀ error s, Q (.error error) s → (handle error).Meets m Q' s) :
    (p.tryCatch handle).Meets m Q' s := by
  induction p generalizing s with
  | ret value => exact values _ _ h
  | raise error => exact errors _ _ h
  | act action next ih => exact ⟨h.1, fun result => ih result (h.2 result)⟩

/-- A translated program meets a monitor if the translation of each action does; `R`
relates the states of the monitors before and after it. -/
theorem Meets.translate {J : Interface} {τ' : Type} {m' : Monitor J τ'}
    {f : (action : I.Act) → Prog J ε (I.Res action)} {R : τ → τ' → Prop} {p : Prog I ε α} {s : τ}
    (h : p.Meets m Q s)
    (steps : ∀ action s s', m.ok s action → R s s' → (f action).Meets m'
      (fun o s₁ => ∃ result, o = .ok result ∧ R (m.next s action result) s₁) s')
    {s' : τ'} (related : R s s') :
    (p.translate f).Meets m' (fun o s₁ => ∃ s₂, Q o s₂ ∧ R s₂ s₁) s' := by
  induction p generalizing s s' with
  | ret value => exact ⟨s, h, related⟩
  | raise error => exact ⟨s, h, related⟩
  | act action next ih =>
    apply Meets.bind (steps action s s' h.1 related)
    · intro value s₁ ended
      obtain ⟨result, returned, related'⟩ := ended
      cases returned
      exact ih value (h.2 value) related'
    · intro error s₁ ended
      obtain ⟨result, impossible, _⟩ := ended
      cases impossible

/-- The frame rule: actions that are admitted wherever `J` holds, and keep it. -/
theorem meets_of_forall {P : I.Act → Prop} {J : τ → Prop} {p : Prog I ε α} {s : τ}
    (keeps : ∀ action, P action → ∀ s, J s →
      m.ok s action ∧ ∀ result, J (m.next s action result))
    (h : p.Forall P) (hs : J s) : p.Meets m (fun _ s' => J s') s := by
  induction p generalizing s with
  | ret value => exact hs
  | raise error => exact hs
  | act action next ih =>
    obtain ⟨ok, stays⟩ := keeps action h.1 s hs
    exact ⟨ok, fun result => ih result (h.2 result) (stays result)⟩

end Prog

namespace Machine

variable {I : Interface} {ε σ ω τ : Type} {M : Machine I ε σ ω}

/-- `view s t` is the monitor state of thread `t` in the machine's state `s`; an idle
thread has one that satisfies `done`. -/
structure Follows (M : Machine I ε σ ω) (m : Monitor I τ) (view : σ → Nat → τ)
    (done : Except ε Unit → τ → Prop) : Prop where
  acts : ∀ t input action s u, view (M.exec t input action s).2 u =
    if u = t then m.next (view s t) action (M.exec t input action s).1 else view s u
  starts : ∀ t p s s', M.spawn t p s s' → (∀ u, u ≠ t → view s' u = view s u) ∧
    (done (.ok ()) (view s t) → p.Meets m done (view s' t))

/-- In every configuration reached, every thread's program meets the monitor. -/
theorem Follows.reaches {m : Monitor I τ} {view : σ → Nat → τ} {done : Except ε Unit → τ → Prop}
    (follows : Follows M m view done) {allowed : Nat → I.Act → σ → Prop} {init c : Config I ε σ}
    (initial : ∀ t, (init.thread t).Meets m done (view init.shared t))
    (run : M.Reaches allowed init c) (t : Nat) : (c.thread t).Meets m done (view c.shared t) := by
  induction run generalizing t with
  | refl => exact initial t
  | @tail c c' run step ih =>
    cases step with
    | @act u action next input running ok =>
      have before := ih u
      rw [running] at before
      by_cases same : t = u
      · subst same
        have moved := follows.acts t input action c.shared t
        rw [if_pos rfl] at moved
        dsimp only
        rw [moved, Function.update_self]
        exact before.2 _
      · have kept := follows.acts u input action c.shared t
        rw [if_neg same] at kept
        dsimp only
        rw [kept, Function.update_of_ne same]
        exact ih t
    | @spawn u p s' idle start =>
      obtain ⟨others, own⟩ := follows.starts u p _ _ start
      by_cases same : t = u
      · subst same
        have ended := ih t
        rw [idle] at ended
        dsimp only
        rw [Function.update_self]
        exact own ended
      · dsimp only
        rw [others t same, Function.update_of_ne same]
        exact ih t

/-- The induction rule: an invariant has to withstand the admitted actions, and the starts
of threads whose monitor is done, from states of which something is known already. -/
theorem Follows.invariant_of_known {m : Monitor I τ} {view : σ → Nat → τ}
    {done : Except ε Unit → τ → Prop} (follows : Follows M m view done)
    {allowed : Nat → I.Act → σ → Prop} {init c : Config I ε σ}
    (initial : ∀ t, (init.thread t).Meets m done (view init.shared t)) {K P : σ → Prop}
    (known : ∀ c, M.Reaches allowed init c → K c.shared) (start : P init.shared)
    (acts : ∀ t input action s, K s → P s → m.ok (view s t) action → allowed t action s →
      P (M.exec t input action s).2)
    (spawns : ∀ t p s s', K s → P s → done (.ok ()) (view s t) → M.spawn t p s s' → P s')
    (run : M.Reaches allowed init c) : P c.shared := by
  induction run with
  | refl => exact start
  | @tail c c' run step ih =>
    cases step with
    | @act t action next input running ok =>
      have meets := follows.reaches initial run t
      rw [running] at meets
      exact acts t input action c.shared (known c run) ih meets.1 ok
    | @spawn t p s' idle started =>
      have ended := follows.reaches initial run t
      rw [idle] at ended
      exact spawns t p c.shared s' (known c run) ih ended started

theorem Follows.invariant_of_done {m : Monitor I τ} {view : σ → Nat → τ}
    {done : Except ε Unit → τ → Prop} (follows : Follows M m view done)
    {allowed : Nat → I.Act → σ → Prop} {init c : Config I ε σ}
    (initial : ∀ t, (init.thread t).Meets m done (view init.shared t)) {P : σ → Prop}
    (start : P init.shared)
    (acts : ∀ t input action s, P s → m.ok (view s t) action → allowed t action s →
      P (M.exec t input action s).2)
    (spawns : ∀ t p s s', P s → done (.ok ()) (view s t) → M.spawn t p s s' → P s')
    (run : M.Reaches allowed init c) : P c.shared :=
  follows.invariant_of_known initial (K := fun _ => True) (fun _ _ => trivial) start
    (fun t input action s _ => acts t input action s) (fun t p s s' _ => spawns t p s s') run

theorem Follows.invariant {m : Monitor I τ} {view : σ → Nat → τ} {done : Except ε Unit → τ → Prop}
    (follows : Follows M m view done) {allowed : Nat → I.Act → σ → Prop} {init c : Config I ε σ}
    (initial : ∀ t, (init.thread t).Meets m done (view init.shared t)) {P : σ → Prop}
    (start : P init.shared)
    (acts : ∀ t input action s, P s → m.ok (view s t) action → allowed t action s →
      P (M.exec t input action s).2)
    (spawns : ∀ t p s s', P s → M.spawn t p s s' → P s')
    (run : M.Reaches allowed init c) : P c.shared :=
  follows.invariant_of_done initial start acts
    (fun t p s s' holds _ started => spawns t p s s' holds started) run

/-! ## Monitors as history variables -/

/-- Every thread's state of the monitor, beside the machine's own state. -/
def following (M : Machine I ε σ ω) (m : Monitor I τ) : History M (Nat → τ) where
  record t action result _ _ states := Function.update states t (m.next (states t) action result)
  start _ _ states := states

/-- Programs that meet the monitor whenever they start are followed by it. -/
theorem follows_following {m : Monitor I τ} {done : Except ε Unit → τ → Prop}
    (meets : ∀ t p s s' state, M.spawn t p s s' → done (.ok ()) state → p.Meets m done state) :
    (M.recording (M.following m)).Follows m (fun s t => s.2 t) done where
  acts t input action s u := by
    by_cases same : u = t
    · subst same
      rw [if_pos rfl]
      exact Function.update_self _ _ _
    · rw [if_neg same]
      exact Function.update_of_ne same _ _
  starts t p s s' start := by
    obtain ⟨shared, states⟩ := s'
    obtain ⟨started, kept⟩ := start
    replace kept : states = s.2 := kept
    subst kept
    exact ⟨fun _ _ => rfl, meets t p s.1 shared _ started⟩

end Machine

/-! ## Two monitors -/

variable {I : Interface} {ε σ ω τ τ' γ δ : Type}

/-- Two monitors side by side. -/
def Monitor.both (m : Monitor I τ) (m' : Monitor I τ') : Monitor I (τ × τ') where
  next s action result := (m.next s.1 action result, m'.next s.2 action result)
  ok s action := m.ok s.1 action ∧ m'.ok s.2 action

theorem Prog.Meets.both {α : Type} {m : Monitor I τ} {m' : Monitor I τ'}
    {Q : Except ε α → τ → Prop} {Q' : Except ε α → τ' → Prop} {p : Prog I ε α} {s : τ} {s' : τ'}
    (h : p.Meets m Q s) (h' : p.Meets m' Q' s') :
    p.Meets (m.both m') (fun o s => Q o s.1 ∧ Q' o s.2) (s, s') := by
  induction p generalizing s s' with
  | ret value => exact ⟨h, h'⟩
  | raise error => exact ⟨h, h'⟩
  | act action next ih => exact ⟨⟨h.1, h'.1⟩, fun result => ih result (h.2 result) (h'.2 result)⟩

namespace Machine

variable {M : Machine I ε σ ω} {H : History M γ} {H' : History M δ}

/-- A program that meets two monitors meets both at once. -/
theorem Follows.both {m : Monitor I τ} {m' : Monitor I τ'} {view : σ × γ → Nat → τ}
    {view' : σ × δ → Nat → τ'} {done : Except ε Unit → τ → Prop} {done' : Except ε Unit → τ' → Prop}
    (follows : Follows (M.recording H) m view done)
    (follows' : Follows (M.recording H') m' view' done') :
    Follows (M.recording (H.both H')) (m.both m')
      (fun s t => (view (s.1, s.2.1) t, view' (s.1, s.2.2) t))
      (fun o s => done o s.1 ∧ done' o s.2) where
  acts t input action s u := by
    have first := follows.acts t input action (s.1, s.2.1) u
    have second := follows'.acts t input action (s.1, s.2.2) u
    by_cases same : u = t
    · rw [if_pos same] at first second ⊢
      exact Prod.ext first second
    · rw [if_neg same] at first second ⊢
      exact Prod.ext first second
  starts t p s s' start := by
    obtain ⟨others, own⟩ := follows.starts t p (s.1, s.2.1) (s'.1, s'.2.1)
      ⟨start.1, congrArg Prod.fst start.2⟩
    obtain ⟨others', own'⟩ := follows'.starts t p (s.1, s.2.2) (s'.1, s'.2.2)
      ⟨start.1, congrArg Prod.snd start.2⟩
    exact ⟨fun u differs => Prod.ext (others u differs) (others' u differs),
      fun ended => (own ended.1).both (own' ended.2)⟩

/-- A further variable changes nothing for a monitor. -/
theorem Follows.beside {m : Monitor I τ} {view : σ × γ → Nat → τ} {done : Except ε Unit → τ → Prop}
    (follows : Follows (M.recording H) m view done) (H' : History M δ) :
    Follows (M.recording (H.both H')) m (fun s => view (s.1, s.2.1)) done where
  acts t input action s u := follows.acts t input action (s.1, s.2.1) u
  starts t p s s' start := follows.starts t p (s.1, s.2.1) (s'.1, s'.2.1)
    ⟨start.1, congrArg Prod.fst start.2⟩

end Machine

end LinuxChat.Lib
