import LinuxChat.Lib.Monitor
import Mathlib.Logic.Relation

/-!
# Mutexes acquired in an order

Programs that acquire and release mutexes between their other actions, and the machine
in which an acquisition waits until the mutex is available. If every program acquires in
the order of a rank and ends with nothing held, no threads wait for each other in a
cycle, and whoever is not done, somebody can go on. A mutex is held exclusively or
shared; no thread acquires one it holds.
-/

namespace LinuxChat.Lib

open Prog

/-- The actions of `I`, and what is done to mutexes. -/
inductive LockAct (I : Interface) (μ : Type) where
  | acquire (mutex : μ) (shared : Bool)
  | release (mutex : μ)
  | act (action : I.Act)

/-- Taking and giving a mutex has no result. -/
@[reducible] def LockAct.Res {I : Interface} {μ : Type} : LockAct I μ → Type
  | acquire _ _ => Unit
  | release _ => Unit
  | act action => I.Res action

/-- The actions of `I`, and the mutexes `μ`. -/
abbrev lockInterface (I : Interface) (μ : Type) : Interface := ⟨LockAct I μ, LockAct.Res⟩

/-- What every thread holds, the last acquired first, and whether shared. -/
abbrev Locks (μ : Type) := Nat → List (μ × Bool)

variable {I : Interface} {ε α β σ ω μ : Type}

/-- Nobody holds the mutex, or only readers do and one more asks. -/
def Available (locks : Locks μ) (mutex : μ) (shared : Bool) : Prop :=
  ∀ t held, (mutex, held) ∈ locks t → shared = true ∧ held = true

/-- A mutex that one thread holds exclusively is held by no other. -/
def Exclusive (locks : Locks μ) : Prop :=
  ∀ t u mutex shared, (mutex, false) ∈ locks t → (mutex, shared) ∈ locks u → t = u

theorem Exclusive.acquire {locks : Locks μ} (exclusive : Exclusive locks) {mutex : μ} {shared : Bool}
    (available : Available locks mutex shared) (t : Nat) :
    Exclusive (Function.update locks t ((mutex, shared) :: locks t)) := by
  intro u v mutex' shared' first second
  rw [Function.update_apply] at first second
  split at first
  · split at second
    · rename_i own same
      rw [own, same]
    · rcases List.mem_cons.mp first with new | old
      · cases new
        have readers := available v shared' second
        exact absurd readers.1 Bool.false_ne_true
      · rename_i own _
        rw [own]
        exact exclusive t v mutex' shared' old second
  · split at second
    · rcases List.mem_cons.mp second with new | old
      · cases new
        have readers := available u false first
        exact absurd readers.2 Bool.false_ne_true
      · rename_i same
        rw [same]
        exact exclusive u t mutex' shared' first old
    · exact exclusive u v mutex' shared' first second

theorem Exclusive.fewer {locks : Locks μ} (exclusive : Exclusive locks) {t : Nat}
    {now : List (μ × Bool)} (fewer : ∀ entry ∈ now, entry ∈ locks t) :
    Exclusive (Function.update locks t now) := by
  have still : ∀ u entry, entry ∈ Function.update locks t now u → entry ∈ locks u := by
    intro u entry member
    rw [Function.update_apply] at member
    split at member
    · rename_i same
      rw [same]
      exact fewer entry member
    · exact member
  exact fun u v mutex shared first second =>
    exclusive u v mutex shared (still u _ first) (still v _ second)

variable [DecidableEq μ]

/-- What a thread holds after an action. -/
def LockAct.after (held : List (μ × Bool)) : LockAct I μ → List (μ × Bool)
  | acquire mutex shared => (mutex, shared) :: held
  | release mutex => held.filter fun entry => entry.1 ≠ mutex
  | act _ => held

/-- An action does what it did before; the operations on mutexes change what the thread holds. -/
def locking (exec : Nat → Handler I ω σ) (t : Nat) :
    Handler (lockInterface I μ) ω (σ × Locks μ)
  | _, .acquire mutex shared, s =>
    ((), s.1, Function.update s.2 t ((LockAct.acquire (I := I) mutex shared).after (s.2 t)))
  | _, .release mutex, s =>
    ((), s.1, Function.update s.2 t ((LockAct.release (I := I) mutex).after (s.2 t)))
  | input, .act action, s => ((exec t input action s.1).1, (exec t input action s.1).2, s.2)

/-- An acquisition waits for its mutex. -/
def blocking : Nat → LockAct I μ → σ × Locks μ → Prop
  | _, .acquire mutex shared, s => Available s.2 mutex shared
  | _, _, _ => True

/-- The next action of thread `t` acquires a mutex that thread `u` holds, whatever the modes. -/
def WaitsFor (c : Config (lockInterface I μ) ε (σ × Locks μ)) (t u : Nat) : Prop :=
  ∃ mutex shared next held,
    c.thread t = .act (.acquire mutex shared) next ∧ (mutex, held) ∈ c.shared.2 u

/-! ## Acquiring in order -/

/-- Only mutexes of higher rank than those held are acquired. -/
def inOrder (rank : μ → Nat) : Monitor (lockInterface I μ) (List (μ × Bool)) where
  next held action _ := action.after held
  ok
    | held, .acquire mutex _ => ∀ entry ∈ held, rank entry.1 < rank mutex
    | _, _ => True

/-- Nothing is held at the end. -/
def AllReleased : Except ε Unit → List (μ × Bool) → Prop := fun _ held => held = []

/-- Every thread's program goes on in order from what the thread holds. -/
def Ordered (rank : μ → Nat) (c : Config (lockInterface I μ) ε (σ × Locks μ)) : Prop :=
  ∀ t, (c.thread t).Meets (inOrder rank) AllReleased (c.shared.2 t)

variable {rank : μ → Nat} {c : Config (lockInterface I μ) ε (σ × Locks μ)}

/-- Along waiting threads the ranks go up. -/
theorem Ordered.rank_le (ordered : Ordered rank c) {t u : Nat}
    (waits : Relation.TransGen (WaitsFor c) t u) {mutex : μ} {shared : Bool}
    {next : Unit → Prog (lockInterface I μ) ε Unit}
    (asks : c.thread t = .act (.acquire mutex shared) next) :
    ∃ entry ∈ c.shared.2 u, rank mutex ≤ rank entry.1 := by
  induction waits with
  | single waits =>
    obtain ⟨mutex', shared', next', held, own, member⟩ := waits
    rw [asks] at own
    cases own
    exact ⟨_, member, Nat.le_refl _⟩
  | @tail u v _ waits ih =>
    obtain ⟨entry, holds, below⟩ := ih
    obtain ⟨mutex', shared', next', held, own, member⟩ := waits
    have meets := ordered u
    rw [own] at meets
    have above : rank entry.1 < rank mutex' := meets.1 entry holds
    refine ⟨_, member, ?_⟩
    dsimp only
    omega

theorem Ordered.acyclic (ordered : Ordered rank c) (t : Nat) :
    ¬ Relation.TransGen (WaitsFor c) t t := by
  intro cycle
  obtain ⟨u, first, _⟩ := Relation.TransGen.head'_iff.mp cycle
  obtain ⟨mutex, shared, next, held, own, member⟩ := first
  obtain ⟨entry, holds, below⟩ := ordered.rank_le cycle own
  have meets := ordered t
  rw [own] at meets
  have above : rank entry.1 < rank mutex := meets.1 entry holds
  omega

/-- Whoever holds a mutex has something left to do. -/
theorem Ordered.busy (ordered : Ordered rank c) {t : Nat} {entry : μ × Bool}
    (holds : entry ∈ c.shared.2 t) : ¬ (c.thread t).Halted := by
  intro halted
  obtain ⟨_, released⟩ := (ordered t).of_halted halted
  replace released : c.shared.2 t = [] := released
  rw [released] at holds
  cases holds

/-- A thread that waits for a mutex waits for one that goes on, or waits for a mutex of
higher rank. -/
theorem Ordered.climb (ordered : Ordered rank c) {bound : Nat}
    (bounded : ∀ mutex, rank mutex ≤ bound) (room : Nat) :
    ∀ t mutex shared next, bound - rank mutex = room →
      c.thread t = .act (.acquire mutex shared) next →
      ∃ u action next, c.thread u = .act action next ∧ blocking u action c.shared := by
  induction room using Nat.strongRecOn with
  | ind room ih =>
    intro t mutex shared next left asks
    by_cases available : Available c.shared.2 mutex shared
    · exact ⟨t, _, next, asks, available⟩
    · unfold Available at available
      simp only [not_forall] at available
      obtain ⟨u, held, holds, _⟩ := available
      have busy := ordered.busy holds
      have meets := ordered u
      cases program : c.thread u with
      | ret value =>
        rw [program] at busy
        exact absurd trivial busy
      | raise error =>
        rw [program] at busy
        exact absurd trivial busy
      | act action next' =>
        rw [program] at meets
        cases action with
        | acquire mutex' shared' =>
          have above : rank mutex < rank mutex' := meets.1 _ holds
          have below := bounded mutex'
          exact ih (bound - rank mutex') (by omega) u mutex' shared' next' rfl program
        | release mutex' => exact ⟨u, _, next', program, trivial⟩
        | act action => exact ⟨u, _, next', program, trivial⟩

/-- While some thread is not done, some thread can go on. -/
theorem Ordered.progress (ordered : Ordered rank c) {bound : Nat}
    (bounded : ∀ mutex, rank mutex ≤ bound) {t : Nat} (busy : ¬ (c.thread t).Halted) :
    ∃ u action next, c.thread u = .act action next ∧ blocking u action c.shared := by
  cases program : c.thread t with
  | ret value =>
    rw [program] at busy
    exact absurd trivial busy
  | raise error =>
    rw [program] at busy
    exact absurd trivial busy
  | act action next =>
    cases action with
    | acquire mutex shared => exact ordered.climb bounded _ t mutex shared next rfl program
    | release mutex => exact ⟨t, _, next, program, trivial⟩
    | act action => exact ⟨t, _, next, program, trivial⟩

/-! ## Machines of ordered programs -/

/-- Locks and the other state are apart: what starts a program takes no mutex. -/
theorem ordered_reached {exec : Nat → Handler I ω σ}
    {spawn : Nat → Prog (lockInterface I μ) ε Unit → σ × Locks μ → σ × Locks μ → Prop}
    (programs : ∀ t p s s', spawn t p s s' → s'.2 = s.2 ∧ p.Meets (inOrder rank) AllReleased [])
    {init : Config (lockInterface I μ) ε (σ × Locks μ)} (start : Ordered rank init)
    (run : (Machine.mk (locking exec) spawn).Reaches blocking init c) : Ordered rank c := by
  have follows : Machine.Follows (Machine.mk (locking exec) spawn) (inOrder rank)
      (fun s t => s.2 t) AllReleased := by
    constructor
    · intro t input action s u
      cases action with
      | acquire mutex shared => exact Function.update_apply _ _ _ _
      | release mutex => exact Function.update_apply _ _ _ _
      | act action =>
        dsimp only [locking]
        split
        · rename_i same
          rw [same]
          rfl
        · rfl
    · intro t p s s' starts
      obtain ⟨same, meets⟩ := programs t p s s' starts
      constructor
      · intro u _
        rw [same]
      · intro done
        rw [same, done]
        exact meets
  exact fun t => follows.reaches start run t

/-! ## Critical sections -/

/-- The body between an acquisition and the release, which an exception does not skip. -/
def within (mutex : μ) (shared : Bool) (body : Prog (lockInterface I μ) ε α) :
    Prog (lockInterface I μ) ε α :=
  .act (.acquire mutex shared) fun _ =>
    (body.tryCatch fun error => .act (.release mutex) fun _ => .raise error).bind fun value =>
      .act (.release mutex) fun _ => .ret value

theorem after_release {mutex : μ} {shared : Bool} {held : List (μ × Bool)}
    (apart : ∀ entry ∈ held, entry.1 ≠ mutex) :
    (LockAct.release (I := I) mutex).after ((mutex, shared) :: held) = held := by
  have kept : held.filter (fun entry => entry.1 ≠ mutex) = held := by
    apply List.filter_eq_self.mpr
    intro entry member
    exact decide_eq_true (apart entry member)
  have removed := @List.filter_cons_of_neg _ (fun entry : μ × Bool => entry.1 ≠ mutex)
    (mutex, shared) held (by simp)
  exact removed.trans kept

/-- A critical section that acquires in order, with a body that ends with what it starts
with, ends with what it starts with. -/
theorem meets_within {mutex : μ} {shared : Bool} {held : List (μ × Bool)}
    {body : Prog (lockInterface I μ) ε α} {Q : Except ε α → Prop}
    (above : ∀ entry ∈ held, rank entry.1 < rank mutex)
    (inside : body.Meets (inOrder rank) (fun o now => Q o ∧ now = (mutex, shared) :: held)
      ((mutex, shared) :: held)) :
    (within mutex shared body).Meets (inOrder rank) (fun o now => Q o ∧ now = held) held := by
  have apart : ∀ entry ∈ held, entry.1 ≠ mutex := by
    intro entry member same
    have below := above entry member
    rw [same] at below
    omega
  have released := @after_release I μ _ mutex shared held apart
  -- the release of the handler, or the one behind the body
  let ended (o : Except ε α) (now : List (μ × Bool)) : Prop :=
    (∀ value, o = .ok value → now = (mutex, shared) :: held) ∧ (∀ error, o = .error error → now = held)
  have caught : (body.tryCatch fun error => .act (.release mutex) fun _ => .raise error).Meets
      (inOrder rank) (fun o now => Q o ∧ ended o now) ((mutex, shared) :: held) := by
    apply inside.tryCatch
    · intro value now returned
      exact ⟨returned.1, fun _ _ => returned.2, fun _ impossible => nomatch impossible⟩
    · intro error now raised
      rw [raised.2]
      exact ⟨trivial, fun _ => ⟨raised.1, fun _ impossible => (nomatch impossible), fun _ _ => released⟩⟩
  constructor
  · exact above
  · intro _
    apply caught.bind
    · intro value now returned
      rw [returned.2.1 value rfl]
      exact ⟨trivial, fun _ => ⟨returned.1, released⟩⟩
    · intro error now raised
      exact ⟨raised.1, raised.2.2 error rfl⟩

/-- Executed alone, a critical section does what its body does. -/
theorem eval_within {exec : Nat → Handler I ω σ} {t : Nat} {input : ω} {mutex : μ} {shared : Bool}
    {body : Prog (lockInterface I μ) ε α} {s s' : σ} {locks : Locks μ} {value : α}
    (apart : ∀ entry ∈ locks t, entry.1 ≠ mutex)
    (inside : ∀ inner : Locks μ, inner = Function.update locks t ((mutex, shared) :: locks t) →
      eval (locking exec t) input body (s, inner) = (.ok value, s', inner)) :
    eval (locking exec t) input (within mutex shared body) (s, locks) = (.ok value, s', locks) := by
  have released := @after_release I μ _ mutex shared (locks t) apart
  have entered := inside _ rfl
  have caught := eval_tryCatch_ok (locking exec t) input
    (fun error => .act (.release mutex) fun _ => .raise error) entered
  have left := eval_bind_ok (locking exec t) input
    (fun value => (.act (.release mutex) fun _ => .ret value : Prog (lockInterface I μ) ε α)) caught
  refine left.trans ?_
  simp only [eval, locking, Function.update_self, released, Function.update_idem,
    Function.update_eq_self]

end LinuxChat.Lib
