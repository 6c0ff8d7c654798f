import LinuxChat.Guarantees.Effects
import LinuxChat.Guarantees.Transcript.Noting

/-!
# Names and connections

`Faithful` withstands a name given or taken and a connection accepted, looked up or removed. A
client that has just got its name is to be sent the history by the thread that gave it.
-/

namespace LinuxChat.Guarantees.Transcript

open LinuxChat.Lib LinuxChat.Lib.ChatRoom LinuxChat.Source Prog ChatService RoomWindow

namespace Faithful

variable {x : SessionRef} {c : Scene} {t : Nat}

/-- A session gets a name. -/
theorem name (h : Faithful x c) (y : SessionRef) {username : String} (nonempty : username ≠ "")
    (idle : c.greets t = none) :
    Faithful x
      { c with
        name := Function.update c.name y.id username
        greets := Function.update c.greets t (some y)
        found := Function.update c.found t none
        notes := { c.notes with
          since := Function.update c.notes.since y (some ((c.notes.since y).getD c.number)) } } :=
  { h with
    named := by
      intro k since
      dsimp only at since ⊢
      by_cases same : x.id = y.id
      · rw [same, Function.update_self]
        exact nonempty
      · have other : x ≠ y := fun equal => same (congrArg SessionRef.id equal)
        rw [Function.update_of_ne other] at since
        rw [Function.update_of_ne same]
        exact h.named k since
    whole := by
      intro there k since row member toRoom from_k
      dsimp only at since
      by_cases own : x = y
      · subst own
        rw [Function.update_self] at since
        cases before : c.notes.since x with
        | none =>
          rw [before] at since
          cases since
          have less := h.below row member
          exact absurd from_k (Nat.not_le_of_lt less)
        | some first =>
          rw [before] at since
          cases since
          exact h.whole there first before row member toRoom from_k
      · rw [Function.update_of_ne own] at since
        exact h.whole there k since row member toRoom from_k
    greeted := by
      intro there k since
      dsimp only at since
      by_cases own : x = y
      · subst own
        refine Or.inr ⟨t, ?_, fun z found => ?_⟩
        · exact Function.update_self _ _ _
        · dsimp only at found
          rw [Function.update_self] at found
          cases found
      · rw [Function.update_of_ne own] at since
        refine (h.greeted there k since).imp_right ?_
        rintro ⟨u, greeting, found⟩
        have other : u ≠ t := by
          intro same
          rw [same, idle] at greeting
          cases greeting
        refine ⟨u, ?_, ?_⟩
        · exact (Function.update_of_ne other _ _).trans greeting
        · dsimp only
          rw [Function.update_of_ne other]
          exact found }

/-- Fewer clients are there, or have names; what the client is and has, it was and had before. -/
theorem fewer (h : Faithful x c) {table : List SessionRef} {name : Nat → String}
    {since : SessionRef → Option Nat} (fds : table.Pairwise fun y z => y.fd ≠ z.fd)
    (older : x ∈ table → ∀ k, since x = some k → x ∈ c.table ∧ c.notes.since x = some k)
    (named : ∀ k, since x = some k → name x.id ≠ "") :
    Faithful x { c with table := table, name := name, notes := { c.notes with since := since } } :=
  { h with
    fds := fds
    named := named
    whole := fun there k same => by
      obtain ⟨before, had⟩ := older there k same
      exact h.whole before k had
    greeted := fun there k same => by
      obtain ⟨before, had⟩ := older there k same
      exact h.greeted before k had }

/-- A session loses its name. -/
theorem unname (h : Faithful x c) (id : Nat) :
    Faithful x
      { c with
        name := Function.update c.name id ""
        notes := { c.notes with
          since := fun y => if y.id = id then none else c.notes.since y } } := by
  have since : ∀ k, (if x.id = id then none else c.notes.since x) = some k →
      x.id ≠ id ∧ c.notes.since x = some k := by
    intro k had
    split at had
    · cases had
    next other => exact ⟨other, had⟩
  refine h.fewer h.fds (fun there k had => ⟨there, (since k had).2⟩) fun k had => ?_
  obtain ⟨other, before⟩ := since k had
  rw [Function.update_of_ne other]
  exact h.named k before

/-- A connection is accepted; its session object is new. -/
theorem accept (h : Faithful x c) (id fd : Nat) (ip : String) :
    Faithful x
      { c with
        table := ⟨id, fd, ip⟩ :: c.table.filter fun other => other.fd ≠ fd
        name := Function.update c.name id ""
        notes := { c.notes with
          since := fun y => if y.id = id then none else c.notes.since y } } := by
  have unnamed := h.unname id
  refine unnamed.fewer ?_ ?_ unnamed.named
  · refine List.pairwise_cons.mpr ⟨fun other member same => ?_, h.fds.filter _⟩
    have differs := (List.mem_filter.mp member).2
    rw [← same] at differs
    simp at differs
  · intro there k had
    refine ⟨?_, had⟩
    rcases List.mem_cons.mp there with new | old
    · rw [new] at had
      simp at had
    · exact (List.mem_filter.mp old).1

/-- A connection is removed. -/
theorem erase (h : Faithful x c) (fd : Nat) :
    Faithful x { c with table := c.table.filter fun other => other.fd ≠ fd } :=
  h.fewer (h.fds.filter _) (fun there _ had => ⟨(List.mem_filter.mp there).1, had⟩) h.named

/-- A descriptor is looked up; that of the session the thread has named leads to it, if it is
there. -/
theorem find (h : Faithful x c) {fd : Nat} {found : Option SessionRef}
    (finds : found = c.table.find? fun y => y.fd = fd)
    (own : ∀ y, c.greets t = some y → y.fd = fd) :
    Faithful x
      { c with
        greets := Function.update c.greets t ((c.greets t).filter fun _ => found.isSome)
        found := Function.update c.found t found } :=
  { h with
    greeted := by
      intro there k since
      refine (h.greeted there k since).imp_right ?_
      rintro ⟨u, greeting, others⟩
      refine ⟨u, ?_⟩
      by_cases same : u = t
      · subst same
        have there' : found = some x := by
          rw [finds, ← own x greeting]
          exact find_of_mem h.fds there
        refine ⟨?_, fun y is => ?_⟩
        · dsimp only
          rw [Function.update_self, greeting, there']
          rfl
        · dsimp only at is
          rw [Function.update_self, there'] at is
          exact (Option.some.inj is).symm
      · refine ⟨(Function.update_of_ne same _ _).trans greeting, ?_⟩
        dsimp only
        rw [Function.update_of_ne same]
        exact others }

end Faithful

end LinuxChat.Guarantees.Transcript
