import LinuxChat.Guarantees.Core
import LinuxChat.Guarantees.OnlineNames.Accepting
import LinuxChat.Guarantees.OnlineNames.Naming
import Mathlib.Logic.Function.Basic

/-!
# The list, the names and the table

The online list, the names of the session objects and the session table are changed in separate
steps. The invariant says what may be amiss between them, and which thread is about to put it right.
-/

namespace LinuxChat.Guarantees.OnlineNames

open LinuxChat.Lib LinuxChat.Source Prog

/-- The thread has named the session object and will list it. -/
def Naming.Gives (n : Naming) (id : Nat) : Prop := ∃ x name, n.giving = some (x, name) ∧ x.id = id

/-- The thread has taken a name off the list and will take it from the session object. -/
def Naming.Takes (n : Naming) (id : Nat) : Prop := ∃ x, n.taking = some x ∧ x.id = id

/-- The thread has taken the session object from the table and will look for its name. -/
def Naming.Removes (n : Naming) (id : Nat) : Prop := ∃ x, n.removing = some x ∧ x.id = id

/-- Some thread has named the session object and will list it. -/
abbrev Giving (n : Nat → Naming) (id : Nat) : Prop := ∃ t, (n t).Gives id

/-- Some thread will take the name from the session object. -/
abbrev Taking (n : Nat → Naming) (id : Nat) : Prop := ∃ t, (n t).Takes id

/-- Some thread has taken the session object from the table and will look for its name. -/
abbrev Removing (n : Nat → Naming) (id : Nat) : Prop := ∃ t, (n t).Removes id

/-- A name is given to a session without one, of which none is being taken, and which is in the
table or will be looked at again by its removal. A name is taken off the list if the session has it
still, or has none by now, is not just being named, and nobody else keeps the name. -/
def Undisturbed (t : Nat) : Act → Followed → Prop
  | .setUsername session _, s =>
    (session ∈ s.1.server.sessions ∨ Removing s.2 session.id) ∧
      s.1.server.name session = "" ∧ ¬ Taking s.2 session.id
  | .eraseOnline name, s => ∀ session, (s.2 t).read = some (session, name) →
    (s.1.server.name session = name ∨ s.1.server.name session = "") ∧
      ¬ Giving s.2 session.id ∧
      ∀ id, id ≠ session.id → name ≠ "" → (s.1.server.heap id).username = name →
        Giving s.2 id ∨ Taking s.2 id
  | _, _ => True

/-- Every name borne is on the list, every name on the list is borne to stay, and every session
with a name is in the table, but for what a thread is about to put right. -/
structure Matched (c : Core) (n : Nat → Naming) : Prop where
  fds : c.table.Pairwise fun x y => x.fd ≠ y.fd
  numbered : Numbered c.table c.nextId
  disconnects : c.disconnects = true
  removed : ∀ id, Removing n id → id < c.nextId
  listed : ∀ id, c.name id ≠ "" → c.name id ∈ c.online ∨ Giving n id ∨ Taking n id
  bearers : ∀ u ∈ c.online, u ≠ "" ∧ ∃ id, c.name id = u ∧ ¬ Taking n id
  seated : ∀ id, c.name id ≠ "" → c.Live id ∨ Removing n id
  given : ∀ t x u, (n t).giving = some (x, u) → u ≠ "" ∧ c.name x.id = u ∧ ¬ Taking n x.id

section
variable {n : Nat → Naming} {t : Nat} {m : Naming} (P : Naming → Prop)

/-- What some thread is about to do, after a step of thread `t`. -/
theorem some_update :
    (∃ u, P (Function.update n t m u)) ↔ P m ∨ ∃ u, u ≠ t ∧ P (n u) :=
  Function.exists_update_iff n fun _ => P

theorem some_kept (own : P (n t) → P m) (h : ∃ u, P (n u)) : ∃ u, P (Function.update n t m u) := by
  rw [some_update]
  obtain ⟨u, holds⟩ := h
  by_cases actor : u = t
  · subst actor
    exact Or.inl (own holds)
  · exact Or.inr ⟨u, actor, holds⟩

theorem some_before (own : P m → P (n t)) (h : ∃ u, P (Function.update n t m u)) : ∃ u, P (n u) := by
  rw [some_update] at h
  rcases h with new | ⟨u, _, old⟩
  · exact ⟨t, own new⟩
  · exact ⟨u, old⟩

theorem some_same (own : P m ↔ P (n t)) :
    (∃ u, P (Function.update n t m u)) ↔ ∃ u, P (n u) :=
  ⟨some_before P own.mp, some_kept P own.mpr⟩

theorem giving_old {u : Nat} {given : SessionRef × String}
    (giving : (Function.update n t m u).giving = some given)
    (own : m.giving = none ∨ m.giving = (n t).giving) : (n u).giving = some given := by
  by_cases actor : u = t
  · subst actor
    rw [Function.update_self] at giving
    rcases own with none | same
    · rw [none] at giving
      cases giving
    · exact same.symm.trans giving
  · rwa [Function.update_of_ne actor] at giving

end

section
variable {c : Core} {n : Nat → Naming} {t : Nat} {x : SessionRef} {name : String}

/-! ## One step -/

/-- Nothing that counts has changed. -/
theorem Matched.same {c' : Core} {m : Naming} (matched : Matched c n)
    (core : c'.table = c.table ∧ c'.nextId = c.nextId ∧ c'.name = c.name ∧ c'.online = c.online ∧
      c'.disconnects = c.disconnects)
    (own : m.giving = (n t).giving ∧ m.taking = (n t).taking ∧ m.removing = (n t).removing) :
    Matched c' (Function.update n t m) := by
  obtain ⟨table, nextId, names, online, disconnects⟩ := core
  obtain ⟨giving, taking, removing⟩ := own
  have gives : ∀ id, Giving (Function.update n t m) id ↔ Giving n id :=
    fun id => some_same (·.Gives id) (by unfold Naming.Gives; rw [giving])
  have takes : ∀ id, Taking (Function.update n t m) id ↔ Taking n id :=
    fun id => some_same (·.Takes id) (by unfold Naming.Takes; rw [taking])
  have removes : ∀ id, Removing (Function.update n t m) id ↔ Removing n id :=
    fun id => some_same (·.Removes id) (by unfold Naming.Removes; rw [removing])
  have live : ∀ id, c'.Live id ↔ c.Live id := fun id => by unfold Core.Live; rw [table]
  refine ⟨table ▸ matched.fds, ?_, disconnects.trans matched.disconnects, ?_, ?_, ?_, ?_, ?_⟩
  · rw [table, nextId]
    exact matched.numbered
  · intro id
    rw [removes, nextId]
    exact matched.removed id
  · intro id
    rw [names, online, gives, takes]
    exact matched.listed id
  · intro u
    rw [online]
    simp only [names, takes]
    exact matched.bearers u
  · intro id
    rw [names, live, removes]
    exact matched.seated id
  · intro u y v
    rw [names, takes]
    exact fun given => matched.given u y v (giving_old given (Or.inr giving))

variable {dbOk : Bool}

/-- `set_username`: the name is still to be listed. -/
theorem Matched.give (matched : Matched c n) (nonempty : name ≠ "") (nothing : (n t).giving = none)
    (seat : c.Live x.id ∨ Removing n x.id) (nameless : c.name x.id = "") (stays : ¬ Taking n x.id) :
    Matched (c.step t dbOk (.setUsername x name))
      (Function.update n t { n t with giving := some (x, name) }) := by
  have gives : ∀ id, Giving n id →
      Giving (Function.update n t { n t with giving := some (x, name) }) id := by
    refine fun id => some_kept (·.Gives id) ?_
    rintro ⟨y, v, own, _⟩
    rw [nothing] at own
    cases own
  have takes : ∀ id, Taking (Function.update n t { n t with giving := some (x, name) }) id ↔
      Taking n id := fun id => some_same (·.Takes id) Iff.rfl
  have removes : ∀ id, Removing (Function.update n t { n t with giving := some (x, name) }) id ↔
      Removing n id := fun id => some_same (·.Removes id) Iff.rfl
  have other : ∀ id, id ≠ x.id → (c.step t dbOk (.setUsername x name)).name id = c.name id :=
    fun id differs => Function.update_of_ne differs _ _
  have own : (c.step t dbOk (.setUsername x name)).name x.id = name := Function.update_self _ _ _
  refine ⟨matched.fds, matched.numbered, matched.disconnects, ?_, ?_, ?_, ?_, ?_⟩
  · exact fun id removing => matched.removed id ((removes id).mp removing)
  · intro id named
    by_cases same : id = x.id
    · subst same
      exact Or.inr (Or.inl ⟨t, by rw [Function.update_self]; exact ⟨x, name, rfl, rfl⟩⟩)
    · rw [other id same] at named ⊢
      rw [takes]
      exact (matched.listed id named).imp_right fun h => h.imp_left (gives id)
  · intro u member
    obtain ⟨nonempty, id, bears, keeps⟩ := matched.bearers u member
    have differs : id ≠ x.id := by
      rintro rfl
      exact nonempty (bears.symm.trans nameless)
    exact ⟨nonempty, id, (other id differs).trans bears, mt (takes id).mp keeps⟩
  · intro id named
    rw [removes]
    by_cases same : id = x.id
    · subst same
      exact seat
    · rw [other id same] at named
      exact matched.seated id named
  · intro u y v giving
    rw [takes]
    by_cases actor : u = t
    · rw [actor, Function.update_self] at giving
      cases giving
      exact ⟨nonempty, own, stays⟩
    · rw [Function.update_of_ne actor] at giving
      obtain ⟨nonempty, bears, keeps⟩ := matched.given u y v giving
      have differs : y.id ≠ x.id := by
        intro same
        rw [same, nameless] at bears
        exact nonempty bears.symm
      exact ⟨nonempty, (other y.id differs).trans bears, keeps⟩

/-- The `insert` of `finish_login`. -/
theorem Matched.list (matched : Matched c n) (giving : (n t).giving = some (x, name)) :
    Matched (c.step t dbOk (.insertOnline name))
      (Function.update n t { n t with giving := none }) := by
  obtain ⟨nonempty, bears, keeps⟩ := matched.given t x name giving
  have core := Core.step_name c t dbOk (.insertOnline name)
  have table := Core.step_table c t dbOk (.insertOnline name)
  have nextId := Core.step_nextId c t dbOk (.insertOnline name)
  have online : ∀ u, u ∈ (c.step t dbOk (.insertOnline name)).online ↔ u = name ∨ u ∈ c.online := by
    intro u
    rw [Core.step_online]
    dsimp only
    split
    next listed => exact ⟨Or.inr, fun h => h.elim (fun same => same ▸ listed) id⟩
    · exact List.mem_cons
  have gives : ∀ id, Giving n id → id = x.id ∨
      Giving (Function.update n t { n t with giving := none }) id := by
    intro id h
    by_cases same : id = x.id
    · exact Or.inl same
    · refine Or.inr (some_kept (·.Gives id) ?_ h)
      rintro ⟨y, v, own, rfl⟩
      rw [giving] at own
      cases own
      exact absurd rfl same
  have takes : ∀ id, Taking (Function.update n t { n t with giving := none }) id ↔ Taking n id :=
    fun id => some_same (·.Takes id) Iff.rfl
  have removes : ∀ id, Removing (Function.update n t { n t with giving := none }) id ↔
      Removing n id := fun id => some_same (·.Removes id) Iff.rfl
  refine ⟨Core.step_fds c t dbOk _ matched.fds, Core.step_numbered c t dbOk _ matched.numbered,
    (Core.step_disconnects c t dbOk _).trans matched.disconnects, ?_, ?_, ?_, ?_, ?_⟩
  · intro id removing
    rw [nextId]
    exact matched.removed id ((removes id).mp removing)
  · intro id named
    rw [core] at named ⊢
    rw [online, takes]
    rcases matched.listed id named with listed | giving | taking
    · exact Or.inl (Or.inr listed)
    · rcases gives id giving with same | giving
      · exact Or.inl (Or.inl (same ▸ bears))
      · exact Or.inr (Or.inl giving)
    · exact Or.inr (Or.inr taking)
  · intro u member
    rw [core]
    rcases (online u).mp member with rfl | listed
    · exact ⟨nonempty, x.id, bears, mt (takes x.id).mp keeps⟩
    · obtain ⟨nonempty, id, bears, keeps⟩ := matched.bearers u listed
      exact ⟨nonempty, id, bears, mt (takes id).mp keeps⟩
  · intro id named
    rw [core] at named
    rw [removes]
    unfold Core.Live
    rw [table]
    exact matched.seated id named
  · intro u y v giving
    rw [core, takes]
    exact matched.given u y v (giving_old giving (Or.inl rfl))

/-- The `erase` of `handle_logout`: the name is still to be taken from the session. -/
theorem Matched.unlist (matched : Matched c n) (nothing : (n t).taking = none)
    (read : (n t).read = some (x, name)) (bears : c.name x.id = name ∨ c.name x.id = "")
    (settled : ¬ Giving n x.id)
    (others : ∀ id, id ≠ x.id → name ≠ "" → c.name id = name → Giving n id ∨ Taking n id) :
    Matched (c.step t dbOk (.eraseOnline name))
      (Function.update n t { n t with taking := (n t).read.map Prod.fst }) := by
  have gives : ∀ id, Giving (Function.update n t { n t with taking := (n t).read.map Prod.fst }) id ↔
      Giving n id := fun id => some_same (·.Gives id) Iff.rfl
  have removes : ∀ id, Removing (Function.update n t { n t with
      taking := (n t).read.map Prod.fst }) id ↔ Removing n id :=
    fun id => some_same (·.Removes id) Iff.rfl
  have takes : ∀ id, Taking (Function.update n t { n t with
      taking := (n t).read.map Prod.fst }) id ↔ id = x.id ∨ Taking n id := by
    intro id
    refine (some_update (·.Takes id)).trans ⟨?_, ?_⟩
    · rintro (⟨y, own, rfl⟩ | ⟨u, _, old⟩)
      · rw [read] at own
        cases own
        exact Or.inl rfl
      · exact Or.inr ⟨u, old⟩
    · rintro (rfl | ⟨u, y, old, same⟩)
      · exact Or.inl ⟨x, by rw [read]; rfl, rfl⟩
      · refine Or.inr ⟨u, ?_, y, old, same⟩
        rintro rfl
        rw [nothing] at old
        cases old
  have online : ∀ u, u ∈ (c.step t dbOk (.eraseOnline name)).online ↔ u ∈ c.online ∧ u ≠ name := by
    intro u
    rw [Core.step_online]
    simp
  refine ⟨matched.fds, matched.numbered, matched.disconnects, ?_, ?_, ?_, ?_, ?_⟩
  · exact fun id removing => matched.removed id ((removes id).mp removing)
  · intro id named
    change c.name id ≠ "" at named
    change c.name id ∈ _ ∨ _
    rw [online, gives, takes]
    rcases matched.listed id named with listed | giving | taking
    · by_cases same : c.name id = name
      · by_cases own : id = x.id
        · exact Or.inr (Or.inr (Or.inl own))
        · exact Or.inr ((others id own (same ▸ named) same).imp_right Or.inr)
      · exact Or.inl ⟨listed, same⟩
    · exact Or.inr (Or.inl giving)
    · exact Or.inr (Or.inr (Or.inr taking))
  · intro u member
    obtain ⟨listed, differs⟩ := (online u).mp member
    obtain ⟨nonempty, id, borne, keeps⟩ := matched.bearers u listed
    refine ⟨nonempty, id, borne, ?_⟩
    rw [takes]
    rintro (rfl | taking)
    · rcases bears with named | nameless
      · exact differs (borne.symm.trans named)
      · exact nonempty (borne.symm.trans nameless)
    · exact keeps taking
  · intro id named
    rw [removes]
    exact matched.seated id named
  · intro u y v giving
    have old := giving_old giving (Or.inr rfl)
    obtain ⟨nonempty, borne, keeps⟩ := matched.given u y v old
    refine ⟨nonempty, borne, ?_⟩
    rw [takes]
    rintro (same | taking)
    · exact settled ⟨u, y, v, old, same⟩
    · exact keeps taking

/-- `clear_username`. A removal of the session is over with it. -/
theorem Matched.unname (matched : Matched c n) (taking : (n t).taking = some x) :
    Matched (c.step t dbOk (.clearUsername x)) (Function.update n t { n t with
      taking := none
      removing := (n t).removing.filter fun y => y ≠ x }) := by
  set m : Naming := { n t with
    taking := none
    removing := (n t).removing.filter fun y => y ≠ x } with made
  have gives : ∀ id, Giving (Function.update n t m) id ↔ Giving n id :=
    fun id => some_same (·.Gives id) Iff.rfl
  have fewer : ∀ id, Taking (Function.update n t m) id → Taking n id := by
    refine fun id => some_before (·.Takes id) ?_
    rintro ⟨y, own, _⟩
    cases own
  have takes : ∀ id, id ≠ x.id → Taking n id → Taking (Function.update n t m) id := by
    refine fun id differs => some_kept (·.Takes id) ?_
    rintro ⟨y, own, rfl⟩
    rw [taking] at own
    cases own
    exact absurd rfl differs
  have removed : ∀ id, Removing (Function.update n t m) id → Removing n id :=
    fun id => some_before (·.Removes id) fun ⟨y, own, same⟩ =>
      ⟨y, (Option.filter_eq_some_iff.mp own).1, same⟩
  have removes : ∀ id, id ≠ x.id → Removing n id → Removing (Function.update n t m) id := by
    refine fun id differs => some_kept (·.Removes id) ?_
    rintro ⟨y, own, rfl⟩
    have other : y ≠ x := fun same => differs (congrArg SessionRef.id same)
    exact ⟨y, Option.filter_eq_some_iff.mpr ⟨own, decide_eq_true other⟩, rfl⟩
  have taken : Taking n x.id := ⟨t, x, taking, rfl⟩
  have other : ∀ id, id ≠ x.id → (c.step t dbOk (.clearUsername x)).name id = c.name id :=
    fun id differs => Function.update_of_ne differs _ _
  have named_other : ∀ id, (c.step t dbOk (.clearUsername x)).name id ≠ "" → id ≠ x.id := by
    rintro id named rfl
    exact named (Function.update_self _ _ _)
  refine ⟨matched.fds, matched.numbered, matched.disconnects, ?_, ?_, ?_, ?_, ?_⟩
  · exact fun id removing => matched.removed id (removed id removing)
  · intro id named
    have differs := named_other id named
    rw [other id differs] at named ⊢
    rw [gives]
    exact (matched.listed id named).imp_right fun h => h.imp_right (takes id differs)
  · intro u member
    obtain ⟨nonempty, id, bears, keeps⟩ := matched.bearers u member
    have differs : id ≠ x.id := by
      rintro rfl
      exact keeps taken
    exact ⟨nonempty, id, (other id differs).trans bears, mt (fewer id) keeps⟩
  · intro id named
    have differs := named_other id named
    rw [other id differs] at named
    exact (matched.seated id named).imp_right (removes id differs)
  · intro u y v giving
    obtain ⟨nonempty, bears, keeps⟩ := matched.given u y v (giving_old giving (Or.inr rfl))
    have differs : y.id ≠ x.id := by
      intro same
      exact keeps (same ▸ taken)
    exact ⟨nonempty, (other y.id differs).trans bears, mt (fewer y.id) keeps⟩

/-- A session is looked at. If it has no name its removal is over. -/
theorem Matched.look (matched : Matched c n) {authenticated : Bool}
    (nameless : authenticated = false → c.name x.id = "") :
    Matched c (Function.update n t { n t with
      removing := (n t).removing.filter fun y => authenticated || y ≠ x }) := by
  set m : Naming := { n t with
    removing := (n t).removing.filter fun y => authenticated || y ≠ x } with made
  have gives : ∀ id, Giving (Function.update n t m) id ↔ Giving n id :=
    fun id => some_same (·.Gives id) Iff.rfl
  have takes : ∀ id, Taking (Function.update n t m) id ↔ Taking n id :=
    fun id => some_same (·.Takes id) Iff.rfl
  have removed : ∀ id, Removing (Function.update n t m) id → Removing n id :=
    fun id => some_before (·.Removes id) fun ⟨y, own, same⟩ =>
      ⟨y, (Option.filter_eq_some_iff.mp own).1, same⟩
  have removes : ∀ id, c.name id ≠ "" → Removing n id → Removing (Function.update n t m) id := by
    refine fun id named => some_kept (·.Removes id) ?_
    rintro ⟨y, own, rfl⟩
    refine ⟨y, Option.filter_eq_some_iff.mpr ⟨own, ?_⟩, rfl⟩
    cases authenticated with
    | true => rfl
    | false =>
      have other : y ≠ x := by
        rintro rfl
        exact named (nameless rfl)
      simpa using other
  refine ⟨matched.fds, matched.numbered, matched.disconnects, ?_, ?_, ?_, ?_, ?_⟩
  · exact fun id removing => matched.removed id (removed id removing)
  · intro id named
    rw [gives, takes]
    exact matched.listed id named
  · intro u member
    simp only [takes]
    exact matched.bearers u member
  · exact fun id named => (matched.seated id named).imp_right (removes id named)
  · intro u y v giving
    rw [takes]
    exact matched.given u y v (giving_old giving (Or.inr rfl))

/-- The block of `remove_client`: the session leaves the table for its removal. -/
theorem Matched.erase (matched : Matched c n) (fd : Nat) (nothing : (n t).removing = none) :
    Matched (c.step t dbOk (.eraseSession fd))
      (Function.update n t { n t with removing := c.table.find? fun x => x.fd = fd }) := by
  have table := Core.step_table c t dbOk (.eraseSession fd)
  have names := Core.step_name c t dbOk (.eraseSession fd)
  have online := Core.step_online c t dbOk (.eraseSession fd)
  have nextId := Core.step_nextId c t dbOk (.eraseSession fd)
  set m : Naming := { n t with removing := c.table.find? fun x => x.fd = fd } with made
  have gives : ∀ id, Giving (Function.update n t m) id ↔ Giving n id :=
    fun id => some_same (·.Gives id) Iff.rfl
  have takes : ∀ id, Taking (Function.update n t m) id ↔ Taking n id :=
    fun id => some_same (·.Takes id) Iff.rfl
  have removes : ∀ id, Removing n id → Removing (Function.update n t m) id := by
    refine fun id => some_kept (·.Removes id) ?_
    rintro ⟨y, own, _⟩
    rw [nothing] at own
    cases own
  refine ⟨Core.step_fds c t dbOk _ matched.fds, Core.step_numbered c t dbOk _ matched.numbered,
    (Core.step_disconnects c t dbOk _).trans matched.disconnects, ?_, ?_, ?_, ?_, ?_⟩
  · intro id removing
    rw [nextId]
    rcases (some_update (·.Removes id)).mp removing with ⟨y, found, rfl⟩ | ⟨u, _, old⟩
    · exact matched.numbered.bound y (List.mem_of_find?_eq_some found)
    · exact matched.removed id ⟨u, old⟩
  · intro id
    rw [names, online, gives, takes]
    exact matched.listed id
  · intro u
    rw [names, online]
    simp only [takes]
    exact matched.bearers u
  · intro id named
    rw [names] at named
    rcases matched.seated id named with ⟨z, member, own⟩ | removing
    · by_cases same : z.fd = fd
      · subst same
        refine Or.inr ⟨t, z, ?_, own⟩
        rw [Function.update_self]
        exact find_of_mem matched.fds member
      · refine Or.inl ⟨z, ?_, own⟩
        rw [table]
        dsimp only
        cases found : c.table.find? fun x => x.fd = fd with
        | none => exact member
        | some y =>
          have at_fd : y.fd = fd := by simpa using List.find?_some found
          exact List.mem_filter.mpr ⟨member, by simpa [at_fd] using same⟩
    · exact Or.inr (removes id removing)
  · intro u y v giving
    rw [names, takes]
    exact matched.given u y v (giving_old giving (Or.inr rfl))

/-- A connection is accepted under a descriptor that no session of the table has. -/
theorem Matched.accept (matched : Matched c n) {fd : Nat} (ip : String)
    (fresh : ∀ y ∈ c.table, y.fd ≠ fd) : Matched (c.step t dbOk (.storeSession fd ip)) n := by
  have nameless : c.name c.nextId = "" := by
    by_contra named
    rcases matched.seated c.nextId named with ⟨y, member, own⟩ | removing
    · exact absurd own (Nat.ne_of_lt (matched.numbered.bound y member))
    · exact absurd (matched.removed c.nextId removing) (Nat.lt_irrefl _)
  have names : (c.step t dbOk (.storeSession fd ip)).name = c.name := by
    rw [Core.step_name]
    exact Function.update_eq_iff.mpr ⟨nameless.symm, fun _ _ => rfl⟩
  refine ⟨Core.step_fds c t dbOk _ matched.fds, Core.step_numbered c t dbOk _ matched.numbered,
    matched.disconnects, ?_, ?_, ?_, ?_, ?_⟩
  · exact fun id removing => Nat.lt_succ_of_lt (matched.removed id removing)
  · intro id
    rw [names]
    exact matched.listed id
  · intro u
    rw [names]
    exact matched.bearers u
  · intro id named
    rw [names] at named
    refine (matched.seated id named).imp_left ?_
    rintro ⟨y, member, own⟩
    refine ⟨y, List.mem_cons_of_mem _ (List.mem_filter.mpr ⟨member, ?_⟩), own⟩
    simpa using fresh y member
  · intro u y v
    rw [names]
    exact matched.given u y v

end

/-! ## Every step -/

theorem matched_step {workers t : Nat} {action : Act} {s : Followed} (w : World)
    (matched : Matched (coreOf s.1) s.2) (ok : naming.ok (s.2 t) action)
    (undisturbed : Undisturbed t action s) (fresh : Fresh t action s.1) :
    Matched (coreOf ((followed workers).exec t w action s).2.1)
      ((followed workers).exec t w action s).2.2 := by
  change Matched (coreOf (execShared t w action s.1).2)
    (Function.update s.2 t ((s.2 t).follow action (action.exec w s.1.server).1))
  rw [coreOf_exec]
  cases action with
  | setUsername x name =>
    obtain ⟨giving, _, nonempty⟩ := ok
    obtain ⟨seat, nameless, stays⟩ := undisturbed
    exact matched.give nonempty giving (seat.imp_left fun member => ⟨x, member, rfl⟩) nameless stays
  | insertOnline name =>
    obtain ⟨x, giving⟩ := ok
    exact matched.list giving
  | eraseOnline name =>
    obtain ⟨_, taking, x, read⟩ := ok
    obtain ⟨bears, settled, others⟩ := undisturbed x read
    exact matched.unlist taking read bears settled others
  | clearUsername x => exact matched.unname ok
  | isAuthenticated x =>
    refine matched.look fun unauthenticated => ?_
    by_contra named
    exact absurd ((isAuthenticated_iff _).mpr named) (Bool.eq_false_iff.mp unauthenticated)
  | hasDisconnectHandler =>
    have registered : s.1.server.hasDisconnectHandler = true := matched.disconnects
    refine matched.same ⟨rfl, rfl, rfl, rfl, rfl⟩ ⟨rfl, rfl, ?_⟩
    simp only [Naming.follow, Act.exec, registered]
    cases (s.2 t).removing <;> rfl
  | eraseSession fd =>
    have found := exec_eraseSession w fd s.1.server
    change Matched _ (Function.update s.2 t { s.2 t with removing := _ })
    rw [found]
    exact matched.erase fd ok
  | storeSession fd ip =>
    change Matched _ (Function.update s.2 t (s.2 t))
    rw [Function.update_eq_self]
    exact matched.accept ip (fresh fd ip rfl)
  | _ =>
    refine matched.same ⟨?_, ?_, ?_, ?_, ?_⟩ ⟨rfl, rfl, rfl⟩
    · exact Core.step_table _ _ _ _
    · exact Core.step_nextId _ _ _ _
    · exact Core.step_name _ _ _ _
    · exact Core.step_online _ _ _ _
    · exact Core.step_disconnects _ _ _ _

end LinuxChat.Guarantees.OnlineNames
