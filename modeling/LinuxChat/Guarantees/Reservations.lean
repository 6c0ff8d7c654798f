import LinuxChat.Guarantees.Outline

/-!
# Reservations of usernames

`login_in_progress_` (server/src/message_router.cpp:157-161, 276-411) is a set of
names without owners. As long as no cleanup takes away a name that a thread has
reserved, the thread that put a name in is the only one that can give it to a
session. `seen` says which session objects are considered: those of the table, or all.
-/

namespace LinuxChat.Guarantees

open LinuxChat.Lib LinuxChat.Source

/-- Reserved names are in the set, each for one thread. -/
structure Held (c : Core) : Prop where
  present : ∀ t u, c.reservedBy t = some u → u ∈ c.inProgress
  single : ∀ t t' u, c.reservedBy t = some u → c.reservedBy t' = some u → t = t'
  nonempty : ∀ t u, c.reservedBy t = some u → u ≠ ""

/-- No two of the considered sessions have the same name, and names have rows. -/
structure Distinct (seen : Core → Nat → Prop) (c : Core) : Prop where
  unique : ∀ i j, seen c i → seen c j → c.name i ≠ "" → c.name i = c.name j → i = j
  rows : ∀ i, seen c i → c.name i ≠ "" → Has c.users (cString (c.name i))

/-- No considered session has the name. -/
def Unused (seen : Core → Nat → Prop) (username : String) (c : Core) : Prop :=
  ∀ i, seen c i → c.name i ≠ username

/-- Thread `t` may give the name to a session. -/
structure Free (seen : Core → Nat → Prop) (t : Nat) (username : String) (c : Core) : Prop where
  own : c.reservedBy t = some username
  unused : Unused seen username c
  row : Has c.users (cString username)

/-- What a thread must know before an action on names and reservations. -/
def Careful (seen : Core → Nat → Prop) (t : Nat) (c : Core) : Act → Prop
  | .setUsername _ name => Free seen t name c
  | .reserveForRegister username => username ≠ ""
  | .reserveForLogin username => username ≠ ""
  | .releaseReservation username => c.reservedBy t = some username
  | .cleanupLoginReservation username => ∀ other, c.reservedBy other ≠ some username
  | _ => True

/-- New session objects come without a name. -/
def Visible (seen : Core → Nat → Prop) : Prop :=
  ∀ c t dbOk action i, seen (c.step t dbOk action) i →
    seen c i ∨ (c.step t dbOk action).name i = ""

theorem visible_live : Visible Core.Live := by
  intro c t dbOk action i live
  obtain ⟨x, member, own⟩ := live
  rw [Core.step_table] at member
  cases action with
  | storeSession fd ip =>
    rcases List.mem_cons.mp member with new | old
    · right
      rw [Core.step_name, ← own, new]
      exact Function.update_self _ _ _
    · exact Or.inl ⟨x, (List.mem_filter.mp old).1, own⟩
  | eraseSession fd =>
    left
    dsimp only at member
    cases found : c.table.find? fun y => y.fd = fd with
    | none =>
      rw [found] at member
      exact ⟨x, member, own⟩
    | some y =>
      rw [found] at member
      exact ⟨x, (List.mem_filter.mp member).1, own⟩
  | _ => exact Or.inl ⟨x, member, own⟩

theorem visible_all : Visible fun _ _ => True :=
  fun _ _ _ _ _ _ => Or.inl trivial

variable {seen : Core → Nat → Prop} {c : Core} {t : Nat} {dbOk : Bool} {action : Act}

/-- Who owns a reservation after a step: its owner before, or the thread that made it. -/
theorem owner_cases {other : Nat} {u : String}
    (own : (c.step t dbOk action).reservedBy other = some u) :
    c.reservedBy other = some u ∨
      other = t ∧ u ∉ c.inProgress ∧ u ∈ (c.step t dbOk action).inProgress ∧
        (action = .reserveForRegister u ∨ action = .reserveForLogin u) := by
  have updated : ∀ value, Function.update c.reservedBy t value other = some u →
      c.reservedBy other = some u ∨ other = t ∧ value = some u := by
    intro value same
    by_cases actor : other = t
    · subst actor
      rw [Function.update_self] at same
      exact Or.inr ⟨rfl, same⟩
    · rw [Function.update_of_ne actor] at same
      exact Or.inl same
  have inProgress := Core.step_inProgress c t dbOk action
  rw [Core.step_reservedBy] at own
  cases action with
  | reserveForRegister username =>
    dsimp only at own inProgress
    split at own
    · exact Or.inl own
    next absent =>
      rw [if_neg absent] at inProgress
      refine (updated _ own).imp_right fun ⟨actor, same⟩ => ?_
      cases same
      rw [inProgress]
      exact ⟨actor, absent, List.mem_cons_self, Or.inl rfl⟩
  | reserveForLogin username =>
    dsimp only at own inProgress
    split at own
    · exact Or.inl own
    next absent =>
      rw [if_neg absent] at inProgress
      refine (updated _ own).imp_right fun ⟨actor, same⟩ => ?_
      cases same
      rw [inProgress]
      exact ⟨actor, fun held => absent (Or.inl held), List.mem_cons_self, Or.inr rfl⟩
  | releaseReservation username =>
    exact (updated _ own).imp_right fun ⟨_, same⟩ => nomatch same
  | dropSession x => exact (updated _ own).imp_right fun ⟨_, same⟩ => nomatch same
  | _ => exact Or.inl own

/-- The other threads keep their reservations. -/
theorem reservedBy_other {other : Nat} (differs : other ≠ t) :
    (c.step t dbOk action).reservedBy other = c.reservedBy other := by
  rw [Core.step_reservedBy]
  cases action with
  | reserveForRegister | reserveForLogin =>
    dsimp only
    split
    · rfl
    · exact Function.update_of_ne differs _ _
  | releaseReservation | dropSession => exact Function.update_of_ne differs _ _
  | _ => rfl

/-- A reserved name leaves the set only when its owner releases it. -/
theorem Held.kept (held : Held c) (careful : Careful seen t c action) {other : Nat} {u : String}
    (own : c.reservedBy other = some u)
    (still : (c.step t dbOk action).reservedBy other = some u) :
    u ∈ (c.step t dbOk action).inProgress := by
  have present := held.present other u own
  rw [Core.step_inProgress]
  cases action with
  | reserveForRegister username =>
    dsimp only
    split
    · exact present
    · exact List.mem_cons_of_mem username present
  | reserveForLogin username =>
    dsimp only
    split
    · exact present
    · exact List.mem_cons_of_mem username present
  | releaseReservation username =>
    rw [Core.step_reservedBy] at still
    have differs : u ≠ username := by
      intro same
      subst same
      have actor := held.single other t u own careful
      subst actor
      have cleared : Function.update c.reservedBy other none other = some u := still
      rw [Function.update_self] at cleared
      cases cleared
    simpa using ⟨present, differs⟩
  | cleanupLoginReservation username =>
    dsimp only
    split
    · exact present
    · have differs : u ≠ username := by
        intro same
        subst same
        exact careful other own
      simpa using ⟨present, differs⟩
  | _ => exact present

theorem Held.step (held : Held c) (careful : Careful seen t c action) :
    Held (c.step t dbOk action) where
  present other u own := by
    rcases owner_cases own with old | ⟨_, _, present, _⟩
    · exact held.kept careful old own
    · exact present
  single t₁ t₂ u own₁ own₂ := by
    rcases owner_cases own₁ with old₁ | ⟨actor₁, absent, _, _⟩
    · rcases owner_cases own₂ with old₂ | ⟨_, absent, _, _⟩
      · exact held.single t₁ t₂ u old₁ old₂
      · exact absurd (held.present t₁ u old₁) absent
    · rcases owner_cases own₂ with old₂ | ⟨actor₂, _, _, _⟩
      · exact absurd (held.present t₂ u old₂) absent
      · rw [actor₁, actor₂]
  nonempty other u own := by
    rcases owner_cases own with old | ⟨_, _, _, made⟩
    · exact held.nonempty other u old
    · rcases made with rfl | rfl
      · exact careful
      · exact careful

/-- A name a session has after a step it had before, or it was just given. -/
theorem name_cases {i : Nat} {u : String} (name : (c.step t dbOk action).name i = u) :
    c.name i = u ∨ u = "" ∨ ∃ x, action = .setUsername x u ∧ x.id = i := by
  rw [Core.step_name] at name
  have updated : ∀ k value, Function.update c.name k value i = u → c.name i = u ∨ i = k ∧ value = u := by
    intro k value same
    by_cases target : i = k
    · subst target
      rw [Function.update_self] at same
      exact Or.inr ⟨rfl, same⟩
    · rw [Function.update_of_ne target] at same
      exact Or.inl same
  cases action with
  | setUsername x value =>
    refine (updated _ _ name).imp_right fun ⟨target, same⟩ => Or.inr ⟨x, ?_, target.symm⟩
    rw [same]
  | clearUsername x => exact (updated _ _ name).imp_right fun given => Or.inl given.2.symm
  | storeSession fd ip => exact (updated _ _ name).imp_right fun given => Or.inl given.2.symm
  | _ => exact Or.inl name

/-- Whoever has a nonempty name after a step and was considered before had it, or got it. -/
theorem seen_cases (visible : Visible seen) {i : Nat} (shown : seen (c.step t dbOk action) i)
    (named : (c.step t dbOk action).name i ≠ "") :
    seen c i ∧ (c.name i = (c.step t dbOk action).name i ∨
      ∃ x, action = .setUsername x ((c.step t dbOk action).name i) ∧ x.id = i) := by
  rcases visible c t dbOk action i shown with before | nameless
  · have own : (c.step t dbOk action).name i = (c.step t dbOk action).name i := rfl
    rcases name_cases own with same | empty | given
    · exact ⟨before, Or.inl same⟩
    · exact absurd empty named
    · exact ⟨before, Or.inr given⟩
  · exact absurd nameless named

theorem Distinct.step (distinct : Distinct seen c) (visible : Visible seen)
    (careful : Careful seen t c action) : Distinct seen (c.step t dbOk action) where
  unique i j hi hj named same := by
    have namedJ : (c.step t dbOk action).name j ≠ "" := same ▸ named
    obtain ⟨seenI, nameI⟩ := seen_cases visible hi named
    obtain ⟨seenJ, nameJ⟩ := seen_cases visible hj namedJ
    rcases nameI with oldI | ⟨x, givenI, targetI⟩
    · rcases nameJ with oldJ | ⟨y, givenJ, _⟩
      · exact distinct.unique i j seenI seenJ (oldI ▸ named) (oldI.trans (same.trans oldJ.symm))
      · rw [givenJ] at careful
        exact absurd (oldI.trans same) (careful.unused i seenI)
    · rcases nameJ with oldJ | ⟨y, givenJ, targetJ⟩
      · rw [givenI] at careful
        exact absurd (oldJ.trans same.symm) (careful.unused j seenJ)
      · have target : x = y := (Act.setUsername.inj (givenI.symm.trans givenJ)).1
        rw [← targetI, ← targetJ, target]
  rows i hi named := by
    obtain ⟨seenI, name⟩ := seen_cases visible hi named
    rcases name with old | ⟨x, given, _⟩
    · rw [← old]
      exact Core.step_users c t dbOk action (distinct.rows i seenI (old ▸ named))
    · rw [given] at careful
      exact Core.step_users c t dbOk action careful.row

/-- What a thread relies on for its reservation. -/
structure Respects (seen : Core → Nat → Prop) (t : Nat) (c c' : Core) : Prop where
  own : c'.reservedBy t = c.reservedBy t
  unused : ∀ u, c.reservedBy t = some u → Unused seen u c → Unused seen u c'
  rows : ∀ name, Has c.users name → Has c'.users name

theorem Respects.refl (t : Nat) (c : Core) : Respects seen t c c :=
  ⟨rfl, fun _ _ h => h, fun _ h => h⟩

theorem Respects.trans {c' c'' : Core} (h : Respects seen t c c') (h' : Respects seen t c' c'') :
    Respects seen t c c'' where
  own := h'.own.trans h.own
  unused u own before := h'.unused u (h.own.trans own) (h.unused u own before)
  rows name row := h'.rows name (h.rows name row)

theorem Held.respects (held : Held c) (visible : Visible seen) (careful : Careful seen t c action)
    {other : Nat} (differs : other ≠ t) : Respects seen other c (c.step t dbOk action) where
  own := reservedBy_other differs
  unused u own unused i shown name := by
    have nonempty := held.nonempty other u own
    obtain ⟨before, given⟩ := seen_cases visible shown (name.symm ▸ nonempty)
    rw [name] at given
    rcases given with old | ⟨x, made, _⟩
    · exact unused i before old
    · rw [made] at careful
      exact differs (held.single other t u own careful.own)
  rows _ := Core.step_users c t dbOk action

theorem Free.respected {c' : Core} {u : String} (free : Free seen t u c)
    (respects : Respects seen t c c') : Free seen t u c' where
  own := respects.own.trans free.own
  unused := respects.unused u free.own free.unused
  row := respects.rows _ free.row

/-! ## What the results tell -/

theorem absent_of_reserveForRegister {w : World} {username : String} {s : Server}
    (ran : (Act.exec w (.reserveForRegister username) s).1 = true) :
    username ∉ s.loginInProgress := by
  intro held
  simp only [Act.exec, if_pos held] at ran
  cases ran

theorem offline_of_reserveForLogin {w : World} {username : String} {s : Server}
    (ran : (Act.exec w (.reserveForLogin username) s).1 = .reserved) :
    username ∉ s.loginInProgress ∧ (s.findSession username).isSome = false := by
  simp only [Act.exec] at ran
  split at ran
  · cases ran
  next absent =>
    split at ran
    · cases ran
    next offline => exact ⟨absent, Bool.eq_false_iff.mpr offline⟩

theorem inserted_of_registerUser {w : World} {username hash : String} {s : Server}
    (ran : (Act.exec w (.registerUser username hash) s).1 = true) :
    ¬ Has s.db.users (cString username) ∧
      Has (Act.exec w (.registerUser username hash) s).2.db.users (cString username) := by
  rw [exec_db]
  change (s.db.registerUser w.dbOk username hash).1 = true at ran
  dsimp only
  unfold Database.registerUser at ran ⊢
  split at ran
  · cases ran
  next nonempty =>
    split at ran
    · cases ran
    next works =>
      split at ran
      · cases ran
      next missing =>
        rw [if_neg nonempty, if_neg works, if_neg missing]
        refine ⟨fun taken => missing ?_, (cString username, cString hash), by simp, rfl⟩
        obtain ⟨user, member, same⟩ := taken
        exact List.any_eq_true.mpr ⟨user, member, by simpa using same⟩

theorem row_of_getStoredHash {w : World} {username record : String} {s : Server}
    (ran : (Act.exec w (.getStoredHash username) s).1 = record) (found : record ≠ "") :
    Has s.db.users (cString username) := by
  have stored : s.db.getStoredHash w.dbOk username = record := ran
  rw [← stored] at found
  exact has_of_getStoredHash found

/-! ## The stages of a login -/

/-- What the stages say about the reservation of thread `t`. -/
def Standing (seen : Core → Nat → Prop) (t : Nat) : Stage → Core → Prop
  | .reserved username, c => c.reservedBy t = some username
  | .granted username, c => c.reservedBy t = some username ∧ Unused seen username c
  | .free username, c => Free seen t username c
  | .named username, c => c.reservedBy t = some username
  | .listed username, c => c.reservedBy t = some username
  | _, _ => True

theorem Standing.respected {stage : Stage} {c' : Core} (respects : Respects seen t c c')
    (h : Standing seen t stage c) : Standing seen t stage c' := by
  cases stage with
  | reserved username => exact respects.own.trans h
  | named username => exact respects.own.trans h
  | listed username => exact respects.own.trans h
  | granted username => exact ⟨respects.own.trans h.1, respects.unused username h.1 h.2⟩
  | free username => exact Free.respected h respects
  | _ => trivial

theorem Unused.step (visible : Visible seen) {username : String} (nonempty : username ≠ "")
    (unused : Unused seen username c) (other : ∀ x, action ≠ .setUsername x username) :
    Unused seen username (c.step t dbOk action) := by
  intro i shown name
  obtain ⟨before, given⟩ := seen_cases visible shown (name.symm ▸ nonempty)
  rw [name] at given
  rcases given with old | ⟨x, made, _⟩
  · exact unused i before old
  · exact other x made

/-- A granted reservation is the thread's own. -/
theorem reserved_of_granted {s : Shared} {w : World} {username : String}
    (ran : (Act.exec w (.reserveForLogin username) s.server).1 = .reserved) :
    ((coreOf s).step t dbOk (.reserveForLogin username)).reservedBy t = some username := by
  obtain ⟨absent, offline⟩ := offline_of_reserveForLogin ran
  have free : ¬ (username ∈ (coreOf s).inProgress ∨ (coreOf s).taken username = true) := by
    rintro (held | taken)
    · exact absent held
    · rw [taken_eq, offline] at taken
      cases taken
  rw [Core.step_reservedBy]
  dsimp only
  rw [if_neg free, Function.update_self]

theorem reserved_of_reserved {s : Shared} {w : World} {username : String}
    (ran : (Act.exec w (.reserveForRegister username) s.server).1 = true) :
    ((coreOf s).step t dbOk (.reserveForRegister username)).reservedBy t = some username := by
  have absent : username ∉ (coreOf s).inProgress := absent_of_reserveForRegister ran
  rw [Core.step_reservedBy]
  dsimp only
  rw [if_neg absent, Function.update_self]

/-- The moves are careful and lead where the next stage says; that a granted login
finds the name unused is the caller's part. -/
theorem standing_moves {s : Shared} {session : SessionRef} {stage stage' : Stage}
    {result : action.Res} (w : World) (visible : Visible seen) (held : Held (coreOf s))
    (distinct : Distinct seen (coreOf s)) (h : Standing seen t stage (coreOf s))
    (grants : ∀ username, action = .reserveForLogin username →
      (s.server.findSession username).isSome = false → Unused seen username (coreOf s))
    (ran : (action.exec w s.server).1 = result) (moves : Moves session stage action result stage') :
    Careful seen t (coreOf s) action ∧
      Standing seen t stage' (coreOf (execShared t w action s).2) := by
  rw [coreOf_exec]
  cases moves with
  | neutral neutral =>
    rw [Core.step_neutral neutral]
    refine ⟨?_, h⟩
    cases action with
    | setUsername | reserveForRegister | reserveForLogin | releaseReservation |
      cleanupLoginReservation => cases neutral
    | _ => trivial
  | gateClosed | read | unlist | unname => exact ⟨trivial, trivial⟩
  | refuse nonempty => exact ⟨nonempty, trivial⟩
  | deny nonempty denied => exact ⟨nonempty, trivial⟩
  | @reserve username nonempty => exact ⟨nonempty, reserved_of_reserved ran⟩
  | @grant username nonempty =>
    have unused := grants username rfl (offline_of_reserveForLogin ran).2
    refine ⟨nonempty, reserved_of_granted ran, ?_⟩
    exact unused.step visible nonempty fun _ => Act.noConfusion
  | @insertRow username hash =>
    obtain ⟨fresh, row⟩ := inserted_of_registerUser ran
    have nonempty := held.nonempty t username h
    have unused : Unused seen username (coreOf s) := by
      intro i shown name
      have taken := distinct.rows i shown (name.symm ▸ nonempty)
      rw [name] at taken
      exact fresh taken
    refine ⟨trivial, ⟨h, unused.step visible nonempty fun _ => Act.noConfusion, ?_⟩⟩
    have users := congrArg Core.users (coreOf_exec t w (.registerUser username hash) s)
    rw [← users]
    exact row
  | refuseRow => exact ⟨trivial, h⟩
  | @findRow username record nonempty =>
    exact ⟨trivial, h.1, h.2, row_of_getStoredHash ran nonempty⟩
  | give => exact ⟨h, h.own⟩
  | @list username =>
    refine ⟨trivial, ?_⟩
    change ((coreOf s).step t w.dbOk (.insertOnline username)).reservedBy t = some username
    rw [Core.step_reservedBy]
    exact h
  | giveUp => exact ⟨h, trivial⟩
  | release => exact ⟨h, trivial⟩

end LinuxChat.Guarantees
