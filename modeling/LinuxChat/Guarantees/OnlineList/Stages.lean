import LinuxChat.Guarantees.Roster

/-!
# The stages of a login and the roster

A thread that logs a session in or removes one relies on the others to leave that session and
its name alone. `Entry` is what holds at each stage of a login, while the name is on one side
of the roster only.
-/

namespace LinuxChat.Guarantees.OnlineList

open LinuxChat.Lib LinuxChat.Source Prog

/-- Nobody begins work on a session that another thread is at work on, nobody logs in under
the name of a session that another thread is removing, and no cleanup hits a reserved name. -/
def Separate (t : Nat) : Act → Shared → Prop
  | .checkGeneration task, s => isAuthType task.msg.typeOf = true →
    (s.server.heap task.session.id).generation = task.genAtDispatch →
      ∀ other, other ≠ t → ¬ Busy (coreOf s) other task.session.id
  | .eraseSession fd, s => ∀ x ∈ s.server.sessions, x.fd = fd →
    ∀ other, other ≠ t → ¬ Busy (coreOf s) other x.id
  | .reserveForLogin username, s => ∀ other, other ≠ t → ∀ x,
    s.aux.job other = some (.removal x) → s.server.name x ≠ username
  | .cleanupLoginReservation username, s => ∀ other, s.aux.reservedBy other ≠ some username
  | _, _ => True

/-- The discipline of the online list: a thread relies on the others to leave alone what it is
about to enter or to remove. -/
def listing (workers : Nat) : Discipline (machine workers) where
  inv s := Roster (coreOf s)
  allowed := Separate
  rely t s s' := Awaits t (coreOf s) (coreOf s')
  rely_refl t s := Awaits.refl t (coreOf s)
  rely_trans _ _ _ _ h h' := h.trans h'

variable {workers : Nat} {t : Nat} {s : Shared}

theorem keeps_of_proper {action : Act} (w : World) (inv : Roster (coreOf s))
    (proper : Proper t (coreOf s) action) (placed : Placed (coreOf s) action)
    (careful : Careful everyone t (coreOf s) action) :
    (listing workers).Keeps t s (execShared t w action s).2 := by
  unfold Discipline.Keeps
  dsimp only [listing]
  rw [coreOf_exec]
  exact ⟨inv.step proper placed careful, fun other differs => inv.awaits proper careful differs⟩

theorem neutral_proper {action : Act} (neutral : Neutral action) (c : Core) :
    Proper t c action ∧ Placed c action ∧ Careful everyone t c action := by
  cases action with
  | setUsername | clearUsername | reserveForRegister | reserveForLogin | releaseReservation |
    cleanupLoginReservation | insertOnline | eraseOnline | registerUser | storeSession |
    eraseSession | enqueue | checkGeneration | dropSession => cases neutral
  | _ => exact ⟨trivial, trivial, trivial⟩

theorem keeps_of_neutral {action : Act} (w : World) (inv : Roster (coreOf s))
    (neutral : Neutral action) : (listing workers).Keeps t s (execShared t w action s).2 := by
  obtain ⟨proper, placed, careful⟩ := neutral_proper (t := t) neutral (coreOf s)
  exact keeps_of_proper w inv proper placed careful

theorem coreOf_neutral {action : Act} (neutral : Neutral action) (w : World) :
    coreOf (execShared t w action s).2 = coreOf s := by
  rw [coreOf_exec, Core.step_neutral neutral]

/-! ## The stages -/

/-- Thread `t` is at work on the session of this job. -/
structure Works (t : Nat) (job : Job) (c : Core) : Prop where
  doing : c.job t = some job
  work : Job.isWork job = true

theorem Works.busy {job : Job} {c : Core} (works : Works t job c) : Busy c t job.session.id :=
  ⟨job, works.doing, works.work, rfl⟩

theorem Works.awaited {job : Job} {c c' : Core} (awaits : Awaits t c c') (works : Works t job c) :
    Works t job c' :=
  ⟨awaits.job.trans works.doing, works.work⟩

/-- Where the name of the session and its entry stand. -/
def Entry (id : Nat) : Stage → Core → Prop
  | .settled, c => c.name id ≠ "" → c.name id ∈ c.online
  | .nameless, c => c.name id = ""
  | .reserved _, c => c.name id = ""
  | .granted _, c => c.name id = ""
  | .free _, c => c.name id = ""
  | .named username, c => c.name id = username ∧ username ≠ ""
  | .listed username, c => c.name id = username ∧ username ∈ c.online
  | .leaving username, c => c.name id = username
  | .unlisted username, c => c.name id = username ∧ username ∉ c.online
  | .over, c => c.name id ≠ "" → c.name id ∈ c.online

theorem Entry.awaited {stage : Stage} {id : Nat} {c c' : Core} (awaits : Awaits t c c')
    (busy : Busy c t id) (h : Entry id stage c) : Entry id stage c' := by
  have name := awaits.names id busy
  have entry := awaits.entries id busy
  have member : (c.name id ≠ "" → c.name id ∈ c.online) →
      c'.name id ≠ "" → c'.name id ∈ c'.online := by
    intro settled named
    rw [name] at named ⊢
    exact entry.mpr (settled named)
  cases stage with
  | settled => exact member h
  | nameless => exact name.trans h
  | reserved username => exact name.trans h
  | granted username => exact name.trans h
  | free username => exact name.trans h
  | named username => exact ⟨name.trans h.1, h.2⟩
  | leaving username => exact name.trans h
  | listed username =>
    obtain ⟨bears, entered⟩ := h
    refine ⟨name.trans bears, ?_⟩
    rw [← bears] at entered ⊢
    exact entry.mpr entered
  | unlisted username =>
    obtain ⟨bears, absent⟩ := h
    refine ⟨name.trans bears, ?_⟩
    rw [← bears] at absent ⊢
    exact fun entered => absent (entry.mp entered)
  | _ => exact member h

/-- The moves are proper and lead where the next stage says. -/
theorem entry_moves {session : SessionRef} {stage stage' : Stage} {action : Act}
    {result : action.Res} (w : World) (roster : Roster (coreOf s))
    (busy : Busy (coreOf s) t session.id) (standing : Standing everyone t stage (coreOf s))
    (h : Entry session.id stage (coreOf s)) (ran : (action.exec w s.server).1 = result)
    (moves : Moves session stage action result stage') :
    Proper t (coreOf s) action ∧ Placed (coreOf s) action ∧ ¬ BeginsOrEnds action ∧
      Entry session.id stage' ((coreOf s).step t w.dbOk action) := by
  cases moves with
  | neutral neutral =>
    rw [Core.step_neutral neutral]
    obtain ⟨proper, placed, _⟩ := neutral_proper (t := t) neutral (coreOf s)
    refine ⟨proper, placed, ?_, h⟩
    cases action with
    | eraseSession | checkGeneration | dropSession => exact fun _ => neutral
    | _ => exact not_false
  | gateClosed =>
    refine ⟨trivial, trivial, not_false, ?_⟩
    by_contra bears
    have passes : (s.server.heap session.id).isAuthenticated = true :=
      (isAuthenticated_iff _).mpr bears
    exact absurd (passes.symm.trans ran) (by decide)
  | read => exact ⟨trivial, trivial, not_false, ran⟩
  | @unlist username =>
    refine ⟨⟨session.id, busy, h⟩, trivial, not_false, ?_, ?_⟩
    · rw [name_same (by exact not_false)]
      exact h
    · rw [Core.step_online]
      simp
  | @unname username =>
    obtain ⟨bears, absent⟩ := h
    rw [← bears] at absent
    refine ⟨⟨busy, absent⟩, trivial, not_false, ?_⟩
    exact (congrFun (Core.step_name _ _ _ _) _).trans (Function.update_self _ _ _)
  | reserve nonempty =>
    refine ⟨trivial, trivial, not_false, ?_⟩
    exact (congrFun (name_same (by exact not_false)) _).trans h
  | refuse nonempty =>
    refine ⟨trivial, trivial, not_false, ?_⟩
    exact (congrFun (name_same (by exact not_false)) _).trans h
  | grant nonempty =>
    refine ⟨trivial, trivial, not_false, ?_⟩
    exact (congrFun (name_same (by exact not_false)) _).trans h
  | deny nonempty denied =>
    refine ⟨trivial, trivial, not_false, ?_⟩
    exact (congrFun (name_same (by exact not_false)) _).trans h
  | insertRow =>
    refine ⟨trivial, trivial, not_false, ?_⟩
    exact (congrFun (name_same (by exact not_false)) _).trans h
  | refuseRow =>
    refine ⟨trivial, trivial, not_false, ?_⟩
    exact (congrFun (name_same (by exact not_false)) _).trans h
  | findRow nonempty => exact ⟨trivial, trivial, not_false, h⟩
  | @give username =>
    refine ⟨⟨busy, h⟩, trivial, not_false, ?_, roster.held.nonempty t username standing.own⟩
    exact (congrFun (Core.step_name _ _ _ _) _).trans (Function.update_self _ _ _)
  | @list username =>
    obtain ⟨bears, nonempty⟩ := h
    refine ⟨⟨nonempty, session.id, busy, bears⟩, trivial, not_false, ?_, ?_⟩
    · rw [name_same (by exact not_false)]
      exact bears
    · rw [Core.step_online]
      dsimp only
      split
      next entered => exact entered
      · exact List.mem_cons_self
  | giveUp =>
    refine ⟨trivial, trivial, not_false, ?_⟩
    exact (congrFun (name_same (by exact not_false)) _).trans h
  | @release username =>
    obtain ⟨bears, entered⟩ := h
    refine ⟨trivial, trivial, not_false, fun _ => ?_⟩
    rw [name_same (by exact not_false), Core.step_online, bears]
    exact entered

/-- No session object has a name that the scan of the table did not find and that no
removal is about. -/
theorem unused_of_offline {username : String} {job : Job} (roster : Roster (coreOf s))
    (works : Works t job (coreOf s)) (nameless : (coreOf s).name job.session.id = "")
    (offline : (s.server.findSession username).isSome = false) (nonempty : username ≠ "")
    (allowed : Separate t (.reserveForLogin username) s) :
    Unused everyone username (coreOf s) := by
  intro id _ bears
  have named : (coreOf s).name id ≠ "" := bears.symm ▸ nonempty
  by_cases live : (coreOf s).Live id
  · obtain ⟨x, member, own⟩ := live
    have scan : (s.server.findSession username).isSome = true := by
      unfold Server.findSession
      rw [List.find?_isSome]
      refine ⟨x, member, decide_eq_true ?_⟩
      subst own
      exact bears
    rw [offline] at scan
    cases scan
  · obtain ⟨other, x, removes, own⟩ := roster.leaving named live
    subst own
    by_cases actor : other = t
    · rw [actor, works.doing] at removes
      cases removes
      exact named nameless
    · exact allowed other actor x removes bears

/-- The login handlers at work on a job, stage by stage. -/
def handling (workers t : Nat) (job : Job) : Outline (listing workers) t job.session where
  holds stage s := Works t job (coreOf s) ∧ Entry job.session.id stage (coreOf s) ∧
    Standing everyone t stage (coreOf s)
  stable _ _ _ awaits h :=
    ⟨h.1.awaited awaits, h.2.1.awaited awaits h.1.busy, h.2.2.respected awaits.respects⟩
  moves {stage stage' action result s} w h inv allowed ran moves := by
    obtain ⟨works, entry, standing⟩ := h
    have grants : ∀ username, action = .reserveForLogin username →
        (s.server.findSession username).isSome = false → Unused everyone username (coreOf s) := by
      rintro username rfl offline
      cases moves with
      | neutral neutral => cases neutral
      | grant nonempty => exact unused_of_offline inv works entry offline nonempty allowed
      | deny nonempty => exact unused_of_offline inv works entry offline nonempty allowed
    obtain ⟨careful, stands⟩ := standing_moves w visible_all inv.held inv.distinct standing grants
      ran moves
    obtain ⟨proper, placed, goesOn, after⟩ := entry_moves w inv works.busy standing entry ran moves
    have core := coreOf_exec t w action s
    refine ⟨keeps_of_proper w inv proper placed careful, ⟨?_, works.work⟩, ?_, stands⟩
    · exact (congrArg (fun c => c.job t) core).trans
        ((congrFun (job_same goesOn) t).trans works.doing)
    · exact core ▸ after
  rest {s} h := by
    rcases h with ⟨works, nameless, _⟩ | ⟨works, settled, _⟩
    · exact ⟨works, fun named => absurd nameless named, trivial⟩
    · exact ⟨works, settled, trivial⟩
  forget {username s} h := by
    rcases h with ⟨works, nameless, granted⟩ | ⟨works, nameless, free⟩
    · exact ⟨works, nameless, granted.1⟩
    · exact ⟨works, nameless, free.own⟩
  drop {username s} h := by
    rcases h with ⟨works, nameless, _⟩ | ⟨works, ⟨bears, entered⟩, _⟩
    · exact ⟨works, fun named => absurd nameless named, trivial⟩
    · exact ⟨works, fun _ => by rw [bears]; exact entered, trivial⟩

end LinuxChat.Guarantees.OnlineList
