import LinuxChat.Guarantees.Playback
import LinuxChat.Guarantees.Reservations

/-!
# At most one live session for a username

Any number of worker threads in the login handlers, beside the event loop that
removes clients and cleans up their pending logins (server/main.cpp:97-106). A
reservation is taken out by name (server/src/message_router.cpp:157-161), whoever
put it in. In every run in which the cleanup never hits a name that a thread has
reserved, no two sessions of the table have one name.
-/

namespace LinuxChat.Guarantees.LoginUniqueness

open LinuxChat.Lib LinuxChat.Source Prog

/-- The disconnect cleanup of a name runs while no thread has it reserved. -/
def CleansOwn (_ : Nat) : Act → Shared → Prop
  | .cleanupLoginReservation username, s => ∀ other, s.aux.reservedBy other ≠ some username
  | _, _ => True

/-- What the threads keep. -/
structure Consistent (c : Core) : Prop where
  numbered : Numbered c.table c.nextId
  held : Held c
  distinct : Distinct Core.Live c

/-- The discipline of names and reservations: a thread relies on the others not to take a name it
has reserved. -/
def uniqueness (workers : Nat) : Discipline (machine workers) where
  inv s := Consistent (coreOf s)
  allowed := CleansOwn
  rely t s s' := Respects Core.Live t (coreOf s) (coreOf s')
  rely_refl t s := Respects.refl t (coreOf s)
  rely_trans _ _ _ _ h h' := h.trans h'

variable {workers : Nat} {t : Nat} {s : Shared}

/-- A careful action keeps the discipline. -/
theorem keeps_of_careful {action : Act} (w : World) (inv : Consistent (coreOf s))
    (careful : Careful Core.Live t (coreOf s) action) :
    (uniqueness workers).Keeps t s (execShared t w action s).2 := by
  unfold Discipline.Keeps
  dsimp only [uniqueness]
  rw [coreOf_exec]
  refine ⟨⟨?_, ?_, ?_⟩, fun other differs => ?_⟩
  · exact Core.step_numbered _ _ _ _ inv.numbered
  · exact inv.held.step careful
  · exact inv.distinct.step visible_live careful
  · exact inv.held.respects visible_live careful differs

/-- Actions that need no care, or that `CleansOwn` takes care of. -/
def Carefree : Act → Prop
  | .setUsername _ _ => False
  | .reserveForRegister _ => False
  | .reserveForLogin _ => False
  | .releaseReservation _ => False
  | _ => True

theorem Carefree.careful {action : Act} (free : Carefree action)
    (allowed : CleansOwn t action s) : Careful Core.Live t (coreOf s) action := by
  cases action with
  | setUsername | reserveForRegister | reserveForLogin | releaseReservation => cases free
  | cleanupLoginReservation username => exact allowed
  | _ => trivial

theorem wp_carefree {α : Type} {p : Proc α} (h : p.Forall Carefree) (s : Shared) :
    (uniqueness workers).wp t (fun _ _ => True) (fun _ _ => True) p s :=
  Discipline.wp_of_forall (fun _ _ _ _ => trivial)
    (fun _ free _ _ inv allowed w => ⟨keeps_of_careful w inv (free.careful allowed), trivial⟩)
    (fun _ _ _ => trivial) (fun _ _ _ => trivial) h trivial

theorem unused_of_offline {username : String}
    (offline : (s.server.findSession username).isSome = false) :
    Unused Core.Live username (coreOf s) := by
  rintro i ⟨x, member, own⟩ name
  have scan : (s.server.findSession username).isSome = true := by
    unfold Server.findSession
    rw [List.find?_isSome]
    refine ⟨x, member, decide_eq_true ?_⟩
    subst own
    exact name
  rw [offline] at scan
  cases scan

/-- The login handlers, stage by stage. -/
def logins (workers : Nat) (t : Nat) (session : SessionRef) :
    Outline (uniqueness workers) t session where
  holds stage s := Standing Core.Live t stage (coreOf s)
  stable _ _ _ respects h := Standing.respected respects h
  moves w h inv _ ran moves := by
    obtain ⟨careful, after⟩ := standing_moves w visible_live inv.held inv.distinct h
      (fun _ _ offline => unused_of_offline offline) ran moves
    exact ⟨keeps_of_careful w inv careful, after⟩
  rest _ := trivial
  forget h := by
    rcases h with granted | free
    · exact granted.1
    · exact free.own
  drop _ := trivial

/-! ## The threads -/

theorem carefree_announcing : Announcing Carefree where
  clock := trivial
  list := trivial
  scan _ := trivial
  find _ := trivial
  users _ _ _ := trivial
  notify _ _ _ := trivial

theorem carefree_leaving : Leaving Carefree where
  toAnnouncing := carefree_announcing
  gate _ := trivial
  name _ := trivial
  offline _ := trivial
  unname _ := trivial
  erase _ := trivial
  registered := trivial
  pending _ := trivial
  cleanup _ := trivial
  unpend _ := trivial
  drop _ := trivial

theorem carefree_serving : Serving Carefree where
  toLeaving := carefree_leaving
  store _ _ := trivial
  receive _ := trivial
  handler := trivial
  stamp _ := trivial
  enqueue _ := trivial
  ping _ := trivial

/-- What a worker does for a task: a session is named only while the worker has the name reserved.
-/
theorem wp_runTask (task : Task) (s : Shared) :
    (uniqueness workers).wp t (fun _ _ => True) (fun _ _ => True) (runTask task) s := by
  have drop : (.act (.dropSession task.session) .ret : Proc Unit).Forall Carefree :=
    ⟨trivial, fun _ => trivial⟩
  rw [runTask_eq]
  intro s₁ _ inv _ w
  refine ⟨keeps_of_careful w inv trivial, ?_⟩
  dsimp only
  split
  · have routed := fun s => (logins workers t task.session).wp_guardedRoute (s := s)
      (X := fun _ _ => True) task.msg
    exact Discipline.wp_seq (routed _ trivial) (fun _ s₂ _ => wp_carefree drop s₂) fun _ _ h => h
  · exact wp_carefree drop _

/-- All programs keep to the discipline. -/
theorem uniqueness_verified (workers : Nat) : (uniqueness workers).Verified fun _ _ => True where
  stable _ _ _ _ _ := trivial
  spawn t p s s' inv _ start := by
    cases start with
    | event e _ possible =>
      refine ⟨⟨inv, fun other _ => Respects.refl other _⟩, ?_⟩
      exact wp_carefree (forall_event carefree_serving e) s
    | @task _ _ task rest worker inPool queued =>
      refine ⟨⟨?_, fun other _ => ?_⟩, wp_runTask task _⟩
      · exact ⟨inv.numbered, ⟨inv.held.present, inv.held.single, inv.held.nonempty⟩,
          ⟨inv.distinct.unique, inv.distinct.rows⟩⟩
      · exact ⟨rfl, fun _ _ unused => unused, fun _ row => row⟩

theorem consistent_boot (db : Database) : Consistent (coreOf (boot db).shared) where
  numbered := ⟨fun _ member => absurd member List.not_mem_nil,
    fun _ member => absurd member List.not_mem_nil⟩
  held := ⟨fun _ _ own => (nomatch own), fun _ _ _ own => (nomatch own), fun _ _ own => (nomatch own)⟩
  distinct := ⟨fun _ _ _ _ named => absurd rfl named, fun _ _ named => absurd rfl named⟩

/-- In every run in which no cleanup hits a reserved name, two sessions of the table
with one name are one session. -/
theorem sessions_have_distinct_names (workers : Nat) (db : Database)
    (c : Config serverInterface Exn Shared)
    (run : (machine workers).Reaches CleansOwn (boot db) c) :
    ∀ x ∈ c.shared.server.sessions, ∀ y ∈ c.shared.server.sessions,
      c.shared.server.name x ≠ "" → c.shared.server.name x = c.shared.server.name y → x = y := by
  have start : (uniqueness workers).Holds (fun _ _ => True) (boot db) :=
    ⟨consistent_boot db, fun _ => trivial⟩
  have inv := (Discipline.sound (uniqueness_verified workers) start run).inv
  intro x hx y hy named same
  have ids := inv.distinct.unique x.id y.id ⟨x, hx, rfl⟩ ⟨y, hy, rfl⟩ named same
  exact inv.numbered.apart x hx y hy ids

/-! ## Two logins and a cleanup -/

/-- The action cleans up no reservation. -/
def notCleanup : Act → Bool
  | .cleanupLoginReservation _ => false
  | _ => true

theorem permitted_of_notCleanup {w : World} {p : Proc Unit}
    (h : Machine.Permitted (fun action _ => notCleanup action = true) (execShared t) w p s) :
    Machine.Permitted (CleansOwn t) (execShared t) w p s := by
  refine h.mono fun action s other => ?_
  cases action with
  | cleanupLoginReservation => cases other
  | _ => trivial

/-- No thread has a name reserved. -/
def Unheld (s : Shared) : Prop := ∀ t, s.aux.reservedBy t = none

theorem exec_reservedBy_other {other : Nat} (differs : other ≠ t) (w : World) (action : Act) :
    (execShared t w action s).2.aux.reservedBy other = s.aux.reservedBy other := by
  have core := congrArg Core.reservedBy (coreOf_exec t w action s)
  have same : ((coreOf s).step t w.dbOk action).reservedBy other = s.aux.reservedBy other :=
    reservedBy_other differs
  rw [← core] at same
  exact same

/-- A program that reserves nothing may clean up where nothing is reserved. -/
theorem permitted_of_unheld {w : World} {p : Proc Unit} (free : p.Forall Carefree)
    (unheld : Unheld s) : Machine.Permitted (CleansOwn t) (execShared t) w p s := by
  induction p generalizing s with
  | ret value => trivial
  | raise error => trivial
  | act action next ih =>
    refine ⟨?_, ih _ (free.2 _) fun other => ?_⟩
    · cases action with
      | cleanupLoginReservation username =>
        intro other own
        rw [unheld other] at own
        cases own
      | _ => trivial
    · by_cases actor : other = t
      · subst actor
        unfold execShared
        rw [record_reservedBy]
        cases action with
        | reserveForRegister | reserveForLogin => exact free.1.elim
        | releaseReservation | dropSession => exact Function.update_self _ _ _
        | _ => exact unheld other
      · rw [exec_reservedBy_other actor]
        exact unheld other

theorem after_reservedBy_other {other : Nat} (differs : other ≠ t) (w : World) (p : Proc Unit)
    (s : Shared) : (after t w p s).aux.reservedBy other = s.aux.reservedBy other := by
  unfold after
  induction p generalizing s with
  | ret value => rfl
  | raise error => rfl
  | act action next ih => exact (ih _ _).trans (exec_reservedBy_other differs w action)

/-- A program that ends without a reservation of its thread leaves none. -/
theorem Unheld.after {w : World} {p : Proc Unit} (unheld : Unheld s)
    (ended : ((after t w p s).aux.reservedBy t).isNone = true) : Unheld (after t w p s) := by
  intro other
  by_cases actor : other = t
  · rw [actor]
    exact Option.isNone_iff_eq_none.mp ended
  · rw [after_reservedBy_other actor]
    exact unheld other

theorem Unheld.worked {w : World} (unheld : Unheld s)
    (ended : ((worked t w s).aux.reservedBy t).isNone = true) : Unheld (worked t w s) :=
  Unheld.after (s := dequeue s) unheld ended

/-- Three connections have been accepted. -/
def connected : Shared :=
  after 0 steadyWorld (handleNewConnection 7 "10.0.0.1")
    (after 0 steadyWorld (handleNewConnection 6 "10.0.0.1")
      (after 0 steadyWorld (handleNewConnection 5 "10.0.0.1") (boot {}).shared))

/-- A REGISTER arrives under the descriptor. -/
def asks (fd : Nat) (username : String) (s : Shared) : Shared :=
  after 0 (deliver (request "REGISTER" username)) (handleClientEvent fd) s

/-- Alice and then bob have registered, each with a worker of their own. -/
def bothIn : Shared :=
  worked 2 steadyWorld (asks 6 "bob" (worked 1 steadyWorld (asks 5 "alice" connected)))

/-- Carol's REGISTER found no salt, and its exception left her name reserved. -/
def carolStuck : Shared := worked 1 dryWorld (asks 7 "carol" bothIn)

/-- Her connection is closed, and the cleanup takes the reservation back. -/
def carolGone : Shared := after 0 hangUp (handleClientEvent 7) carolStuck

theorem bothIn_reached :
    (machine 2).Reaches CleansOwn (boot {}) ⟨bothIn, fun _ => .ret ()⟩ ∧ Unheld bothIn := by
  have start : (machine 2).Reaches CleansOwn (boot {}) (boot {}) := .refl
  have fifth := serve_event (.newConnection 5 "10.0.0.1") steadyWorld start
    (fun _ member => nomatch member) (permitted_of_notCleanup (by decide)) (by decide)
  have sixth := serve_event (.newConnection 6 "10.0.0.1") steadyWorld fifth (by decide)
    (permitted_of_notCleanup (by decide)) (by decide)
  have seventh := serve_event (.newConnection 7 "10.0.0.1") steadyWorld sixth (by decide)
    (permitted_of_notCleanup (by decide)) (by decide)
  have first := serve_event (.client 5) (deliver (request "REGISTER" "alice")) seventh trivial
    (permitted_of_notCleanup (by decide +kernel)) (by decide +kernel)
  have alice := serve_task 1 steadyWorld first (by decide) (by decide +kernel)
    (permitted_of_notCleanup (by decide +kernel)) (by decide +kernel)
  have second := serve_event (.client 6) (deliver (request "REGISTER" "bob")) alice trivial
    (permitted_of_notCleanup (by decide +kernel)) (by decide +kernel)
  have bob := serve_task 2 steadyWorld second (by decide) (by decide +kernel)
    (permitted_of_notCleanup (by decide +kernel)) (by decide +kernel)
  have idle : Unheld connected := fun _ => rfl
  refine ⟨bob, ?_⟩
  have asked := idle.after (w := deliver (request "REGISTER" "alice")) (p := handleClientEvent 5)
    (t := 0) (by decide +kernel)
  have answered := asked.worked (t := 1) (w := steadyWorld) (by decide +kernel)
  have asked' := answered.after (w := deliver (request "REGISTER" "bob")) (p := handleClientEvent 6)
    (t := 0) (by decide +kernel)
  exact asked'.worked (t := 2) (w := steadyWorld) (by decide +kernel)

theorem carolGone_reached :
    (machine 2).Reaches CleansOwn (boot {}) ⟨carolGone, fun _ => .ret ()⟩ := by
  obtain ⟨both, free⟩ := bothIn_reached
  have asked := serve_event (.client 7) (deliver (request "REGISTER" "carol")) both trivial
    (permitted_of_notCleanup (by decide +kernel)) (by decide +kernel)
  have fails := serve_task 1 dryWorld asked (by decide) (by decide +kernel)
    (permitted_of_notCleanup (by decide +kernel)) (by decide +kernel)
  have waiting := free.after (w := deliver (request "REGISTER" "carol")) (p := handleClientEvent 7)
    (t := 0) (by decide +kernel)
  have stuck := waiting.worked (t := 1) (w := dryWorld) (by decide +kernel)
  exact serve_event (.client 7) hangUp fails trivial
    (permitted_of_unheld (forall_event carefree_serving (.client 7)) stuck) (by decide +kernel)

/-- Two sessions are logged in, and the cleanup of a third one has hit a name that nobody has
reserved any more. -/
theorem sessions_have_distinct_names_carolGone :
    carolStuck.server.loginInProgress = ["carol"] ∧ carolGone.server.loginInProgress = [] ∧
      carolGone.server.sessions.map carolGone.server.name = ["bob", "alice"] ∧
      ∀ x ∈ carolGone.server.sessions, ∀ y ∈ carolGone.server.sessions,
        carolGone.server.name x ≠ "" → carolGone.server.name x = carolGone.server.name y → x = y :=
  ⟨by decide +kernel, by decide +kernel, by decide +kernel,
    sessions_have_distinct_names 2 {} ⟨carolGone, fun _ => .ret ()⟩ carolGone_reached⟩

/-! ## Two sessions of one name -/

/-- Connection 5 hangs up while worker 1 has alice reserved for it, so the cleanup
frees the name and worker 2 reserves it for connection 6. Worker 1 then releases it a
second time, and worker 3 gets it too, for connection 7. -/
def lateRelease : List Turn :=
  accept 5 ++ accept 6 ++ accept 7 ++
  read 5 loginAlice ++ [.take 1, .act 1 5 steadyWorld] ++
  [.event (.client 5), .act 0 20 hangUp] ++
  read 6 loginAlice ++ [.take 2, .act 2 5 steadyWorld, .act 1 40 steadyWorld] ++
  read 7 loginAlice ++ [.take 3, .act 3 40 steadyWorld, .act 2 40 steadyWorld]

/-- Two sessions in the table bear alice's name. -/
def twins (c : Config serverInterface Exn Shared) : Bool :=
  c.shared.server.sessions = [⟨2, 7, "10.0.0.1"⟩, ⟨1, 6, "10.0.0.1"⟩] &&
    c.shared.server.sessions.map c.shared.server.name = ["alice", "alice"]

/-- Without the condition a late cleanup takes out the reservation of somebody else, and a name is
given twice. -/
theorem two_sessions_share_a_name :
    ¬ ∀ workers db c, (machine workers).Reaches Machine.unrestricted (boot db) c →
      ∀ x ∈ c.shared.server.sessions, ∀ y ∈ c.shared.server.sessions,
        c.shared.server.name x ≠ "" → c.shared.server.name x = c.shared.server.name y → x = y := by
  intro always
  have passes : (play 3 lateRelease (boot aliceDb)).any twins = true := by decide +kernel
  obtain ⟨c, run, both⟩ := reaches_of_play passes
  simp only [twins, Bool.and_eq_true, decide_eq_true_eq] at both
  obtain ⟨table, named⟩ := both
  rw [table] at named
  have seventh : c.shared.server.name ⟨2, 7, "10.0.0.1"⟩ = "alice" := (List.cons.inj named).1
  have sixth : c.shared.server.name ⟨1, 6, "10.0.0.1"⟩ = "alice" :=
    (List.cons.inj (List.cons.inj named).2).1
  have same := always 3 aliceDb c run ⟨2, 7, "10.0.0.1"⟩ (by simp [table]) ⟨1, 6, "10.0.0.1"⟩
    (by simp [table]) (by rw [seventh]; decide) (seventh.trans sixth.symm)
  exact absurd same (by decide)

end LinuxChat.Guarantees.LoginUniqueness
