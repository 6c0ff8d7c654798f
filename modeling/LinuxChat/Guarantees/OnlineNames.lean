import LinuxChat.Guarantees.OnlineNames.Matched
import LinuxChat.Guarantees.Playback

/-!
# The online list and the names of the sessions

A login can finish on a session that has just been removed, two logins can be under way on one
connection, and a LOGOUT can run beside the disconnect handler of the same session. Where a name
is given and taken off the list only as `Undisturbed` says, the list is the names of the sessions in
the table whenever nobody is at work.
-/

namespace LinuxChat.Guarantees.OnlineNames

open LinuxChat.Lib LinuxChat.Source Prog

theorem meets_boot (db : Database) (t : Nat) :
    ((followedBoot db).thread t).Meets naming (fun _ n => n.Free) ((followedBoot db).shared.2 t) :=
  ⟨rfl, rfl, rfl⟩

section
variable {workers : Nat} {db : Database} {c : Config serverInterface Exn Followed}
  (run : (followed workers).Reaches Undisturbed (followedBoot db) c)
include run

theorem matched_of_run : Matched (coreOf c.shared.1) c.shared.2 := by
  have fresh : ∀ c t action next,
      (followed workers).Reaches Undisturbed (followedBoot db) c →
        c.thread t = .act action next → Fresh t action c.shared.1 :=
    fun _ _ _ _ run running => fresh_of_run run.forget running
  have extended : (followed workers).Reaches
      (fun t action s => Undisturbed t action s ∧ Fresh t action s.1) (followedBoot db) c :=
    run.also _ fresh
  have start : Matched (coreOf (followedBoot db).shared.1) (followedBoot db).shared.2 := by
    refine ⟨List.Pairwise.nil, ⟨?_, ?_⟩, rfl, ?_, ?_, ?_, ?_, ?_⟩
    · exact fun _ member => nomatch member
    · exact fun _ member => nomatch member
    · rintro id ⟨t, x, removing, _⟩
      cases removing
    · exact fun id named => absurd rfl named
    · exact fun _ member => nomatch member
    · exact fun id named => absurd rfl named
    · exact fun _ _ _ giving => nomatch giving
  refine (follows workers).invariant (meets_boot db) (P := fun s => Matched (coreOf s.1) s.2) start ?_ ?_
    extended
  · exact fun t w action s matched ok allowed => matched_step w matched ok allowed.1 allowed.2
  · intro t p s s' matched started
    obtain ⟨shared, n⟩ := s'
    obtain ⟨started, kept⟩ := started
    replace kept : n = s.2 := kept
    subst kept
    cases started with
    | event => exact matched
    | task => exact ⟨matched.fds, matched.numbered, matched.disconnects, matched.removed,
        matched.listed, matched.bearers, matched.seated, matched.given⟩

/-- A thread with nothing left to do has nothing to put right. -/
theorem free_of_halted {t : Nat} (halted : (c.thread t).Halted) : (c.shared.2 t).Free := by
  obtain ⟨_, free⟩ := ((follows workers).reaches (meets_boot db) run t).of_halted halted
  exact free

end

/-- In every run in which names are given and taken off the list undisturbed, whenever no thread has
anything left to do the online list is exactly the names of the sessions in the table. -/
theorem online_names_exact (workers : Nat) (db : Database)
    (c : Config serverInterface Exn Followed)
    (run : (followed workers).Reaches Undisturbed (followedBoot db) c) (quiet : c.Quiescent)
    (u : String) :
    u ∈ c.shared.1.server.onlineUsers ↔
      u ≠ "" ∧ ∃ x ∈ c.shared.1.server.sessions, c.shared.1.server.name x = u := by
  have matched := matched_of_run run
  have free : ∀ t, (c.shared.2 t).Free := fun t => free_of_halted run (quiet t)
  have noneGiven : ∀ id, ¬ Giving c.shared.2 id := by
    rintro id ⟨t, x, name, giving, _⟩
    rw [(free t).1] at giving
    cases giving
  have noneTaken : ∀ id, ¬ Taking c.shared.2 id := by
    rintro id ⟨t, x, taking, _⟩
    rw [(free t).2.1] at taking
    cases taking
  have noneRemoved : ∀ id, ¬ Removing c.shared.2 id := by
    rintro id ⟨t, x, removing, _⟩
    rw [(free t).2.2] at removing
    cases removing
  constructor
  · intro member
    obtain ⟨nonempty, id, bears, _⟩ := matched.bearers u member
    have named : (coreOf c.shared.1).name id ≠ "" := bears.symm ▸ nonempty
    rcases matched.seated id named with ⟨x, live, own⟩ | removing
    · subst own
      exact ⟨nonempty, x, live, bears⟩
    · exact absurd removing (noneRemoved id)
  · rintro ⟨nonempty, x, live, rfl⟩
    rcases matched.listed x.id nonempty with listed | giving | taking
    · exact listed
    · exact absurd giving (noneGiven x.id)
    · exact absurd taking (noneTaken x.id)

/-! ## A login that a removal overtakes, and one that it waits for -/

/-- The actions of a thread, before it has nothing left to do, that `Undisturbed` asks about are
undisturbed; all of it can be seen from the threads of the pool and the session objects made. -/
def undisturbedNow (workers t : Nat) (action : Act) (s : Followed) : Bool :=
  match action with
  | .setUsername session _ =>
    (decide (session ∈ s.1.server.sessions) || decide ((s.2 0).removing = some session)) &&
      decide (s.1.server.name session = "") &&
      (List.range (workers + 1)).all fun u => (s.2 u).taking.isNone
  | .eraseOnline _ =>
    (s.2 t).read.all fun read =>
      decide (s.1.server.name read.1 = read.2 ∨ s.1.server.name read.1 = "") &&
        (List.range (workers + 1)).all (fun u => (s.2 u).giving.isNone) &&
        (List.range s.1.server.nextId).all fun id =>
          decide (id = read.1.id ∨ (s.1.server.heap id).username ≠ read.2)
  | _ => true

section
variable {workers : Nat} {db : Database} {c : Config serverInterface Exn Followed}
  (run : (followed workers).Reaches Undisturbed (followedBoot db) c)
include run

theorem free_beyond {t : Nat} (beyond : ¬ t < workers + 1) : (c.shared.2 t).Free := by
  have idle : c.thread t = .ret () := idle_beyond run.forget t (by omega)
  refine free_of_halted run ?_
  rw [idle]
  trivial

theorem made_of_named {id : Nat} (named : (c.shared.1.server.heap id).username ≠ "") :
    id < c.shared.1.server.nextId := by
  have matched := matched_of_run run
  rcases matched.seated id named with ⟨x, member, rfl⟩ | removing
  · exact matched.numbered.bound x member
  · exact matched.removed id removing

theorem undisturbed_of_now {t : Nat} {action : Act}
    (now : undisturbedNow workers t action c.shared = true) : Undisturbed t action c.shared := by
  cases action with
  | setUsername session name =>
    simp only [undisturbedNow, Bool.and_eq_true, Bool.or_eq_true, decide_eq_true_eq,
      List.all_eq_true, List.mem_range] at now
    obtain ⟨⟨seat, nameless⟩, idle⟩ := now
    refine ⟨seat.imp_right fun own => ⟨0, session, own, rfl⟩, nameless, ?_⟩
    rintro ⟨u, x, taking, _⟩
    by_cases pool : u < workers + 1
    · have none := idle u pool
      rw [taking] at none
      cases none
    · rw [(free_beyond run pool).2.1] at taking
      cases taking
  | eraseOnline name =>
    intro session read
    simp only [undisturbedNow, read, Option.all_some, Bool.and_eq_true, decide_eq_true_eq,
      List.all_eq_true, List.mem_range] at now
    obtain ⟨⟨bears, idle⟩, alone⟩ := now
    refine ⟨bears, ?_, fun id differs nonempty named => ?_⟩
    · rintro ⟨u, x, given, giving, _⟩
      by_cases pool : u < workers + 1
      · have none := idle u pool
        rw [giving] at none
        cases none
      · rw [(free_beyond run pool).1] at giving
        cases giving
    · have made := made_of_named run (named.symm ▸ nonempty)
      rcases alone id made with same | other
      · exact absurd same differs
      · exact absurd named other
  | _ => trivial

end

/-- A LOGOUT. -/
def logout : Json := .object [("type", .string "LOGOUT")]

/-- A REGISTER of alice is let through, and before its handler names the session the client hangs
up and is removed. -/
def overtaken : List Turn :=
  accept 5 ++ read 5 (request "REGISTER" "alice") ++ work 1 7 ++
    [.event (.client 5), .act 0 30 hangUp, .act 1 40 steadyWorld]

/-- Alice's client hangs up; its disconnect handler has read her name when she logs in over another
connection, and then it goes on. -/
def returned : List Turn :=
  accept 5 ++ accept 6 ++ read 5 (request "LOGIN" "alice") ++ work 1 40 ++
    read 6 (request "LOGIN" "alice") ++ [.event (.client 5), .act 0 7 hangUp] ++ work 1 40 ++
    [.act 0 30 hangUp]

/-- Carol registers and stays; bob registers and logs out. Alice's client hangs up during her
REGISTER, which names the session when it is out of the table already; the disconnect handler finds
the name and takes it back. -/
def awaited : List Turn :=
  accept 5 ++ accept 6 ++ accept 7 ++ read 7 (request "REGISTER" "carol") ++ work 2 40 ++
    read 6 (request "REGISTER" "bob") ++ work 2 40 ++ read 6 logout ++ work 1 40 ++
    read 5 (request "REGISTER" "alice") ++ work 1 7 ++
    [.event (.client 5), .act 0 5 hangUp, .act 1 2 steadyWorld, .act 0 30 hangUp,
      .act 1 40 steadyWorld]

/-- All is done, and whether alice is on the list and has a session is as given. -/
def aliceIs (listed seated : Bool) (c : Config serverInterface Exn Shared) : Bool :=
  poolResting 1 c && c.shared.server.tasks.isEmpty &&
    decide ("alice" ∈ c.shared.server.onlineUsers) == listed &&
    decide (∃ x ∈ c.shared.server.sessions, c.shared.server.name x = "alice") == seated

theorem aliceIs_reached {db : Database} {turns : List Turn} {listed seated : Bool}
    (passes : (play 1 turns (boot db)).any (aliceIs listed seated) = true) :
    ∃ c, (machine 1).Reaches Machine.unrestricted (boot db) c ∧ c.Quiescent ∧
      c.shared.server.tasks = [] ∧ ("alice" ∈ c.shared.server.onlineUsers ↔ listed = true) ∧
      ((∃ x ∈ c.shared.server.sessions, c.shared.server.name x = "alice") ↔ seated = true) := by
  obtain ⟨c, run, is⟩ := reaches_of_play passes
  simp only [aliceIs, Bool.and_eq_true, beq_iff_eq, List.isEmpty_iff] at is
  obtain ⟨⟨⟨resting, empty⟩, onList⟩, inTable⟩ := is
  refine ⟨c, run, quiescent_of_pool run resting, empty, ?_, ?_⟩
  · rw [← onList, decide_eq_true_eq]
  · rw [← inTable, decide_eq_true_eq]

/-- Alice is on the list for ever without a session, or has a session and is not on the list. -/
theorem online_list_differs :
    (∃ c, (machine 1).Reaches Machine.unrestricted (boot {}) c ∧ c.Quiescent ∧
      c.shared.server.tasks = [] ∧ "alice" ∈ c.shared.server.onlineUsers ∧
      ¬ ∃ x ∈ c.shared.server.sessions, c.shared.server.name x = "alice") ∧
    ∃ c, (machine 1).Reaches Machine.unrestricted (boot aliceDb) c ∧ c.Quiescent ∧
      c.shared.server.tasks = [] ∧ "alice" ∉ c.shared.server.onlineUsers ∧
      ∃ x ∈ c.shared.server.sessions, c.shared.server.name x = "alice" := by
  have ghost : (play 1 overtaken (boot {})).any (aliceIs true false) = true := by decide +kernel
  have missing : (play 1 returned (boot aliceDb)).any (aliceIs false true) = true := by
    decide +kernel
  obtain ⟨c, run, quiet, empty, listed, seated⟩ := aliceIs_reached ghost
  obtain ⟨c', run', quiet', empty', listed', seated'⟩ := aliceIs_reached missing
  refine ⟨⟨c, run, quiet, empty, listed.mpr rfl, ?_⟩, c', run', quiet', empty', ?_, seated'.mpr rfl⟩
  · exact fun hers => nomatch seated.mp hers
  · exact fun member => nomatch listed'.mp member

/-- All is done, every action was undisturbed, and only carol of two connections is on the list. -/
def carolStays (c : Recorded ((Nat → Naming) × Bool)) : Bool :=
  c.shared.2.2 && poolResting 2 (Machine.forget c) &&
    decide (c.shared.1.server.onlineUsers = ["carol"]) &&
    decide (c.shared.1.server.sessions.length = 2)

/-- A login, a logout, and a login that ends while its session is being removed, on two workers. -/
theorem online_names_exact_awaited :
    ∃ c, (followed 2).Reaches Undisturbed (followedBoot {}) c ∧ c.Quiescent ∧
      c.shared.1.server.onlineUsers = ["carol"] ∧ c.shared.1.server.sessions.length = 2 ∧
      ∀ u, u ∈ c.shared.1.server.onlineUsers ↔
        u ≠ "" ∧ ∃ x ∈ c.shared.1.server.sessions, c.shared.1.server.name x = u := by
  have passes : (replay (((machine 2).following naming).tested (undisturbedNow 2)) awaited
      ⟨((boot {}).shared, fun _ => {}, true), (boot {}).thread⟩).any carolStays = true := by
    decide +kernel
  obtain ⟨c, run, stays⟩ := reaches_of_replay passes
  simp only [carolStays, Bool.and_eq_true, decide_eq_true_eq] at stays
  obtain ⟨⟨⟨passed, resting⟩, listed⟩, two⟩ := stays
  have quiet : (Machine.forget c).Quiescent := quiescent_of_pool run.forget resting
  have undisturbed : (followed 2).Reaches Undisturbed (followedBoot {})
      ⟨(c.shared.1, c.shared.2.1), c.thread⟩ :=
    run.of_tested (fun _ run _ _ now => undisturbed_of_now run now) passed
  exact ⟨_, undisturbed, quiet, listed, two, online_names_exact 2 {} _ undisturbed quiet⟩

end LinuxChat.Guarantees.OnlineNames
