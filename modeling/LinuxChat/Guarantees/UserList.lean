import LinuxChat.Guarantees.Playback
import LinuxChat.Guarantees.UserList.Threads

/-!
# The user list that clients are shown

Every change of `online_users_` is followed by a snapshot under one lock and a broadcast
of it under others (server/src/message_router.cpp:131-150, 207-233, 413-441;
server/src/epoll_server.cpp:363-381). `Lists` is a history variable: it counts the
contents of the set, and remembers what each thread has yet to announce. In every run in
which no USER_LIST frame reaches a connection after one of a later snapshot, whenever no
thread has anything left to do each connection was last shown the current list.
-/

namespace LinuxChat.Guarantees.UserList

open LinuxChat.Lib LinuxChat.Source Prog

theorem listed_boot (db : Database) : Listed (announcedBoot db).shared where
  taken _ := Nat.le_refl _
  names _ _ has := nomatch has
  current _ live := absurd live List.not_mem_nil

/-- In every run in which no list overtakes a later one, whenever no thread has anything
left to do, every named session of the table was last sent the current list. -/
theorem user_list_converges (workers : Nat) (db : Database)
    (c : Config serverInterface Exn Announced)
    (run : (announced workers).Reaches Fresh (announcedBoot db) c)
    (quiet : c.Quiescent) :
    ∀ x ∈ c.shared.1.server.sessions, c.shared.1.server.name x ≠ "" →
      ∃ now, lastUserList c.shared.1.server.sent x.id =
        some (userListFrame c.shared.1.server.onlineUsers now) := by
  have start : (lists workers).Holds Settled (announcedBoot db) :=
    ⟨listed_boot db, fun _ => Or.inl rfl⟩
  have holds := Discipline.sound (lists_verified workers) start run
  intro x live named
  rcases holds.inv.current x live named with shown | ⟨t, owes⟩
  · exact shown.frame
  · unfold Owes at owes
    rcases holds.halted (quiet t) with none | ⟨names, paid⟩
    · rw [none] at owes
      exact owes.elim
    · rw [paid] at owes
      obtain ⟨_, _, member, _⟩ := owes
      cases member

/-! ## Two registrations -/

/-- The list sent, if it is one, is not older than the one last sent there. -/
def isFresh (t : Nat) : Act → Announced → Bool
  | .sendMsg x _ msg, s => !isUserList msg || decide (s.2.shown x.id ≤ s.2.snapshot t)
  | _, _ => true

theorem isFresh_iff (t : Nat) (action : Act) (s : Announced) :
    isFresh t action s = true ↔ Fresh t action s := by
  cases action with
  | sendMsg x locked msg =>
    simp only [isFresh, Fresh, Bool.or_eq_true, Bool.not_eq_true', decide_eq_true_iff]
    cases isUserList msg with
    | true => simp
    | false => simp
  | _ => exact ⟨fun _ => trivial, fun _ => rfl⟩

instance (t : Nat) (action : Act) (s : Announced) : Decidable (Fresh t action s) :=
  decidable_of_iff _ (isFresh_iff t action s)

/-- One program of thread `t`, from start to end. -/
def alone (t : Nat) (w : World) (p : Proc Unit) (s : Announced) : Announced :=
  (eval ((announced 1).exec t) w p s).2

/-- A connection is accepted. -/
def accepted (fd : Nat) (s : Announced) : Announced :=
  alone 0 steadyWorld (handleNewConnection fd "10.0.0.1") s

/-- A REGISTER arrives under the descriptor. -/
def asked (fd : Nat) (username : String) (s : Announced) : Announced :=
  alone 0 (deliver (request "REGISTER" username)) (handleClientEvent fd) s

/-- The worker has run the oldest task. -/
def served (s : Announced) : Announced :=
  alone 1 steadyWorld (runTask (oldest s.1)) (taken (announcing 1) 1 s)

/-- Two connections have been accepted. -/
def connected : Announced := accepted 6 (accepted 5 (announcedBoot {}).shared)

/-- alice and then bob have registered. -/
def introduced : Announced := served (asked 6 "bob" (served (asked 5 "alice" connected)))

theorem introduced_reached :
    (announced 1).Reaches Fresh (announcedBoot {}) ⟨introduced, fun _ => .ret ()⟩ := by
  have start : (announced 1).Reaches Fresh (announcedBoot {}) (announcedBoot {}) := .refl
  have first := record_event (.newConnection 5 "10.0.0.1") steadyWorld start (by decide) rfl
    (by decide) (by decide)
  have second := record_event (.newConnection 6 "10.0.0.1") steadyWorld first (by decide) rfl
    (by decide) (by decide)
  have alice := record_event (.client 5) (deliver (request "REGISTER" "alice")) second trivial rfl
    (by decide +kernel) (by decide +kernel)
  have registered := record_task 1 steadyWorld alice (by decide) (by decide +kernel)
    (by decide +kernel) (by decide +kernel)
  have bob := record_event (.client 6) (deliver (request "REGISTER" "bob")) registered trivial rfl
    (by decide +kernel) (by decide +kernel)
  exact record_task 1 steadyWorld bob (by decide) (by decide +kernel) (by decide +kernel)
    (by decide +kernel)

/-- Alice and then Bob have registered; both were last shown both names. -/
theorem user_list_converges_introduced :
    introduced.1.server.onlineUsers = ["bob", "alice"] ∧
      ∀ x ∈ introduced.1.server.sessions, introduced.1.server.name x ≠ "" →
        ∃ now, lastUserList introduced.1.server.sent x.id =
          some (userListFrame introduced.1.server.onlineUsers now) :=
  ⟨by decide +kernel,
    user_list_converges 1 {} ⟨introduced, fun _ => .ret ()⟩ introduced_reached fun _ => trivial⟩

/-- Worker 1 has its snapshot with alice when worker 2 registers bob and announces both. -/
def lateSnapshot : List Turn :=
  accept 5 ++ accept 6 ++ read 5 (request "REGISTER" "alice") ++
  read 6 (request "REGISTER" "bob") ++
  [.take 1, .act 1 14 steadyWorld, .take 2, .act 2 40 steadyWorld, .act 1 40 steadyWorld]

/-- The names in a USER_LIST frame. -/
def shownNames : Json → List String
  | .object fields =>
    match fields.lookup "data" with
    | some (.array items) => items.map fun item => match item with
      | .string name => name
      | _ => ""
    | _ => []
  | _ => []

theorem shownNames_userListFrame (names : List String) (now : Int) :
    shownNames (userListFrame names now) = names := by
  change (names.map Json.string).map _ = names
  rw [List.map_map]
  exact List.map_id names

/-- Both are logged in, and the list that alice has been sent last is not that of the server. -/
def outdated (c : Config serverInterface Exn Shared) : Bool :=
  c.shared.server.sessions = [⟨1, 6, "10.0.0.1"⟩, ⟨0, 5, "10.0.0.1"⟩] &&
    c.shared.server.name ⟨1, 6, "10.0.0.1"⟩ = "bob" &&
    c.shared.server.onlineUsers = ["bob", "alice"] &&
    ((lastUserList c.shared.server.sent 1).map shownNames) = some ["alice"] &&
    poolResting 2 c

/-- Without the condition a list that was made before Bob came reaches alice last, and stays. -/
theorem bob_is_missing_from_the_list :
    ¬ ∀ workers db c, (machine workers).Reaches Machine.unrestricted (boot db) c → c.Quiescent →
      ∀ x ∈ c.shared.server.sessions, c.shared.server.name x ≠ "" →
        ∃ now, lastUserList c.shared.server.sent x.id =
          some (userListFrame c.shared.server.onlineUsers now) := by
  intro always
  have passes : (play 2 lateSnapshot (boot {})).any outdated = true := by decide +kernel
  obtain ⟨c, run, stale⟩ := reaches_of_play passes
  simp only [outdated, Bool.and_eq_true, decide_eq_true_eq] at stale
  obtain ⟨⟨⟨⟨table, bob⟩, online⟩, last⟩, pool⟩ := stale
  obtain ⟨now, frame⟩ := always 2 {} c run (quiescent_of_pool run pool) ⟨1, 6, "10.0.0.1"⟩
    (by simp [table]) (by rw [bob]; decide)
  rw [frame, online, Option.map_some, shownNames_userListFrame] at last
  exact absurd last (by decide)

end LinuxChat.Guarantees.UserList
