import LinuxChat.Guarantees.OnlineList.Threads

/-!
# The online list and the live sessions

`finish_login` names a session and then lists the name, `handle_logout` takes the name off
the list and then from the session (server/src/message_router.cpp:207-233, 413-441), and
neither holds a lock across the two. Where work on one session and on one name does not
overlap, the list is the names of the sessions in the table whenever nobody is at work.
-/

namespace LinuxChat.Guarantees.OnlineList

open LinuxChat.Lib LinuxChat.Source Prog

variable {workers : Nat} {t : Nat} {s : Shared}

/-- In every run in which work on one session and on one name does not overlap, whenever no
thread has anything left to do the online list is the names of the sessions in the table. -/
theorem online_list_matches (workers : Nat) (db : Database)
    (c : Config serverInterface Exn Shared)
    (run : (machine workers).Reaches Separate (boot db) c) (quiet : c.Quiescent) (u : String) :
    u ∈ c.shared.server.onlineUsers ↔
      u ≠ "" ∧ ∃ x ∈ c.shared.server.sessions, c.shared.server.name x = u := by
  have start : (listing workers).Holds Rests (boot db) := ⟨roster_boot db, fun _ => rfl⟩
  have holds := Discipline.sound (listing_verified workers) start run
  have idle : ∀ id t, ¬ Busy (coreOf c.shared) t id :=
    fun id t => not_busy (holds.halted (quiet t)) id
  constructor
  · intro member
    obtain ⟨nonempty, id, bears⟩ := holds.inv.bearers u member
    have named : (coreOf c.shared).name id ≠ "" := bears.symm ▸ nonempty
    rcases holds.inv.seated id named with ⟨x, live, own⟩ | ⟨t, busy⟩
    · subst own
      exact ⟨nonempty, x, live, bears⟩
    · exact absurd busy (idle id t)
  · rintro ⟨nonempty, x, live, rfl⟩
    rcases holds.inv.listed x.id nonempty with listed | ⟨t, busy⟩
    · exact listed
    · exact absurd busy (idle x.id t)

/-! ## Two users, one of whom leaves -/

/-- The action cleans up no reservation. -/
def notCleanup : Act → Bool
  | .cleanupLoginReservation _ => false
  | _ => true

/-- Alone, a thread that cleans up nothing can only be separate. -/
theorem separate_alone {w : World} {p : Proc Unit} (quiet : Quiet s)
    (cleansNothing : Machine.Permitted (fun action _ => notCleanup action = true)
      (execShared t) w p s) :
    Machine.Permitted (Separate t) (execShared t) w p s := by
  have alone : Machine.Permitted (fun action s => notCleanup action = true → Separate t action s)
      (execShared t) w p s := permitted_alone ?_ w p quiet
  · exact alone.mp cleansNothing
  · intro action s others keeps
    have idle : ∀ other, other ≠ t → ∀ id, ¬ Busy (coreOf s) other id :=
      fun other differs => not_busy (others other differs)
    cases action with
    | checkGeneration task => exact fun _ _ other differs => idle other differs _
    | eraseSession fd => exact fun x _ _ other differs => idle other differs _
    | reserveForLogin username =>
      intro other differs x removes
      rw [others other differs] at removes
      cases removes
    | cleanupLoginReservation username => cases keeps
    | _ => trivial

/-- Two connections have been accepted. -/
def connected : Shared :=
  after 0 steadyWorld (handleNewConnection 6 "10.0.0.1")
    (after 0 steadyWorld (handleNewConnection 5 "10.0.0.1") (boot {}).shared)

/-- A REGISTER arrives under the descriptor. -/
def asks (fd : Nat) (username : String) (s : Shared) : Shared :=
  after 0 (deliver (request "REGISTER" username)) (handleClientEvent fd) s

/-- Alice has registered. -/
def aliceIn : Shared := worked 1 steadyWorld (asks 5 "alice" connected)

/-- Bob has registered as well. -/
def bobIn : Shared := worked 1 steadyWorld (asks 6 "bob" aliceIn)

/-- alice's connection is closed. -/
def aliceGone : Shared := after 0 hangUp (handleClientEvent 5) bobIn

theorem aliceGone_reached :
    (machine 1).Reaches Separate (boot {}) ⟨aliceGone, fun _ => .ret ()⟩ := by
  have start : (machine 1).Reaches Separate (boot {}) (boot {}) := .refl
  have quiet : Quiet (boot {}).shared := fun _ => rfl
  have first := serve_event (.newConnection 5 "10.0.0.1") steadyWorld start (by decide)
    (separate_alone quiet (by decide)) (by decide)
  have quiet := quiet.after (t := 0) (w := steadyWorld)
    (p := handleNewConnection 5 "10.0.0.1") (by decide)
  have second := serve_event (.newConnection 6 "10.0.0.1") steadyWorld first (by decide)
    (separate_alone quiet (by decide)) (by decide)
  have quiet : Quiet connected := quiet.after (t := 0) (w := steadyWorld)
    (p := handleNewConnection 6 "10.0.0.1") (by decide)
  have asked := serve_event (.client 5) (deliver (request "REGISTER" "alice")) second trivial
    (separate_alone quiet (by decide +kernel)) (by decide +kernel)
  have quiet : Quiet (asks 5 "alice" connected) := quiet.after (by decide +kernel)
  have alice := serve_task 1 steadyWorld asked (by decide) (by decide +kernel)
    (separate_alone (s := dequeue _) quiet (by decide +kernel)) (by decide +kernel)
  have quiet : Quiet aliceIn := quiet.worked (by decide +kernel)
  have asked := serve_event (.client 6) (deliver (request "REGISTER" "bob")) alice trivial
    (separate_alone quiet (by decide +kernel)) (by decide +kernel)
  have quiet : Quiet (asks 6 "bob" aliceIn) := quiet.after (by decide +kernel)
  have bob := serve_task 1 steadyWorld asked (by decide) (by decide +kernel)
    (separate_alone (s := dequeue _) quiet (by decide +kernel)) (by decide +kernel)
  have quiet : Quiet bobIn := quiet.worked (by decide +kernel)
  exact serve_event (.client 5) hangUp bob trivial
    (separate_alone quiet (by decide +kernel)) (by decide +kernel)

/-- Alice has logged in and hung up; Bob, who came after her, is the only one on the list. -/
theorem online_list_matches_aliceGone :
    aliceGone.server.onlineUsers = ["bob"] ∧
      ("bob" ∈ aliceGone.server.onlineUsers ↔
        "bob" ≠ "" ∧ ∃ x ∈ aliceGone.server.sessions, aliceGone.server.name x = "bob") :=
  ⟨by decide +kernel, online_list_matches 1 {} ⟨aliceGone, fun _ => .ret ()⟩ aliceGone_reached
    (fun _ => trivial) "bob"⟩

end LinuxChat.Guarantees.OnlineList
