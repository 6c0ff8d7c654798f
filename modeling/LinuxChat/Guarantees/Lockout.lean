import LinuxChat.Guarantees.Playback
import LinuxChat.Guarantees.Lockout.Threads

/-!
# No username is locked out

A reserved name of a finished login is given back, also where `generate_salt` threw between
the reservation and the release (server/src/message_router.cpp:72-92, 295-330): the pending
name of the session still leads the disconnect handler to it. So, as long as no pending name
is overwritten before it was cleaned up, a quiescent server has a name reserved only where a
session that is still connected has it pending.
-/

namespace LinuxChat.Guarantees.Lockout

open LinuxChat.Lib LinuxChat.Source Prog

theorem kept_boot (db : Database) : Kept (watchedBoot db).shared where
  numbered := ⟨fun _ member => absurd member List.not_mem_nil,
    fun _ member => absurd member List.not_mem_nil⟩
  fds := List.Pairwise.nil
  unread _ unread := nomatch unread
  nonempty := List.not_mem_nil
  covered _ member := absurd member List.not_mem_nil
  disconnects := rfl

/-- In every run in which pending names are not lost, whenever no thread has anything left
to do, every name in the set is the pending name of a session of the table. -/
theorem no_name_locked_out (workers : Nat) (db : Database)
    (c : Config serverInterface Exn Watched)
    (run : (watched workers).Reaches Recoverable (watchedBoot db) c) (quiet : c.Quiescent) :
    (∀ username ∈ c.shared.1.server.loginInProgress,
      ∃ x ∈ c.shared.1.server.sessions, (c.shared.1.server.heap x.id).pendingLogin = username) ∧
    (c.shared.1.server.sessions = [] → c.shared.1.server.loginInProgress = []) := by
  have start : (lockout workers).Holds (fun t => Resting t .idle) (watchedBoot db) :=
    ⟨kept_boot db, fun _ => ⟨rfl, fun _ => rfl⟩⟩
  have holds := Discipline.sound (lockout_verified workers) start run
  have idle : ∀ t, Resting t .idle c.shared := fun t => holds.halted (quiet t)
  have known : ∀ username ∈ c.shared.1.server.loginInProgress,
      ∃ x ∈ c.shared.1.server.sessions, (c.shared.1.server.heap x.id).pendingLogin = username := by
    intro username member
    have resting := (idle 0).loop rfl
    rcases holds.inv.covered username member with ⟨t, own⟩ | ⟨id, reachable, pends⟩ | held
    · rw [(idle t).own] at own
      cases own
    · rcases reachable with ⟨x, live, same⟩ | ⟨x, unread, _⟩
      · refine ⟨x, live, ?_⟩
        rw [same]
        exact pends
      · rw [resting] at unread
        cases unread
    · rw [resting] at held
      cases held
  refine ⟨known, fun closed => ?_⟩
  rw [closed] at known
  refine List.eq_nil_iff_forall_not_mem.mpr fun username member => ?_
  obtain ⟨x, live, _⟩ := known username member
  exact absurd live List.not_mem_nil

/-! ## A registration that throws -/

/-- One program of thread `t`, from start to end. -/
def alone (t : Nat) (w : World) (p : Proc Unit) (s : Watched) : Watched :=
  (eval ((watched 1).exec t) w p s).2

/-- One connection has been accepted. -/
def connected : Watched :=
  alone 0 steadyWorld (handleNewConnection 5 "10.0.0.1") (watchedBoot {}).shared

/-- Its REGISTER is in the queue. -/
def asked : Watched := alone 0 (deliver (request "REGISTER" "alice")) (handleClientEvent 5) connected

/-- REGISTER alice, and no salt: the worker swallows the exception. -/
def stuck : Watched := alone 1 dryWorld (runTask (oldest asked.1)) (taken (cleanups 1) 1 asked)

/-- Enough for `Recoverable`. -/
def mild (t : Nat) : Act → Watched → Bool
  | .setPendingLogin x _, s => pending s x.id ∉ s.1.server.loginInProgress
  | .clearPendingLogin _, _ => false
  | .dropSession x, s => s.1.aux.reservedBy t = none ∨
      (x ∈ s.1.server.sessions ∧ s.1.aux.reservedBy t = some (pending s x.id))
  | _, _ => true

theorem permitted_of_mild {t : Nat} {w : World} {p : Proc Unit} {s : Watched}
    (h : Machine.Permitted (fun action s => mild t action s = true) ((watched 1).exec t) w p s) :
    Machine.Permitted (Recoverable t) ((watched 1).exec t) w p s := by
  refine h.mono fun action s ok => ?_
  cases action with
  | setPendingLogin x name => exact fun abandoned => absurd abandoned.kept (of_decide_eq_true ok)
  | clearPendingLogin x => cases ok
  | dropSession x =>
    intro username own _
    rcases of_decide_eq_true ok with none | ⟨live, pends⟩
    · rw [own] at none
      cases none
    · rw [own] at pends
      exact Or.inr (Or.inl ⟨x.id, Or.inl ⟨x, live, rfl⟩, (Option.some.inj pends).symm⟩)
  | _ => trivial

theorem stuck_reached :
    (watched 1).Reaches Recoverable (watchedBoot {}) ⟨stuck, fun _ => .ret ()⟩ := by
  have start : (watched 1).Reaches Recoverable (watchedBoot {}) (watchedBoot {}) := .refl
  have accepts := record_event (.newConnection 5 "10.0.0.1") steadyWorld start
    (fun _ member => nomatch member) rfl (permitted_of_mild (by decide)) (by decide)
  have reads := record_event (.client 5) (deliver (request "REGISTER" "alice")) accepts trivial rfl
    (permitted_of_mild (by decide +kernel)) (by decide +kernel)
  exact record_task 1 dryWorld reads (by decide) (by decide +kernel)
    (permitted_of_mild (by decide +kernel)) (by decide +kernel)

/-- The name stays reserved after the exception, pending in the session that is still connected.
-/
theorem no_name_locked_out_stuck :
    stuck.1.server.loginInProgress = ["alice"] ∧
      (∀ username ∈ stuck.1.server.loginInProgress,
        ∃ x ∈ stuck.1.server.sessions, (stuck.1.server.heap x.id).pendingLogin = username) ∧
      (stuck.1.server.sessions = [] → stuck.1.server.loginInProgress = []) :=
  ⟨by decide +kernel, no_name_locked_out 1 {} ⟨stuck, fun _ => .ret ()⟩ stuck_reached fun _ => trivial⟩

/-- The client then tries LOGIN for another name, is refused, and hangs up. -/
def retried : Watched := alone 0 (deliver (request "LOGIN" "bob")) (handleClientEvent 5) stuck

/-- The LOGIN of the other name has been refused. -/
def refused : Watched := alone 1 steadyWorld (runTask (oldest retried.1)) (taken (cleanups 1) 1 retried)

/-- The connection is closed. -/
def gone : Watched := alone 0 hangUp (handleClientEvent 5) refused

theorem gone_reached :
    (machine 1).Reaches Machine.unrestricted (boot {}) ⟨gone.1, fun _ => .ret ()⟩ := by
  have start : (watched 1).Reaches Machine.unrestricted (watchedBoot {}) ⟨stuck, fun _ => .ret ()⟩ :=
    stuck_reached.mono (watched 1) fun _ _ _ _ => trivial
  have reads := record_event (.client 5) (deliver (request "LOGIN" "bob")) start trivial rfl
    (Machine.permitted_unrestricted 0 _ _ _ _) (by decide +kernel)
  have refuses := record_task 1 steadyWorld reads (by decide) (by decide +kernel)
    (Machine.permitted_unrestricted 1 _ _ _ _) (by decide +kernel)
  have closes := record_event (.client 5) hangUp refuses trivial rfl
    (Machine.permitted_unrestricted 0 _ _ _ _) (by decide +kernel)
  exact closes.forget

/-- All connections are closed, and alice can neither log in nor register. -/
theorem alice_locked_out :
    ¬ ∀ workers db c, (machine workers).Reaches Machine.unrestricted (boot db) c → c.Quiescent →
      (∀ username ∈ c.shared.server.loginInProgress,
        ∃ x ∈ c.shared.server.sessions, (c.shared.server.heap x.id).pendingLogin = username) ∧
      (c.shared.server.sessions = [] → c.shared.server.loginInProgress = []) := by
  intro always
  have holds := always 1 {} ⟨gone.1, fun _ => .ret ()⟩ gone_reached fun _ => trivial
  have closed : gone.1.server.sessions = [] := by decide +kernel
  have kept : gone.1.server.loginInProgress = ["alice"] := by decide +kernel
  rw [kept] at holds
  exact absurd (holds.2 closed) (by decide)

end LinuxChat.Guarantees.Lockout
