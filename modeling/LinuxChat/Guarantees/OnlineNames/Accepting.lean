import LinuxChat.Guarantees.Effects
import LinuxChat.Guarantees.Handlers

/-!
# Descriptors of new connections

`handle_new_connection` stores the session of the descriptor that `accept4` has returned
(server/src/epoll_server.cpp:210-255). In between the workers may do anything, but the session table
is the event loop's alone, so no session of the table has that descriptor when it is stored.
-/

namespace LinuxChat.Guarantees.OnlineNames

open LinuxChat.Lib LinuxChat.Source Prog

/-- The new connection has a descriptor of its own. -/
def Fresh (_ : Nat) (action : Act) (s : Shared) : Prop :=
  ∀ fd ip, action = .storeSession fd ip → ∀ x ∈ s.server.sessions, x.fd ≠ fd

/-- No connection is stored. -/
def Storeless : Act → Prop
  | .storeSession _ _ => False
  | _ => True

/-- No connection is stored or erased. -/
def Tableless : Act → Prop
  | .storeSession _ _ | .eraseSession _ => False
  | _ => True

theorem storeless_leaving : Leaving Storeless where
  clock := trivial
  list := trivial
  scan _ := trivial
  find _ := trivial
  users _ _ _ := trivial
  notify _ _ _ := trivial
  gate _ := trivial
  name _ := trivial
  offline _ := trivial
  unname _ := trivial
  registered := trivial
  pending _ := trivial
  cleanup _ := trivial
  unpend _ := trivial
  drop _ := trivial
  erase _ := trivial

theorem storeless_handleClientEvent (fd : Nat) : (handleClientEvent fd).Forall Storeless := by
  rw [handleClientEvent_eq]
  refine ⟨trivial, fun found => ?_⟩
  cases found with
  | none => trivial
  | some session =>
    refine ⟨trivial, fun received => ?_⟩
    refine (forall_ofExcept (I := serverInterface) Storeless received).bind fun msgs => ?_
    cases msgs with
    | none => exact forall_removeClient storeless_leaving fd
    | some msgs => exact forall_dispatch trivial trivial trivial (fun _ _ => trivial) msgs

theorem tableless_runTask (task : Task) : (runTask task).Forall Tableless := by
  refine forall_runTask (fun action inRoute => ?_) trivial trivial
  cases action with
  | storeSession | eraseSession => cases inRoute
  | _ => trivial

/-- The event loop has accepted a connection under a descriptor that nobody has, or accepts none. -/
def Accepts (p : Proc Unit) (s : Shared) : Prop :=
  (∃ fd ip, p = handleNewConnection fd ip ∧ ∀ x ∈ s.server.sessions, x.fd ≠ fd) ∨
    p.Forall Storeless

theorem tableless_sessions {action : Act} (tableless : Tableless action) (t : Nat) (w : World)
    (s : Shared) : (execShared t w action s).2.server.sessions = s.server.sessions := by
  have sessions := exec_sessions w action s.server
  cases action with
  | storeSession | eraseSession => cases tableless
  | _ => exact sessions

section
variable {workers : Nat} {db : Database} {allowed : Nat → Act → Shared → Prop}
  {c : Config serverInterface Exn Shared} (run : (machine workers).Reaches allowed (boot db) c)
include run

theorem tableless_of_run {t : Nat} (worker : t ≠ 0) : (c.thread t).Forall Tableless := by
  have start : ∀ t, t ≠ 0 → ((boot db).thread t).Forall Tableless := fun _ _ => trivial
  refine run.programs _ (T := fun t p => t ≠ 0 → p.Forall Tableless) start ?_ ?_ t worker
  · exact fun t action next tableless result worker => (tableless worker).2 result
  · intro t p s s' start worker
    cases start with
    | event e => exact absurd rfl worker
    | task => exact tableless_runTask _

/-- From `accept4` on a descriptor stays out of the table: nobody but the event loop puts one
in. -/
theorem accepts_of_run : Accepts (c.thread 0) c.shared := by
  induction run with
  | refl => exact Or.inr trivial
  | @tail c c' run step ih =>
    cases step with
    | @act t action next w running ok =>
      dsimp only
      by_cases actor : t = 0
      · subst actor
        rw [Function.update_self]
        right
        rcases ih with ⟨fd, ip, same, _⟩ | storeless
        · rw [running] at same
          cases same
          trivial
        · rw [running] at storeless
          exact storeless.2 _
      · have tableless := tableless_of_run run actor
        rw [running] at tableless
        rw [Function.update_of_ne (Ne.symm actor)]
        refine ih.imp_left ?_
        rintro ⟨fd, ip, same, fresh⟩
        refine ⟨fd, ip, same, ?_⟩
        have sessions := tableless_sessions tableless.1 t w c.shared
        exact sessions.symm ▸ fresh
    | @spawn t p s' idle start =>
      dsimp only
      cases start with
      | event e s possible =>
        rw [Function.update_self]
        cases e with
        | newConnection fd ip => exact Or.inl ⟨fd, ip, rfl, possible⟩
        | client fd => exact Or.inr (storeless_handleClientEvent fd)
        | heartbeat => exact Or.inr (forall_broadcast trivial fun _ => trivial)
      | task worker inPool queued =>
        rw [Function.update_of_ne (Nat.ne_of_lt worker)]
        exact ih

theorem fresh_of_run {t : Nat} {action : Act} {next : action.Res → Proc Unit}
    (running : c.thread t = .act action next) : Fresh t action c.shared := by
  rintro fd ip rfl
  by_cases actor : t = 0
  · have loop := accepts_of_run run
    rw [← actor, running] at loop
    rcases loop with ⟨fd', ip', same, fresh⟩ | storeless
    · cases same
      exact fresh
    · exact storeless.1.elim
  · have tableless := tableless_of_run run actor
    rw [running] at tableless
    exact tableless.1.elim

end

end LinuxChat.Guarantees.OnlineNames
