import LinuxChat.Guarantees.DescriptorOwnership.Failures

/-!
# Every descriptor is closed once

The session and its last reference close what `accept4` returned, the destructor of the
server what `socket` returned. Two error paths close as well and leave the number where the
regular close finds it: a refused `epoll_ctl`
(server/src/epoll_server.cpp:241-245) and a failed `bind` or `listen` (lines 124-135). Runs
without these failures close every descriptor once, and no others do.
-/

namespace LinuxChat.Guarantees.DescriptorOwnership

open LinuxChat.Source

variable {event : FdEvent} {p q : Process} {descriptor session : Descriptor} {number : Nat}

/-- Step by step. -/
theorem run_cons {rest : List FdEvent} (ran : runFds (event :: rest) p = some q) :
    ∃ next, event.step p = some next ∧ runFds rest next = some q := by
  unfold runFds at ran
  cases stepped : event.step p with
  | none =>
    rw [stepped] at ran
    exact nomatch ran
  | some next =>
    rw [stepped] at ran
    exact ⟨next, rfl, ran⟩

theorem run_orderly {events : List FdEvent} (orderly : Orderly p) (ran : runFds events p = some q) :
    Orderly q := by
  induction events generalizing p with
  | nil =>
    cases ran
    exact orderly
  | cons event rest ih =>
    obtain ⟨next, stepped, later⟩ := run_cons ran
    exact ih ((step_change orderly stepped).orderly orderly) later

theorem run_sound {events : List FdEvent} (orderly : Orderly p) (sound : Sound p)
    (undisturbed : Undisturbed events) (ran : runFds events p = some q) : Sound q := by
  induction events generalizing p with
  | nil =>
    cases ran
    exact sound
  | cons event rest ih =>
    obtain ⟨next, stepped, later⟩ := run_cons ran
    have change := step_change orderly stepped
    exact ih (change.orderly orderly)
      (change.sound orderly sound (undisturbed event List.mem_cons_self))
      (fun other member => undisturbed other (List.mem_cons_of_mem event member)) later

theorem run_doomed {events : List FdEvent} (orderly : Orderly p) (doomed : Doomed p)
    (ran : runFds events p = some q) : Doomed q := by
  induction events generalizing p with
  | nil =>
    cases ran
    exact doomed
  | cons event rest ih =>
    obtain ⟨next, stepped, later⟩ := run_cons ran
    exact ih ((step_change orderly stepped).orderly orderly) (doomed.step orderly stepped) later

theorem run_disturbed {events : List FdEvent} (orderly : Orderly p)
    (disturbed : ¬ Undisturbed events) (ran : runFds events p = some q) : Doomed q := by
  induction events generalizing p with
  | nil => exact absurd (fun event member => nomatch member) disturbed
  | cons event rest ih =>
    obtain ⟨next, stepped, later⟩ := run_cons ran
    have ordered := (step_change orderly stepped).orderly orderly
    by_cases succeeds : Succeeds event
    · apply ih ordered _ later
      intro others
      apply disturbed
      intro other member
      rcases List.mem_cons.mp member with rfl | among
      · exact succeeds
      · exact others other among
    · exact run_doomed ordered (failure_dooms succeeds stepped) later

theorem start_orderly : Orderly {} where
  known _ owned := nomatch owned
  listens _ listens := nomatch listens
  apart _ listens := nomatch listens
  fresh _ known := nomatch known
  alone _ made := nomatch made
  keyed := List.nodup_nil
  start _ := rfl
  emptied _ := rfl

theorem start_sound : Sound {} where
  isOpen _ live := by
    rcases live with owned | ⟨_, listens⟩
    · exact nomatch owned
    · exact nomatch listens
  unclosed _ _ closed := nomatch closed
  settled _ known := nomatch known
  past _ closed := nomatch closed
  below _ _ there := nomatch there
  proper := ⟨fun _ among => (nomatch among), fun _ among => (nomatch among), List.nodup_nil⟩
  calm := id

/-- A run without a failure closes nothing twice, nothing in use and nothing of others at any
point; and when all is over, every descriptor has been closed once exactly if there was no
failure. -/
theorem closed_once_iff (events : List FdEvent) (p : Process) (ran : runFds events {} = some p) :
    (Undisturbed events → Proper p) ∧ (Complete p → (ClosedOnce p ↔ Undisturbed events)) := by
  constructor
  · intro undisturbed
    exact (run_sound start_orderly start_sound undisturbed ran).proper
  · intro complete
    constructor
    · intro closedOnce
      by_contra disturbed
      exact (run_disturbed start_orderly disturbed ran).complete complete closedOnce
    · intro undisturbed
      exact (run_sound start_orderly start_sound undisturbed ran).complete
        (run_orderly start_orderly ran) complete

/-- Two connections; the first one hangs up while a task holds its session. -/
def served : List FdEvent :=
  [.socket (some 3), .bind true, .listen true, .newConnection, .accept (some 4), .epollAdd true,
    .accept (some 5), .epollAdd true, .accept none, .clientEvent 4, .dispatch,
    .endClientEvent false, .clientEvent 4, .removeClient, .endRemove, .endClientEvent false,
    .release ⟨4, 1⟩, .leaveLoop, .destroy, .clear ⟨5, 2⟩, .closeListen]

/-- Both connections and the listening socket are closed once each, the first connection by its
last task. -/
theorem served_closed_once :
    ∃ p, runFds served {} = some p ∧ ClosedOnce p ∧
      closedFds p = [⟨4, 1⟩, ⟨5, 2⟩, ⟨3, 0⟩] := by
  have undisturbed : Undisturbed served := by
    simp [Undisturbed, served, Succeeds]
  exact ⟨_, rfl, ((closed_once_iff served _ rfl).2 ⟨rfl, rfl⟩).mpr undisturbed, rfl⟩

/-- A refused `epoll_ctl`; between the two calls of `close` another thread opens a file. -/
def refusedAdd : List FdEvent :=
  [.socket (some 3), .bind true, .listen true, .newConnection, .accept (some 4),
    .epollAdd false, .closeRefused, .openOther 4, .nextConnection, .accept none, .leaveLoop,
    .destroy, .closeListen]

/-- The session of the refused connection closes number 4 again, which by then is the file of
another thread. -/
theorem other_file_closed :
    ∃ p, runFds refusedAdd {} = some p ∧ Complete p ∧ ¬ ClosedOnce p ∧
      p.closings = [⟨⟨4, 1⟩, some 1, true⟩, ⟨⟨4, 1⟩, some 2, false⟩, ⟨⟨3, 0⟩, some 0, false⟩] := by
  refine ⟨_, rfl, ⟨rfl, rfl⟩, ?_, rfl⟩
  intro closedOnce
  exact absurd closedOnce.once (by decide)

end LinuxChat.Guarantees.DescriptorOwnership
