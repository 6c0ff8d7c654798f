import LinuxChat.Source.Descriptors
import Mathlib.Tactic.Common

/-!
# Descriptors and their owners

What a proper run of `close` is, and the invariant of every run, with or without a failure:
sessions are those of accepted descriptors, kept under their numbers, and the one that
`handle_new_connection` is making has no other reference yet.
-/

namespace LinuxChat.Guarantees.DescriptorOwnership

open LinuxChat.Source

/-- The descriptors that `close` was called for, in order. -/
def closedFds (p : Process) : List Descriptor := p.closings.map Closing.descriptor

/-- No call of `close` hits another file or a session that is still in use, and none is
repeated. -/
structure Proper (p : Process) : Prop where
  hit : ∀ closing ∈ p.closings, closing.found = some closing.descriptor.file
  unowned : ∀ closing ∈ p.closings, closing.owned = false
  once : (closedFds p).Nodup

/-- The server is destroyed and no task or sender is left. -/
def Complete (p : Process) : Prop := p.position = .destroyed ∧ p.held = []

/-- The same, and every descriptor the server got was closed exactly once. -/
structure ClosedOnce (p : Process) : Prop extends Proper p where
  all : ∀ descriptor ∈ p.acquired, (closedFds p).count descriptor = 1

/-- The event is none of the three failures that leave a descriptor with two owners. -/
def Succeeds (event : FdEvent) : Prop :=
  event ≠ .bind false ∧ event ≠ .listen false ∧ event ≠ .epollAdd false

/-- `bind`, `listen` and the `epoll_ctl` of every connection succeed. -/
def Undisturbed (events : List FdEvent) : Prop := ∀ event ∈ events, Succeeds event

/-! ## Who refers to a session -/

variable {event : FdEvent} {p q : Process} {descriptor session : Descriptor} {number : Nat}

theorem mem_owners : descriptor ∈ p.owners ↔
    descriptor ∈ p.sessions ∨ descriptor ∈ p.position.stack ∨ descriptor ∈ p.held := by
  simp only [Process.owners, List.mem_append, or_assoc]

theorem find_mem (found : p.find number = some session) : session ∈ p.sessions :=
  List.mem_of_find?_eq_some found

@[simp] theorem close_owners : (p.close session).owners = p.owners := rfl

theorem dropped_eq (p : Process) (session : Descriptor) :
    p.dropped session = p ∨ p.dropped session = p.close session ∧ session ∉ p.owners := by
  unfold Process.dropped
  by_cases owned : session ∈ p.owners
  · rw [if_pos owned]
    exact Or.inl rfl
  · rw [if_neg owned]
    exact Or.inr ⟨rfl, owned⟩

/-- The session that `handle_new_connection` is making. -/
def making : FdPosition → Option Descriptor
  | .registering session => some session
  | .refused session => some session
  | .abandoned session => some session
  | _ => none

/-- What holds in every run: sessions are those of accepted descriptors, and the one being
made has no other reference yet. -/
structure Orderly (p : Process) : Prop where
  known : ∀ descriptor ∈ p.owners, descriptor ∈ p.acquired
  listens : ∀ descriptor, p.listenFd = some descriptor → descriptor ∈ p.acquired
  apart : ∀ descriptor, p.listenFd = some descriptor → descriptor ∉ p.owners
  fresh : ∀ descriptor ∈ p.acquired, descriptor.file < p.born
  alone : ∀ session, making p.position = some session → session ∉ p.sessions ∧ session ∉ p.held
  keyed : (p.sessions.map Descriptor.number).Nodup
  start : p.position = .constructed → p.listenFd = none
  emptied : p.position = .destroyed → p.sessions = []

/-- References are moved and given up, and nothing is opened. -/
structure Moves (p q : Process) : Prop where
  born : q.born = p.born
  listenFd : q.listenFd = p.listenFd
  acquired : q.acquired = p.acquired
  sessions : q.sessions.Sublist p.sessions
  owners : ∀ descriptor ∈ q.owners, descriptor ∈ p.owners
  alone : ∀ session, making q.position = some session → session ∉ q.sessions ∧ session ∉ q.held
  start : q.position = .constructed → p.position = .constructed
  emptied : q.position = .destroyed → q.sessions = []

theorem Orderly.moves (orderly : Orderly p) (moves : Moves p q) : Orderly q where
  known descriptor owned := by
    rw [moves.acquired]
    exact orderly.known descriptor (moves.owners descriptor owned)
  listens descriptor listening := by
    rw [moves.acquired]
    exact orderly.listens descriptor (moves.listenFd ▸ listening)
  apart descriptor listening owned :=
    orderly.apart descriptor (moves.listenFd ▸ listening) (moves.owners descriptor owned)
  fresh descriptor acquired := by
    rw [moves.born]
    exact orderly.fresh descriptor (moves.acquired ▸ acquired)
  alone := moves.alone
  keyed := orderly.keyed.sublist (moves.sessions.map Descriptor.number)
  start constructed := moves.listenFd.trans (orderly.start (moves.start constructed))
  emptied := moves.emptied

theorem Orderly.close (orderly : Orderly p) (session : Descriptor) : Orderly (p.close session) :=
  ⟨orderly.known, orderly.listens, orderly.apart, orderly.fresh, orderly.alone, orderly.keyed,
    orderly.start, orderly.emptied⟩

theorem Orderly.dropped (orderly : Orderly p) (session : Descriptor) :
    Orderly (p.dropped session) := by
  rcases dropped_eq p session with same | ⟨closed, _⟩
  · rw [same]
    exact orderly
  · rw [closed]
    exact orderly.close session

end LinuxChat.Guarantees.DescriptorOwnership
