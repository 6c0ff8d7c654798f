import LinuxChat.Lib.History
import LinuxChat.Guarantees.Reservations

/-!
# The cleanup of a reservation

A name in `login_in_progress_` is taken out by the handler that put it in, or by the disconnect
handler (server/main.cpp:97-106), which only knows the pending name of its session. `Cleanup`
is a history variable: which session the event loop has removed without having read its pending
name yet, or which name it has read and is about to take out.
-/

namespace LinuxChat.Guarantees.Lockout

open LinuxChat.Lib LinuxChat.Source Prog

/-! ## The cleanup of the event loop -/

/-- Where the event loop is with a removal: there is none, the pending name has not been read yet,
or it was read and is to be cleaned up. -/
inductive Cleanup where
  | idle
  | unread (session : SessionRef)
  | holding (username : String)

/-- The removal begins with the session's leaving the table, reads the pending name and cleans it
up. -/
def Cleanup.follow (cleanup : Cleanup) : (action : Act) → action.Res → Cleanup
  | .eraseSession _, some session => .unread session
  | .getPendingLogin _, pending => if pending = "" then .idle else .holding pending
  | .cleanupLoginReservation _, _ => .idle
  | _, _ => cleanup

/-- Only the event loop removes clients. -/
def cleanups (workers : Nat) : History (machine workers) Cleanup where
  record t action result _ _ cleanup := if t = 0 then cleanup.follow action result else cleanup
  start _ _ cleanup := cleanup

/-- The server, and where its event loop is with a removal. -/
abbrev Watched := Shared × Cleanup

/-- The server with that history. -/
abbrev watched (workers : Nat) : Machine serverInterface Exn Watched World :=
  (machine workers).recording (cleanups workers)

/-- What main.cpp starts from, with nothing to clean up. -/
def watchedBoot (db : Database) : Config serverInterface Exn Watched :=
  ⟨((boot db).shared, .idle), (boot db).thread⟩

/-- The pending name of a session object. -/
def pending (s : Watched) (id : Nat) : String := (s.1.server.heap id).pendingLogin

/-- The disconnect handler of this session is still to come and to read its pending name. -/
def Reachable (s : Watched) (id : Nat) : Prop :=
  (∃ x ∈ s.1.server.sessions, x.id = id) ∨ ∃ x, s.2 = .unread x ∧ x.id = id

/-- The pending name of the session is in the set, and nobody but the disconnect handler of
this session will take it out. -/
structure Abandoned (s : Watched) (id : Nat) : Prop where
  reachable : Reachable s id
  kept : pending s id ∈ s.1.server.loginInProgress
  unreserved : ∀ t, s.1.aux.reservedBy t ≠ some (pending s id)
  sole : ∀ other, other ≠ id → Reachable s other → pending s other ≠ pending s id
  unheld : s.2 ≠ .holding (pending s id)

/-- An abandoned pending name is not overwritten or cleared, and a task ends with a name
still reserved only where someone else or a disconnect handler will find that name. -/
def Recoverable (t : Nat) : Act → Watched → Prop
  | .setPendingLogin x _, s => ¬ Abandoned s x.id
  | .clearPendingLogin x, s => ¬ Abandoned s x.id
  | .dropSession _, s => ∀ username, s.1.aux.reservedBy t = some username →
      username ∈ s.1.server.loginInProgress →
        (∃ other, other ≠ t ∧ s.1.aux.reservedBy other = some username) ∨
          (∃ id, Reachable s id ∧ pending s id = username) ∨ s.2 = .holding username
  | _, _ => True

/-! ## The invariant -/

/-- Someone will take the name out: a handler, or the disconnect handler of a session. -/
def Covered (s : Watched) (username : String) : Prop :=
  (∃ t, s.1.aux.reservedBy t = some username) ∨
    (∃ id, Reachable s id ∧ pending s id = username) ∨ s.2 = .holding username

/-- The invariant: every reserved name is held by a thread that will release it, is pending in a
session whose disconnect is still to come, or has been read by the cleanup under way. -/
structure Kept (s : Watched) : Prop where
  numbered : Numbered s.1.server.sessions s.1.server.nextId
  fds : s.1.server.sessions.Pairwise fun x y => x.fd ≠ y.fd
  unread : ∀ x, s.2 = .unread x → x.id < s.1.server.nextId
  nonempty : "" ∉ s.1.server.loginInProgress
  covered : ∀ username ∈ s.1.server.loginInProgress, Covered s username
  disconnects : s.1.server.hasDisconnectHandler = true

/-- What a thread must know before an action. -/
def Sound (t : Nat) (s : Watched) : Act → Prop
  | .reserveForRegister username => username ≠ "" ∧ s.1.aux.reservedBy t = none
  | .reserveForLogin username => username ≠ "" ∧ s.1.aux.reservedBy t = none
  | .releaseReservation username => s.1.aux.reservedBy t = some username
  | .cleanupLoginReservation username => s.2 = .holding username
  | .eraseSession _ => t = 0 ∧ s.2 = .idle
  | .getPendingLogin x => t = 0 → s.2 = .unread x
  | .storeSession fd _ => t = 0 ∧ ∀ x ∈ s.1.server.sessions, x.fd ≠ fd
  | _ => True

/-- The thread's own reservation stays; the event loop has the table and the cleanup
to itself. -/
structure Leaves (t : Nat) (s s' : Watched) : Prop where
  own : s'.1.aux.reservedBy t = s.1.aux.reservedBy t
  table : t = 0 → s'.1.server.sessions = s.1.server.sessions
  cleanup : t = 0 → s'.2 = s.2

/-- The discipline that keeps the invariant. -/
def lockout (workers : Nat) : Discipline (watched workers) where
  inv := Kept
  allowed := Recoverable
  rely := Leaves
  rely_refl _ _ := ⟨rfl, fun _ => rfl, fun _ => rfl⟩
  rely_trans _ _ _ _ h h' := ⟨h'.own.trans h.own,
    fun loop => (h'.table loop).trans (h.table loop),
    fun loop => (h'.cleanup loop).trans (h.cleanup loop)⟩

end LinuxChat.Guarantees.Lockout
