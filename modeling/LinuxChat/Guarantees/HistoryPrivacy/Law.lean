import LinuxChat.Guarantees.Effects
import LinuxChat.Guarantees.Handlers.Announcements

/-!
# The law of the history

Room and private messages share the `messages` table and are told apart by `to_user` alone
(server/src/database.cpp:158-217), while usernames are whatever `handle_register` lets through.
Handlers run one at a time here. The archive writes down, next to the server, which message
each stored row came from and which rows went out in each HISTORY_RESP.
-/

namespace LinuxChat.Guarantees.HistoryPrivacy

open LinuxChat.Lib LinuxChat.Source Prog

/-! ## The router with an archive -/

/-- A message that reached the table: its row, the type of the request that
`route` handed on, who sent it and to whom. -/
structure Accepted where
  row : Nat
  type : String
  sender : String
  addressee : String

/-- A HISTORY_RESP: the name of the session it was sent to, and the rows in it. -/
structure Delivery where
  receiver : String
  frame : Json
  rows : List Row

/-- The server, the type of the request that is being handled, every name that a session was ever
given, and what was stored, selected and delivered so far. -/
structure Archive where
  server : Server := {}
  handling : String := ""
  names : List String := []
  accepted : List Accepted := []
  queried : List Row := []
  deliveries : List Delivery := []

/-- What the archive keeps of one action, before the server moves on. -/
def Archive.record (a : Archive) (w : World) : Act → Archive
  | .setUsername _ name => { a with names := name :: a.names }
  | .storeMessage sender toUser _ _ =>
    if w.dbOk then
      { a with accepted := a.accepted ++ [⟨a.server.db.nextId, a.handling, sender, toUser⟩] }
    else a
  | .getHistory requestor target limit =>
    { a with queried := a.server.db.selectHistory w.order w.dbOk requestor target limit }
  | .sendMsg target _ msg =>
    if msg.typeOf = "HISTORY_RESP" then
      { a with deliveries := a.deliveries ++ [⟨a.server.name target, msg, a.queried⟩] }
    else a
  | _ => a

/-- An action, and the names it adds. -/
def archivedExec : Handler serverInterface World Archive :=
  fun w action a =>
    ((action.exec w a.server).1, { a.record w action with server := (action.exec w a.server).2 })

/-- The requests of a run, each handled to its end before the next one. -/
inductive Request : Proc Unit → Archive → Archive → Prop
  | accept (fd : Nat) (ip : String) (a : Archive)
      (unused : ∀ session ∈ a.server.sessions, session.fd ≠ fd) :
      Request (handleNewConnection fd ip) a a
  | message (session : SessionRef) (msg : Json) (a : Archive)
      (live : session ∈ a.server.sessions) :
      Request ((route session msg).tryCatch fun _ => .ret ()) a { a with handling := msg.typeOf }
  | disconnect (fd : Nat) (a : Archive) : Request (removeClient fd) a a

/-- One thread, started on one request after the other. -/
def sequentialRouter : Machine serverInterface Exn Archive World where
  exec := fun _ => archivedExec
  spawn := fun t p a a' => t = 0 ∧ Request p a a'

/-- A router without connections and with an empty database. -/
def emptyRouter : Config serverInterface Exn Archive where
  shared := {}
  thread := fun _ => .ret ()

/-! ## The law -/

/-- Every row of a delivery came from a BROADCAST, or from a PRIVATE that its
receiver sent or was sent; under the room's name, from a BROADCAST. -/
structure Delivery.Lawful (accepted : List Accepted) (d : Delivery) : Prop where
  own : ∀ row ∈ d.rows, ∃ e ∈ accepted, e.row = row.id ∧
    (e.type = "BROADCAST" ∨
      e.type = "PRIVATE" ∧ (e.sender = d.receiver ∨ e.addressee = d.receiver))
  shown : ∃ toUser, d.frame = historyFrame toUser (d.rows.map Database.historyJson) ∧
    (toUser = "__room__" →
      ∀ row ∈ d.rows, ∃ e ∈ accepted, e.row = row.id ∧ e.type = "BROADCAST")

/-- Nobody takes a name that differs from an earlier one and has its C string, and
no private message is stored under the room's name. -/
def Distinguishable (_ : Nat) : Act → Archive → Prop
  | .setUsername _ name, a => ∀ earlier ∈ a.names, cString earlier = cString name → earlier = name
  | .storeMessage _ toUser _ _, a => a.handling = "PRIVATE" → cString toUser ≠ "__room__"
  | _, _ => True

instance (t : Nat) (action : Act) (a : Archive) : Decidable (Distinguishable t action a) := by
  cases action with
  | setUsername _ name =>
    exact inferInstanceAs
      (Decidable (∀ earlier ∈ a.names, cString earlier = cString name → earlier = name))
  | storeMessage _ toUser _ _ =>
    exact inferInstanceAs (Decidable (a.handling = "PRIVATE" → cString toUser ≠ "__room__"))
  | _ => exact isTrue trivial

/-! ## Invariant -/

/-- What the archive knows of a stored row. -/
def Accounted (names : List String) (row : Row) (e : Accepted) : Prop :=
  e.row = row.id ∧ row.fromUser = cString e.sender ∧ row.toUser = cString e.addressee ∧
    (e.type = "BROADCAST" ∨
      e.type = "PRIVATE" ∧ e.sender ∈ names ∧ e.addressee ∈ names ∧
        cString e.addressee ≠ "__room__")

/-- The invariant: descriptors are not shared, the names borne are on record and told apart by
their C strings, every row comes of one accepted message, and every history delivered so far was
lawful. -/
structure Kept (a : Archive) : Prop where
  fds : a.server.sessions.Pairwise fun x y => x.fd ≠ y.fd
  named : ∀ id, (a.server.heap id).username ≠ "" → (a.server.heap id).username ∈ a.names
  distinct : ∀ m ∈ a.names, ∀ n ∈ a.names, cString m = cString n → m = n
  rows : ∀ row ∈ a.server.db.messages, ∃ e ∈ a.accepted, Accounted a.names row e
  ids : ∀ e ∈ a.accepted, e.row < a.server.db.nextId
  once : (a.accepted.map Accepted.row).Nodup
  lawful : ∀ d ∈ a.deliveries, d.Lawful a.accepted

/-- The rely of the only thread: nothing happens between its actions. -/
def privacy : Discipline sequentialRouter where
  inv := Kept
  allowed := Distinguishable
  rely := fun t a a' => t = 0 → a = a'
  rely_refl := fun _ _ _ => rfl
  rely_trans := fun _ _ _ _ h h' zero => (h zero).trans (h' zero)

variable {α : Type} {Q : α → Archive → Prop} {X : Exn → Archive → Prop}

theorem keeps_of_kept {a a' : Archive} (kept : Kept a') : privacy.Keeps 0 a a' :=
  ⟨kept, fun _ other zero => absurd zero other⟩

theorem stable_zero (P : Archive → Prop) : privacy.Stable 0 P := by
  intro a a' moved h
  rw [← moved rfl]
  exact h

/-- The action rule without other threads. -/
theorem wp_solo {action : Act} {next : action.Res → Proc α} {a : Archive}
    (h : Kept a → Distinguishable 0 action a → ∀ w,
      Kept (archivedExec w action a).2 ∧
        privacy.wp 0 Q X (next (archivedExec w action a).1) (archivedExec w action a).2) :
    privacy.wp 0 Q X (.act action next) a := by
  intro a₁ moved kept allowed w
  cases moved rfl
  obtain ⟨kept', rest⟩ := h kept allowed w
  exact ⟨keeps_of_kept kept', rest⟩

end LinuxChat.Guarantees.HistoryPrivacy
