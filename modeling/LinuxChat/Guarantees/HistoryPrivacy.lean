import LinuxChat.Guarantees.HistoryPrivacy.Requests

/-!
# Who gets to see which message

The law of the history holds in every run in which nobody takes a second name with the same C
string and no private message is addressed to the room's name. A private message that is
addressed to it, to a user who has registered under that name, is shown to everyone.
-/

namespace LinuxChat.Guarantees.HistoryPrivacy

open LinuxChat.Lib LinuxChat.Source Prog

theorem kept_empty : Kept {} where
  fds := List.Pairwise.nil
  named _ nonempty := absurd rfl nonempty
  distinct _ member := absurd member List.not_mem_nil
  rows _ member := absurd member List.not_mem_nil
  ids _ member := absurd member List.not_mem_nil
  once := List.nodup_nil
  lawful _ member := absurd member List.not_mem_nil

theorem privacy_start : privacy.Holds (fun _ _ => True) emptyRouter where
  inv := kept_empty
  threads _ := trivial

/-- In every run in which the names stay distinguishable, each message has a row of
its own, and every HISTORY_RESP shows its receiver broadcasts and the receiver's own
private messages only, under the room's name broadcasts only. -/
theorem history_lawful (c : Config serverInterface Exn Archive)
    (run : sequentialRouter.Reaches Distinguishable emptyRouter c) :
    (c.shared.accepted.map Accepted.row).Nodup ∧
      ∀ d ∈ c.shared.deliveries, d.Lawful c.shared.accepted := by
  have holds : privacy.Holds (fun _ _ => True) c :=
    Discipline.sound privacy_verified privacy_start run
  exact ⟨holds.inv.once, holds.inv.lawful⟩

/-! ## A user named like the room -/

/-- The outside of the runs below: OpenSSL and SQLite work. -/
def workingWorld : World :=
  { (default : World) with
    rand := some (Octets.zeros 16)
    sha256 := fun _ => some (Octets.zeros 32) }

/-- The archive after a request that runs alone. -/
def served (p : Proc Unit) (a : Archive) : Archive :=
  (eval archivedExec workingWorld p a).2

theorem serve {allowed : Nat → Act → Archive → Prop} {a a' : Archive} {p : Proc Unit}
    (run : sequentialRouter.Reaches allowed emptyRouter ⟨a, fun _ => .ret ()⟩)
    (request : Request p a a')
    (permitted : Machine.Permitted (allowed 0) archivedExec workingWorld p a')
    (returns : (eval archivedExec workingWorld p a').1 = .ok ()) :
    sequentialRouter.Reaches allowed emptyRouter ⟨served p a', fun _ => .ret ()⟩ :=
  run.serve sequentialRouter 0 workingWorld p a' ⟨rfl, request⟩ permitted returns

/-- A REGISTER or LOGIN under this name. -/
def credentials (type username : String) : Json :=
  .object [("type", .string type), ("from", .string username), ("content", .string "pw")]

/-- A PRIVATE to this user. -/
def privateTo (toUser : String) : Json :=
  .object [("type", .string "PRIVATE"), ("to", .string toUser), ("content", .string "secret")]

/-- A request, with what the worker does about an exception. -/
def handle (session : SessionRef) (msg : Json) : Proc Unit :=
  (route session msg).tryCatch fun _ => .ret ()

/-- The first connection. -/
def first : SessionRef := ⟨0, 5, "10.0.0.1"⟩

/-- The second, from another address. -/
def second : SessionRef := ⟨1, 6, "10.0.0.2"⟩

/-- Two connections; `one` and then `two` register, and `one` writes to `addressee`
in between. -/
def accepted1 : Archive := served (handleNewConnection 5 "10.0.0.1") {}

/-- The second connection is accepted as well. -/
def accepted2 : Archive := served (handleNewConnection 6 "10.0.0.2") accepted1

/-- The first one has registered under this name. -/
def registered (one : String) : Archive :=
  served (handle first (credentials "REGISTER" one)) { accepted2 with handling := "REGISTER" }

/-- It has written to this addressee. -/
def written (one addressee : String) : Archive :=
  served (handle first (privateTo addressee)) { registered one with handling := "PRIVATE" }

/-- The second one has registered under that name. -/
def joined (one addressee two : String) : Archive :=
  served (handle second (credentials "REGISTER" two))
    { written one addressee with handling := "REGISTER" }

theorem accepted2_reached (allowed : Nat → Act → Archive → Prop)
    (connects : ∀ fd ip a, allowed 0 (.storeSession fd ip) a) :
    sequentialRouter.Reaches allowed emptyRouter ⟨accepted2, fun _ => .ret ()⟩ := by
  have start : sequentialRouter.Reaches allowed emptyRouter ⟨{}, fun _ => .ret ()⟩ := .refl
  have one := serve start (.accept 5 "10.0.0.1" {} (fun _ member => nomatch member))
    ⟨connects _ _ _, trivial⟩ rfl
  exact serve one (.accept 6 "10.0.0.2" accepted1 (by decide)) ⟨connects _ _ _, trivial⟩ rfl

/-- Bob writes to himself before alice joins. -/
theorem joined_reached : sequentialRouter.Reaches Distinguishable emptyRouter
    ⟨joined "bob" "bob" "alice", fun _ => .ret ()⟩ := by
  have two := accepted2_reached Distinguishable fun _ _ _ => trivial
  have named := serve two (.message first (credentials "REGISTER" "bob") accepted2 (by decide))
    (by decide) rfl
  have wrote := serve named (.message first (privateTo "bob") (registered "bob") (by decide))
    (by decide) rfl
  exact serve wrote (.message second (credentials "REGISTER" "alice") (written "bob" "bob")
    (by decide)) (by decide) rfl

/-- Bob has written to himself before alice registers; the history she is pushed is lawful. -/
theorem history_lawful_joined :
    ((joined "bob" "bob" "alice").accepted.map Accepted.row).Nodup ∧
      ∀ d ∈ (joined "bob" "bob" "alice").deliveries,
        d.Lawful (joined "bob" "bob" "alice").accepted :=
  history_lawful ⟨joined "bob" "bob" "alice", fun _ => .ret ()⟩ joined_reached

/-- What the router answers alice after a user called `__room__` wrote to that name. -/
def leaked : Delivery :=
  { receiver := "alice"
    frame := historyFrame "__room__"
      [Database.historyJson ⟨1, "__room__", "__room__", "secret", 0⟩]
    rows := [⟨1, "__room__", "__room__", "secret", 0⟩] }

/-- Without the condition on the addressee alice is shown a private message as if it were said in
the room. -/
theorem history_leaks :
    ¬ ∀ c : Config serverInterface Exn Archive,
      sequentialRouter.Reaches Machine.unrestricted emptyRouter c →
        ∀ d ∈ c.shared.deliveries, d.Lawful c.shared.accepted := by
  intro always
  have free : ∀ (p : Proc Unit) (a : Archive),
      Machine.Permitted (Machine.unrestricted 0) archivedExec workingWorld p a :=
    fun p a => Machine.permitted_unrestricted 0 archivedExec workingWorld p a
  have two := accepted2_reached (Machine.unrestricted (I := serverInterface) (σ := Archive))
    fun _ _ _ => trivial
  have named := serve two (.message first (credentials "REGISTER" "__room__") accepted2
    (by decide)) (free _ _) rfl
  have wrote := serve named (.message first (privateTo "__room__") (registered "__room__")
    (by decide)) (free _ _) rfl
  have reached := serve wrote (.message second (credentials "REGISTER" "alice")
    (written "__room__" "__room__") (by decide)) (free _ _) rfl
  have sent : (joined "__room__" "__room__" "alice").deliveries[1]? = some leaked := rfl
  obtain ⟨own, _⟩ := always _ reached leaked (List.mem_of_getElem? sent)
  obtain ⟨e, accepted, _, kind⟩ := own ⟨1, "__room__", "__room__", "secret", 0⟩ (by simp [leaked])
  have only : (joined "__room__" "__room__" "alice").accepted =
      [⟨1, "PRIVATE", "__room__", "__room__"⟩] := rfl
  have mine : e = ⟨1, "PRIVATE", "__room__", "__room__"⟩ := by
    have member : e ∈ (joined "__room__" "__room__" "alice").accepted := accepted
    rw [only] at member
    exact List.mem_singleton.mp member
  subst mine
  simp [leaked] at kind

end LinuxChat.Guarantees.HistoryPrivacy
