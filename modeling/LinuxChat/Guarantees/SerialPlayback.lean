import LinuxChat.Guarantees.SerialRuns

/-!
# Playing one handler after the other

Concrete runs of the server for witnesses: connections are accepted, and messages come in and
are handled one at a time, in an outside that works.
-/

namespace LinuxChat.Guarantees.SerialPlayback

open LinuxChat.Lib LinuxChat.Source Prog Serial SerialRuns

/-- An outside that works and whose sockets deliver one frame, which parses to `msg`. Every
digest is zero. -/
def tellingWorld (msg : Json) : World :=
  { (default : World) with
    rand := some (Octets.zeros 16)
    sha256 := fun _ => some (Octets.zeros 32)
    recvs := [.data ⟨[0, 0, 0, 1, 123], by decide, by decide⟩]
    parse := fun _ => .value msg }

/-- A REGISTER under this name. -/
def registration (username : String) : Json :=
  .object [("type", .string "REGISTER"), ("from", .string username), ("content", .string "secret")]

/-- The server once a message has come in on `fd`. -/
def hears (s : Server) (fd : Nat) (msg : Json) : Server :=
  (eval Act.exec (tellingWorld msg) (handleClientEvent fd) s).2

/-- The server once the oldest task is done. -/
def serves (s : Server) : Server :=
  match s.tasks with
  | task :: rest => (eval Act.exec (tellingWorld .null) (runTask task) { s with tasks := rest }).2
  | [] => s

/-- The server once a connection was accepted. -/
def connects (s : Server) (fd : Nat) : Server :=
  (eval Act.exec (tellingWorld .null) (handleNewConnection fd "10.0.0.1") s).2

/-- The server after one more connection was accepted and its REGISTER was handled. -/
def registers (s : Server) (fd : Nat) (username : String) : Server :=
  serves (hears (connects s fd) fd (registration username))

/-! ## They are runs -/

section
variable {E : World → Prop} (admits : ∀ msg, E (tellingWorld msg)) {db : Database} {s : Server}
include admits

theorem run_hears (run : SerialRun E db s) (fd : Nat) (msg : Json) :
    SerialRun E db (hears s fd msg) :=
  run.turn (.event (e := .client fd) trivial
    (eval_runs Act.exec E (tellingWorld msg) (admits msg) (handleClientEvent fd) s))

theorem run_serves (run : SerialRun E db s) : SerialRun E db (serves s) := by
  unfold serves
  split
  next task rest queued =>
    exact run.turn (.task queued
      (eval_runs Act.exec E (tellingWorld .null) (admits .null) (runTask task) _))
  next => exact run

theorem run_connects (run : SerialRun E db s) {fd : Nat} (free : ∀ x ∈ s.sessions, x.fd ≠ fd) :
    SerialRun E db (connects s fd) :=
  run.turn (.event (e := .newConnection fd "10.0.0.1") free
    (eval_runs Act.exec E (tellingWorld .null) (admits .null)
      (handleNewConnection fd "10.0.0.1") s))

theorem run_registers (run : SerialRun E db s) {fd : Nat} (username : String)
    (free : ∀ x ∈ s.sessions, x.fd ≠ fd) : SerialRun E db (registers s fd username) :=
  run_serves admits (run_hears admits (run_connects admits run free) fd (registration username))

end

/-! ## Two users -/

/-- Alice's session. -/
def alice : SessionRef := ⟨0, 5, "10.0.0.1"⟩

/-- Bob's session. -/
def bob : SessionRef := ⟨1, 6, "10.0.0.1"⟩

/-- Alice has registered. -/
def aliceAlone : Server := registers {} 5 "alice"

/-- Bob's REGISTER is in the queue. -/
def bobKnocks : Server := hears (connects aliceAlone 6) 6 (registration "bob")

/-- Bob has registered as well. -/
def aliceAndBob : Server := registers aliceAlone 6 "bob"

section
variable {E : World → Prop} (admits : ∀ msg, E (tellingWorld msg))
include admits

theorem run_bobKnocks : SerialRun E {} bobKnocks := by
  have first : SerialRun E {} aliceAlone := run_registers admits .boot "alice" (by simp)
  exact run_hears admits (run_connects admits first (by decide +kernel)) 6 _

theorem run_aliceAndBob : SerialRun E {} aliceAndBob := run_serves admits (run_bobKnocks admits)

end

end LinuxChat.Guarantees.SerialPlayback
