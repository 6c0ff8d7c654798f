import LinuxChat.Guarantees.MessageFlow
import LinuxChat.Guarantees.Generations

/-!
# What the event loop attends to

`handle_client_event` looks a session up, reads it, and either dispatches what it read to that
session or removes it (server/src/epoll_server.cpp:257-307). `Attention` is a history variable: the
session found under a descriptor, and whether `recv_msgs` has given up since.
-/

namespace LinuxChat.Guarantees.HalfClose

open LinuxChat.Lib LinuxChat.Source Prog

/-- The descriptor looked up last and the session found under it, and that `recv_msgs` has returned
nothing since. -/
structure Attention where
  found : Option (Nat × SessionRef) := none
  gaveUp : Bool := false

/-- `recv_msgs` gives up. -/
def givesUp : Except Exn (Option (List Json)) → Bool
  | .ok none => true
  | _ => false

/-- A change of the table ends the attention. -/
def Attention.follow (attention : Attention) : (action : Act) → action.Res → Attention
  | .findByFd fd, found => ⟨found.map fun session => (fd, session), false⟩
  | .recvMsgs _, result => { attention with gaveUp := givesUp result }
  | .storeSession _ _, _ => {}
  | .eraseSession _, _ => {}
  | _, _ => attention

/-- The history variable that follows the attention of every thread. -/
def watching (workers : Nat) : History (machine workers) (Nat → Attention) where
  record t action result _ _ attention :=
    Function.update attention t ((attention t).follow action result)
  start _ _ attention := attention

/-- The event loop reads the session it has found, enqueues for it, and removes it when
`recv_msgs` has given up; nobody else does any of this. -/
def attending : Monitor serverInterface (Bool × Attention) where
  next a action result := (a.1, a.2.follow action result)
  ok a
    | .storeSession _ _ => a.1 = true
    | .recvMsgs session => a.1 = true ∧ ∃ fd, a.2.found = some (fd, session)
    | .enqueue task => a.1 = true ∧ ∃ fd, a.2.found = some (fd, task.session)
    | .eraseSession fd => a.1 = true ∧ a.2.gaveUp = true ∧ ∃ session, a.2.found = some (fd, session)
    | _ => True

/-- The program meets `attending`, wherever it ends. -/
abbrev Attends {α : Type} (p : Proc α) (a : Bool × Attention) : Prop :=
  p.Meets attending (fun _ _ => True) a

end LinuxChat.Guarantees.HalfClose
