import LinuxChat.Guarantees.Playback
import LinuxChat.Guarantees.Recipients.Invariant

/-!
# Who is sent what

`handle_private` finds its addressee by name and sends by descriptor, and so does every
answer that goes through `send_to_fd` (server/src/message_router.cpp:493-518). A descriptor
is closed in `~ClientSession()` (server/include/client_session.h:34-39), so a task keeps
those it sends to from being given out again. `Post` is a history variable: the sessions
each thread refers to, the names that sessions have borne, and every frame with the session
whose message it answers. In every run, frames go to those they are for.
-/

namespace LinuxChat.Guarantees.Recipients

open LinuxChat.Lib LinuxChat.Source Prog

/-- Every frame the server has sent is for the session it was sent to: an ERROR answers a
message of that session; so do LOGIN_OK, HISTORY_RESP and the sender's copy of a PRIVATE
frame, and that session has been logged in; the other copy of a PRIVATE frame goes to a
session that has borne the name it is addressed to; frames for everybody go to sessions
that have been logged in. A connection that never logs in gets nothing but ERROR frames. -/
theorem frames_reach_their_users (workers : Nat) (db : Database)
    (c : Config serverInterface Exn Posted)
    (run : (posted workers).Reaches Closed (postedBoot db) c) :
    c.shared.2.sent.map (fun parcel => (parcel.recipient, parcel.frame)) = c.shared.1.server.sent ∧
    (∀ parcel ∈ c.shared.2.sent, Entitled c.shared.2.borne parcel) ∧
    ∀ x, ¬ Bore c.shared.2.borne x.id →
      ∀ frame, (x, frame) ∈ c.shared.1.server.sent → frame.typeOf = "ERROR" := by
  have sound := sound_of_run run
  refine ⟨sound.all, sound.entitled, ?_⟩
  intro x stranger frame member
  rw [← sound.all] at member
  obtain ⟨parcel, sent, same⟩ := List.mem_map.mp member
  cases same
  cases sound.entitled parcel sent with
  | refused type own => exact type
  | answered type own named => exact absurd named stranger
  | addressed name type reads nonempty named => exact absurd ⟨name, nonempty, named⟩ stranger
  | announced type named => exact absurd named stranger

/-! ## A private message -/

/-- The action takes in a connection. -/
def accepts : Act → Bool
  | .storeSession _ _ => true
  | _ => false

/-- Where nothing is accepted, `accept4` returns nothing. -/
theorem closed_of_accepts {t : Nat} {w : World} {p : Proc Unit} {s : Posted}
    (none : Machine.Permitted (fun action _ => accepts action = false)
      ((posted 1).exec t) w p s) : Machine.Permitted (Closed t) ((posted 1).exec t) w p s := by
  refine none.mono fun action s quiet fd ip stores => ?_
  rw [stores] at quiet
  cases quiet

/-- With all threads idle and no task queued the table is all there is. -/
theorem closed_of_idle {s : Posted} {fd : Nat} (ip : String) (queue : s.1.server.tasks = [])
    (idle : ∀ t, s.2.custody t = {}) (free : ∀ x ∈ s.1.server.sessions, x.fd ≠ fd) :
    Closed 0 (.storeSession fd ip) s := by
  intro _ _ same x held
  cases same
  rcases held with inTable | ⟨task, queued, _⟩ | ⟨t, origin | ⟨name, addressee⟩⟩
  · exact free x inTable
  · rw [queue] at queued
    cases queued
  · rw [idle t] at origin
    cases origin
  · rw [idle t] at addressee
    cases addressee

/-- The event loop has dealt with an event. -/
def met (e : Event) (w : World) (s : Posted) : Posted :=
  (eval ((posted 1).exec 0) w e.program s).2

/-- The worker has run the oldest task. -/
def ran (s : Posted) : Posted :=
  (eval ((posted 1).exec 1) steadyWorld (runTask (oldest s.1)) (taken (posting 1) 1 s)).2

/-- One connection has been accepted. -/
def oneConnection : Posted :=
  met (.newConnection 5 "10.0.0.1") steadyWorld (postedBoot {}).shared

/-- And another. -/
def twoConnections : Posted := met (.newConnection 6 "10.0.0.1") steadyWorld oneConnection

/-- The message arrives under the descriptor, and a worker handles it. -/
def asked (fd : Nat) (msg : Json) (s : Posted) : Posted := met (.client fd) (deliver msg) s

/-- A PRIVATE to bob. -/
def whisper : Json :=
  .object [("type", .string "PRIVATE"), ("to", .string "bob"), ("content", .string "hi")]

/-- Alice and bob have registered. -/
def bothIn : Posted :=
  ran (asked 6 (request "REGISTER" "bob") (ran (asked 5 (request "REGISTER" "alice") twoConnections)))

/-- Alice has written to bob. -/
def whispered : Posted := ran (asked 5 whisper bothIn)

theorem reaches_asked {s : Posted} (run : (posted 1).Reaches Closed (postedBoot {}) ⟨s, fun _ => .ret ()⟩)
    (fd : Nat) (msg : Json)
    (none : Machine.Permitted (fun action _ => accepts action = false)
      ((posted 1).exec 0) (deliver msg) (handleClientEvent fd) s)
    (returns : (eval ((posted 1).exec 0) (deliver msg) (handleClientEvent fd) s).1 = .ok ()) :
    (posted 1).Reaches Closed (postedBoot {}) ⟨asked fd msg s, fun _ => .ret ()⟩ :=
  record_event (.client fd) (deliver msg) run trivial rfl (closed_of_accepts none) returns

theorem reaches_ran {s : Posted} (run : (posted 1).Reaches Closed (postedBoot {}) ⟨s, fun _ => .ret ()⟩)
    (queued : s.1.server.tasks.isEmpty = false)
    (none : Machine.Permitted (fun action _ => accepts action = false) ((posted 1).exec 1)
      steadyWorld (runTask (oldest s.1)) (taken (posting 1) 1 s))
    (returns : (eval ((posted 1).exec 1) steadyWorld (runTask (oldest s.1))
      (taken (posting 1) 1 s)).1 = .ok ()) :
    (posted 1).Reaches Closed (postedBoot {}) ⟨ran s, fun _ => .ret ()⟩ :=
  record_task 1 steadyWorld run (by decide) queued (closed_of_accepts none) returns

theorem twoConnections_reached :
    (posted 1).Reaches Closed (postedBoot {}) ⟨twoConnections, fun _ => .ret ()⟩ := by
  have start : (posted 1).Reaches Closed (postedBoot {}) (postedBoot {}) := .refl
  have idle : ∀ t, oneConnection.2.custody t = {} := by
    intro t
    by_cases loop : t = 0
    · subst loop
      rfl
    · exact Function.update_of_ne loop _ _
  have first : Closed 0 (.storeSession 5 "10.0.0.1") (postedBoot {}).shared :=
    closed_of_idle _ rfl (fun _ => rfl) (by decide)
  have second : Closed 0 (.storeSession 6 "10.0.0.1") oneConnection :=
    closed_of_idle _ rfl idle (by decide)
  have one := record_event (.newConnection 5 "10.0.0.1") steadyWorld start (by decide) rfl
    ⟨first, trivial⟩ rfl
  exact record_event (.newConnection 6 "10.0.0.1") steadyWorld one (by decide) rfl
    ⟨second, trivial⟩ rfl

theorem whispered_reached :
    (posted 1).Reaches Closed (postedBoot {}) ⟨whispered, fun _ => .ret ()⟩ := by
  have asks := reaches_asked twoConnections_reached 5 (request "REGISTER" "alice")
    (by decide +kernel) (by decide +kernel)
  have alice := reaches_ran asks (by decide +kernel) (by decide +kernel) (by decide +kernel)
  have asks := reaches_asked alice 6 (request "REGISTER" "bob") (by decide +kernel)
    (by decide +kernel)
  have bob := reaches_ran asks (by decide +kernel) (by decide +kernel) (by decide +kernel)
  have asks := reaches_asked bob 5 whisper (by decide +kernel) (by decide +kernel)
  exact reaches_ran asks (by decide +kernel) (by decide +kernel) (by decide +kernel)

/-- The PRIVATE frame goes to bob and back to alice, and to no other session object. -/
theorem frames_reach_their_users_whispered :
    (whispered.1.server.sent.filterMap fun entry =>
      if entry.2.typeOf = "PRIVATE" then some entry.1.fd else none) = [6, 5] ∧
    ∀ x, ¬ Bore whispered.2.borne x.id →
      ∀ frame, (x, frame) ∈ whispered.1.server.sent → frame.typeOf = "ERROR" :=
  ⟨by decide +kernel,
    (frames_reach_their_users 1 {} ⟨whispered, fun _ => .ret ()⟩ whispered_reached).2.2⟩

end LinuxChat.Guarantees.Recipients
