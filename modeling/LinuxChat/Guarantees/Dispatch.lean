import LinuxChat.Source.EpollServer

/-!
# The dispatch loop

`handle_client_event` (server/src/epoll_server.cpp:278-306) hands every parsed
value to the pool. Its diagnostic reads the `type` of a message of an
unauthenticated session outside any handler, and `run()` (:164-195) has none
either. The worker lambda (:295-304) and so `route` are protected. The main
theorem gives the states and message lists on which the loop does its work.
-/

namespace LinuxChat.Guarantees

open LinuxChat.Lib LinuxChat.Source Prog

/-- An object whose `type` is missing or a string. -/
def Json.hasTextType : Json → Bool
  | .object fields =>
    match fields.lookup "type" with
    | none => true
    | some (.string _) => true
    | some _ => false
  | _ => false

theorem value_type_ok {msg : Json} (h : Json.hasTextType msg = true) :
    ∃ type, msg.value "type" "" = .ok type := by
  unfold Json.hasTextType at h
  unfold Json.value
  cases msg with
  | object fields =>
    dsimp only at h ⊢
    cases hl : fields.lookup "type" with
    | none => exact ⟨"", rfl⟩
    | some found =>
      rw [hl] at h
      cases found with
      | string type => exact ⟨type, rfl⟩
      | _ => cases h
  | _ => cases h

theorem value_type_error {msg : Json} (h : ¬ Json.hasTextType msg = true) :
    ∃ error, msg.value "type" "" = .error error := by
  unfold Json.hasTextType at h
  unfold Json.value
  cases msg with
  | object fields =>
    dsimp only at h ⊢
    cases hl : fields.lookup "type" with
    | none =>
      rw [hl] at h
      exact absurd rfl h
    | some found =>
      rw [hl] at h
      cases found with
      | string type => exact absurd rfl h
      | _ => exact ⟨_, rfl⟩
  | _ => exact ⟨_, rfl⟩

/-! ## One round -/

/-- The server with further tasks at the end of its queue. -/
def enqueued (s : Server) (tasks : List Task) : Server :=
  { s with tasks := s.tasks ++ tasks }

/-- The task for one message. -/
def taskFor (s : Server) (session : SessionRef) (msg : Json) : Task :=
  ⟨session, (s.heap session.id).generation, msg⟩

/-- The diagnostic lets the message through. -/
def Readable (s : Server) (session : SessionRef) (msg : Json) : Prop :=
  (s.heap session.id).isAuthenticated = true ∨ Json.hasTextType msg = true

/-- The main thread hands messages over and the pool takes them. -/
def Accepting (s : Server) : Prop :=
  s.hasMessageHandler = true ∧ s.poolStop = false

@[simp] theorem enqueued_nil (s : Server) : enqueued s [] = s := by
  simp [enqueued]

theorem enqueued_enqueued (s : Server) (first : Task) (rest : List Task) :
    enqueued (enqueued s [first]) rest = enqueued s (first :: rest) := by
  simp [enqueued]

/-- Nothing is asked of the outside. -/
abbrev anyWorld : World → Prop := fun _ => True

theorem dispatchOne_enqueues {s : Server} {session : SessionRef} {msg : Json}
    (accepting : Accepting s) (readable : Readable s session msg) :
    Always Act.exec anyWorld (dispatchOne session msg) s fun o s' =>
      o = .ok () ∧ s' = enqueued s [taskFor s session msg] := by
  obtain ⟨handled, running⟩ := accepting
  unfold dispatchOne enqueueTask valueOf
  by_cases authenticated : (s.heap session.id).isAuthenticated = true
  · simp [Act.exec, authenticated, handled, running, enqueued, taskFor]
  · obtain ⟨type, read⟩ := value_type_ok (readable.resolve_left authenticated)
    simp [Act.exec, authenticated, handled, running, read, enqueued, taskFor]

/-- The exception of the diagnostic leaves the loop. -/
theorem dispatchOne_throws {s : Server} {session : SessionRef} {msg : Json}
    (unreadable : ¬ Readable s session msg) :
    Always Act.exec anyWorld (dispatchOne session msg) s fun o _ => ∃ error, o = .error error := by
  have unauthenticated : ¬ (s.heap session.id).isAuthenticated = true :=
    fun h => unreadable (Or.inl h)
  obtain ⟨error, read⟩ := value_type_error fun h => unreadable (Or.inr h)
  unfold dispatchOne valueOf
  simp [Act.exec, unauthenticated, read]

/-- Without a handler, or with the pool stopped, nothing is enqueued. -/
theorem dispatchOne_refuses {s : Server} {session : SessionRef} {msg : Json}
    (refusing : ¬ Accepting s) :
    Always Act.exec anyWorld (dispatchOne session msg) s fun _ s' => s' = s := by
  have stopped : s.hasMessageHandler = true → s.poolStop = true := by
    intro handled
    by_contra running
    exact refusing ⟨handled, by simpa using running⟩
  unfold dispatchOne enqueueTask valueOf
  cases read : msg.value "type" "" <;>
    by_cases authenticated : (s.heap session.id).isAuthenticated = true <;>
      by_cases handled : s.hasMessageHandler = true <;>
        simp [Act.exec, authenticated, handled, stopped]

/-! ## The loop -/

theorem accepting_enqueued {s : Server} {tasks : List Task} :
    Accepting (enqueued s tasks) ↔ Accepting s := Iff.rfl

theorem readable_enqueued {s : Server} {tasks : List Task} {session : SessionRef} {msg : Json} :
    Readable (enqueued s tasks) session msg ↔ Readable s session msg := Iff.rfl

theorem dispatch_refuses {s : Server} {session : SessionRef} (refusing : ¬ Accepting s)
    (msgs : List Json) :
    Always Act.exec anyWorld (dispatch session msgs) s fun _ s' => s' = s := by
  induction msgs with
  | nil => simp [dispatch]
  | cons msg rest ih =>
    rw [dispatch, bind_eq, always_bind]
    refine (dispatchOne_refuses refusing).mono fun o s' same => ?_
    subst same
    cases o with
    | ok value => exact ih
    | error error => rfl

/-- The outcome the loop is there for: it returns, and every message is queued
once, in order. -/
def Dispatched (s : Server) (session : SessionRef) (msgs : List Json) (o : Except Exn Unit)
    (s' : Server) : Prop :=
  o = .ok () ∧ s' = enqueued s (msgs.map (taskFor s session))

theorem dispatch_enqueues {s : Server} {session : SessionRef} {msgs : List Json}
    (accepting : Accepting s) (readable : ∀ msg ∈ msgs, Readable s session msg) :
    Always Act.exec anyWorld (dispatch session msgs) s (Dispatched s session msgs) := by
  induction msgs generalizing s with
  | nil => simp [dispatch, Dispatched]
  | cons msg rest ih =>
    rw [dispatch, bind_eq, always_bind]
    have head := dispatchOne_enqueues accepting (readable msg List.mem_cons_self)
    refine head.mono fun o s₁ ⟨returned, queued⟩ => ?_
    subst returned queued
    have later : ∀ msg' ∈ rest, Readable (enqueued s [taskFor s session msg]) session msg' :=
      fun msg' h => readable_enqueued.mpr (readable msg' (List.mem_cons_of_mem msg h))
    refine (ih (accepting_enqueued.mpr accepting) later).mono fun o s₂ ⟨returned, queued⟩ => ?_
    refine ⟨returned, ?_⟩
    rw [queued, List.map_cons]
    exact enqueued_enqueued s _ _

/-- One unreadable message anywhere in the list ends the loop with its exception. -/
theorem dispatch_throws {s : Server} {session : SessionRef} {msgs : List Json}
    (accepting : Accepting s) (unreadable : ∃ msg ∈ msgs, ¬ Readable s session msg) :
    Always Act.exec anyWorld (dispatch session msgs) s fun o _ => ∃ error, o = .error error := by
  induction msgs generalizing s with
  | nil =>
    obtain ⟨msg, member, _⟩ := unreadable
    cases member
  | cons msg rest ih =>
    rw [dispatch, bind_eq, always_bind]
    by_cases readable : Readable s session msg
    · have later : ∃ msg' ∈ rest, ¬ Readable s session msg' := by
        obtain ⟨msg', member, bad⟩ := unreadable
        cases member with
        | head => exact absurd readable bad
        | tail _ member => exact ⟨msg', member, bad⟩
      refine (dispatchOne_enqueues accepting readable).mono fun o s₁ ⟨returned, queued⟩ => ?_
      subst returned queued
      exact ih (accepting_enqueued.mpr accepting) later
    · refine (dispatchOne_throws readable).mono fun o s₁ ⟨error, thrown⟩ => ?_
      subst thrown
      exact ⟨error, rfl⟩

/-- The dispatch loop returns with every message queued once and in order exactly
when the pool takes tasks and each message is readable, or there is none. -/
theorem dispatch_enqueues_all_iff (s : Server) (session : SessionRef) (msgs : List Json) :
    Always Act.exec anyWorld (dispatch session msgs) s (Dispatched s session msgs) ↔
      (msgs = [] ∨ (Accepting s ∧ ∀ msg ∈ msgs, Readable s session msg)) := by
  constructor
  · intro h
    by_contra none
    push Not at none
    obtain ⟨nonempty, flawed⟩ := none
    by_cases accepting : Accepting s
    · obtain ⟨o, s', ⟨returned, _⟩, error, thrown⟩ :=
        h.both default trivial (dispatch_throws accepting (flawed accepting))
      rw [returned] at thrown
      cases thrown
    · obtain ⟨o, s', ⟨_, queued⟩, same⟩ :=
        h.both default trivial (dispatch_refuses accepting msgs)
      have size := congrArg (fun s : Server => s.tasks.length) (same.symm.trans queued)
      simp only [enqueued, List.length_append, List.length_map] at size
      exact nonempty (List.eq_nil_of_length_eq_zero (by omega))
  · rintro (rfl | ⟨accepting, readable⟩)
    · simp [dispatch, Dispatched]
    · exact dispatch_enqueues accepting readable

/-! ## With the workers at work -/

/-- The actions of the loop, each in the state that the workers have left by then, which is
part of its input. What an action appends to the queue is written down, since a worker may
have taken it before the next one. -/
def amidst : Handler serverInterface (World × Server) (List Task) := fun input action taken =>
  ((action.exec input.1 input.2).1,
    taken ++ (action.exec input.1 input.2).2.tasks.drop input.2.tasks.length)

section
variable {E : World × Server → Prop}

/-- In some of the states that the workers may leave, the diagnostic lets the message through. -/
def Passes (E : World × Server → Prop) (session : SessionRef) (msg : Json) : Prop :=
  ∃ input, E input ∧ Readable input.2 session msg

/-- In some of them it does not. -/
def Stumbles (E : World × Server → Prop) (session : SessionRef) (msg : Json) : Prop :=
  ∃ input, E input ∧ ¬ Readable input.2 session msg

/-- Behind the diagnostic the task is stamped and enqueued. -/
theorem stamp_amidst (accepting : ∀ input, E input → Accepting input.2)
    (session : SessionRef) (msg : Json) (before : List Task) :
    Always amidst E (do
        let registered : Bool ← perform .hasMessageHandler
        if registered then
          let genAtDispatch : Nat ← perform (.generation session)
          enqueueTask ⟨session, genAtDispatch, msg⟩ : Proc Unit) before fun o after =>
      o = .ok () ∧ ∃ gen, after = before ++ [⟨session, gen, msg⟩] := by
  unfold enqueueTask
  simp only [bind_eq, act_bind, ret_bind, always_act]
  intro first admissible
  have handled : (Act.exec first.1 .hasMessageHandler first.2).1 = true := (accepting first admissible).1
  simp only [amidst, handled, ↓reduceIte, always_act]
  intro second _ third later
  have running : third.2.poolStop = false := (accepting third later).2
  simp [Act.exec, running]

/-- How a round ends: its message is handed over, or its diagnostic throws. -/
def Round (E : World × Server → Prop) (session : SessionRef) (msg : Json) (before : List Task)
    (o : Except Exn Unit) (after : List Task) : Prop :=
  (o = .ok () ∧ Passes E session msg ∧ ∃ gen, after = before ++ [⟨session, gen, msg⟩]) ∨
    ((∃ error, o = .error error) ∧ Stumbles E session msg ∧ after = before)

theorem dispatchOne_amidst (accepting : ∀ input, E input → Accepting input.2)
    (session : SessionRef) (msg : Json) (before : List Task) :
    Always amidst E (dispatchOne session msg) before (Round E session msg before) := by
  have stamps := stamp_amidst accepting session msg before
  have handsOver : Passes E session msg → ∀ o after,
      (o = .ok () ∧ ∃ gen, after = before ++ [⟨session, gen, msg⟩]) →
        Round E session msg before o after :=
    fun passes o after ⟨returned, tasks⟩ => Or.inl ⟨returned, passes, tasks⟩
  unfold dispatchOne
  refine (always_act _ _ before _).mpr fun first admissible => ?_
  have check : amidst first (.isAuthenticated session) before =
      ((first.2.heap session.id).isAuthenticated, before) := by
    simp [amidst, Act.exec]
  rw [check, ret_bind]
  by_cases authenticated : (first.2.heap session.id).isAuthenticated = true
  · rw [authenticated]
    exact stamps.mono (handsOver ⟨first, admissible, Or.inl authenticated⟩)
  · have stranger : (first.2.heap session.id).isAuthenticated = false := by
      simpa using authenticated
    rw [stranger]
    unfold valueOf
    cases read : msg.value "type" "" with
    | error error =>
      have unreadable : ¬ Readable first.2 session msg := by
        rintro (yes | typed)
        · exact authenticated yes
        · obtain ⟨type, reads⟩ := value_type_ok typed
          rw [read] at reads
          cases reads
      exact (always_raise _ _ _).mpr (Or.inr ⟨⟨error, rfl⟩, ⟨first, admissible, unreadable⟩, rfl⟩)
    | ok type =>
      have typed : Json.hasTextType msg = true := by
        by_contra untyped
        obtain ⟨error, fails⟩ := value_type_error untyped
        rw [read] at fails
        cases fails
      exact stamps.mono (handsOver ⟨first, admissible, Or.inr typed⟩)

/-- The messages handed over, in order: all of them, or those before the first at which the
diagnostic threw. -/
def HandedOver (E : World × Server → Prop) (session : SessionRef) (msgs : List Json)
    (o : Except Exn Unit) (tasks : List Task) : Prop :=
  ∃ handed left, msgs = handed ++ left ∧ tasks.map Task.msg = handed ∧
    (∀ task ∈ tasks, task.session = session) ∧ (∀ msg ∈ handed, Passes E session msg) ∧
    match o with
    | .ok _ => left = []
    | .error _ => ∃ msg ∈ left.head?, Stumbles E session msg

theorem dispatch_amidst (accepting : ∀ input, E input → Accepting input.2)
    (session : SessionRef) (msgs : List Json) (before : List Task) :
    Always amidst E (dispatch session msgs) before fun o after =>
      ∃ tasks, after = before ++ tasks ∧ HandedOver E session msgs o tasks := by
  induction msgs generalizing before with
  | nil =>
    rw [dispatch, pure_eq, always_ret]
    exact ⟨[], (List.append_nil _).symm, [], [], rfl, rfl, by simp, by simp, rfl⟩
  | cons msg rest ih =>
    rw [dispatch, bind_eq, always_bind]
    refine (dispatchOne_amidst accepting session msg before).mono fun o after round => ?_
    rcases round with ⟨rfl, passes, gen, rfl⟩ | ⟨⟨error, rfl⟩, stumbles, rfl⟩
    · refine (ih _).mono fun o after later => ?_
      obtain ⟨tasks, rfl, handed, left, rfl, own, ours, pass, ending⟩ := later
      refine ⟨⟨session, gen, msg⟩ :: tasks, by simp, msg :: handed, left, rfl, by simp [own], ?_, ?_,
        ending⟩
      · simpa using ours
      · simpa using ⟨passes, pass⟩
    · exact ⟨[], (List.append_nil _).symm, [], msg :: rest, rfl, rfl, by simp, by simp, msg, rfl,
        stumbles⟩

/-- Whatever the workers do between the rounds, the loop hands all messages over, in order,
exactly when each of them is readable in every state they may leave. A message without a text
`type` behind a LOGOUT is not, though the session was logged in when the list arrived. -/
theorem dispatch_amidst_iff (accepting : ∀ input, E input → Accepting input.2)
    (session : SessionRef) (msgs : List Json) :
    (Always amidst E (dispatch session msgs) [] fun o tasks =>
      o = .ok () ∧ tasks.map Task.msg = msgs ∧ ∀ task ∈ tasks, task.session = session) ↔
      ∀ msg ∈ msgs, ∀ input, E input → Readable input.2 session msg := by
  constructor
  · intro always msg member input admissible
    -- the run in which every round meets this one state
    have one : ∀ other, other = input → E other := fun other same => same ▸ admissible
    have here := dispatch_amidst (fun other same => accepting other (one other same)) session msgs []
    have alone := always.restrict one
    obtain ⟨o, after, ⟨returned, _⟩, tasks, rfl, handed, left, rfl, own, ours, pass, ending⟩ :=
      alone.both (E := fun other => other = input) input rfl here
    subst returned
    dsimp only at ending
    subst ending
    rw [List.append_nil] at member
    obtain ⟨other, rfl, readable⟩ := pass msg member
    exact readable
  · intro readable
    refine (dispatch_amidst accepting session msgs []).mono fun o after later => ?_
    obtain ⟨tasks, rfl, handed, left, rfl, own, ours, pass, ending⟩ := later
    cases o with
    | ok value =>
      dsimp only at ending
      subst ending
      exact ⟨rfl, by simpa using own, by simpa using ours⟩
    | error error =>
      obtain ⟨msg, first, input, admissible, unreadable⟩ := ending
      refine absurd (readable msg ?_ input admissible) unreadable
      exact List.mem_append_right handed (List.mem_of_mem_head? first)

end

/-! ## The event -/

/-- `handle_client_event` on a list that `recv_msgs` hands back does what the loop
does, in the state with the session's buffer read. -/
theorem handleClientEvent_dispatches {s : Server} {fd : Nat} {session : SessionRef}
    {after : ClientSession} {msgs : List Json} {E : World → Prop}
    (found : s.findByFd fd = some session)
    (received : ∀ w, E w → recvMsgs w.parse (s.heap session.id) w.recvs = (.ok (some msgs), after))
    (Q : Except Exn Unit → Server → Prop)
    (loop : Always Act.exec E (dispatch session msgs) (s.modify session fun _ => after) Q) :
    Always Act.exec E (handleClientEvent fd) s Q := by
  unfold handleClientEvent
  simp only [bind_eq, act_bind, ret_bind, always_act, Act.exec, found]
  intro w₁ _ w₂ admissible
  simp only [received w₂ admissible, ofExcept_ok, ret_bind]
  exact loop

/-- One connection, not logged in. -/
def oneSession : Server :=
  { sessions := [⟨0, 7, "10.0.0.1"⟩], nextId := 1 }

/-- The body `null` on a connection that has not logged in leaves the dispatch
loop with an exception. -/
theorem dispatch_throws_on_null :
    ¬ ∀ (s : Server) (session : SessionRef) (msgs : List Json), Accepting s →
      Always Act.exec anyWorld (dispatch session msgs) s (Dispatched s session msgs) := by
  intro always
  have run := always oneSession ⟨0, 7, "10.0.0.1"⟩ [.null] ⟨rfl, rfl⟩
  obtain ⟨o, s', ⟨returned, _⟩, error, thrown⟩ :=
    run.both default trivial (dispatch_throws ⟨rfl, rfl⟩ ⟨.null, by simp, by simp [Readable,
      oneSession, ClientSession.isAuthenticated, Json.hasTextType]⟩)
  rw [returned] at thrown
  cases thrown

end LinuxChat.Guarantees
