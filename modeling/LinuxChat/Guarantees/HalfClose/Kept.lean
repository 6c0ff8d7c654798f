import LinuxChat.Guarantees.HalfClose.Line
import LinuxChat.Guarantees.HalfClose.Attention

/-!
# Nothing read is dropped

The server with the line of one client. As long as the client's session is removed only when none
of its tasks waits for its check, what was received of it and what is still to come are its
messages, and none of its tasks is dropped.
-/

namespace LinuxChat.Guarantees.HalfClose

open LinuxChat.Lib LinuxChat.Source Prog MessageFlow

/-! ## The server and the line -/

/-- The messages on their way, the attention of every thread, and the removals. -/
def recorded (workers : Nat) :
    History (machine workers) ((Flow × (Nat → Attention)) × Generations.Removals) :=
  ((tracing workers).both (watching workers)).both (Generations.removingHere workers)

/-- The server with these histories. -/
abbrev Watched := Shared × (Flow × (Nat → Attention)) × Generations.Removals

/-- The server with these histories and the line of one client. -/
abbrev Lined := Watched × Line

namespace Lined

abbrev server (s : Lined) : Server := s.1.1.server

abbrev flow (s : Lined) : Flow := s.1.2.1.1

/-- What the event loop attends to. -/
abbrev attention (s : Lined) : Attention := s.1.2.1.2 0

abbrev removed (s : Lined) : List Nat := s.1.2.2.removed

abbrev line (s : Lined) : Line := s.2

/-- The server with the messages on their way. -/
abbrev traced (s : Lined) : Traced := (s.1.1, s.1.2.1.1)

/-- The server with its removals. -/
abbrev dated (s : Lined) : Generations.Dated := (s.1.1, s.1.2.2)

end Lined

/-- The server, where session `n` is at the end of a line. -/
abbrev lined (workers : Nat) (parse : Bytes → Parsed) (n : Nat) :
    Machine serverInterface Exn Lined (World × List Nat) :=
  ((machine workers).recording (recorded workers)).within (peer parse n)

/-- The server as `main` starts it; a client has written `bytes` and closed its write side. -/
def linedBoot (db : Database) (bytes : Bytes) : Config serverInterface Exn Lined :=
  ⟨(((boot db).shared, ({}, fun _ => {}), {}), Line.of bytes), (boot db).thread⟩

/-- A worker has to check a task of session `n`: it is in the queue, or taken already. -/
def Awaited (workers n : Nat) (s : Lined) : Prop :=
  ∃ a ∈ s.server.tasks.map arrivalOf ++ inHand workers s.flow.hand, a.session.id = n

instance (workers n : Nat) (s : Lined) : Decidable (Awaited workers n s) :=
  inferInstanceAs (Decidable (∃ a ∈ _, _))

/-- Session `n` is removed only when no task of it has to be checked, and it is read only while its
buffer has room for what has arrived. -/
def Patient (workers n : Nat) (_ : Nat) : Act → Lined → Prop
  | .eraseSession fd, s => ∀ x ∈ s.server.sessions, x.fd = fd → x.id = n → ¬ Awaited workers n s
  | .recvMsgs session, s => session.id = n →
    (s.server.heap n).recvBuf.length + (batchBytes s.line.arrived).length < maxRecvBufSize
  | _, _ => True

/-- `Patient`, evaluated. -/
def isPatient (workers n : Nat) : Act → Lined → Bool
  | .eraseSession fd, s =>
    decide (∀ x ∈ s.server.sessions, x.fd = fd → x.id = n → ¬ Awaited workers n s)
  | .recvMsgs session, s => decide (session.id = n →
    (s.server.heap n).recvBuf.length + (batchBytes s.line.arrived).length < maxRecvBufSize)
  | _, _ => true

theorem isPatient_iff (workers n t : Nat) (action : Act) (s : Lined) :
    isPatient workers n action s = true ↔ Patient workers n t action s := by
  cases action with
  | eraseSession | recvMsgs => exact decide_eq_true_iff
  | _ => exact ⟨fun _ => trivial, fun _ => rfl⟩

instance (workers n t : Nat) (action : Act) (s : Lined) :
    Decidable (Patient workers n t action s) :=
  decidable_of_iff _ (isPatient_iff workers n t action s)

/-! ## What was received and what is to come -/

/-- The messages of session `n` among these. -/
def ofSession (n : Nat) (arrivals : List Arrival) : List Json :=
  (arrivals.filter fun a => a.session.id = n).map Arrival.msg

theorem ofSession_append (n : Nat) (arrivals more : List Arrival) :
    ofSession n (arrivals ++ more) = ofSession n arrivals ++ ofSession n more := by
  simp [ofSession]

/-- The decoder of session `n`, also before it is accepted. -/
def decoderAt (n : Nat) (s : Server) : UInt32 × Bytes :=
  if n < s.nextId then decoderOf (s.heap n) else (0, [])

/-- The invariant: what the event loop attends to is in the table; the messages of session `n` are
those received and those to come, and none is to come once it is given up or removed; no task of
it that has to be checked is stale, and none was dropped. -/
structure Kept (n : Nat) (parse : Bytes → Parsed) (msgs : List Json) (s : Lined) : Prop where
  attended : ∀ fd x, s.attention.found = some (fd, x) → s.server.findByFd fd = some x
  lawful : s.line.Lawful
  toCome : ∃ later, ofSession n s.flow.received ++ later = msgs ∧
    ToCome parse (decoderAt n s.server) s.line later
  givenUp : ∀ fd x, s.attention.found = some (fd, x) → s.attention.gaveUp = true → x.id = n →
    ofSession n s.flow.received = msgs
  removed : n ∈ s.removed → ofSession n s.flow.received = msgs
  queued : ∀ task ∈ s.server.tasks, task.session.id = n → n ∉ s.removed
  held : ∀ t task, (s.flow.hand t).task = some task →
    Generations.Exact task s.dated ∧ (task.session.id = n → n ∉ s.removed)
  fresh : ∀ a ∈ s.flow.stale, a.session.id ≠ n

/-- What is known of every state without the line. -/
structure Known (workers : Nat) (s : Lined) : Prop where
  balanced : Balanced workers s.traced
  sound : Generations.Sound s.dated

section
variable {workers n t : Nat} {parse : Bytes → Parsed} {msgs : List Json} {s : Lined} {action : Act}
  (input : World × List Nat)

/-- The outside of an action. -/
abbrev outside (parse : Bytes → Parsed) (n : Nat) (input : World × List Nat) (action : Act)
    (s : Lined) : World :=
  ((peer parse n).supply input action s.line).1

/-- The state after an action of thread `t`. -/
abbrev after (workers : Nat) (parse : Bytes → Parsed) (n t : Nat) (input : World × List Nat)
    (action : Act) (s : Lined) : Lined :=
  ((lined workers parse n).exec t input action s).2

/-- Only these change the table. -/
def OnTable : Act → Prop
  | .storeSession _ _ => True
  | .eraseSession _ => True
  | _ => False

/-- What the monitors see of a thread. -/
abbrev viewOf (s : Lined) (t : Nat) : (Bool × Hand) × Bool × Attention :=
  (MessageFlow.viewOf s.traced t, decide (t = 0), s.1.2.1.2 t)

theorem after_server : (after workers parse n t input action s).server =
    (action.exec (outside parse n input action s) s.server).2 := rfl

theorem after_line : (after workers parse n t input action s).line =
    ((peer parse n).supply input action s.line).2 := rfl

theorem after_traced : (after workers parse n t input action s).traced =
    MessageFlow.next workers t (outside parse n input action s) action s.traced := rfl

theorem after_dated : (after workers parse n t input action s).dated =
    Generations.next workers t (outside parse n input action s) action s.dated := rfl

theorem after_received : (after workers parse n t input action s).flow.received =
    Flow.receive s.flow.received action
      (action.exec (outside parse n input action s) s.server).1 := rfl

theorem after_attention : (after workers parse n t input action s).attention =
    if t = 0 then s.attention.follow action
      (action.exec (outside parse n input action s) s.server).1
    else s.attention := by
  change Function.update s.1.2.1.2 t ((s.1.2.1.2 t).follow action
    (action.exec (outside parse n input action s) s.server).1) 0 = _
  by_cases loop : t = 0
  · subst loop
    rw [if_pos rfl, Function.update_self]
  · rw [if_neg loop, Function.update_of_ne (Ne.symm loop)]

theorem sessions_kept (input : World × List Nat) (others : ¬ OnTable action) :
    (after workers parse n t input action s).server.sessions = s.server.sessions := by
  rw [after_server, exec_sessions]
  cases action with
  | storeSession | eraseSession => exact absurd trivial others
  | _ => rfl

theorem findByFd_kept {fd : Nat} (same : (after workers parse n t input action s).server.sessions =
    s.server.sessions) :
    (after workers parse n t input action s).server.findByFd fd = s.server.findByFd fd :=
  congrArg (List.find? _) same

theorem attended_step (kept : Kept n parse msgs s) (ok : attending.ok (viewOf s t).2 action)
    (fd : Nat) (x : SessionRef)
    (found : (after workers parse n t input action s).attention.found = some (fd, x)) :
    (after workers parse n t input action s).server.findByFd fd = some x := by
  have steady : ¬ OnTable action → s.attention.found = some (fd, x) →
      (after workers parse n t input action s).server.findByFd fd = some x := by
    intro others found
    rw [findByFd_kept input (sessions_kept input others)]
    exact kept.attended fd x found
  rw [after_attention] at found
  by_cases loop : t = 0
  · rw [if_pos loop] at found
    cases action with
    | storeSession => cases found
    | eraseSession => cases found
    | findByFd fd' =>
      obtain ⟨y, looked, same⟩ := Option.map_eq_some_iff.mp found
      cases same
      exact looked
    | _ => exact steady not_false found
  · rw [if_neg loop] at found
    cases action with
    | storeSession => exact absurd (of_decide_eq_true ok) loop
    | eraseSession => exact absurd (of_decide_eq_true ok.1) loop
    | _ => exact steady not_false found

theorem lawful_step (kept : Kept n parse msgs s) :
    (after workers parse n t input action s).line.Lawful := by
  rw [after_line]
  cases action with
  | recvMsgs session =>
    simp only [peer]
    split
    · have lawful : s.line.read.Lawful := kept.lawful
      exact Line.lawful_advance lawful _
    · exact Line.lawful_advance kept.lawful _
  | _ => exact Line.lawful_advance kept.lawful _

/-- A session that the event loop reads or enqueues for is in the table. -/
theorem member_of_found (kept : Kept n parse msgs s) {fd : Nat} {x : SessionRef}
    (found : s.attention.found = some (fd, x)) : x ∈ s.server.sessions :=
  List.mem_of_find?_eq_some (kept.attended fd x found)

theorem made_of_member (known : Known workers s) {x : SessionRef} (member : x ∈ s.server.sessions) :
    x.id < s.server.nextId :=
  known.balanced.numbered.bound x member

/-- What a `recv_msgs` of the session returns comes first among the messages to come. -/
theorem received_recvMsgs (known : Known workers s) (kept : Kept n parse msgs s)
    {session : SessionRef} (member : session ∈ s.server.sessions) (own : session.id = n)
    (patient : Patient workers n t (.recvMsgs session) s) :
    ∃ out rest, ofSession n s.flow.received ++ (out ++ rest) = msgs ∧
      ToCome parse (decoderAt n (after workers parse n t input (.recvMsgs session) s).server)
        (after workers parse n t input (.recvMsgs session) s).line rest ∧
      ofSession n (batch session (Act.exec (outside parse n input (.recvMsgs session) s)
        (.recvMsgs session) s.server).1) = out ∧
      (givesUp (Act.exec (outside parse n input (.recvMsgs session) s)
        (.recvMsgs session) s.server).1 = true → out ++ rest = []) := by
  obtain ⟨later, split, toCome⟩ := kept.toCome
  have made : n < s.server.nextId := own ▸ made_of_member known member
  rw [decoderAt, if_pos made] at toCome
  obtain ⟨out, rest, rfl, decodes, result⟩ := recvMsgs_line kept.lawful (patient own) toCome
  have world : outside parse n input (.recvMsgs session) s =
      { input.1 with parse := parse, recvs := s.line.results } := by
    simp only [outside, peer, if_pos own]
  have decoder : decoderAt n (after workers parse n t input (.recvMsgs session) s).server =
      decoderOf (recvMsgs parse (s.server.heap n) s.line.results).2 := by
    rw [decoderAt, after_server, exec_nextId, if_pos made, exec_decoder, world]
    simp only [own, if_true]
  have line : (after workers parse n t input (.recvMsgs session) s).line =
      s.line.read.advance input.2 := by
    rw [after_line]
    simp only [peer, if_pos own]
  have ran : (Act.exec (outside parse n input (.recvMsgs session) s)
      (.recvMsgs session) s.server).1 = (recvMsgs parse (s.server.heap n) s.line.results).1 := by
    rw [world]
    simp only [Act.exec, own]
  refine ⟨out, rest, split, ?_, ?_, ?_⟩
  · rw [decoder, line, ToCome, Line.unread_advance]
    exact decodes
  · rw [ran]
    rcases result with returned | ⟨gaveUp, empty⟩
    · rw [returned]
      simp [batch, ofSession, List.filter_map, Function.comp_def, own]
    · rw [gaveUp, (List.append_eq_nil_iff.mp empty).1]
      rfl
  · rw [ran]
    rcases result with returned | ⟨gaveUp, empty⟩
    · rw [returned]
      intro never
      cases never
    · exact fun _ => empty

/-- Nothing but reading session `n` changes what was received of it. -/
theorem received_kept (others : ∀ session, action = .recvMsgs session → session.id ≠ n) :
    ofSession n (after workers parse n t input action s).flow.received =
      ofSession n s.flow.received := by
  rw [after_received]
  cases action with
  | recvMsgs session =>
    have apart := others session rfl
    have nothing : ofSession n (batch session (Act.exec (outside parse n input
        (.recvMsgs session) s) (.recvMsgs session) s.server).1) = [] := by
      unfold ofSession batch
      split <;> simp [apart]
    simp only [Flow.receive]
    rw [ofSession_append, nothing, List.append_nil]
  | _ => rfl

theorem decoderAt_kept (others : ∀ session, action = .recvMsgs session → session.id ≠ n) :
    decoderAt n (after workers parse n t input action s).server = decoderAt n s.server := by
  unfold decoderAt
  rw [after_server, exec_nextId, exec_decoder]
  cases action with
  | recvMsgs session =>
    have apart := others session rfl
    simp only [Ne.symm apart, if_false]
  | storeSession fd ip =>
    dsimp only
    by_cases made : n < s.server.nextId
    · rw [if_pos (Nat.lt_succ_of_lt made), if_pos made, if_neg (Nat.ne_of_lt made)]
    · rw [if_neg made]
      split
      · rw [if_pos (by omega)]
      · rfl
  | _ => rfl

theorem unread_kept (others : ∀ session, action = .recvMsgs session → session.id ≠ n) :
    (after workers parse n t input action s).line.unread = s.line.unread := by
  rw [after_line]
  cases action with
  | recvMsgs session =>
    have apart := others session rfl
    simp only [peer, apart, if_false]
    exact Line.unread_advance _ input.2
  | _ => exact Line.unread_advance _ input.2

theorem toCome_step (known : Known workers s) (kept : Kept n parse msgs s)
    (ok : attending.ok (viewOf s t).2 action) (patient : Patient workers n t action s) :
    ∃ later, ofSession n (after workers parse n t input action s).flow.received ++ later = msgs ∧
      ToCome parse (decoderAt n (after workers parse n t input action s).server)
        (after workers parse n t input action s).line later := by
  by_cases reads : ∃ session, action = .recvMsgs session ∧ session.id = n
  · obtain ⟨session, rfl, own⟩ := reads
    obtain ⟨loop, fd, found⟩ := ok
    have first : t = 0 := of_decide_eq_true loop
    subst first
    obtain ⟨out, rest, split, decodes, read, _⟩ :=
      received_recvMsgs input known kept (member_of_found kept found) own patient
    refine ⟨rest, ?_, decodes⟩
    rw [after_received]
    simp only [Flow.receive]
    rw [ofSession_append, read, List.append_assoc]
    exact split
  · have others : ∀ session, action = .recvMsgs session → session.id ≠ n :=
      fun session reading own => reads ⟨session, reading, own⟩
    obtain ⟨later, split, toCome⟩ := kept.toCome
    refine ⟨later, ?_, ?_⟩
    · rw [received_kept input others]
      exact split
    · rw [decoderAt_kept input others, ToCome, unread_kept input others]
      exact toCome

/-- What was received stays received. -/
theorem received_grows : ∃ more, ofSession n (after workers parse n t input action s).flow.received =
    ofSession n s.flow.received ++ more := by
  rw [after_received]
  cases action with
  | recvMsgs session => exact ⟨_, ofSession_append n _ _⟩
  | _ => exact ⟨[], (List.append_nil _).symm⟩

/-- Nothing more comes after the last message. -/
theorem complete_step (known : Known workers s) (kept : Kept n parse msgs s)
    (ok : attending.ok (viewOf s t).2 action) (patient : Patient workers n t action s)
    (complete : ofSession n s.flow.received = msgs) :
    ofSession n (after workers parse n t input action s).flow.received = msgs := by
  obtain ⟨more, grown⟩ := @received_grows workers n t parse s action input
  obtain ⟨later, split, _⟩ := toCome_step input known kept ok patient
  rw [grown, complete, List.append_assoc] at split
  have nothing := List.append_cancel_left (split.trans (List.append_nil msgs).symm)
  rw [grown, (List.append_eq_nil_iff.mp nothing).1, List.append_nil, complete]

theorem after_removed : (after workers parse n t input action s).removed =
    match action with
    | .eraseSession fd => ((s.server.findByFd fd).map SessionRef.id).toList ++ s.removed
    | _ => s.removed :=
  @Generations.next_removed workers t s.dated action (outside parse n input action s)

/-- A session is removed by `remove_client` only. -/
theorem removed_cases (member : n ∈ (after workers parse n t input action s).removed) :
    n ∈ s.removed ∨
      ∃ fd x, action = .eraseSession fd ∧ s.server.findByFd fd = some x ∧ x.id = n := by
  rw [after_removed] at member
  cases action with
  | eraseSession fd =>
    rcases List.mem_append.mp member with new | old
    · obtain ⟨x, found, own⟩ := Option.map_eq_some_iff.mp (Option.mem_toList.mp new)
      exact Or.inr ⟨fd, x, rfl, found, own⟩
    · exact Or.inl old
  | _ => exact Or.inl member

theorem removed_step (known : Known workers s) (kept : Kept n parse msgs s)
    (ok : attending.ok (viewOf s t).2 action) (patient : Patient workers n t action s)
    (member : n ∈ (after workers parse n t input action s).removed) :
    ofSession n (after workers parse n t input action s).flow.received = msgs := by
  apply complete_step input known kept ok patient
  rcases removed_cases input member with old | ⟨fd, x, rfl, found, own⟩
  · exact kept.removed old
  · obtain ⟨loop, gaveUp, y, attended⟩ := ok
    have first : t = 0 := of_decide_eq_true loop
    subst first
    have same := (kept.attended fd y attended).symm.trans found
    cases same
    exact kept.givenUp fd x attended gaveUp own

/-- Once the loop has given a session up, nothing of it is to come. -/
theorem givenUp_step (known : Known workers s) (kept : Kept n parse msgs s)
    (ok : attending.ok (viewOf s t).2 action) (patient : Patient workers n t action s)
    (fd : Nat) (x : SessionRef)
    (found : (after workers parse n t input action s).attention.found = some (fd, x))
    (gaveUp : (after workers parse n t input action s).attention.gaveUp = true) (own : x.id = n) :
    ofSession n (after workers parse n t input action s).flow.received = msgs := by
  rw [after_attention] at found gaveUp
  by_cases loop : t = 0
  · subst loop
    rw [if_pos rfl] at found gaveUp
    cases action with
    | storeSession => cases found
    | eraseSession => cases found
    | findByFd => cases gaveUp
    | recvMsgs session =>
      obtain ⟨_, fd', attended⟩ := ok
      have same := attended.symm.trans found
      cases same
      obtain ⟨out, rest, split, _, read, last⟩ :=
        received_recvMsgs input known kept (member_of_found kept attended) own patient
      rw [after_received]
      simp only [Flow.receive]
      rw [ofSession_append, read, (List.append_eq_nil_iff.mp (last gaveUp)).1]
      rw [last gaveUp] at split
      exact split
    | _ => exact complete_step input known kept ok patient (kept.givenUp fd x found gaveUp own)
  · rw [if_neg loop] at found gaveUp
    exact complete_step input known kept ok patient (kept.givenUp fd x found gaveUp own)

/-- What has to be checked still has its session: this is not removed before. -/
theorem unremoved_step (patient : Patient workers n t action s) (present : n ∉ s.removed)
    (awaited : Awaited workers n s) : n ∉ (after workers parse n t input action s).removed := by
  intro member
  rcases removed_cases input member with old | ⟨fd, x, rfl, found, own⟩
  · exact present old
  · have under : x.fd = fd := by simpa using List.find?_some found
    exact patient x (List.mem_of_find?_eq_some found) under own awaited

theorem queued_step (known : Known workers s) (kept : Kept n parse msgs s)
    (ok : attending.ok (viewOf s t).2 action) (patient : Patient workers n t action s) :
    ∀ task ∈ (after workers parse n t input action s).server.tasks, task.session.id = n →
      n ∉ (after workers parse n t input action s).removed := by
  intro task member own
  have older : task ∈ s.server.tasks → n ∉ (after workers parse n t input action s).removed := by
    intro old
    refine unremoved_step input patient (kept.queued task old own) ⟨arrivalOf task, ?_, own⟩
    exact List.mem_append_left _ (List.mem_map_of_mem old)
  rw [after_server, exec_tasks] at member
  cases action with
  | enqueue new =>
    dsimp only at member
    split at member
    · exact older member
    · rcases List.mem_append.mp member with old | last
      · exact older old
      · rw [List.mem_singleton.mp last] at own
        obtain ⟨loop, fd, found⟩ := ok
        have first : t = 0 := of_decide_eq_true loop
        subst first
        rw [after_removed, ← own]
        exact known.sound.table _ (member_of_found kept found)
  | _ => exact older member

theorem held_step (known : Known workers s) (kept : Kept n parse msgs s)
    (patient : Patient workers n t action s) (u : Nat) (task : Task)
    (own : ((after workers parse n t input action s).flow.hand u).task = some task) :
    Generations.Exact task (after workers parse n t input action s).dated ∧
      (task.session.id = n → n ∉ (after workers parse n t input action s).removed) := by
  have before : (s.flow.hand u).task = some task :=
    @MessageFlow.task_before workers t s.traced action (outside parse n input action s) u task own
  obtain ⟨exact', present⟩ := kept.held u task before
  have stays := @Generations.Exact.step workers t s.dated action (outside parse n input action s)
    task exact'
  refine ⟨stays, fun same => ?_⟩
  refine unremoved_step input patient (present same) ⟨arrivalOf task, ?_, same⟩
  apply List.mem_append_right
  have inPool := known.balanced.pool u task before
  refine List.mem_filterMap.mpr ⟨u, List.mem_range.mpr (Nat.lt_succ_of_le inPool), ?_⟩
  exact congrArg (Option.map arrivalOf) before

/-- The check of a task of the session passes. -/
theorem fresh_step (kept : Kept n parse msgs s) (ok : carrying.ok (viewOf s t).1 action) :
    ∀ a ∈ (after workers parse n t input action s).flow.stale, a.session.id ≠ n := by
  intro a member
  have stale : (after workers parse n t input action s).flow.stale =
      Flow.check false s.flow.stale action
        (action.exec (outside parse n input action s) s.server).1 := rfl
  rw [stale] at member
  cases action with
  | checkGeneration task =>
    obtain ⟨exact', present⟩ := kept.held t task ok.2
    have result : (Act.exec (outside parse n input (.checkGeneration task) s)
        (.checkGeneration task) s.server).1 =
      decide ((s.server.heap task.session.id).generation = task.genAtDispatch) := rfl
    rw [result] at member
    simp only [Flow.check] at member
    split at member
    next fails =>
      rcases List.mem_cons.mp member with new | old
      · intro own
        rw [new] at own
        refine of_decide_eq_false fails (exact'.current.mpr ?_)
        rw [show task.session.id = n from own]
        exact present own
      · exact kept.fresh a old
    · exact kept.fresh a member
  | _ => exact kept.fresh a member

/-- Part by part. -/
theorem kept_step (known : Known workers s) (kept : Kept n parse msgs s)
    (ok : (carrying.both attending).ok (viewOf s t) action)
    (patient : Patient workers n t action s) :
    Kept n parse msgs (after workers parse n t input action s) where
  attended := attended_step input kept ok.2
  lawful := lawful_step input kept
  toCome := toCome_step input known kept ok.2 patient
  givenUp := givenUp_step input known kept ok.2 patient
  removed := removed_step input known kept ok.2 patient
  queued := queued_step input known kept ok.2 patient
  held := held_step input known kept patient
  fresh := fresh_step input kept ok.1

end

end LinuxChat.Guarantees.HalfClose
