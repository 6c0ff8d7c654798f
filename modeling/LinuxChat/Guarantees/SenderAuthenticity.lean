import LinuxChat.Guarantees.Outline
import LinuxChat.Guarantees.Playback

/-!
# Who a message says it is from

The gate of `route` and the read of the sender's name in `handle_broadcast` and
`handle_private` (server/src/message_router.cpp:237-272, 443-520) are two steps, and
the messages of one connection are handled by several workers. In every run in which
no connection gets or loses its name between the two, every stored row and every
chat frame bears the name that its connection had at the gate.
-/

namespace LinuxChat.Guarantees.SenderAuthenticity

open LinuxChat.Lib LinuxChat.Source Prog

/-- Thread `t` has let a BROADCAST or PRIVATE of this session object through the gate
and has not read the sender's name yet. -/
def Speaking (t id : Nat) (s : Shared) : Prop :=
  ∃ task name, s.aux.job t = some (.task task) ∧ task.session.id = id ∧
    isChatType task.msg.typeOf = true ∧ s.aux.admitted t = some name ∧ s.aux.senderRead t = false

/-- No session gets or loses its name while another thread is speaking for it. -/
def NameStands (t : Nat) : Act → Shared → Prop
  | .setUsername session _, s => ∀ other, other ≠ t → ¬ Speaking other session.id s
  | .clearUsername session, s => ∀ other, other ≠ t → ¬ Speaking other session.id s
  | _, _ => True

/-- The sender is the name its connection was admitted under. -/
def Emission.Authentic (e : Emission) : Prop :=
  ∃ name, e.admittedAs = some name ∧ name ≠ "" ∧ e.sender = name

/-- The invariant: everything emitted so far is authentic. -/
structure Truthful (s : Shared) : Prop where
  allocated : Allocated (coreOf s)
  authentic : ∀ e ∈ s.aux.emitted, Emission.Authentic e

/-- What a thread relies on: its history, and the name while it is speaking. -/
structure Undisturbed (t : Nat) (s s' : Shared) : Prop where
  job : s'.aux.job t = s.aux.job t
  admitted : s'.aux.admitted t = s.aux.admitted t
  senderRead : s'.aux.senderRead t = s.aux.senderRead t
  nextId : s.server.nextId ≤ s'.server.nextId
  name : ∀ id, Speaking t id s → (s'.server.heap id).username = (s.server.heap id).username

theorem Speaking.kept {t id : Nat} {s s' : Shared} (undisturbed : Undisturbed t s s')
    (speaking : Speaking t id s) : Speaking t id s' := by
  obtain ⟨task, name, busy, own, chat, admitted, unread⟩ := speaking
  exact ⟨task, name, undisturbed.job.trans busy, own, chat, undisturbed.admitted.trans admitted,
    undisturbed.senderRead.trans unread⟩

/-- The discipline: a thread relies on the others to leave alone the name of the session it
handles. -/
def authenticity (workers : Nat) : Discipline (machine workers) where
  inv := Truthful
  allowed := NameStands
  rely := Undisturbed
  rely_refl _ _ := ⟨rfl, rfl, rfl, Nat.le_refl _, fun _ _ => rfl⟩
  rely_trans _ _ _ _ h h' :=
    ⟨h'.job.trans h.job, h'.admitted.trans h.admitted, h'.senderRead.trans h.senderRead,
      Nat.le_trans h.nextId h'.nextId,
      fun id speaking => (h'.name id (speaking.kept h)).trans (h.name id speaking)⟩

variable {workers t : Nat} {s : Shared}

/-! ## One action -/

theorem record_emitted (aux : Aux) (t : Nat) (s : Server) (action : Act) (result : action.Res) :
    (aux.record t s action result).emitted =
      match action with
      | .storeMessage sender _ _ _ => aux.emitted ++ [⟨sender, aux.admitted t⟩]
      | .sendMsg _ _ msg =>
        if isChatType msg.typeOf then aux.emitted ++ [⟨msg.senderOf, aux.admitted t⟩]
        else aux.emitted
      | _ => aux.emitted := by
  cases action with
  | checkGeneration task => simp only [Aux.record, Aux.beginTask]; split <;> rfl
  | eraseSession fd => cases result <;> rfl
  | isAuthenticated session => simp only [Aux.record, Aux.passGate]; (repeat' split) <;> rfl
  | reserveForRegister => simp only [Aux.record, Aux.reserve]; split <;> rfl
  | reserveForLogin => simp only [Aux.record, Aux.reserve]; split <;> rfl
  | sendMsg session locked msg => simp only [Aux.record]; split <;> rfl
  | _ => rfl

/-- The other threads' history stays. -/
theorem record_other (aux : Aux) (s : Server) (action : Act) (result : action.Res) {other : Nat}
    (differs : other ≠ t) :
    (aux.record t s action result).admitted other = aux.admitted other ∧
      (aux.record t s action result).senderRead other = aux.senderRead other := by
  cases action with
  | checkGeneration task =>
    simp only [Aux.record, Aux.beginTask]
    split
    · exact ⟨Function.update_of_ne differs _ _, Function.update_of_ne differs _ _⟩
    · exact ⟨rfl, rfl⟩
  | eraseSession fd => cases result <;> exact ⟨rfl, rfl⟩
  | dropSession session => exact ⟨Function.update_of_ne differs _ _, rfl⟩
  | isAuthenticated session =>
    simp only [Aux.record, Aux.passGate]
    split
    · split
      · exact ⟨Function.update_of_ne differs _ _, rfl⟩
      · exact ⟨rfl, rfl⟩
    · exact ⟨rfl, rfl⟩
  | getUsername session => exact ⟨rfl, Function.update_of_ne differs _ _⟩
  | reserveForRegister => simp only [Aux.record, Aux.reserve]; split <;> exact ⟨rfl, rfl⟩
  | reserveForLogin => simp only [Aux.record, Aux.reserve]; split <;> exact ⟨rfl, rfl⟩
  | sendMsg session locked msg => simp only [Aux.record]; split <;> exact ⟨rfl, rfl⟩
  | _ => exact ⟨rfl, rfl⟩

/-- The thread is handling a message that was let through under this name. -/
def Vouched (t : Nat) (name : String) (s : Shared) : Prop :=
  s.aux.admitted t = some name ∧ name ≠ ""

/-- Rows and chat frames come from a thread that vouches for the sender. -/
def Signed (t : Nat) (s : Shared) : Act → Prop
  | .storeMessage sender _ _ _ => Vouched t sender s
  | .sendMsg _ _ msg => isChatType msg.typeOf = true → Vouched t msg.senderOf s
  | _ => True

theorem authentic_step {action : Act} (w : World) (inv : Truthful s) (signed : Signed t s action) :
    ∀ e ∈ (execShared t w action s).2.aux.emitted, Emission.Authentic e := by
  have emitted := record_emitted s.aux t s.server action (action.exec w s.server).1
  intro e member
  change e ∈ (s.aux.record t s.server action (action.exec w s.server).1).emitted at member
  rw [emitted] at member
  have added : ∀ sender, Vouched t sender s → e ∈ s.aux.emitted ++ [⟨sender, s.aux.admitted t⟩] →
      Emission.Authentic e := by
    intro sender vouched among
    rcases List.mem_append.mp among with old | new
    · exact inv.authentic e old
    · rw [List.mem_singleton.mp new]
      exact ⟨sender, vouched.1, vouched.2, rfl⟩
  cases action with
  | storeMessage sender toUser content timestamp => exact added sender signed member
  | sendMsg target locked msg =>
    dsimp only at member
    split at member
    next chat => exact added msg.senderOf (signed chat) member
    · exact inv.authentic e member
  | _ => exact inv.authentic e member

theorem nextId_grows (w : World) (action : Act) :
    s.server.nextId ≤ (execShared t w action s).2.server.nextId := by
  have core := congrArg Core.nextId (coreOf_exec t w action s)
  have grows := Core.nextId_le (coreOf s) t w.dbOk action
  rw [← core] at grows
  exact grows

theorem undisturbed_step {action : Act} (w : World) (inv : Truthful s)
    (allowed : NameStands t action s) {other : Nat} (differs : other ≠ t) :
    Undisturbed other s (execShared t w action s).2 where
  job := by
    have core := congrArg Core.job (coreOf_exec t w action s)
    have same : ((coreOf s).step t w.dbOk action).job other = s.aux.job other := job_other differs
    rw [← core] at same
    exact same
  admitted := (record_other s.aux s.server action _ differs).1
  senderRead := (record_other s.aux s.server action _ differs).2
  nextId := nextId_grows w action
  name id speaking := by
    have username := exec_username w action s.server id
    refine Eq.trans username ?_
    cases action with
    | setUsername session name =>
      refine if_neg fun same => allowed other differs ?_
      exact same ▸ speaking
    | clearUsername session =>
      refine if_neg fun same => allowed other differs ?_
      exact same ▸ speaking
    | storeSession fd ip =>
      obtain ⟨task, _, busy, own, _⟩ := speaking
      have old : task.session.id < s.server.nextId := inv.allocated.jobs other _ busy
      rw [own] at old
      exact if_neg (Nat.ne_of_lt old)
    | _ => rfl

theorem keeps_of_signed {action : Act} (w : World) (inv : Truthful s)
    (allowed : NameStands t action s) (placed : Placed (coreOf s) action)
    (signed : Signed t s action) :
    (authenticity workers).Keeps t s (execShared t w action s).2 := by
  refine ⟨⟨?_, authentic_step w inv signed⟩, fun other => undisturbed_step w inv allowed⟩
  rw [coreOf_exec]
  exact inv.allocated.step t w.dbOk placed

/-! ## Programs that say nothing -/

/-- No row, no chat frame, and no task. -/
def Silent : Act → Prop
  | .storeMessage _ _ _ _ => False
  | .enqueue _ => False
  | .checkGeneration _ => False
  | .sendMsg _ _ msg => isChatType msg.typeOf = false
  | _ => True

theorem Silent.placed {action : Act} (silent : Silent action) (c : Core) : Placed c action := by
  cases action with
  | enqueue | checkGeneration => cases silent
  | _ => trivial

theorem Silent.signed {action : Act} (silent : Silent action) : Signed t s action := by
  cases action with
  | storeMessage => cases silent
  | sendMsg target locked msg =>
    intro chat
    rw [show isChatType msg.typeOf = false from silent] at chat
    cases chat
  | _ => trivial

theorem wp_silent {α : Type} {p : Proc α} (h : p.Forall Silent) (s : Shared) :
    (authenticity workers).wp t (fun _ _ => True) (fun _ _ => True) p s :=
  Discipline.wp_of_forall (fun _ _ _ _ => trivial)
    (fun _ silent _ _ inv allowed w =>
      ⟨keeps_of_signed w inv allowed (silent.placed _) silent.signed, trivial⟩)
    (fun _ _ _ => trivial) (fun _ _ _ => trivial) h trivial

theorem silent_announcing : Announcing Silent where
  clock := trivial
  list := trivial
  scan _ := trivial
  find _ := trivial
  users _ _ _ := rfl
  notify _ _ _ := rfl

theorem silent_leaving : Leaving Silent where
  toAnnouncing := silent_announcing
  gate _ := trivial
  name _ := trivial
  offline _ := trivial
  unname _ := trivial
  erase _ := trivial
  registered := trivial
  pending _ := trivial
  cleanup _ := trivial
  unpend _ := trivial
  drop _ := trivial

theorem silent_entering : Entering Silent where
  toAnnouncing := silent_announcing
  limit _ := trivial
  count _ := trivial
  uncount _ := trivial
  reserveNew _ := trivial
  reserveOld _ := trivial
  release _ := trivial
  pend _ _ := trivial
  unpend _ := trivial
  row _ _ := trivial
  record _ := trivial
  draw := trivial
  hash _ := trivial
  give _ _ := trivial
  online _ := trivial
  read _ _ _ := trivial
  answer _ _ := rfl
  history _ _ _ := rfl
  error _ _ _ := rfl

/-! ## The chat handlers -/

/-- The task passed its generation check. -/
structure Checked (task : Task) (t : Nat) (s : Shared) : Prop where
  job : s.aux.job t = some (.task task)
  admitted : s.aux.admitted t = none
  senderRead : s.aux.senderRead t = false

/-- The task passed the gate, and its sender has not been read yet. -/
structure Cleared (task : Task) (name : String) (t : Nat) (s : Shared) : Prop where
  job : s.aux.job t = some (.task task)
  vouched : Vouched t name s
  senderRead : s.aux.senderRead t = false
  current : s.server.name task.session = name

theorem stable_checked (task : Task) : (authenticity workers).Stable t (Checked task t) :=
  fun _ _ undisturbed h => ⟨undisturbed.job.trans h.job, undisturbed.admitted.trans h.admitted,
    undisturbed.senderRead.trans h.senderRead⟩

theorem stable_vouched (name : String) : (authenticity workers).Stable t (Vouched t name) :=
  fun _ _ undisturbed h => ⟨undisturbed.admitted.trans h.1, h.2⟩

/-- While the thread is speaking, the name of its session stands. -/
theorem stable_cleared {task : Task} (chat : isChatType task.msg.typeOf = true) (name : String) :
    (authenticity workers).Stable t (Cleared task name t) := by
  intro s s' undisturbed h
  have speaking : Speaking t task.session.id s :=
    ⟨task, name, h.job, rfl, chat, h.vouched.1, h.senderRead⟩
  exact ⟨undisturbed.job.trans h.job, ⟨undisturbed.admitted.trans h.vouched.1, h.vouched.2⟩,
    undisturbed.senderRead.trans h.senderRead, (undisturbed.name _ speaking).trans h.current⟩

/-- What follows the read of the sender's name. -/
def Voices (name : String) : Act → Prop
  | .storeMessage sender _ _ _ => sender = name
  | .sendMsg _ _ msg => isChatType msg.typeOf = true → msg.senderOf = name
  | .broadcastTargets _ => True
  | .findByFd _ => True
  | _ => False

theorem wp_voices {α : Type} {name : String} {p : Proc α} (h : p.Forall (Voices name))
    (vouched : Vouched t name s) :
    (authenticity workers).wp t (fun _ _ => True) (fun _ _ => True) p s := by
  refine Discipline.wp_of_forall (stable_vouched name) (fun action voices s₁ h₁ inv allowed w => ?_)
    (fun _ _ _ => trivial) (fun _ _ _ => trivial) h vouched
  have signed : Signed t s₁ action := by
    cases action with
    | storeMessage sender => exact (show sender = name from voices) ▸ h₁
    | sendMsg target locked msg => exact fun chat => (voices chat) ▸ h₁
    | _ => trivial
  have placed : Placed (coreOf s₁) action := by
    cases action with
    | enqueue | checkGeneration => cases voices
    | _ => trivial
  refine ⟨keeps_of_signed w inv allowed placed signed, ?_, h₁.2⟩
  refine Eq.trans ?_ h₁.1
  cases action with
  | storeMessage | broadcastTargets | findByFd => rfl
  | sendMsg target locked msg =>
    change (if isChatType msg.typeOf then s₁.aux.emit t msg.senderOf else s₁.aux).admitted t = _
    split <;> rfl
  | _ => cases voices

/-- Weakest preconditions that promise nothing but the discipline. -/
abbrev Safe (workers t : Nat) {α : Type} (p : Proc α) (s : Shared) : Prop :=
  (authenticity workers).wp t (fun _ _ => True) (fun _ _ => True) p s

/-- The sender's name is read while it stands. -/
theorem safe_speak {task : Task} {name : String} {next : Int → String → Proc Unit}
    (chat : isChatType task.msg.typeOf = true) (cleared : Cleared task name t s)
    (voices : ∀ timestamp, (next timestamp name).Forall (Voices name)) :
    Safe workers t (.act .nowTimestamp fun timestamp => .act (.getUsername task.session) fun sender =>
      next timestamp sender) s := by
  refine Discipline.wp_act (stable_cleared chat name) cleared fun s₁ h₁ inv₁ allowed₁ w₁ => ?_
  refine ⟨keeps_of_signed w₁ inv₁ allowed₁ trivial trivial, ?_⟩
  refine Discipline.wp_act (stable_cleared chat name) h₁ fun s₂ h₂ inv₂ allowed₂ w₂ => ?_
  refine ⟨keeps_of_signed w₂ inv₂ allowed₂ trivial trivial, ?_⟩
  have own : ((machine workers).exec t w₂ (.getUsername task.session) s₂).1 = name := h₂.current
  rw [own]
  exact wp_voices (voices _) h₂.vouched

theorem safe_sendError (session : SessionRef) (code content : String) (s : Shared) :
    Safe workers t (sendError session code content) s :=
  wp_silent (forall_sendError rfl) s

theorem safe_handleBroadcast {task : Task} {name : String}
    (chat : isChatType task.msg.typeOf = true) (cleared : Cleared task name t s) :
    Safe workers t (handleBroadcast task.session task.msg) s := by
  rw [handleBroadcast_eq]
  refine wp_valueOf (fun _ => trivial) fun content _ => ?_
  split
  · exact safe_sendError _ _ _ s
  · split
    · exact safe_sendError _ _ _ s
    · exact safe_speak chat cleared fun timestamp =>
        ⟨rfl, fun _ => forall_broadcast trivial fun _ _ => rfl⟩

theorem safe_handlePrivate {task : Task} {name : String}
    (chat : isChatType task.msg.typeOf = true) (cleared : Cleared task name t s) :
    Safe workers t (handlePrivate task.session task.msg) s := by
  have sends : ∀ fd toUser content timestamp,
      (sendToFd fd (privateFrame name toUser content timestamp)).Forall (Voices name) :=
    fun fd _ _ _ => forall_sendToFd trivial fun _ _ => rfl
  rw [handlePrivate_eq]
  refine wp_valueOf (fun _ => trivial) fun toUser _ => ?_
  refine wp_valueOf (fun _ => trivial) fun content _ => ?_
  split
  · exact safe_sendError _ _ _ s
  · refine Discipline.wp_act (stable_cleared chat name) cleared fun s₁ h₁ inv₁ allowed₁ w₁ => ?_
    refine ⟨keeps_of_signed w₁ inv₁ allowed₁ trivial trivial, ?_⟩
    have cleared₁ : Cleared task name t
        ((machine workers).exec t w₁ (.findSession toUser) s₁).2 := h₁
    generalize ((machine workers).exec t w₁ (.findSession toUser) s₁).2 = s₂ at cleared₁ ⊢
    cases ((machine workers).exec t w₁ (.findSession toUser) s₁).1 with
    | none => exact safe_sendError _ _ _ s₂
    | some target =>
      dsimp only
      rw [deliverPrivate_eq]
      exact safe_speak chat cleared₁ fun timestamp =>
        ⟨rfl, fun _ => (sends _ _ _ _).bind fun _ => (sends _ _ _ _).bind fun _ => trivial⟩

/-! ## The threads -/

theorem silent_handleHistoryReq (session : SessionRef) (msg : Json) :
    (handleHistoryReq session msg).Forall Silent := by
  rw [handleHistoryReq_eq]
  exact (forall_valueOf msg _ _).bind fun _ => ⟨trivial, fun _ => ⟨trivial, fun _ =>
    (forall_sendToFd trivial fun _ => rfl).bind fun _ => trivial⟩⟩

theorem safe_routeAuthenticated {task : Task} {name : String} (cleared : Cleared task name t s) :
    Safe workers t (routeAuthenticated task.session task.msg task.msg.typeOf) s := by
  unfold routeAuthenticated
  split
  · trivial
  · split
    next broadcasts =>
      have chat : isChatType task.msg.typeOf = true := by
        rw [broadcasts]
        rfl
      exact safe_handleBroadcast chat cleared
    · split
      next private_ =>
        have chat : isChatType task.msg.typeOf = true := by
          rw [private_]
          rfl
        exact safe_handlePrivate chat cleared
      · split
        · exact wp_silent (silent_handleHistoryReq _ _) s
        · split
          · exact wp_silent (forall_handleLogout silent_leaving.toClosing _) s
          · exact safe_sendError _ _ _ s

/-- The gate admits the task under the name its session has now. -/
theorem cleared_of_gate {task : Task} {w : World} (checked : Checked task t s)
    (open_ : (execShared t w (.isAuthenticated task.session) s).1 = true) :
    Cleared task (s.server.name task.session) t
      (execShared t w (.isAuthenticated task.session) s).2 := by
  have admits : (execShared t w (.isAuthenticated task.session) s).2.aux =
      { s.aux with
        admitted := Function.update s.aux.admitted t (some (s.server.name task.session)) } := by
    change s.aux.passGate t (s.server.name task.session)
      (s.server.heap task.session.id).isAuthenticated = _
    rw [show (s.server.heap task.session.id).isAuthenticated = true from open_]
    unfold Aux.passGate
    rw [checked.job, checked.admitted]
    rfl
  refine ⟨?_, ⟨?_, (isAuthenticated_iff _).mp open_⟩, ?_, rfl⟩
  · rw [admits]
    exact checked.job
  · rw [admits]
    exact Function.update_self _ _ _
  · rw [admits]
    exact checked.senderRead

theorem safe_route {task : Task} (checked : Checked task t s) :
    Safe workers t (route task.session task.msg) s := by
  rw [route_eq]
  refine wp_valueOf (fun _ => trivial) fun type read => ?_
  have own : type = task.msg.typeOf := by
    rw [Json.typeOf, read]
  subst own
  refine Discipline.wp_act (stable_checked task) checked fun s₁ h₁ inv₁ allowed₁ w₁ => ?_
  refine ⟨keeps_of_signed w₁ inv₁ allowed₁ trivial trivial, ?_⟩
  dsimp only
  split
  next open_ => exact safe_routeAuthenticated (cleared_of_gate h₁ open_)
  next => exact wp_silent (silent_entering.forall_routeUnauthenticated _ _ _) _

theorem stable_made (id : Nat) :
    (authenticity workers).Stable t fun s => id < s.server.nextId :=
  fun _ _ undisturbed h => Nat.lt_of_lt_of_le h undisturbed.nextId

theorem safe_runTask {task : Task} (made : task.session.id < s.server.nextId) :
    Safe workers t (runTask task) s := by
  have drop : (.act (.dropSession task.session) .ret : Proc Unit).Forall Silent :=
    ⟨trivial, fun _ => trivial⟩
  rw [runTask_eq]
  refine Discipline.wp_act (stable_made task.session.id) made fun s₁ h₁ inv₁ allowed₁ w₁ => ?_
  refine ⟨keeps_of_signed w₁ inv₁ allowed₁ h₁ trivial, ?_⟩
  dsimp only
  split
  next current =>
    have begun : (execShared t w₁ (.checkGeneration task) s₁).2.aux = s₁.aux.beginTask t task true := by
      rw [← current]
      rfl
    have checked : Checked task t (execShared t w₁ (.checkGeneration task) s₁).2 := by
      refine ⟨?_, ?_, ?_⟩ <;> rw [begun] <;> exact Function.update_self _ _ _
    have caught : Safe workers t ((route task.session task.msg).tryCatch fun _ => .ret ())
        (execShared t w₁ (.checkGeneration task) s₁).2 :=
      (Discipline.wp_tryCatch _ _ _).mpr (safe_route checked)
    exact Discipline.wp_seq caught (fun _ s₂ _ => wp_silent drop s₂) fun _ _ _ => trivial
  next => exact wp_silent drop _

/-- What a dispatch of this session does. -/
def Dispatching (session : SessionRef) : Act → Prop
  | .enqueue task => task.session = session
  | action => Silent action

theorem safe_dispatch {session : SessionRef} (made : session.id < s.server.nextId)
    (msgs : List Json) : Safe workers t (dispatch session msgs) s := by
  have footprint : (dispatch session msgs).Forall (Dispatching session) :=
    forall_dispatch trivial trivial trivial (fun _ _ => rfl) msgs
  refine Discipline.wp_of_forall (stable_made session.id) (fun action dispatches s₁ h₁ inv allowed w => ?_)
    (fun _ _ _ => trivial) (fun _ _ _ => trivial) footprint made
  refine ⟨?_, Nat.lt_of_lt_of_le h₁ (nextId_grows w action)⟩
  have silent : Silent action → (authenticity workers).Keeps t s₁ (execShared t w action s₁).2 :=
    fun silent => keeps_of_signed w inv allowed (silent.placed _) silent.signed
  cases action with
  | enqueue task =>
    have own : task.session = session := dispatches
    exact keeps_of_signed w inv allowed (show task.session.id < s₁.server.nextId from own ▸ h₁) trivial
  | _ => exact silent dispatches

theorem safe_handleClientEvent (fd : Nat) (s : Shared) :
    Safe workers t (handleClientEvent fd) s := by
  rw [handleClientEvent_eq]
  refine Discipline.wp_act (P := fun _ => True) (fun _ _ _ _ => trivial) trivial
    fun s₁ _ inv₁ allowed₁ w₁ => ?_
  refine ⟨keeps_of_signed w₁ inv₁ allowed₁ trivial trivial, ?_⟩
  have found : ((machine workers).exec t w₁ (.findByFd fd) s₁).1 = s₁.server.findByFd fd := rfl
  rw [found]
  cases scan : s₁.server.findByFd fd with
  | none => trivial
  | some session =>
    have made : session.id < s₁.server.nextId :=
      inv₁.allocated.table session (List.mem_of_find?_eq_some scan)
    refine Discipline.wp_act (stable_made session.id) made fun s₂ h₂ inv₂ allowed₂ w₂ => ?_
    refine ⟨keeps_of_signed w₂ inv₂ allowed₂ trivial trivial, ?_⟩
    cases ((machine workers).exec t w₂ (.recvMsgs session) s₂).1 with
    | error e => trivial
    | ok msgs =>
      cases msgs with
      | none => exact wp_silent (forall_removeClient silent_leaving fd) _
      | some msgs => exact safe_dispatch (Nat.lt_of_lt_of_le h₂ (nextId_grows w₂ _)) msgs

theorem safe_event (e : Event) (s : Shared) : Safe workers t e.program s := by
  cases e with
  | newConnection fd ip =>
    have footprint : (handleNewConnection fd ip).Forall Silent := ⟨trivial, fun _ => trivial⟩
    exact wp_silent footprint s
  | client fd => exact safe_handleClientEvent fd s
  | heartbeat =>
    have footprint : heartbeat.Forall Silent := forall_broadcast trivial fun _ => rfl
    exact wp_silent footprint s

/-- All programs keep to the discipline. -/
theorem authenticity_verified (workers : Nat) :
    (authenticity workers).Verified fun _ _ => True where
  stable _ _ _ _ _ := trivial
  spawn t p s s' inv _ start := by
    cases start with
    | event e _ possible =>
      refine ⟨⟨inv, fun other _ => (authenticity workers).rely_refl other s⟩, ?_⟩
      exact safe_event e s
    | @task _ _ task rest worker inPool queued =>
      have made : task.session.id < s.server.nextId := by
        refine inv.allocated.queue task ?_
        change task ∈ s.server.tasks
        rw [queued]
        exact List.mem_cons_self
      have remaining : ∀ other ∈ rest, other.session.id < s.server.nextId := by
        intro other member
        refine inv.allocated.queue other ?_
        change other ∈ s.server.tasks
        rw [queued]
        exact List.mem_cons_of_mem task member
      refine ⟨⟨?_, fun other _ => ⟨rfl, rfl, rfl, Nat.le_refl _, fun _ _ => rfl⟩⟩, safe_runTask made⟩
      exact ⟨⟨inv.allocated.table, remaining, inv.allocated.jobs⟩, inv.authentic⟩

theorem truthful_boot (db : Database) : Truthful (boot db).shared where
  allocated := ⟨fun _ member => absurd member List.not_mem_nil,
    fun _ member => absurd member List.not_mem_nil, fun _ _ busy => (nomatch busy)⟩
  authentic _ member := absurd member List.not_mem_nil

/-- In every run in which names stand while a thread speaks, every row and every
chat frame has the nonempty name of its connection at the gate for a sender. -/
theorem senders_authentic (workers : Nat) (db : Database) (c : Config serverInterface Exn Shared)
    (run : (machine workers).Reaches NameStands (boot db) c) :
    ∀ e ∈ c.shared.aux.emitted, ∃ name, e.admittedAs = some name ∧ name ≠ "" ∧ e.sender = name := by
  have start : (authenticity workers).Holds (fun _ _ => True) (boot db) :=
    ⟨truthful_boot db, fun _ => trivial⟩
  exact (Discipline.sound (authenticity_verified workers) start run).inv.authentic

/-! ## A broadcast, with and without a logout beside it -/

/-- A BROADCAST. -/
def hello : Json := .object [("type", .string "BROADCAST"), ("content", .string "hello")]

/-- A LOGOUT. -/
def logout : Json := .object [("type", .string "LOGOUT")]

/-- Connection 5 logs in as alice and broadcasts, with one worker. -/
def connected : Shared := after 0 steadyWorld (handleNewConnection 5 "10.0.0.1") (boot aliceDb).shared

/-- The LOGIN is in the queue. -/
def asked : Shared := after 0 (deliver loginAlice) (handleClientEvent 5) connected

/-- Alice is logged in. -/
def loggedIn : Shared := worked 1 steadyWorld asked

/-- Her BROADCAST is in the queue. -/
def spoken : Shared := after 0 (deliver hello) (handleClientEvent 5) loggedIn

/-- It has been sent to all. -/
def heard : Shared := worked 1 steadyWorld spoken

theorem nameStands_alone (action : Act) (s : Shared)
    (others : ∀ other, other ≠ t → s.aux.job other = none) : NameStands t action s := by
  have mute : ∀ other id, other ≠ t → ¬ Speaking other id s := by
    rintro other id differs ⟨task, _, busy, _⟩
    rw [others other differs] at busy
    cases busy
  cases action with
  | setUsername session name => exact fun other => mute other session.id
  | clearUsername session => exact fun other => mute other session.id
  | _ => trivial

theorem heard_reached :
    (machine 1).Reaches NameStands (boot aliceDb) ⟨heard, fun _ => .ret ()⟩ := by
  have start : (machine 1).Reaches NameStands (boot aliceDb) (boot aliceDb) := .refl
  have quiet : Quiet (boot aliceDb).shared := fun _ => rfl
  have quiet₁ : Quiet connected := quiet.after (by decide)
  have quiet₂ : Quiet asked := quiet₁.after (by decide +kernel)
  have quiet₃ : Quiet loggedIn := quiet₂.worked (by decide +kernel)
  have quiet₄ : Quiet spoken := quiet₃.after (by decide +kernel)
  have accepts := serve_event (.newConnection 5 "10.0.0.1") steadyWorld start
    (fun _ member => nomatch member) (permitted_alone nameStands_alone _ _ quiet) (by decide)
  have reads := serve_event (.client 5) (deliver loginAlice) accepts trivial
    (permitted_alone nameStands_alone _ _ quiet₁) (by decide +kernel)
  have enters := serve_task 1 steadyWorld reads (by decide) (by decide +kernel)
    (permitted_alone (s := dequeue asked) nameStands_alone _ _ quiet₂) (by decide +kernel)
  have speaks := serve_event (.client 5) (deliver hello) enters trivial
    (permitted_alone nameStands_alone _ _ quiet₃) (by decide +kernel)
  exact serve_task 1 steadyWorld speaks (by decide) (by decide +kernel)
    (permitted_alone (s := dequeue spoken) nameStands_alone _ _ quiet₄) (by decide +kernel)

/-- All that her BROADCAST leaves behind is in alice's name. -/
theorem senders_authentic_heard :
    heard.aux.emitted.map Emission.sender = ["alice", "alice"] ∧
      ∀ e ∈ heard.aux.emitted, ∃ name, e.admittedAs = some name ∧ name ≠ "" ∧ e.sender = name :=
  ⟨by decide +kernel,
    senders_authentic 1 aliceDb ⟨heard, fun _ => .ret ()⟩ heard_reached⟩

/-- Worker 1 has let the BROADCAST through the gate when worker 2 handles the LOGOUT. -/
def silenced : List Turn :=
  accept 5 ++ read 5 loginAlice ++ work 1 40 ++ read 5 hello ++ work 1 2 ++
  read 5 logout ++ work 2 40 ++ [.act 1 40 steadyWorld]

/-- Without the condition a LOGOUT between the gate and the read of the name leaves a BROADCAST in
nobody's name. -/
theorem broadcast_without_sender :
    ¬ ∀ workers db c, (machine workers).Reaches Machine.unrestricted (boot db) c →
      ∀ e ∈ c.shared.aux.emitted, ∃ name, e.admittedAs = some name ∧ name ≠ "" ∧ e.sender = name := by
  intro always
  have passes : (play 2 silenced (boot aliceDb)).any
      (fun c => c.shared.aux.emitted.any fun e => e.sender = "") = true := by decide +kernel
  obtain ⟨c, run, nameless⟩ := reaches_of_play passes
  obtain ⟨e, emitted, empty⟩ := List.any_eq_true.mp nameless
  obtain ⟨name, _, nonempty, own⟩ := always 2 aliceDb c run e emitted
  rw [← own] at nonempty
  exact nonempty (by simpa using empty)

end LinuxChat.Guarantees.SenderAuthenticity
