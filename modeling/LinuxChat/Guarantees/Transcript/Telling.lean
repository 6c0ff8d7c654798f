import LinuxChat.Lib.Monitor
import LinuxChat.Guarantees.Handlers.Composed
import LinuxChat.Guarantees.ChatService.Reading

/-!
# What a thread is telling the room

`handle_broadcast` stores a message, copies the recipients and then sends to one after the other;
`finish_login` and `handle_history_req` read the history and then send what they have read
(server/src/message_router.cpp:117-129, 207-233, 443-472, 522-535). `Telling` is a history
variable: which of these a thread is in, and with what in hand.
-/

namespace LinuxChat.Guarantees.Transcript

open LinuxChat.Lib LinuxChat.Lib.ChatRoom LinuxChat.Source Prog ChatService

/-- A message to the room: nothing under way, stored and its recipients not copied yet, or to be
sent to these. -/
inductive Speech where
  | silent
  | stored (sender content : String) (timestamp : Int)
  | sending (sender content : String) (timestamp : Int) (left : List SessionRef)

namespace Speech

/-- The recipients of the message are copied. -/
def copy (targets : List SessionRef) : Speech → Speech
  | .stored sender content timestamp => .sending sender content timestamp targets
  | other => other

/-- The message has been sent to the next of them. -/
def sent : Speech → Speech
  | .sending sender content timestamp left => .sending sender content timestamp left.tail
  | other => other

/-- Nobody is left to be sent the message. -/
def Over : Speech → Prop
  | .silent => True
  | .stored _ _ _ => False
  | .sending _ _ _ left => left = []

/-- The session is still to be sent the message, if it is there when the recipients are copied. -/
def Reaches (x : SessionRef) : Speech → Prop
  | .silent => False
  | .stored _ _ _ => True
  | .sending _ _ _ left => x ∈ left

instance (x : SessionRef) (speech : Speech) : Decidable (speech.Reaches x) :=
  match speech with
  | .silent => isFalse id
  | .stored _ _ _ => isTrue trivial
  | .sending _ _ _ left => inferInstanceAs (Decidable (x ∈ left))

/-- The message that somebody may still be sent, as it is shown. -/
def shown : Speech → Option (Line × Int)
  | .silent => none
  | .stored sender content timestamp => some ((cString sender, cString content), timestamp)
  | .sending sender content timestamp _ => some ((cString sender, cString content), timestamp)

/-- The recipients to come. -/
def left : Speech → List SessionRef
  | .sending _ _ _ left => left
  | _ => []

end Speech

/-- The message it is telling the room, the room's history as it has read it last, the session it
has named and not sent the history yet, the session it has found last under a descriptor, and the
addressee it has found by name and not written to yet. -/
structure Telling where
  speech : Speech := .silent
  history : List Json := []
  greets : Option SessionRef := none
  found : Option SessionRef := none
  whispers : Option String := none

namespace Telling

/-- One action and its result. A history that finds no session is not sent. -/
def follow (h : Telling) : (action : Act) → action.Res → Telling
  | .setUsername session _, _ => { h with greets := some session, found := none }
  | .findByFd _, found =>
    { h with
      greets := h.greets.filter fun _ => Option.isSome found
      found := found }
  | .findSession name, found => { h with whispers := Option.map (fun _ => name) found }
  | .storeMessage sender _ content timestamp, _ =>
    if h.whispers.isSome then { h with whispers := none }
    else { h with speech := .stored sender content timestamp }
  | .broadcastTargets _, targets => { h with speech := h.speech.copy targets }
  | .getHistory _ target _, rows =>
    if target = Database.roomTarget then { h with history := rows } else h
  | .sendMsg _ _ frame, _ =>
    match notice frame with
    | some (.post _ _ _) => { h with speech := h.speech.sent }
    | some (.window none _) => { h with greets := none }
    | _ => h
  | _, _ => h

/-- Nothing is under way. -/
def Free (h : Telling) : Prop := h.speech.Over ∧ h.greets = none ∧ h.whispers = none

end Telling

/-- A BROADCAST goes to the next recipient of the message stored before, and the room's history as
it was read; after a login it goes to the session named, if that is found. -/
def telling : Monitor serverInterface Telling where
  next := Telling.follow
  ok h
    | .setUsername _ name => h.greets = none ∧ name ≠ ""
    | .findByFd fd => ∀ x, h.greets = some x → x.fd = fd
    | .storeMessage _ toUser _ _ =>
      h.speech.Over ∧ toUser = h.whispers.getD Database.roomTarget
    | .broadcastTargets excludeUsername => ¬ h.speech.Over → excludeUsername = ""
    | .sendMsg x _ frame =>
      match notice frame with
      | some (.post sender content timestamp) =>
        ∃ rest, h.speech = .sending sender content timestamp (x :: rest)
      | some (.window none lines) =>
        lines = h.history.map lineOf ∧ ∀ y, h.greets = some y → h.found = some x
      | _ => True
    | _ => True

/-! ## What the programs do -/

/-- The frame tells nothing of what is said in the room. -/
def Mute (frame : Json) : Prop :=
  match notice frame with
  | some (.post _ _ _) => False
  | some (.window none _) => False
  | _ => True

/-- Begins nothing. -/
def Aside : Act → Prop
  | .setUsername _ _ | .findSession _ | .storeMessage _ _ _ _ => False
  | .sendMsg _ _ frame => Mute frame
  | _ => True

/-- The program keeps to the monitor and is free at its end, if it is at its start. -/
def Frees (α : Type) (p : Proc α) : Prop := ∀ h, h.Free → p.Meets telling (fun _ h' => h'.Free) h

theorem over_copy {speech : Speech} (ended : speech.Over) (targets : List SessionRef) :
    (speech.copy targets).Over := by
  cases speech with
  | silent => trivial
  | stored => exact ended.elim
  | sending => exact ended

/-- A frame that tells nothing of the room leaves the monitor alone. -/
theorem follow_mute {h : Telling} {x : SessionRef} {locked : Bool} {frame : Json}
    (mute : Mute frame) (result : Bool) :
    telling.ok h (.sendMsg x locked frame) ∧ h.follow (.sendMsg x locked frame) result = h := by
  unfold Mute at mute
  simp only [telling, Telling.follow]
  cases reads : notice frame with
  | none => exact ⟨trivial, rfl⟩
  | some told =>
    rw [reads] at mute
    cases told with
    | post => exact mute.elim
    | window place lines =>
      cases place with
      | none => exact mute.elim
      | some _ => exact ⟨trivial, rfl⟩
    | _ => exact ⟨trivial, rfl⟩

theorem free_aside {action : Act} (aside : Aside action) {h : Telling} (free : h.Free) :
    telling.ok h action ∧ ∀ result, (telling.next h action result).Free := by
  obtain ⟨ended, greets, whispers⟩ := free
  cases action with
  | setUsername | findSession | storeMessage => cases aside
  | findByFd fd =>
    refine ⟨fun x greeting => ?_, fun _ => ⟨ended, ?_, whispers⟩⟩
    · rw [greets] at greeting
      cases greeting
    · simp [telling, Telling.follow, greets]
  | broadcastTargets exclude =>
    exact ⟨fun under => absurd ended under,
      fun targets => ⟨over_copy ended targets, greets, whispers⟩⟩
  | getHistory requestor target limit =>
    refine ⟨trivial, fun rows => ?_⟩
    simp only [telling, Telling.follow]
    split <;> exact ⟨ended, greets, whispers⟩
  | sendMsg x locked frame =>
    refine ⟨(follow_mute aside true).1, fun result => ?_⟩
    simp only [telling]
    rw [(follow_mute aside result).2]
    exact ⟨ended, greets, whispers⟩
  | _ => exact ⟨trivial, fun _ => ⟨ended, greets, whispers⟩⟩

theorem frees_composed : Composed Aside Frees where
  ret _ _ free := free
  raise _ _ free := free
  act aside rest _ free :=
    ⟨(free_aside aside free).1, fun result => rest result _ ((free_aside aside free).2 result)⟩
  bind first rest h free :=
    Meets.bind (first h free) (fun value h' => rest value h') fun _ _ free => free
  tryCatch first rest h free :=
    Meets.tryCatch (first h free) (fun _ _ free => free) fun error h' => rest error h'

/-! ### Frames -/

theorem mute_error (code content : String) : Mute (errorFrame code content) := by
  rw [Mute, notice_error]
  trivial

theorem mute_userList (names : List String) (now : Int) : Mute (userListFrame names now) := by
  rw [Mute, notice_userList]
  trivial

theorem mute_notify (content : String) (now : Int) : Mute (notifyFrame content now) := by
  rw [Mute, notice_notify]
  trivial

theorem mute_private (sender toUser content : String) (now : Int) :
    Mute (privateFrame sender toUser content now) := by
  rw [Mute, notice_private]
  trivial

theorem mute_ping : Mute (.object [("type", .string "PING")]) := trivial

theorem mute_ok {username : String} (nonempty : username ≠ "") :
    Mute (okFrame "LOGIN_OK" username) := by
  rw [Mute, notice_ok nonempty]
  trivial

theorem aside_announcing : Announcing Aside where
  clock := trivial
  list := trivial
  scan _ := trivial
  find _ := trivial
  users _ names now := mute_userList names now
  notify _ content now := mute_notify content now

theorem aside_preparing : Preparing Aside where
  gate _ := trivial
  limit _ := trivial
  count _ := trivial
  uncount _ := trivial
  reserveNew _ := trivial
  reserveOld _ := trivial
  release _ := trivial
  pend _ _ := trivial
  unpend _ := trivial
  row _ _ := trivial
  record _ := trivial
  draw := trivial
  hash _ := trivial
  error _ code content := mute_error code content
  check _ := trivial
  drop _ := trivial

theorem aside_leaving : Leaving Aside where
  toAnnouncing := aside_announcing
  gate _ := trivial
  name _ := trivial
  offline _ := trivial
  unname _ := trivial
  registered := trivial
  pending _ := trivial
  cleanup _ := trivial
  unpend _ := trivial
  drop _ := trivial
  erase _ := trivial

/-! ### Handlers -/

theorem frees_sendError (session : SessionRef) (code content : String) :
    Frees Unit (sendError session code content) :=
  frees_composed.sendError aside_preparing session code content

/-- The history, read for the room or for somebody else, goes to the session found. -/
theorem frees_sendHistory (session : SessionRef) (toUser : String) (rows : List Json) {h : Telling}
    (ended : h.speech.Over)
    (greets : ∀ x, h.greets = some x → x = session ∧ toUser = Database.roomTarget)
    (whispers : h.whispers = none) (read : toUser = Database.roomTarget → h.history = rows) :
    (sendToFd session.fd (historyFrame toUser rows)).Meets telling (fun _ h' => h'.Free) h := by
  refine ⟨fun x greeting => by rw [(greets x greeting).1], fun found => ?_⟩
  cases found with
  | none => exact ⟨ended, by simp [telling, Telling.follow], whispers⟩
  | some y =>
    by_cases room : toUser = Database.roomTarget
    · have reads : notice (historyFrame toUser rows) = some (.window none (rows.map lineOf)) := by
        rw [notice_history, place, if_pos room]
      refine ⟨?_, fun _ => ?_⟩
      · simp only [telling, reads]
        refine ⟨?_, fun _ _ => rfl⟩
        rw [← read room]
        rfl
      · simp only [telling, Telling.follow, reads]
        exact ⟨ended, rfl, whispers⟩
    · have mute : Mute (historyFrame toUser rows) := by
        rw [Mute, notice_history, place, if_neg room]
        trivial
      have nobody : h.greets = none := by
        cases greeting : h.greets with
        | none => rfl
        | some x => exact absurd (greets x greeting).2 room
      refine ⟨(follow_mute mute true).1, fun result => ?_⟩
      simp only [telling]
      rw [(follow_mute mute result).2]
      exact ⟨ended, by simp [Telling.follow, nobody], whispers⟩

theorem frees_finishLogin (session : SessionRef) (username : String) (nonempty : username ≠ "") :
    Frees Unit (finishLogin session username) := by
  rintro h ⟨ended, greets, whispers⟩
  have lists : Frees Unit broadcastUserList :=
    frees_composed.of_forall (aside_announcing.userList)
  have tells : Frees Unit ((notifyMsg (username ++ " 加入了聊天室")).bind fun notify =>
      broadcast notify username) :=
    frees_composed.of_forall (aside_announcing.notifyAll _ _)
  rw [finishLogin_eq]
  refine ⟨⟨greets, nonempty⟩, fun _ => ⟨trivial, fun _ => ?_⟩⟩
  rw [announceLogin_eq]
  refine ⟨(follow_mute (mute_ok nonempty) true).1, fun result => ?_⟩
  simp only [telling]
  rw [(follow_mute (mute_ok nonempty) result).2]
  have pushed : (pushHistory session.fd username).Meets telling (fun _ h' => h'.Free)
      { h with greets := some session, found := none } := by
    rw [pushHistory_eq]
    refine ⟨trivial, fun rows => ?_⟩
    refine Meets.bind (frees_sendHistory session "__room__" rows ended ?_ whispers fun _ => rfl)
      (fun _ _ free => free) fun _ _ free => free
    intro x greeting
    cases greeting
    exact ⟨rfl, rfl⟩
  refine Meets.bind pushed (fun _ h' free => ?_) fun _ _ free => free
  exact frees_composed.bind lists (fun _ => tells) h' free

theorem frees_sendEach (sender content : String) (timestamp : Int) (left : List SessionRef)
    {h : Telling} (speech : h.speech = .sending sender content timestamp left)
    (greets : h.greets = none) (whispers : h.whispers = none) :
    (sendEach (broadcastFrame sender content timestamp) left).Meets telling (fun _ h' => h'.Free)
      h := by
  induction left generalizing h with
  | nil => exact ⟨by rw [speech]; rfl, greets, whispers⟩
  | cons x rest ih =>
    have reads := notice_broadcast sender content timestamp
    refine ⟨?_, fun _ => ?_⟩
    · simp only [telling, reads]
      exact ⟨rest, speech⟩
    · refine ih ?_ ?_ ?_
      · simp only [telling, Telling.follow, reads, speech]
        rfl
      · simp only [telling, Telling.follow, reads, greets]
      · simp only [telling, Telling.follow, reads, whispers]

theorem frees_handleBroadcast (session : SessionRef) (msg : Json) :
    Frees Unit (handleBroadcast session msg) := by
  have accepts : ∀ content, Frees Unit (acceptBroadcast session content) := by
    rintro content h ⟨ended, greets, whispers⟩
    refine ⟨trivial, fun timestamp => ⟨trivial, fun sender => ⟨?_, fun _ => ?_⟩⟩⟩
    · exact ⟨ended, by simp [telling, Telling.follow, whispers, Database.roomTarget]⟩
    · refine ⟨fun _ => rfl, fun targets => ?_⟩
      refine frees_sendEach sender content timestamp targets ?_ ?_ ?_
      · simp only [telling, Telling.follow, whispers]
        rfl
      · simp only [telling, Telling.follow, whispers]
        exact greets
      · simp only [telling, Telling.follow, whispers]
        rfl
  rw [handleBroadcast_eq]
  refine frees_composed.bind (frees_composed.valueOf _ _ _) fun content => ?_
  split
  · exact frees_sendError session _ _
  · split
    · exact frees_sendError session _ _
    · exact accepts content

theorem frees_handlePrivate (session : SessionRef) (msg : Json) :
    Frees Unit (handlePrivate session msg) := by
  rw [handlePrivate_eq]
  refine frees_composed.bind (frees_composed.valueOf _ _ _) fun toUser =>
    frees_composed.bind (frees_composed.valueOf _ _ _) fun content => ?_
  cases privateError toUser content with
  | some text => exact frees_sendError session _ _
  | none =>
    rintro h ⟨ended, greets, whispers⟩
    refine ⟨trivial, fun target => ?_⟩
    cases target with
    | none => exact frees_sendError session _ _ _ ⟨ended, greets, rfl⟩
    | some target =>
      dsimp only
      rw [deliverPrivate_eq]
      refine ⟨trivial, fun timestamp => ⟨trivial, fun sender => ⟨⟨ended, rfl⟩, fun _ => ?_⟩⟩⟩
      have sends : ∀ fd, Frees Bool (sendToFd fd (privateFrame sender toUser content timestamp)) :=
        fun fd => frees_composed.of_forall
          (forall_sendToFd trivial fun _ => mute_private sender toUser content timestamp)
      exact frees_composed.bind (sends target.fd) (fun _ =>
        frees_composed.bind (sends session.fd) fun _ => frees_composed.ret _) _
          ⟨ended, greets, rfl⟩

theorem frees_handleHistoryReq (session : SessionRef) (msg : Json) :
    Frees Unit (handleHistoryReq session msg) := by
  rw [handleHistoryReq_eq]
  refine frees_composed.bind (frees_composed.valueOf _ _ _) fun toUser => ?_
  rintro h ⟨ended, greets, whispers⟩
  refine ⟨trivial, fun requestor => ⟨trivial, fun rows => ?_⟩⟩
  refine Meets.bind (frees_sendHistory session toUser rows ?_ ?_ ?_ ?_)
    (fun _ _ free => free) fun _ _ free => free
  · simp only [telling, Telling.follow]
    split <;> exact ended
  · intro x greeting
    simp only [telling, Telling.follow] at greeting
    split at greeting <;>
    · rw [greets] at greeting
      cases greeting
  · simp only [telling, Telling.follow]
    split <;> exact whispers
  · intro room
    simp only [telling, Telling.follow, if_pos room]

theorem frees_handleLogout (session : SessionRef) : Frees Unit (handleLogout session) :=
  frees_composed.of_forall (forall_handleLogout aside_leaving.toClosing session)

/-- Whatever a message asks for, what is begun is ended. -/
theorem frees_runTask (task : Task) : Frees Unit (runTask task) :=
  frees_composed.runTask aside_preparing <|
    frees_composed.route aside_preparing frees_finishLogin frees_handleLogout
      frees_handleBroadcast frees_handlePrivate frees_handleHistoryReq task.session task.msg

theorem aside_serving : Serving Aside where
  toLeaving := aside_leaving
  store _ _ := trivial
  receive _ := trivial
  handler := trivial
  stamp _ := trivial
  enqueue _ := trivial
  ping _ := mute_ping

theorem frees_event (e : Event) : Frees Unit e.program :=
  frees_composed.of_forall (forall_event aside_serving e)

end LinuxChat.Guarantees.Transcript
