import LinuxChat.Guarantees.ChatService.Reading

/-!
# A user comes

LOGIN and REGISTER send nothing by themselves but answers, histories, lists and notes, and
no message of the log is lost or added on the way. A successful one is the event in which a
user takes his seat: he is welcomed and shown the last messages, all are told who is there, the
others that he has come. A refused one changes nothing that the room sees.
-/

namespace LinuxChat.Guarantees.ChatService

open LinuxChat.Lib LinuxChat.Lib.ChatRoom LinuxChat.Source Prog Serial SerialRuns SerialPlayback
open FanOut

/-! ## LOGIN and REGISTER -/

/-- The history that `push_history` reads. -/
def Greets (db : Database) (frame : Json) : Prop :=
  ∃ order requestor, frame =
    historyFrame Database.roomTarget (db.getHistory order true requestor Database.roomTarget 20)

/-- The frames that a user gets when he comes or is refused, histories apart. -/
def isCourtesy (type : String) : Bool :=
  type = "ERROR" || type = "LOGIN_OK" || type = "USER_LIST" || type = "NOTIFY"

/-- Everything sent by the handlers of LOGIN and REGISTER: no chat, and a history only
after the LOGIN_OK. -/
structure Entrance (x : SessionRef) (db : Database) (frames : List (SessionRef × Json)) : Prop where
  fits : ∀ sent ∈ frames, isCourtesy sent.2.typeOf = true ∨ Greets db sent.2
  answered : ∀ sent ∈ frames, sent.2.typeOf = "HISTORY_RESP" →
    ∃ username, (x, okFrame "LOGIN_OK" username) ∈ frames

/-- A stage of these handlers, begun in `s`. -/
def Enters (x : SessionRef) (s s' : Server) : Prop :=
  s'.db.messages = s.db.messages ∧
    ∃ frames, s'.sent = s.sent ++ frames ∧ Entrance x s.db frames

/-- Sends no chat and no history, and stores no message. -/
def Courteous : Act → Prop
  | .storeMessage _ _ _ _ => False
  | .sendMsg _ _ frame => isCourtesy frame.typeOf = true
  | _ => True

theorem Entrance.push {x : SessionRef} {db : Database} {frames : List (SessionRef × Json)}
    (entrance : Entrance x db frames) {y : SessionRef} {frame : Json}
    (fits : isCourtesy frame.typeOf = true ∨ Greets db frame)
    (answered : frame.typeOf = "HISTORY_RESP" →
      ∃ username, (x, okFrame "LOGIN_OK" username) ∈ frames) :
    Entrance x db (frames ++ [(y, frame)]) where
  fits sent member := by
    rcases List.mem_append.mp member with old | new
    · exact entrance.fits sent old
    · rw [List.mem_singleton.mp new]
      exact fits
  answered sent member history := by
    have before : ∃ username, (x, okFrame "LOGIN_OK" username) ∈ frames := by
      rcases List.mem_append.mp member with old | new
      · exact entrance.answered sent old history
      · rw [List.mem_singleton.mp new] at history
        exact answered history
    obtain ⟨username, there⟩ := before
    exact ⟨username, List.mem_append_left _ there⟩

theorem enters_refl (x : SessionRef) (s : Server) : Enters x s s := by
  refine ⟨rfl, [], (List.append_nil _).symm, ?_, ?_⟩
  · exact fun _ member => nomatch member
  · exact fun _ member => nomatch member

theorem courteous_step {x : SessionRef} {s s₁ : Server} (action : Act)
    (courteous : Courteous action) (enters : Enters x s s₁) (w : World) :
    Enters x s (action.exec w s₁).2 := by
  obtain ⟨messages, frames, sent, entrance⟩ := enters
  have db := exec_db w action s₁
  have told := exec_sent w action s₁
  cases action with
  | storeMessage => cases courteous
  | sendMsg y inside frame =>
    dsimp only at db told
    have fits : isCourtesy frame.typeOf = true := courteous
    refine ⟨by rw [db, messages], frames ++ [(y, frame)], ?_, entrance.push (Or.inl fits) ?_⟩
    · rw [told, sent, List.append_assoc]
    · intro history
      rw [history] at fits
      exact absurd fits (by decide)
  | registerUser username hash =>
    dsimp only at db told
    have kept : (s₁.db.registerUser w.dbOk username hash).2.messages = s₁.db.messages := by
      rcases registerUser_cases w.dbOk s₁.db username hash with taken | ⟨_, inserted⟩
      · rw [taken]
      · rw [inserted]
    refine ⟨by rw [db, kept, messages], frames, by rw [told, sent], entrance⟩
  | _ =>
    dsimp only at db told
    exact ⟨by rw [db, messages], frames, by rw [told, sent], entrance⟩

/-- The program goes on with LOGIN or REGISTER, wherever it starts and ends. -/
abbrev KeepsEntering {α : Type} (x : SessionRef) (s : Server) (p : Proc α) : Prop :=
  ∀ s₁, Enters x s s₁ → Always Act.exec Works p s₁ fun _ s' => Enters x s s'

section
variable {x : SessionRef} {s : Server} {α β : Type}

theorem keeps_courteous {p : Proc α} (courteous : p.Forall Courteous) : KeepsEntering x s p :=
  fun _ enters => always_of_forall
    (fun action courteous _ enters w _ => courteous_step action courteous enters w) courteous enters

theorem KeepsEntering.bind {p : Proc α} {f : α → Proc β} (first : KeepsEntering x s p)
    (second : ∀ value, KeepsEntering x s (f value)) : KeepsEntering x s (p.bind f) := by
  intro s₁ enters
  rw [always_bind]
  refine (first s₁ enters).mono ?_
  intro o s₂ enters
  cases o with
  | ok value => exact second value s₂ enters
  | error e => exact enters

theorem keeps_act {action : Act} {next : action.Res → Proc α} (courteous : Courteous action)
    (rest : ∀ result, KeepsEntering x s (next result)) :
    KeepsEntering x s (.act action next : Proc α) := by
  intro s₁ enters
  refine (always_act _ _ _ _).mpr ?_
  intro w _
  exact rest _ _ (courteous_step action courteous enters w)

theorem keeps_valueOf {msg : Json} {key default : String} {next : String → Proc α}
    (reads : ∀ found, KeepsEntering x s (next found)) :
    KeepsEntering x s ((valueOf msg key default).bind next) :=
  (keeps_courteous (forall_valueOf msg key default)).bind reads

theorem keeps_sendError (code content : String) :
    KeepsEntering x s (sendError x code content) :=
  keeps_courteous (forall_sendError rfl)

theorem courteous_announcing : Announcing Courteous where
  clock := trivial
  list := trivial
  scan _ := trivial
  find _ := trivial
  users _ _ _ := rfl
  notify _ _ _ := rfl

theorem getHistory_messages {db db' : Database} (messages : db'.messages = db.messages)
    (order : OrderBy) (requestor target : String) (limit : Int) :
    db'.getHistory order true requestor target limit =
      db.getHistory order true requestor target limit := by
  unfold Database.getHistory Database.selectHistory
  rw [messages]

/-- `push_history` after the LOGIN_OK. -/
theorem enters_pushHistory {s₁ : Server} {frames : List (SessionRef × Json)} {username : String}
    (messages : s₁.db.messages = s.db.messages) (sent : s₁.sent = s.sent ++ frames)
    (entrance : Entrance x s.db frames) (answered : (x, okFrame "LOGIN_OK" username) ∈ frames)
    (fd : Nat) :
    Always Act.exec Works (pushHistory fd username) s₁ fun _ s' => Enters x s s' := by
  rw [pushHistory_eq]
  refine (always_act _ _ _ _).mpr ?_
  intro w works
  have rows : (Act.exec w (.getHistory username "__room__" 20) s₁).1 =
      s.db.getHistory w.order true username Database.roomTarget 20 := by
    rw [← getHistory_messages messages]
    simp only [Act.exec, works.1]
    rfl
  rw [rows]
  refine always_then (returns_sendToFd fd _ s₁) ?_
  intro _ s₂ state
  subst state
  refine (always_ret _ _ _).mpr ⟨messages, ?_⟩
  have greets : Greets s.db (historyFrame "__room__"
      (s.db.getHistory w.order true username Database.roomTarget 20)) :=
    ⟨w.order, username, rfl⟩
  unfold toFd
  cases s₁.findByFd fd with
  | none => exact ⟨frames, by simpa [told, toAll] using sent, entrance⟩
  | some y =>
    refine ⟨frames ++ [(y, _)], ?_, entrance.push (Or.inr greets) fun _ => ⟨username, answered⟩⟩
    simp only [told, sent, toAll, Option.toList_some, List.map_cons, List.map_nil,
      List.append_assoc]

theorem keeps_announceLogin (username : String) :
    KeepsEntering x s (announceLogin x username) := by
  intro s₁ enters
  obtain ⟨messages, frames, sent, entrance⟩ := enters
  rw [announceLogin_eq]
  refine (always_act _ _ _ _).mpr ?_
  intro w _
  rw [always_bind]
  have answered : (x, okFrame "LOGIN_OK" username) ∈ frames ++ [(x, okFrame "LOGIN_OK" username)] :=
    List.mem_append_right _ List.mem_cons_self
  have fits : isCourtesy (okFrame "LOGIN_OK" username).typeOf = true := rfl
  have more : Entrance x s.db (frames ++ [(x, okFrame "LOGIN_OK" username)]) :=
    entrance.push (Or.inl fits) fun history => absurd history (by simp)
  have sent₂ : (Act.exec w (.sendMsg x false (okFrame "LOGIN_OK" username)) s₁).2.sent =
      s.sent ++ (frames ++ [(x, okFrame "LOGIN_OK" username)]) := by
    simp only [Act.exec, sent, List.append_assoc]
  have messages₂ : (Act.exec w (.sendMsg x false (okFrame "LOGIN_OK" username)) s₁).2.db.messages =
      s.db.messages := messages
  refine (enters_pushHistory messages₂ sent₂ more answered x.fd).mono ?_
  intro o s₂ enters₂
  cases o with
  | error e => exact enters₂
  | ok value =>
    have rest := courteous_announcing.userList.bind fun _ =>
      courteous_announcing.notifyAll (username ++ " 加入了聊天室") username
    exact keeps_courteous rest s₂ enters₂

theorem keeps_closeLogin (username : String) : KeepsEntering x s (closeLogin x username) := by
  have finishes : KeepsEntering x s (finishLogin x username) := by
    rw [finishLogin_eq]
    exact keeps_act trivial fun _ => keeps_act trivial fun _ => keeps_announceLogin username
  refine finishes.bind fun _ => ?_
  exact keeps_courteous ⟨trivial, fun _ => ⟨trivial, fun _ => trivial⟩⟩

theorem keeps_closeFailed (username code content : String) :
    KeepsEntering x s (closeFailed x username code content) :=
  keeps_courteous (forall_closeFailed trivial trivial rfl)

theorem keeps_handleRegister (msg : Json) : KeepsEntering x s (handleRegister x msg) := by
  rw [handleRegister_eq]
  refine keeps_valueOf fun username => keeps_valueOf fun password => ?_
  cases credentialError username password with
  | some content => exact keeps_sendError _ _
  | none =>
    refine keeps_act trivial fun reserved => ?_
    cases reserved with
    | false => exact keeps_sendError _ _
    | true =>
      have hashes := forall_hashPassword (P := Courteous) password trivial fun _ => trivial
      refine keeps_act trivial fun _ => (keeps_courteous hashes).bind fun hash => ?_
      rw [completeRegister_eq]
      refine keeps_act trivial fun registered => ?_
      cases registered with
      | false => exact keeps_closeFailed _ _ _
      | true => exact keeps_closeLogin username

theorem keeps_reservedLogin (username password : String) :
    KeepsEntering x s (reservedLogin x username password) := by
  rw [reservedLogin_eq]
  refine keeps_act trivial fun outcome => ?_
  cases outcome with
  | inProgress => exact keeps_sendError _ _
  | alreadyOnline => exact keeps_sendError _ _
  | reserved =>
    refine keeps_act trivial fun _ => keeps_act trivial fun storedHash => ?_
    have checks := forall_passwordAccepted (P := Courteous) password storedHash fun _ => trivial
    refine (keeps_courteous checks).bind fun accepted => ?_
    cases accepted with
    | false => exact keeps_courteous (forall_rejectLogin trivial trivial trivial rfl)
    | true =>
      rw [if_pos rfl, acceptLogin_eq]
      split
      · exact keeps_act trivial fun _ => keeps_closeLogin username
      · exact keeps_closeLogin username

theorem keeps_handleLogin (msg : Json) : KeepsEntering x s (handleLogin x msg) := by
  rw [handleLogin_eq]
  refine keeps_valueOf fun username => keeps_valueOf fun password => ?_
  cases credentialError username password with
  | some content => exact keeps_sendError _ _
  | none =>
    refine (keeps_courteous (forall_rateLimited x trivial)).bind fun limited => ?_
    cases limited with
    | true => exact keeps_sendError _ _
    | false => exact keeps_reservedLogin username password

end

/-! ## A user comes -/

theorem notices_cons {x : SessionRef} {frame : Json} {told : Notice String String Line}
    (reads : notice frame = some told) (frames : List (SessionRef × Json)) :
    notices ((x, frame) :: frames) = (x, told) :: notices frames := by
  simp [notices, reads]

theorem historyFrame_inj {toUser toUser' : String} {rows rows' : List Json}
    (same : historyFrame toUser rows = historyFrame toUser' rows') : rows = rows' := by
  unfold historyFrame at same
  simp only [Json.object.injEq, List.cons.injEq, Prod.mk.injEq, Json.array.injEq, true_and,
    and_true] at same
  exact same.2

variable {s s' : Server} {x : SessionRef} {username : String}

/-- The handlers of LOGIN and REGISTER send no frames of these types on their own. -/
theorem Enters.no_chat (enters : Enters x s s') (frames : List (SessionRef × Json))
    (sent : s'.sent = s.sent ++ frames) {type : String}
    (chat : type = "BROADCAST" ∨ type = "PRIVATE" ∨ type = "HISTORY_RESP")
    (typed : ∀ told ∈ frames, told.2.typeOf = type) : frames = [] := by
  obtain ⟨_, frames', sent', entrance⟩ := enters
  have same : frames' = frames := List.append_cancel_left (sent'.symm.trans sent)
  subst same
  apply List.eq_nil_iff_forall_not_mem.mpr
  intro told member
  have own := typed told member
  rcases entrance.fits told member with courtesy | ⟨order, requestor, history⟩
  · rw [own] at courtesy
    rcases chat with rfl | rfl | rfl <;> exact absurd courtesy (by decide)
  · have history' : told.2.typeOf = "HISTORY_RESP" := by
      rw [history]
      rfl
    obtain ⟨name, answered⟩ := entrance.answered told member history'
    have other := typed _ answered
    rw [okFrame_type, ← own, history'] at other
    exact absurd other (by decide)

/-- What the users table lets in, the room lets in. -/
theorem admits_entry {db : Database} (entry : Entry s username db) :
    Admits service (roomOf s) username { account | Has db.users account } := by
  cases entry with
  | login offline row => exact Or.inl ⟨row, rfl⟩
  | register hash free =>
    refine Or.inr ⟨free, ?_⟩
    ext account
    constructor
    · rintro ⟨user, member, rfl⟩
      rcases List.mem_append.mp member with old | new
      · exact Or.inr ⟨user, old, rfl⟩
      · rw [List.mem_singleton.mp new]
        exact Or.inl rfl
    · rintro (rfl | ⟨user, member, rfl⟩)
      · exact ⟨(cString username, hash), by simp, rfl⟩
      · exact ⟨user, List.mem_append_left _ member, rfl⟩

theorem offline_entry {db : Database} (orderly : Orderly s) (nonempty : username ≠ "")
    (entry : Entry s username db) : ∀ y ∈ s.sessions, s.name y ≠ username := by
  cases entry with
  | login offline row => exact offline
  | register hash free =>
    intro y member bears
    have row := orderly.rows y member (bears ▸ nonempty)
    rw [bears] at row
    exact free row

theorem messages_entry {db : Database} (entry : Entry s username db) :
    db.messages = s.db.messages := by
  cases entry <;> rfl

theorem admitted_name (s : Server) (x y : SessionRef) (username : String) (db : Database)
    (attempts : LoginAttempts) :
    (admitted s x username db attempts).name y = if y.id = x.id then username else s.name y := by
  have same := sameBook_reserved { s with db := db, loginAttempts := attempts } x username
  have kept : (reserved { s with db := db, loginAttempts := attempts } x username).name y =
      s.name y := same.username y.id
  unfold admitted
  rw [named_name, kept]

/-- The room with one more user. -/
theorem roomOf_admitted {db : Database} {attempts : LoginAttempts} (orderly : Orderly s)
    (member : x ∈ s.sessions) (nonempty : username ≠ "") (entry : Entry s username db) :
    roomOf (admitted s x username db attempts) =
      (roomOf s).sit x username { account | Has db.users account } := by
  have log : (admitted s x username db attempts).db.messages = s.db.messages :=
    messages_entry entry
  have table : (admitted s x username db attempts).sessions = s.sessions := rfl
  have users : (admitted s x username db attempts).db.users = db.users := rfl
  unfold roomOf Room.sit
  rw [log, table, users]
  congr 1
  funext y
  simp only [admitted_name]
  by_cases own : y = x
  · subst own
    simp [member, nonempty]
  · rw [Function.update_of_ne own]
    by_cases there : y ∈ s.sessions
    · have apart : y.id ≠ x.id := fun same => own ((orderly.apart member there).mp same)
      simp only [apart, if_false]
    · simp only [there, false_and, if_false]

theorem serves_entered {db : Database} {attempts : LoginAttempts} {rows : List Json}
    {now now' : Int} (orderly : Orderly s) (member : x ∈ s.sessions) (bare : s.name x = "")
    (nonempty : username ≠ "") (entry : Entry s username db)
    (after : Orderly (admitted s x username db attempts)) (history : Greets s.db
      (historyFrame "__room__" rows)) :
    Serves s (settled (told (admitted s x username db attempts)
      (loginFrames (admitted s x username db attempts) x username rows now now')) x username) := by
  have room : roomOf (admitted s x username db attempts) =
      (roomOf s).sit x username { account | Has db.users account } :=
    roomOf_admitted orderly member nonempty entry
  have sent : (admitted s x username db attempts).sent = s.sent := rfl
  have table : (admitted s x username db attempts).sessions = s.sessions := rfl
  have bears : (admitted s x username db attempts).name x = username := by
    rw [admitted_name, if_pos rfl]
  have others : ∀ y ∈ s.sessions, y ≠ x → (admitted s x username db attempts).name y = s.name y := by
    intro y there other
    have apart : y.id ≠ x.id := fun same => other ((orderly.apart member there).mp same)
    rw [admitted_name, if_neg apart]
  generalize admitted s x username db attempts = a at *
  have inside : x ∈ live a := mem_live.mpr ⟨table ▸ member, bears ▸ nonempty⟩
  have own : toFd a x.fd (historyFrame "__room__" rows) = [(x, historyFrame "__room__" rows)] := by
    have found := after.findByFd (mem_live.mp inside).1
    simp [toFd, toAll, found]
  have exclude := broadcastTargets_except after inside
  rw [bears] at exclude
  have frames : loginFrames a x username rows now now' =
      (x, okFrame "LOGIN_OK" username) :: (x, historyFrame "__room__" rows) ::
        (toAll (userListFrame a.onlineUsers now) (live a) ++
          toAll (notifyFrame (username ++ " 加入了聊天室") now') ((live a).filter (· ≠ x))) := by
    rw [loginFrames, own, broadcastTargets_all, exclude]
    rfl
  obtain ⟨order, requestor, reads⟩ := history
  obtain ⟨found, recent, shown⟩ := window_roomOf order s requestor Database.roomTarget 20
  rw [← historyFrame_inj reads] at shown
  have final : roomOf (settled (told a (loginFrames a x username rows now now')) x username) =
      (roomOf s).sit x username { account | Has db.users account } := by
    rw [← room]
    exact roomOf_same ((sameBook_told a _).trans (sameBook_settled _ x username)) rfl
  refine ⟨loginFrames a x username rows now now', by rw [← sent]; rfl, ?_⟩
  rw [final, frames, notices_cons (notice_ok nonempty), notices_cons (notice_history _ _),
    notices_append, notices_toAll (notice_userList _ _), notices_toAll (notice_notify _ _), shown]
  refine .enter ?_ ?_ (admits_entry entry) recent ?_ ?_ ?_
  · by_contra seated
    exact (mem_live.mp (seated_iff.mp seated)).2 bare
  · intro y seated
    obtain ⟨there, named⟩ := seat_iff.mp seated
    exact offline_entry orderly nonempty entry y (mem_live.mp there).1 named
  · rw [← room]
    exact lists_names (lists_online after)
  · rw [← room]
    exact everyone_live after
  · refine ⟨(nodup_live after).filter _, ?_⟩
    intro y
    rw [seated_iff, List.mem_filter, mem_live, mem_live, table]
    constructor
    · rintro ⟨⟨there, filled⟩, other⟩
      rw [others y there (by simpa using other)] at filled
      exact ⟨there, filled⟩
    · rintro ⟨there, filled⟩
      have other : y ≠ x := fun same => filled (same ▸ bare)
      rw [others y there other]
      exact ⟨⟨there, filled⟩, by simpa using other⟩

/-- All frames of a list made by `toAll` have the type of the one sent. -/
theorem typed_toAll {frame : Json} {targets : List SessionRef} {type : String}
    (own : frame.typeOf = type) : ∀ told ∈ toAll frame targets, told.2.typeOf = type := by
  intro told member
  obtain ⟨target, _, rfl⟩ := List.mem_map.mp member
  exact own

theorem serves_entrance {msg : Json} {o : Except Exn Unit} (orderly : Orderly s)
    (member : x ∈ s.sessions) (bare : s.name x = "") (ended : Handled Works x msg s o s')
    (enters : Enters x s s') : Serves s s' := by
  have after := orderly.handled member ended
  cases ended with
  | unreadable id => exact serves_refl s
  | ignored => exact serves_refl s
  | refused code content attempts own =>
    have same : roomOf { s with loginAttempts := attempts } = roomOf s := rfl
    exact serves_error same rfl x code content
  | failed name code content attempts free own =>
    have book := (sameBook_reserved { s with loginAttempts := attempts } x name).trans
      (sameBook_settled _ x name)
    exact serves_error (roomOf_same book rfl) rfl x code content
  | stranded name what free undrawn =>
    exact serves_same (roomOf_same (sameBook_reserved s x name) rfl) rfl
  | entered name db attempts rows now now' bare nonempty free entry own =>
    have same := (sameBook_told (admitted s x name db attempts)
      (loginFrames (admitted s x name db attempts) x name rows now now')).trans
        (sameBook_settled _ x name)
    have orderlyA := after.same same.symm
    refine serves_entered orderly member bare nonempty entry orderlyA ?_
    obtain ⟨_, frames, sent, entrance⟩ := enters
    have frames_ : frames = loginFrames (admitted s x name db attempts) x name rows now now' :=
      List.append_cancel_left (sent.symm.trans rfl)
    have found := orderlyA.findByFd (x := x) member
    have there : (x, historyFrame "__room__" rows) ∈ frames := by
      rw [frames_]
      simp [loginFrames, toFd, toAll, found]
    rcases entrance.fits _ there with courtesy | greets
    · have impossible : isCourtesy "HISTORY_RESP" = true := courtesy
      exact absurd impossible (by decide)
    · exact greets
  | left now now' bears => exact absurd bare bears
  | spoke content now ok =>
    have none_ := enters.no_chat (toAll (broadcastFrame (s.name x) content now)
      (s.broadcastTargets "")) rfl (Or.inl rfl) (typed_toAll rfl)
    rw [none_] at enters ⊢
    exact serves_unstored enters.1
  | whispered target toUser content now ok =>
    have none_ := enters.no_chat (toFd s target.fd (privateFrame (s.name x) toUser content
      now) ++ toFd s x.fd (privateFrame (s.name x) toUser content now)) rfl (Or.inr (Or.inl rfl)) (by
        intro told member
        rcases List.mem_append.mp member with first | second
        · exact typed_toAll rfl told first
        · exact typed_toAll rfl told second)
    rw [none_] at enters ⊢
    exact serves_unstored enters.1
  | recalled toUser rows =>
    have none_ := enters.no_chat (toFd s x.fd (historyFrame toUser rows)) rfl
      (Or.inr (Or.inr rfl)) (typed_toAll rfl)
    rw [none_]
    exact serves_same rfl (List.append_nil _)

end LinuxChat.Guarantees.ChatService
