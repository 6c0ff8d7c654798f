import LinuxChat.Guarantees.Effects
import LinuxChat.Guarantees.Passwords

/-!
# What REGISTER and LOGIN do to the accounts

The part of the state that accounts live in, and the two handlers that open or enter one, with
SQLite and OpenSSL working: a positive answer is for an account opened or entered, and without
one nothing is left but what was taken back.
-/

namespace LinuxChat.Guarantees.Accounts

open LinuxChat.Lib LinuxChat.Source Prog

variable {H : String → Octets 32}

/-- The handler answered its session with a frame of this type. -/
def answered (type : String) (session : SessionRef) (log : List Act) : Bool :=
  log.any fun action =>
    match action with
    | .sendMsg target false frame => target = session && frame.typeOf = type
    | _ => false

/-! ## The part of the state that accounts live in -/

/-- What the accounts depend on: the password records, the names reserved, the sessions in the
table, the name each session bears, and the id of the next one. -/
structure View where
  users : List (String × String)
  reserved : List String
  sessions : List SessionRef
  username : Nat → String
  nextId : Nat

/-- The view of a server. -/
def view (s : Server) : View where
  users := s.db.users
  reserved := s.loginInProgress
  sessions := s.sessions
  username id := (s.heap id).username
  nextId := s.nextId

/-- Actions that leave the accounts alone and are no positive answer. -/
def Plain : Act → Prop
  | .setUsername _ _ => False
  | .clearUsername _ => False
  | .reserveForRegister _ => False
  | .reserveForLogin _ => False
  | .releaseReservation _ => False
  | .cleanupLoginReservation _ => False
  | .registerUser _ _ => False
  | .storeSession _ _ => False
  | .eraseSession _ => False
  | .sendMsg _ locked frame => locked = false → frame.typeOf ≠ "LOGIN_OK"
  | _ => True

theorem plain_view (action : Act) (h : Plain action) (w : World) (s : Server) :
    view (action.exec w s).2 = view s := by
  have users : (action.exec w s).2.db.users = s.db.users := by
    rw [exec_db]
    cases action with
    | registerUser => cases h
    | storeMessage sender toUser content timestamp =>
      dsimp only [Database.storeMessage]
      split <;> rfl
    | _ => rfl
  have reserved : (action.exec w s).2.loginInProgress = s.loginInProgress := by
    rw [exec_loginInProgress]
    cases action with
    | reserveForRegister | reserveForLogin | releaseReservation | cleanupLoginReservation => cases h
    | _ => rfl
  have sessions : (action.exec w s).2.sessions = s.sessions := by
    rw [exec_sessions]
    cases action with
    | storeSession | eraseSession => cases h
    | _ => rfl
  have username : (fun id => ((action.exec w s).2.heap id).username) =
      fun id => (s.heap id).username := by
    funext id
    rw [exec_username]
    cases action with
    | setUsername | clearUsername | storeSession => cases h
    | _ => rfl
  have nextId : (action.exec w s).2.nextId = s.nextId := by
    rw [exec_nextId]
    cases action with
    | storeSession => cases h
    | _ => rfl
  unfold view
  rw [users, reserved, sessions, username, nextId]

theorem plain_answered {action : Act} (h : Plain action) (session : SessionRef) (log : List Act) :
    answered "LOGIN_OK" session (log ++ [action]) = answered "LOGIN_OK" session log := by
  unfold answered
  rw [List.any_append]
  cases action with
  | sendMsg target locked frame =>
    cases locked with
    | true => simp
    | false =>
      have other : frame.typeOf ≠ "LOGIN_OK" := h rfl
      simp [other]
  | _ => simp

/-- Same accounts and the same answer so far. -/
def SameAccounts (session : SessionRef) (s s' : Server × List Act) : Prop :=
  view s'.1 = view s.1 ∧ answered "LOGIN_OK" session s'.2 = answered "LOGIN_OK" session s.2

theorem always_plain {α : Type} {E : World → Prop} (session : SessionRef) {p : Proc α}
    (h : p.Forall Plain) (s : Server × List Act) :
    Always loggedExec E p s fun _ s' => SameAccounts session s s' := by
  refine always_of_forall (fun action plain before same w _ => ?_) h ⟨rfl, rfl⟩
  exact ⟨(plain_view _ plain w before.1).trans same.1,
    (plain_answered plain session before.2).trans same.2⟩

/-! ## Answers of the two handlers -/

/-- The view once the session has a name. -/
def View.named (v : View) (session : SessionRef) (name : String) : View :=
  { v with username := Function.update v.username session.id name }

/-- The name is no longer reserved. -/
def View.release (v : View) (username : String) : View :=
  { v with reserved := v.reserved.filter (· ≠ username) }

/-- The name is reserved. -/
def View.reserve (v : View) (username : String) : View :=
  { v with reserved := username :: v.reserved }

theorem view_setUsername (w : World) (session : SessionRef) (name : String) (s : Server) :
    view (Act.exec w (.setUsername session name) s).2 = (view s).named session name := by
  have username : (fun id => ((Act.exec w (.setUsername session name) s).2.heap id).username) =
      Function.update (fun id => (s.heap id).username) session.id name := by
    funext id
    have given := exec_username w (.setUsername session name) s id
    rw [given]
    by_cases same : id = session.id
    · subst same
      simp
    · simp [same]
  unfold view
  rw [username]
  rfl

theorem plain_announcing : Announcing Plain where
  clock := trivial
  list := trivial
  scan _ := trivial
  find _ := trivial
  users _ _ _ locked := nomatch locked
  notify _ _ _ locked := nomatch locked

theorem plain_error (session : SessionRef) (locked : Bool) (code content : String) :
    Plain (.sendMsg session locked (errorFrame code content)) := by
  intro _
  simp

theorem always_sendError {E : World → Prop} (session : SessionRef) (code content : String)
    (s : Server × List Act) :
    Always loggedExec E (sendError session code content) s fun _ s' => SameAccounts session s s' :=
  always_plain session (forall_sendError (plain_error session false code content)) s

/-- One action that is plain. -/
theorem always_plain_act {α : Type} {E : World → Prop} (session : SessionRef) {action : Act}
    {next : action.Res → Proc α} {s : Server × List Act} {Q : Except Exn α → Server × List Act → Prop}
    (h : Plain action)
    (rest : ∀ w, E w → ∀ s', SameAccounts session s s' → (∃ log, s' = ((action.exec w s.1).2, log)) →
      Always loggedExec E (next (action.exec w s.1).1) s' Q) :
    Always loggedExec E (.act action next) s Q := by
  refine (always_act _ _ _ _).mpr fun w sound => ?_
  exact rest w sound _ ⟨plain_view _ h w s.1, plain_answered h session s.2⟩ ⟨_, rfl⟩

/-- `finish_login` names the session and answers LOGIN_OK. -/
theorem always_finishLogin {E : World → Prop} (session : SessionRef) (username : String)
    (s : Server × List Act) :
    Always loggedExec E (finishLogin session username) s fun _ s' =>
      view s'.1 = (view s.1).named session username ∧
        answered "LOGIN_OK" session s'.2 = true := by
  rw [finishLogin_eq]
  refine (always_act _ _ _ _).mpr fun w _ => (always_act _ _ _ _).mpr fun w₁ _ => ?_
  rw [announceLogin_eq]
  refine (always_act _ _ _ _).mpr fun w₂ _ => ?_
  have rest : ((pushHistory session.fd username).bind fun _ => broadcastUserList.bind fun _ =>
      (notifyMsg (username ++ " 加入了聊天室")).bind fun notify =>
        broadcast notify username).Forall Plain := by
    refine (forall_pushHistory trivial trivial fun _ _ locked => nomatch locked).bind fun _ => ?_
    exact plain_announcing.userList.bind fun _ => plain_announcing.notifyAll _ _
  refine (always_plain session rest _).mono fun _ s' same => ?_
  constructor
  · rw [same.1, ← view_setUsername w session username s.1]
    exact plain_view (.insertOnline username) trivial w₁ _
  · rw [same.2]
    simp [logging, answered]

/-- A view and an answer, as a handler leaves them. -/
def Ends (session : SessionRef) (v : View) (positive : Bool) (s : Server × List Act) : Prop :=
  view s.1 = v ∧ answered "LOGIN_OK" session s.2 = positive

theorem answered_append {session : SessionRef} {log : List Act} {action : Act}
    (h : ∀ target locked frame, action ≠ .sendMsg target locked frame) :
    answered "LOGIN_OK" session (log ++ [action]) = answered "LOGIN_OK" session log := by
  unfold answered
  rw [List.any_append]
  cases action with
  | sendMsg target locked frame => exact absurd rfl (h target locked frame)
  | _ => simp

theorem always_closeLogin {E : World → Prop} (session : SessionRef) (username : String)
    (s : Server × List Act) :
    Always loggedExec E (closeLogin session username) s fun _ s' =>
      Ends session (((view s.1).named session username).release username) true s' := by
  refine always_seq (noRaise_finishLogin session username) (always_finishLogin session username s)
    fun _ s₁ ⟨named, positive⟩ => ?_
  refine (always_act _ _ _ _).mpr fun w _ => (always_act _ _ _ _).mpr fun w₁ _ =>
    (always_ret _ _ _).mpr ⟨?_, ?_⟩
  · have pending := plain_view (.clearPendingLogin session) trivial w s₁.1
    exact (congrArg (View.release · username) pending).trans (congrArg (View.release · username) named)
  · exact (answered_append fun _ _ _ => Act.noConfusion).trans
      ((answered_append fun _ _ _ => Act.noConfusion).trans positive)

theorem always_closeFailed {E : World → Prop} (session : SessionRef)
    (username code content : String) (s : Server × List Act) :
    Always loggedExec E (closeFailed session username code content) s fun _ s' =>
      Ends session ((view s.1).release username) (answered "LOGIN_OK" session s.2) s' := by
  refine (always_act _ _ _ _).mpr fun w _ => ?_
  have rest : (Prog.act (.clearPendingLogin session) fun _ =>
      sendError session code content : Proc Unit).Forall Plain :=
    ⟨trivial, fun _ => forall_sendError (plain_error session false code content)⟩
  refine (always_plain session rest _).mono fun _ s' same => ⟨same.1, ?_⟩
  exact same.2.trans (answered_append fun _ _ _ => Act.noConfusion)

/-- One action, by what it returns and leaves. -/
theorem always_step {α : Type} {E : World → Prop} {action : Act} {next : action.Res → Proc α}
    {s : Server × List Act} {Q : Except Exn α → Server × List Act → Prop}
    (h : ∀ w, E w → ∀ result s₁, action.exec w s.1 = (result, s₁) →
      Always loggedExec E (next result) (s₁, s.2 ++ [action]) Q) :
    Always loggedExec E (.act action next) s Q :=
  (always_act _ _ _ _).mpr fun w admissible => h w admissible _ _ rfl

/-- The view once an account was opened for the session. -/
def View.opened (v : View) (session : SessionRef) (username hash : String) : View :=
  { v with
    users := v.users ++ [(cString username, hash)]
    username := Function.update v.username session.id username }

theorem always_completeRegister {session : SessionRef} {username hash : String}
    (nonempty : username ≠ "") (whole : cString hash = hash) (s : Server × List Act) :
    Always loggedExec (Sound H) (completeRegister session username hash) s fun _ s' =>
      (Has (view s.1).users (cString username) ∧
        Ends session ((view s.1).release username) (answered "LOGIN_OK" session s.2) s') ∨
      (¬ Has (view s.1).users (cString username) ∧
        Ends session (((view s.1).opened session username hash).release username) true s') := by
  rw [completeRegister_eq]
  refine always_step fun w sound result s₁ ran => ?_
  by_cases taken : Has s.1.db.users (cString username)
  · simp only [Act.exec, sound.1, registerUser_taken hash taken] at ran
    cases ran
    refine (always_closeFailed session username _ _ _).mono fun _ s' ends => Or.inl ⟨taken, ends.1, ?_⟩
    exact ends.2.trans (answered_append fun _ _ _ => Act.noConfusion)
  · simp only [Act.exec, sound.1, registerUser_free hash nonempty taken, whole] at ran
    cases ran
    exact (always_closeLogin session username _).mono fun _ s' ends => Or.inr ⟨taken, ends⟩

theorem View.release_reserve {v : View} (idle : v.reserved = []) (username : String) :
    (v.reserve username).release username = v := by
  cases v
  cases idle
  simp [View.reserve, View.release]

theorem exec_reserveForRegister {s : Server} (idle : (view s).reserved = []) (username : String)
    {w : World} {result : Bool} {s₁ : Server}
    (ran : Act.exec w (.reserveForRegister username) s = (result, s₁)) :
    result = true ∧ view s₁ = (view s).reserve username := by
  have free : username ∉ s.loginInProgress := by
    rw [show s.loginInProgress = [] from idle]
    exact List.not_mem_nil
  simp only [Act.exec, if_neg free] at ran
  cases ran
  exact ⟨rfl, rfl⟩

/-- A REGISTER opens the account and answers LOGIN_OK exactly when no user of the
table has the C string of the name. -/
theorem always_handleRegister {s : Server} {session : SessionRef} {msg : Json} {log : List Act}
    {username password : String} (idle : (view s).reserved = [])
    (quiet : answered "LOGIN_OK" session log = false) (reads : Reads msg username password) :
    Always loggedExec (Sound H) (handleRegister session msg) (s, log) fun _ s' =>
      (Has (view s).users (cString username) ∧ Ends session (view s) false s') ∨
      (¬ Has (view s).users (cString username) ∧ ∃ salt,
        Ends session ((view s).opened session username (saltedRecord H salt password)) true s') := by
  obtain ⟨readsName, readsPassword, checked⟩ := reads
  rw [handleRegister_eq]
  unfold valueOf
  simp only [readsName, readsPassword, ofExcept_ok, ret_bind, checked]
  refine always_step fun w _ reserved s₁ ran => ?_
  obtain ⟨granted, view₁⟩ := exec_reserveForRegister idle username ran
  subst granted
  refine always_step fun w₁ _ _ s₂ ran₁ => ?_
  have view₂ : view s₂ = (view s).reserve username := by
    have same := plain_view (.setPendingLogin session username) trivial w₁ s₁
    rw [ran₁] at same
    exact same.trans view₁
  rw [always_bind]
  refine (always_hashPassword password _ _).mono fun o s₃ ⟨salt, hashed, state⟩ => ?_
  subst hashed state
  refine (always_completeRegister (credentials_nonempty checked)
    (cString_saltedRecord salt password) _).mono fun _ s' ends => ?_
  simp only [view₂] at ends
  rcases ends with ⟨taken, left, silent⟩ | ⟨free, left, positive⟩
  · refine Or.inl ⟨taken, left.trans (View.release_reserve idle username), silent.trans ?_⟩
    rw [← quiet]
    simp [answered]
  · have settled : (((view s).reserve username).opened session username
        (saltedRecord H salt password)).release username =
          (view s).opened session username (saltedRecord H salt password) :=
      View.release_reserve (v := (view s).opened session username (saltedRecord H salt password))
        idle username
    exact Or.inr ⟨free, salt, left.trans settled, positive⟩

/-- LOGIN under this name with this password opens the account: no live session has
the name, and the row of its C string was made from the password. -/
def Opens (H : String → Octets 32) (v : View) (username password : String) : Prop :=
  (∀ x ∈ v.sessions, v.username x.id ≠ username) ∧
    ∃ salt, v.users.lookup (cString username) = some (saltedRecord H salt password)

/-- Every row holds a salted record. -/
def Salted (H : String → Octets 32) (users : List (String × String)) : Prop :=
  ∀ name record, users.lookup name = some record → ∃ salt password, record = saltedRecord H salt password

theorem findSession_isSome_iff (s : Server) (username : String) :
    (s.findSession username).isSome = true ↔ ∃ x ∈ s.sessions, s.name x = username := by
  simp [Server.findSession, List.find?_isSome]

theorem exec_reserveForLogin {s : Server} (idle : (view s).reserved = []) (username : String)
    {w : World} {outcome : ReserveOutcome} {s₁ : Server}
    (ran : Act.exec w (.reserveForLogin username) s = (outcome, s₁)) :
    (outcome = .alreadyOnline ∧ s₁ = s ∧ ∃ x ∈ s.sessions, s.name x = username) ∨
      (outcome = .reserved ∧ view s₁ = (view s).reserve username ∧ s₁.db = s.db ∧
        ∀ x ∈ s.sessions, s.name x ≠ username) := by
  have free : username ∉ s.loginInProgress := by
    rw [show s.loginInProgress = [] from idle]
    exact List.not_mem_nil
  simp only [Act.exec, if_neg free] at ran
  by_cases live : (s.findSession username).isSome = true
  · rw [if_pos live] at ran
    cases ran
    exact Or.inl ⟨rfl, rfl, (findSession_isSome_iff s username).mp live⟩
  · rw [if_neg live] at ran
    cases ran
    refine Or.inr ⟨rfl, rfl, rfl, fun x member same => live ?_⟩
    exact (findSession_isSome_iff s username).mpr ⟨x, member, same⟩

theorem getStoredHash_eq {s : Server} (salted : Salted H s.db.users) (username : String) :
    (s.db.getStoredHash true username = "" ∧ s.db.users.lookup (cString username) = none) ∨
      ∃ salt password, s.db.users.lookup (cString username) = some (saltedRecord H salt password) ∧
        s.db.getStoredHash true username = saltedRecord H salt password := by
  unfold Database.getStoredHash
  cases found : s.db.users.lookup (cString username) with
  | none => exact Or.inl ⟨rfl, rfl⟩
  | some record =>
    obtain ⟨salt, password, rfl⟩ := salted _ _ found
    exact Or.inr ⟨salt, password, rfl, by simpa using cString_saltedRecord salt password⟩

/-- The password check against the row of the name: it passes exactly when the row
is the record of the password with some salt. -/
theorem always_checkRow {s : Server} (session : SessionRef) (salted : Salted H s.db.users)
    (username password : String) (log : List Act) :
    Always loggedExec (Sound H) (passwordAccepted password (s.db.getStoredHash true username))
      (s, log) fun o s' => (∃ accepted, o = .ok accepted ∧ (accepted = true ↔
        ∃ salt, s.db.users.lookup (cString username) = some (saltedRecord H salt password))) ∧
      view s'.1 = view s ∧ answered "LOGIN_OK" session s'.2 = answered "LOGIN_OK" session log := by
  rcases getStoredHash_eq salted username with ⟨missing, none_⟩ | ⟨salt, original, row, stored⟩
  · rw [missing, none_]
    unfold passwordAccepted
    exact (always_ret _ _ _).mpr ⟨⟨false, rfl, by simp⟩, rfl, rfl⟩
  · rw [stored, row]
    refine (always_passwordAccepted password original salt s log).mono ?_
    rintro o s' ⟨⟨accepted, returned, iff⟩, state⟩
    subst state
    refine ⟨⟨accepted, returned, iff.trans ⟨fun same => ⟨salt, congrArg some same⟩, ?_⟩⟩, rfl,
      answered_append fun _ _ _ => Act.noConfusion⟩
    rintro ⟨salt', same⟩
    have records := Option.some.inj same
    have salts := (saltedRecord_eq records).1
    rw [salts] at records ⊢
    exact records

/-- The session's address has too many failed logins at the time of `w`. -/
def RateLimited (s : Server) (session : SessionRef) (w : World) : Prop :=
  session.ipAddress ≠ "" ∧ (isRateLimited s.loginAttempts w.steady session.ipAddress).1 = true

theorem always_acceptLogin {E : World → Prop} (session : SessionRef) (username : String)
    (s : Server × List Act) :
    Always loggedExec E (acceptLogin session username) s fun _ s' =>
      Ends session (((view s.1).named session username).release username) true s' := by
  rw [acceptLogin_eq]
  split
  · exact always_step fun w _ _ s₁ ran => by
      cases ran
      exact always_closeLogin session username _
  · exact always_closeLogin session username s

theorem always_rejectLogin {E : World → Prop} (session : SessionRef) (username : String)
    (s : Server × List Act) :
    Always loggedExec E (rejectLogin session username) s fun _ s' =>
      Ends session ((view s.1).release username) (answered "LOGIN_OK" session s.2) s' := by
  rw [rejectLogin_eq]
  split
  · refine always_plain_act session trivial fun w _ s₁ same _ => ?_
    exact (always_closeFailed session username _ _ s₁).mono fun _ s' ends =>
      ⟨ends.1.trans (congrArg (View.release · username) same.1), ends.2.trans same.2⟩
  · exact always_closeFailed session username _ _ s

theorem always_reservedLogin {s : Server} (username password : String)
    (idle : (view s).reserved = []) (salted : Salted H s.db.users) (session : SessionRef)
    (log : List Act) :
    Always loggedExec (Sound H) (reservedLogin session username password) (s, log) fun _ s' =>
      (Opens H (view s) username password ∧ Ends session ((view s).named session username) true s') ∨
      (¬ Opens H (view s) username password ∧
        Ends session (view s) (answered "LOGIN_OK" session log) s') := by
  rw [reservedLogin_eq]
  refine always_step fun w _ outcome s₁ ran => ?_
  rcases exec_reserveForLogin idle username ran with ⟨online, same, live⟩ | ⟨granted, view₁, db₁, offline⟩
  · subst online same
    refine (always_sendError session _ _ _).mono fun _ s' frame => Or.inr ⟨?_, frame.1, ?_⟩
    · obtain ⟨x, member, named⟩ := live
      exact fun opens => opens.1 x member named
    · exact frame.2.trans (answered_append fun _ _ _ => Act.noConfusion)
  · subst granted
    refine always_step fun w₁ _ _ s₂ ran₁ => always_step fun w₂ sound₂ stored s₃ ran₂ => ?_
    have view₂ : view s₂ = (view s).reserve username := by
      have same := plain_view (.setPendingLogin session username) trivial w₁ s₁
      rw [ran₁] at same
      exact same.trans view₁
    have db₂ : s₂.db = s.db := by
      have same := exec_db w₁ (.setPendingLogin session username) s₁
      rw [ran₁] at same
      exact same.trans db₁
    simp only [Act.exec, sound₂.1] at ran₂
    cases ran₂
    have silent : answered "LOGIN_OK" session (log ++ [Act.reserveForLogin username] ++
        [Act.setPendingLogin session username] ++ [Act.getStoredHash username]) =
          answered "LOGIN_OK" session log := by
      simp [answered]
    rw [always_bind]
    refine (always_checkRow session (db₂ ▸ salted) username password _).mono ?_
    rintro o s₄ ⟨⟨accepted, returned, iff⟩, same₄, answer₄⟩
    subst returned
    have view₄ := same₄.trans view₂
    rw [db₂] at iff
    cases accepted with
    | true =>
      refine (always_acceptLogin session username s₄).mono fun _ s' ends => Or.inl ⟨?_, ?_, ends.2⟩
      · exact ⟨offline, iff.mp rfl⟩
      · rw [ends.1, view₄]
        exact View.release_reserve (v := (view s).named session username) idle username
    | false =>
      refine (always_rejectLogin session username s₄).mono fun _ s' ends => Or.inr ⟨?_, ?_, ?_⟩
      · exact fun opens => Bool.false_ne_true (iff.mpr opens.2)
      · rw [ends.1, view₄]
        exact View.release_reserve idle username
      · exact ends.2.trans (answer₄.trans silent)

/-- A LOGIN is answered LOGIN_OK only if it opens the account, and then unless the
address is rate limited. -/
theorem always_handleLogin {E : World → Prop} (sound : ∀ w, E w → Sound H w) {s : Server}
    {session : SessionRef} {msg : Json} {log : List Act} {username password : String}
    (idle : (view s).reserved = []) (salted : Salted H s.db.users)
    (quiet : answered "LOGIN_OK" session log = false) (reads : Reads msg username password) :
    Always loggedExec E (handleLogin session msg) (s, log) fun _ s' =>
      (Opens H (view s) username password ∧ Ends session ((view s).named session username) true s') ∨
      ((Opens H (view s) username password → ∃ w, E w ∧ RateLimited s session w) ∧
        Ends session (view s) false s') := by
  obtain ⟨readsName, readsPassword, checked⟩ := reads
  rw [handleLogin_eq]
  unfold valueOf
  simp only [readsName, readsPassword, ofExcept_ok, ret_bind, checked]
  have admitted : ∀ (s₁ : Server) (log₁ : List Act), view s₁ = view s →
      answered "LOGIN_OK" session log₁ = false →
      Always loggedExec E (reservedLogin session username password) (s₁, log₁) fun _ s' =>
        (Opens H (view s) username password ∧ Ends session ((view s).named session username) true s') ∨
        ((Opens H (view s) username password → ∃ w, E w ∧ RateLimited s session w) ∧
          Ends session (view s) false s') := by
    intro s₁ log₁ same silent
    have users : s₁.db.users = s.db.users := congrArg View.users same
    have rest := always_reservedLogin (H := H) (s := s₁) username password (same ▸ idle)
      (users ▸ salted)
    refine ((rest session log₁).restrict sound).mono fun _ s' ends => ?_
    rw [same, silent] at ends
    exact ends.imp_right fun closed => ⟨fun opens => absurd opens closed.1, closed.2⟩
  unfold rateLimited
  split
  · exact admitted s log rfl quiet
  next address =>
    refine always_step fun w admissible limited s₁ ran => ?_
    have same := plain_view (.isRateLimited session.ipAddress) trivial w s
    rw [ran] at same
    have asked : answered "LOGIN_OK" session (log ++ [Act.isRateLimited session.ipAddress]) = false :=
      (answered_append fun _ _ _ => Act.noConfusion).trans quiet
    cases limited with
    | false => exact admitted s₁ _ same asked
    | true =>
      refine (always_sendError session _ _ _).mono fun _ s' frame => Or.inr ⟨fun _ => ?_, ?_⟩
      · exact ⟨w, admissible, by simpa using address, congrArg Prod.fst ran⟩
      · exact ⟨frame.1.trans same, frame.2.trans asked⟩

end LinuxChat.Guarantees.Accounts
