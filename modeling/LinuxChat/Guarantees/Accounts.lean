import LinuxChat.Guarantees.Accounts.Answers

/-!
# What a request does to the accounts

Requests handled one at a time, with SQLite and OpenSSL working. An account is a row
of the users table; a session has entered it once it bears the name. `Outcome` says
what a message can do: open an account and enter it, enter an account, or only take
things back.
-/

namespace LinuxChat.Guarantees.Accounts

open LinuxChat.Lib LinuxChat.Source Prog

variable {H : String → Octets 32}

/-! ## The other requests -/

/-- Plain actions, and those that take sessions, names and reservations away. -/
def Receding : Act → Prop
  | .clearUsername _ => True
  | .cleanupLoginReservation _ => True
  | .eraseSession _ => True
  | action => Plain action

/-- The view after a request that opens nothing. -/
structure Receded (v v' : View) : Prop where
  users : v'.users = v.users
  reserved : v.reserved = [] → v'.reserved = []
  sessions : v'.sessions.Sublist v.sessions
  username : ∀ id, v'.username id = v.username id ∨ v'.username id = ""
  nextId : v'.nextId = v.nextId

theorem Receded.refl (v : View) : Receded v v :=
  ⟨rfl, fun idle => idle, List.Sublist.refl _, fun _ => Or.inl rfl, rfl⟩

theorem Receded.trans {v v' v'' : View} (h : Receded v v') (h' : Receded v' v'') :
    Receded v v'' where
  users := h'.users.trans h.users
  reserved idle := h'.reserved (h.reserved idle)
  sessions := h'.sessions.trans h.sessions
  username id := by
    rcases h'.username id with same | gone
    · rw [same]
      exact h.username id
    · exact Or.inr gone
  nextId := h'.nextId.trans h.nextId

theorem receding_view (action : Act) (h : Receding action) (w : World) (s : Server) :
    Receded (view s) (view (action.exec w s).2) := by
  have plain : Plain action → Receded (view s) (view (action.exec w s).2) := by
    intro plain
    rw [plain_view action plain w s]
    exact Receded.refl _
  have username := exec_username w action s
  have sessions := exec_sessions w action s
  have reserved := exec_loginInProgress w action s
  cases action with
  | clearUsername session =>
    refine ⟨rfl, fun idle => idle, List.Sublist.refl _, fun id => ?_, rfl⟩
    have given := username id
    dsimp only at given
    split at given
    · exact Or.inr given
    · exact Or.inl given
  | cleanupLoginReservation name =>
    refine ⟨congrArg Database.users (exec_db w _ s), fun idle => ?_,
      ?_, fun id => Or.inl (username id), exec_nextId w _ s⟩
    · have none_ : s.loginInProgress = [] := idle
      refine reserved.trans ?_
      simp [none_]
    · change (Act.exec w (.cleanupLoginReservation name) s).2.sessions.Sublist s.sessions
      rw [sessions]
  | eraseSession fd =>
    refine ⟨congrArg Database.users (exec_db w _ s), fun idle => reserved.trans idle,
      ?_, fun id => Or.inl (username id), exec_nextId w _ s⟩
    change (Act.exec w (.eraseSession fd) s).2.sessions.Sublist s.sessions
    rw [sessions]
    exact List.filter_sublist
  | _ => exact plain h

theorem receding_answered (action : Act) (h : Receding action) (session : SessionRef)
    (log : List Act) :
    answered "LOGIN_OK" session (log ++ [action]) = answered "LOGIN_OK" session log := by
  have plain : Plain action → answered "LOGIN_OK" session (log ++ [action]) =
      answered "LOGIN_OK" session log := fun plain => plain_answered plain session log
  cases action with
  | clearUsername | cleanupLoginReservation | eraseSession =>
    exact answered_append fun _ _ _ => Act.noConfusion
  | _ => exact plain h

theorem always_receding {α : Type} {E : World → Prop} (session : SessionRef) {p : Proc α}
    (h : p.Forall Receding) {log : List Act} (quiet : answered "LOGIN_OK" session log = false)
    (s : Server) :
    Always loggedExec E p (s, log) fun _ s' =>
      Receded (view s) (view s'.1) ∧ answered "LOGIN_OK" session s'.2 = false := by
  refine always_of_forall (fun action recedes before held w _ => ?_) h ⟨Receded.refl _, quiet⟩
  exact ⟨held.1.trans (receding_view action recedes w before.1),
    (receding_answered action recedes session before.2).trans held.2⟩

theorem receding_leaving : Leaving Receding where
  clock := trivial
  list := trivial
  scan _ := trivial
  find _ := trivial
  users := plain_announcing.users
  notify := plain_announcing.notify
  gate _ := trivial
  name _ := trivial
  offline _ := trivial
  unname _ := trivial
  erase _ := trivial
  registered := trivial
  pending _ := trivial
  cleanup _ := trivial
  unpend _ := trivial
  drop _ := trivial

theorem receding_locked (target : SessionRef) (frame : Json) : Receding (.sendMsg target true frame) :=
  fun locked => nomatch locked

theorem forall_errorAnswer (session : SessionRef) (code content : String) :
    (sendError session code content).Forall Receding :=
  forall_sendError (plain_error session false code content)

theorem receding_chatting : Chatting Receding where
  clock := trivial
  name _ := trivial
  store _ _ _ _ := trivial
  scan _ := trivial
  search _ := trivial
  find _ := trivial
  read _ _ _ := trivial
  send := receding_locked
  error session := plain_error session false

theorem forall_routeAuthenticated (session : SessionRef) (msg : Json) (type : String) :
    (routeAuthenticated session msg type).Forall Receding := by
  unfold routeAuthenticated
  split
  · trivial
  · split
    · exact forall_handleBroadcast receding_chatting session msg
    · split
      · exact forall_handlePrivate receding_chatting session msg
      · split
        · exact forall_handleHistoryReq receding_chatting session msg
        · split
          · exact forall_handleLogout receding_leaving.toClosing session
          · exact forall_errorAnswer _ _ _

/-! ## Messages -/

/-- The account that a message opens, if it is a successful REGISTER. -/
def newAccounts (session : SessionRef) (msg : Json) (log : List Act) : List (String × String) :=
  if msg.typeOf = "REGISTER" && answered "LOGIN_OK" session log then
    match msg.value "from" "", msg.value "content" "" with
    | .ok username, .ok password => [(username, password)]
    | _, _ => []
  else []

/-- What a message does to the accounts: the account it adds and the view it leaves. -/
inductive Outcome (H : String → Octets 32) (session : SessionRef) (msg : Json) (v : View) :
    List (String × String) → View → Prop
  | opened {username password : String} (salt : Octets 16) (reads : Reads msg username password)
      (free : ¬ Has v.users (cString username)) :
      Outcome H session msg v [(username, password)]
        (v.opened session username (saltedRecord H salt password))
  | entered {username password : String} (reads : Reads msg username password)
      (opens : Opens H v username password) :
      Outcome H session msg v [] (v.named session username)
  | receded {v' : View} (recedes : Receded v v') : Outcome H session msg v [] v'

theorem newAccounts_silent {session : SessionRef} {log : List Act} (msg : Json)
    (silent : answered "LOGIN_OK" session log = false) : newAccounts session msg log = [] := by
  unfold newAccounts
  rw [silent]
  simp

theorem newAccounts_other {session : SessionRef} {msg : Json} (log : List Act)
    (other : msg.typeOf ≠ "REGISTER") : newAccounts session msg log = [] := by
  unfold newAccounts
  simp [other]

theorem newAccounts_register {session : SessionRef} {msg : Json} {log : List Act}
    {username password : String} (register : msg.typeOf = "REGISTER")
    (reads : Reads msg username password) (positive : answered "LOGIN_OK" session log = true) :
    newAccounts session msg log = [(username, password)] := by
  unfold newAccounts
  rw [register, positive, reads.1, reads.2.1]
  simp

theorem outcome_of_receding {E : World → Prop} {session : SessionRef} {msg : Json} {s : Server}
    {p : Proc Unit} (h : p.Forall Receding) {log : List Act}
    (quiet : answered "LOGIN_OK" session log = false) :
    Always loggedExec E p (s, log) fun _ s' =>
      Outcome H session msg (view s) (newAccounts session msg s'.2) (view s'.1) := by
  refine (always_receding session h quiet s).mono fun _ s' held => ?_
  rw [newAccounts_silent msg held.2]
  exact .receded held.1

/-- LOGIN and REGISTER of a message whose fields cannot be read, or fail the checks,
only answer an error. -/
theorem credentials_cases (msg : Json) :
    (∃ username password, Reads msg username password) ∨
      ∀ (session : SessionRef) (k : String → String → Proc Unit),
        ((valueOf msg "from" "").bind fun username =>
          (valueOf msg "content" "").bind fun password =>
            match credentialError username password with
            | some content => sendError session "INVALID_MSG" content
            | none => k username password).Forall Receding := by
  unfold valueOf
  cases readsName : msg.value "from" "" with
  | error e => exact Or.inr fun _ _ => trivial
  | ok username =>
    cases readsPassword : msg.value "content" "" with
    | error e => exact Or.inr fun _ _ => trivial
    | ok password =>
      cases checked : credentialError username password with
      | none => exact Or.inl ⟨username, password, readsName, readsPassword, checked⟩
      | some content =>
        refine Or.inr fun session k => ?_
        simp only [ofExcept_ok, ret_bind, checked]
        exact forall_errorAnswer _ _ _

theorem always_register {s : Server} {session : SessionRef} {msg : Json} {log : List Act}
    (register : msg.typeOf = "REGISTER") (idle : (view s).reserved = [])
    (quiet : answered "LOGIN_OK" session log = false) :
    Always loggedExec (Sound H) (handleRegister session msg) (s, log) fun _ s' =>
      Outcome H session msg (view s) (newAccounts session msg s'.2) (view s'.1) := by
  rcases credentials_cases msg with ⟨username, password, reads⟩ | refused
  · refine (always_handleRegister idle quiet reads).mono fun _ s' ends => ?_
    rcases ends with ⟨_, left, silent⟩ | ⟨free, salt, left, positive⟩
    · rw [newAccounts_silent msg silent, left]
      exact .receded (Receded.refl _)
    · rw [newAccounts_register register reads positive, left]
      exact .opened salt reads free
  · rw [handleRegister_eq]
    exact outcome_of_receding (refused session _) quiet

theorem always_login {s : Server} {session : SessionRef} {msg : Json} {log : List Act}
    (login : msg.typeOf = "LOGIN") (idle : (view s).reserved = []) (salted : Salted H s.db.users)
    (quiet : answered "LOGIN_OK" session log = false) :
    Always loggedExec (Sound H) (handleLogin session msg) (s, log) fun _ s' =>
      Outcome H session msg (view s) (newAccounts session msg s'.2) (view s'.1) := by
  have other : msg.typeOf ≠ "REGISTER" := by
    rw [login]
    decide
  rcases credentials_cases msg with ⟨username, password, reads⟩ | refused
  · refine (always_handleLogin (fun _ sound => sound) idle salted quiet reads).mono
      fun _ s' ends => ?_
    rw [newAccounts_other s'.2 other]
    rcases ends with ⟨opens, left, _⟩ | ⟨_, left, _⟩
    · rw [left]
      exact .entered reads opens
    · rw [left]
      exact .receded (Receded.refl _)
  · rw [handleLogin_eq]
    exact outcome_of_receding (refused session _) quiet

theorem always_route {s : Server} (session : SessionRef) (msg : Json)
    (idle : (view s).reserved = []) (salted : Salted H s.db.users) :
    Always loggedExec (Sound H) (route session msg) (s, []) fun _ s' =>
      Outcome H session msg (view s) (newAccounts session msg s'.2) (view s'.1) := by
  rw [route_eq]
  unfold valueOf
  cases readsType : msg.value "type" "" with
  | error e => exact outcome_of_receding (p := .raise e) trivial rfl
  | ok type =>
    have current : msg.typeOf = type := by
      rw [Json.typeOf, readsType]
    simp only [ofExcept_ok, ret_bind]
    refine always_step fun w _ authenticated s₁ ran => ?_
    cases ran
    have asked : answered "LOGIN_OK" session [Act.isAuthenticated session] = false := rfl
    split
    · exact outcome_of_receding (forall_routeAuthenticated session msg type) asked
    · unfold routeUnauthenticated
      split
      next register => exact always_register (current.trans register) idle asked
      · split
        next login => exact always_login (current.trans login) idle salted asked
        · split
          · exact outcome_of_receding (p := .ret ()) trivial asked
          · exact outcome_of_receding (forall_errorAnswer session _ _) asked

/-- The view once a connection was accepted. -/
def View.accepted (v : View) (fd : Nat) (ip : String) : View :=
  { v with
    sessions := ⟨v.nextId, fd, ip⟩ :: v.sessions.filter fun other => other.fd ≠ fd
    username := Function.update v.username v.nextId ""
    nextId := v.nextId + 1 }

theorem view_accepted {E : World → Prop} {fd : Nat} {ip : String} {s s' : Server}
    {o : Except Exn Unit} {log : List Act}
    (handled : Runs loggedExec E (handleNewConnection fd ip) (s, []) o (s', log)) :
    view s' = (view s).accepted fd ip := by
  have always : Always loggedExec E (handleNewConnection fd ip) (s, []) fun _ after =>
      view after.1 = (view s).accepted fd ip := by
    refine (always_call _ _ _).mpr fun w _ => ?_
    have username : (fun id => ((Act.exec w (.storeSession fd ip) s).2.heap id).username) =
        Function.update (fun id => (s.heap id).username) s.nextId "" := by
      funext id
      rw [exec_username]
      by_cases same : id = s.nextId
      · subst same
        simp
      · simp [same]
    unfold view
    rw [show (loggedExec w (.storeSession fd ip) (s, [])).2.1 =
      (Act.exec w (.storeSession fd ip) s).2 from rfl, username]
    rfl
  exact always _ _ handled

end LinuxChat.Guarantees.Accounts
