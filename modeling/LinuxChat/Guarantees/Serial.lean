import LinuxChat.Guarantees.Handlers
import LinuxChat.Guarantees.Effects

/-!
# Handlers run alone

What `route` (server/src/message_router.cpp:237-272) and the removal of a client do
when nothing else runs in between: the frames they send, in order, and the exact
state they leave. `Handled` lists the ways a message can end; the outside is only
asked whether the random generator worked.
-/

namespace LinuxChat.Guarantees.Serial

open LinuxChat.Lib LinuxChat.Source Prog

variable {E : World → Prop} {α β : Type}

/-- The program returns, with a value and a state as `R` says. -/
def Returns (R : α → Server → Prop) : Except Exn α → Server → Prop
  | .ok value, s => R value s
  | .error _, _ => False

theorem always_then {p : Proc α} {f : α → Proc β} {s : Server} {R : α → Server → Prop}
    {Q : Except Exn β → Server → Prop} (first : Always Act.exec E p s (Returns R))
    (second : ∀ value s₁, R value s₁ → Always Act.exec E (f value) s₁ Q) :
    Always Act.exec E (p.bind f) s Q := by
  rw [always_bind]
  refine first.mono ?_
  intro o s₁ h
  cases o with
  | ok value => exact second value s₁ h
  | error error => exact h.elim

/-- The server once these frames were sent as well. -/
def told (s : Server) (frames : List (SessionRef × Json)) : Server :=
  { s with sent := s.sent ++ frames }

theorem told_told (s : Server) (a b : List (SessionRef × Json)) :
    told (told s a) b = told s (a ++ b) := by
  simp [told]

/-- One frame for each of the sessions. -/
def toAll (frame : Json) (targets : List SessionRef) : List (SessionRef × Json) :=
  targets.map fun x => (x, frame)

/-- The frame that `send_to_fd` sends, if the fd is in the table. -/
def toFd (s : Server) (fd : Nat) (frame : Json) : List (SessionRef × Json) :=
  toAll frame (s.findByFd fd).toList

/-! ## Sending -/

theorem returns_sendEach (frame : Json) (targets : List SessionRef) (s : Server) :
    Always Act.exec E (sendEach frame targets) s
      (Returns fun _ s' => s' = told s (toAll frame targets)) := by
  induction targets generalizing s with
  | nil =>
    refine (always_ret _ _ _).mpr ?_
    simp [Returns, toAll, told]
  | cons target rest ih =>
    refine (always_act _ _ _ _).mpr ?_
    intro w _
    refine (ih (told s [(target, frame)])).mono ?_
    intro o s' h
    cases o with
    | error error => exact h
    | ok value =>
      have after : s' = told (told s [(target, frame)]) (toAll frame rest) := h
      rw [told_told] at after
      exact after

theorem returns_broadcast (frame : Json) (excludeUsername : String) (s : Server) :
    Always Act.exec E (broadcast frame excludeUsername) s
      (Returns fun _ s' => s' = told s (toAll frame (s.broadcastTargets excludeUsername))) := by
  refine (always_act _ _ _ _).mpr ?_
  intro w _
  exact returns_sendEach frame (s.broadcastTargets excludeUsername) s

theorem returns_sendToFd (fd : Nat) (frame : Json) (s : Server) :
    Always Act.exec E (sendToFd fd frame) s
      (Returns fun _ s' => s' = told s (toFd s fd frame)) := by
  refine (always_act _ _ _ _).mpr ?_
  intro w _
  unfold toFd
  simp only [Act.exec]
  cases s.findByFd fd with
  | none =>
    refine (always_ret _ _ _).mpr ?_
    simp [Returns, toAll, told]
  | some session =>
    refine (always_act _ _ _ _).mpr ?_
    intro w₁ _
    exact (always_ret _ _ _).mpr rfl

theorem returns_sendError (x : SessionRef) (code content : String) (s : Server) :
    Always Act.exec E (sendError x code content) s
      (Returns fun _ s' => s' = told s [(x, errorFrame code content)]) := by
  refine (always_act _ _ _ _).mpr ?_
  intro w _
  exact (always_ret _ _ _).mpr rfl

theorem returns_userList (s : Server) :
    Always Act.exec E broadcastUserList s (Returns fun _ s' =>
      ∃ now, s' = told s (toAll (userListFrame s.onlineUsers now) (s.broadcastTargets ""))) := by
  refine (always_act _ _ _ _).mpr ?_
  intro w _
  refine (always_act _ _ _ _).mpr ?_
  intro w₁ _
  refine (returns_broadcast (userListFrame s.onlineUsers w₁.now) "" s).mono ?_
  intro o s' h
  cases o with
  | error error => exact h
  | ok value => exact ⟨w₁.now, h⟩

theorem returns_notify (content excludeUsername : String) (s : Server) :
    Always Act.exec E ((notifyMsg content).bind fun notify => broadcast notify excludeUsername) s
      (Returns fun _ s' => ∃ now, s' =
        told s (toAll (notifyFrame content now) (s.broadcastTargets excludeUsername))) := by
  refine (always_act _ _ _ _).mpr ?_
  intro w _
  refine (returns_broadcast (notifyFrame content w.now) excludeUsername s).mono ?_
  intro o s' h
  cases o with
  | error error => exact h
  | ok value => exact ⟨w.now, h⟩

theorem returns_pushHistory (fd : Nat) (username : String) (s : Server) :
    Always Act.exec E (pushHistory fd username) s (Returns fun _ s' =>
      ∃ rows, s' = told s (toFd s fd (historyFrame "__room__" rows))) := by
  rw [pushHistory_eq]
  refine (always_act _ _ _ _).mpr ?_
  intro w _
  generalize (Act.exec w (.getHistory username "__room__" 20) s).1 = rows
  refine always_then (returns_sendToFd fd (historyFrame "__room__" rows) s) ?_
  intro _ s' sent
  exact (always_ret _ _ _).mpr ⟨rows, sent⟩

/-! ## Logins and logouts -/

/-- The server once the session has its name and its online entry. -/
def named (s : Server) (x : SessionRef) (username : String) : Server :=
  { s.modify x fun c => { c with username := username } with
    onlineUsers :=
      if username ∈ s.onlineUsers then s.onlineUsers else username :: s.onlineUsers }

/-- The frames of a login, in the server `s` that already has the name. -/
def loginFrames (s : Server) (x : SessionRef) (username : String) (rows : List Json)
    (now now' : Int) : List (SessionRef × Json) :=
  (x, okFrame "LOGIN_OK" username) :: (toFd s x.fd (historyFrame "__room__" rows) ++
    (toAll (userListFrame s.onlineUsers now) (s.broadcastTargets "") ++
      toAll (notifyFrame (username ++ " 加入了聊天室") now') (s.broadcastTargets username)))

theorem returns_finishLogin (x : SessionRef) (username : String) (s : Server) :
    Always Act.exec E (finishLogin x username) s (Returns fun _ s' =>
      ∃ rows now now', s' =
        told (named s x username) (loginFrames (named s x username) x username rows now now')) := by
  rw [finishLogin_eq]
  refine (always_act _ _ _ _).mpr ?_
  intro w _
  refine (always_act _ _ _ _).mpr ?_
  intro w₁ _
  change Always Act.exec E (announceLogin x username) (named s x username) _
  generalize named s x username = s₁
  rw [announceLogin_eq]
  refine (always_act _ _ _ _).mpr ?_
  intro w₂ _
  refine always_then (returns_pushHistory x.fd username _) ?_
  rintro _ s₂ ⟨rows, state₂⟩
  subst state₂
  refine always_then (returns_userList _) ?_
  rintro _ s₃ ⟨now, state₃⟩
  subst state₃
  refine (returns_notify _ username _).mono ?_
  intro o s₄ last
  cases o with
  | error error => exact last.elim
  | ok value =>
    obtain ⟨now', state₄⟩ := last
    subst state₄
    refine ⟨rows, now, now', ?_⟩
    have start : (Act.exec w₂ (.sendMsg x false (okFrame "LOGIN_OK" username)) s₁).2 =
        told s₁ [(x, okFrame "LOGIN_OK" username)] := rfl
    rw [start, told_told, told_told, told_told]
    rfl

/-- The server once the session has lost its name and its online entry. -/
def unnamed (s : Server) (x : SessionRef) (username : String) : Server :=
  { s.modify x fun c => { c with username := "" } with
    onlineUsers := s.onlineUsers.filter (· ≠ username) }

/-- What goes out when a user leaves: the list without him, and a note to all who stay. -/
def logoutFrames (s : Server) (username : String) (now now' : Int) : List (SessionRef × Json) :=
  toAll (userListFrame s.onlineUsers now) (s.broadcastTargets "") ++
    toAll (notifyFrame (username ++ " 离开了聊天室") now') (s.broadcastTargets "")

/-- `handle_logout` on a session with a name, and on one without. -/
theorem returns_handleLogout (x : SessionRef) (s : Server) :
    Always Act.exec E (handleLogout x) s (Returns fun _ s' =>
      (s.name x = "" ∧ s' = s) ∨
      (s.name x ≠ "" ∧ ∃ now now', s' = told (unnamed s x (s.name x))
        (logoutFrames (unnamed s x (s.name x)) (s.name x) now now'))) := by
  rw [handleLogout_eq]
  refine (always_act _ _ _ _).mpr ?_
  intro w _
  change Always (I := serverInterface) Act.exec E (if (s.heap x.id).isAuthenticated then _ else _) s _
  by_cases authenticated : (s.heap x.id).isAuthenticated = true
  · have bears : s.name x ≠ "" := (isAuthenticated_iff _).mp authenticated
    rw [if_pos authenticated]
    refine (always_act _ _ _ _).mpr ?_
    intro w₁ _
    refine (always_act _ _ _ _).mpr ?_
    intro w₂ _
    refine (always_act _ _ _ _).mpr ?_
    intro w₃ _
    change Always Act.exec E (announceLogout (s.name x)) (unnamed s x (s.name x)) _
    generalize unnamed s x (s.name x) = s₁
    refine always_then (returns_userList s₁) ?_
    rintro _ s₂ ⟨now, state₂⟩
    subst state₂
    refine (returns_notify _ "" _).mono ?_
    intro o s₃ last
    cases o with
    | error error => exact last.elim
    | ok value =>
      obtain ⟨now', state₃⟩ := last
      subst state₃
      refine Or.inr ⟨bears, now, now', ?_⟩
      rw [told_told]
      rfl
  · rw [if_neg authenticated]
    have bare : s.name x = "" := by
      by_contra bears
      exact authenticated ((isAuthenticated_iff _).mpr bears)
    exact (always_ret _ _ _).mpr (Or.inl ⟨bare, rfl⟩)

/-! ## Chat -/

theorem returns_acceptBroadcast (x : SessionRef) (content : String) (s : Server) :
    Always Act.exec E (acceptBroadcast x content) s (Returns fun _ s' =>
      ∃ now w, E w ∧ s' =
        told { s with db := s.db.storeMessage w.dbOk (s.name x) "__room__" content now }
          (toAll (broadcastFrame (s.name x) content now) (s.broadcastTargets ""))) := by
  refine (always_act _ _ _ _).mpr ?_
  intro w _
  refine (always_act _ _ _ _).mpr ?_
  intro w₁ _
  refine (always_act _ _ _ _).mpr ?_
  intro w₂ admissible
  refine (returns_broadcast (broadcastFrame (s.name x) content w.now) "" _).mono ?_
  intro o s' h
  cases o with
  | error error => exact h
  | ok value => exact ⟨w.now, w₂, admissible, h⟩

theorem returns_deliverPrivate (x target : SessionRef) (toUser content : String) (s : Server) :
    Always Act.exec E (deliverPrivate x target toUser content) s (Returns fun _ s' =>
      ∃ now w, E w ∧ s' =
        told { s with db := s.db.storeMessage w.dbOk (s.name x) toUser content now }
          (toFd s target.fd (privateFrame (s.name x) toUser content now) ++
            toFd s x.fd (privateFrame (s.name x) toUser content now))) := by
  rw [deliverPrivate_eq]
  refine (always_act _ _ _ _).mpr ?_
  intro w _
  refine (always_act _ _ _ _).mpr ?_
  intro w₁ _
  refine (always_act _ _ _ _).mpr ?_
  intro w₂ admissible
  refine always_then (returns_sendToFd target.fd (privateFrame (s.name x) toUser content w.now) _) ?_
  intro _ s₁ first
  subst first
  refine always_then (returns_sendToFd x.fd (privateFrame (s.name x) toUser content w.now) _) ?_
  intro _ s₂ second
  subst second
  refine (always_ret _ _ _).mpr ⟨w.now, w₂, admissible, ?_⟩
  rw [told_told]
  rfl

theorem returns_handleHistoryReq (x : SessionRef) (toUser : String) (s : Server) :
    Always Act.exec E (Prog.act (.getUsername x) fun requestor =>
      .act (.getHistory requestor toUser 50) fun history =>
        (sendToFd x.fd (historyFrame toUser history)).bind fun _ => .ret () : Proc Unit) s
      (Returns fun _ s' => ∃ rows, s' = told s (toFd s x.fd (historyFrame toUser rows))) := by
  refine (always_act _ _ _ _).mpr ?_
  intro w _
  refine (always_act _ _ _ _).mpr ?_
  intro w₁ _
  let rows := (Act.exec w₁ (.getHistory (s.name x) toUser 50) s).1
  refine always_then (returns_sendToFd x.fd (historyFrame toUser rows) s) ?_
  intro _ s' sent
  exact (always_ret _ _ _).mpr ⟨rows, sent⟩

/-! ## Passwords -/

theorem returns_sha256Hex (input : String) (s : Server) :
    Always Act.exec E (sha256Hex input) s (Returns fun _ s' => s' = s) := by
  refine (always_act _ _ _ _).mpr ?_
  intro w _
  simp only [Act.exec]
  cases w.sha256 input with
  | none => exact (always_ret _ _ _).mpr rfl
  | some octets => exact (always_ret _ _ _).mpr rfl

/-- A password is only accepted against a stored hash. -/
theorem returns_passwordAccepted (password storedHash : String) (s : Server) :
    Always Act.exec E (passwordAccepted password storedHash) s (Returns fun accepted s' =>
      s' = s ∧ (accepted = true → storedHash ≠ "")) := by
  unfold passwordAccepted
  by_cases missing : storedHash.isEmpty = true
  · rw [if_pos missing]
    exact (always_ret _ _ _).mpr ⟨rfl, fun accepted => nomatch accepted⟩
  · have stored : storedHash ≠ "" := by simpa using missing
    rw [if_neg missing]
    unfold verifyPassword
    dsimp only
    split
    · refine always_then (returns_sha256Hex _ s) ?_
      intro computed s' same
      exact (always_ret _ _ _).mpr ⟨same, fun _ => stored⟩
    · refine always_then (returns_sha256Hex _ s) ?_
      intro computed s' same
      exact (always_ret _ _ _).mpr ⟨same, fun _ => stored⟩

/-- `hash_password` changes nothing; it throws where no salt can be drawn. -/
theorem always_hashPassword (password : String) (s : Server) :
    Always Act.exec E (hashPassword password) s fun o s' => s' = s ∧
      match o with
      | .ok _ => True
      | .error e => (∃ what, e = .runtimeError what) ∧ ∃ w, E w ∧ w.rand = none := by
  refine (always_act _ _ _ _).mpr ?_
  intro w admissible
  cases drawn : w.rand with
  | none =>
    have result : (Act.exec w .randBytes s).1 = none := drawn
    rw [result]
    exact (always_raise _ s _).mpr ⟨rfl, ⟨_, rfl⟩, w, admissible, drawn⟩
  | some octets =>
    have result : (Act.exec w .randBytes s).1 = some octets := drawn
    rw [result]
    simp only [bind_eq, pure_eq, ret_bind]
    refine always_then (returns_sha256Hex _ s) ?_
    intro hash s' same
    exact (always_ret _ _ _).mpr ⟨same, trivial⟩

/-! ## LOGIN and REGISTER -/

/-- The server once the name is reserved and pending at the session. -/
def reserved (s : Server) (x : SessionRef) (username : String) : Server :=
  { s with loginInProgress := username :: s.loginInProgress }.modify x fun c =>
    { c with pendingLogin := username }

/-- The server once the reservation is released and nothing is pending. -/
def settled (s : Server) (x : SessionRef) (username : String) : Server :=
  { s.modify x fun c => { c with pendingLogin := "" } with
    loginInProgress := s.loginInProgress.filter (· ≠ username) }

theorem returns_closeLogin (x : SessionRef) (username : String) (s : Server) :
    Always Act.exec E (closeLogin x username) s (Returns fun _ s' =>
      ∃ rows now now', s' = settled (told (named s x username)
        (loginFrames (named s x username) x username rows now now')) x username) := by
  refine always_then (returns_finishLogin x username s) ?_
  rintro _ s₁ ⟨rows, now, now', state₁⟩
  subst state₁
  refine (always_act _ _ _ _).mpr ?_
  intro w _
  refine (always_act _ _ _ _).mpr ?_
  intro w₁ _
  exact (always_ret _ _ _).mpr ⟨rows, now, now', rfl⟩

theorem returns_closeFailed (x : SessionRef) (username code content : String) (s : Server) :
    Always Act.exec E (closeFailed x username code content) s (Returns fun _ s' =>
      s' = told (settled s x username) [(x, errorFrame code content)]) := by
  refine (always_act _ _ _ _).mpr ?_
  intro w _
  refine (always_act _ _ _ _).mpr ?_
  intro w₁ _
  exact returns_sendError x code content _

/-- The users table lets the name in: a LOGIN finds its row and no live session of
that name, a REGISTER adds the row. -/
inductive Entry (s : Server) (username : String) : Database → Prop
  | login (offline : ∀ y ∈ s.sessions, s.name y ≠ username)
      (row : Has s.db.users (cString username)) : Entry s username s.db
  | register (hash : String) (free : ¬ Has s.db.users (cString username)) :
      Entry s username { s.db with users := s.db.users ++ [(cString username, hash)] }

/-- The failed-login records of the other addresses are untouched. -/
def OwnAddress (x : SessionRef) (s : Server) (attempts : LoginAttempts) : Prop :=
  ∀ ip, ip ≠ x.ipAddress → attempts ip = s.loginAttempts ip

/-- The server once `username` has entered: the database and the records of failed
logins as given, the name reserved, then given to the session. -/
def admitted (s : Server) (x : SessionRef) (username : String) (db : Database)
    (attempts : LoginAttempts) : Server :=
  named (reserved { s with db := db, loginAttempts := attempts } x username) x username

/-- How a message that is handled alone can end, and in which state. -/
inductive Handled (E : World → Prop) (x : SessionRef) (msg : Json) (s : Server) :
    Except Exn Unit → Server → Prop
  | unreadable (id : Nat) : Handled E x msg s (.error (.typeError id)) s
  | ignored : Handled E x msg s (.ok ()) s
  | refused (code content : String) (attempts : LoginAttempts) (own : OwnAddress x s attempts) :
      Handled E x msg s (.ok ())
        (told { s with loginAttempts := attempts } [(x, errorFrame code content)])
  | failed (username code content : String) (attempts : LoginAttempts)
      (free : username ∉ s.loginInProgress) (own : OwnAddress x s attempts) :
      Handled E x msg s (.ok ())
        (told (settled (reserved { s with loginAttempts := attempts } x username) x username)
          [(x, errorFrame code content)])
  | stranded (username what : String) (free : username ∉ s.loginInProgress)
      (undrawn : ∃ w, E w ∧ w.rand = none) :
      Handled E x msg s (.error (.runtimeError what)) (reserved s x username)
  | entered (username : String) (db : Database) (attempts : LoginAttempts) (rows : List Json)
      (now now' : Int) (bare : s.name x = "") (nonempty : username ≠ "")
      (free : username ∉ s.loginInProgress) (entry : Entry s username db)
      (own : OwnAddress x s attempts) :
      Handled E x msg s (.ok ()) (settled (told (admitted s x username db attempts)
        (loginFrames (admitted s x username db attempts) x username rows now now')) x username)
  | left (now now' : Int) (bears : s.name x ≠ "") :
      Handled E x msg s (.ok ()) (told (unnamed s x (s.name x))
        (logoutFrames (unnamed s x (s.name x)) (s.name x) now now'))
  | spoke (content : String) (now : Int) (ok : Bool) :
      Handled E x msg s (.ok ())
        (told { s with db := s.db.storeMessage ok (s.name x) "__room__" content now }
          (toAll (broadcastFrame (s.name x) content now) (s.broadcastTargets "")))
  | whispered (target : SessionRef) (toUser content : String) (now : Int) (ok : Bool) :
      Handled E x msg s (.ok ())
        (told { s with db := s.db.storeMessage ok (s.name x) toUser content now }
          (toFd s target.fd (privateFrame (s.name x) toUser content now) ++
            toFd s x.fd (privateFrame (s.name x) toUser content now)))
  | recalled (toUser : String) (rows : List Json) :
      Handled E x msg s (.ok ()) (told s (toFd s x.fd (historyFrame toUser rows)))

/-! ## Every way through `route` -/

theorem value_error {msg : Json} {key default : String} {e : Exn}
    (h : msg.value key default = .error e) : ∃ id, e = .typeError id := by
  unfold Json.value at h
  split at h
  · split at h
    · cases h
    · exact ⟨302, (Except.error.inj h).symm⟩
    · cases h
  · exact ⟨306, (Except.error.inj h).symm⟩

/-- Reading a field ends the handler or goes on with the text. -/
theorem handled_valueOf {x : SessionRef} {msg : Json} {key default : String}
    {next : String → Proc Unit} {s : Server}
    (reads : ∀ found, msg.value key default = .ok found →
      Always Act.exec E (next found) s (Handled E x msg s)) :
    Always Act.exec E ((valueOf msg key default).bind next) s (Handled E x msg s) := by
  unfold valueOf
  cases h : msg.value key default with
  | ok found => exact reads found h
  | error e =>
    obtain ⟨id, rfl⟩ := value_error h
    exact (always_raise _ s _).mpr (.unreadable id)

/-- What a program returns with is how the message ended. -/
theorem handled_of_returns {x : SessionRef} {msg : Json} {s s₁ : Server} {p : Proc Unit}
    {R : Unit → Server → Prop} (h : Always Act.exec E p s₁ (Returns R))
    (ends : ∀ s', R () s' → Handled E x msg s (.ok ()) s') :
    Always Act.exec E p s₁ (Handled E x msg s) := by
  refine h.mono ?_
  intro o s' returned
  cases o with
  | ok value => exact ends s' returned
  | error e => exact returned.elim

theorem handled_refusal {x : SessionRef} {msg : Json} {s : Server} (code content : String)
    {attempts : LoginAttempts} (own : OwnAddress x s attempts) :
    Always Act.exec E (sendError x code content) { s with loginAttempts := attempts }
      (Handled E x msg s) := by
  refine handled_of_returns (returns_sendError x code content _) ?_
  intro s' state
  subst state
  exact .refused code content attempts own

theorem ownAddress_refl (x : SessionRef) (s : Server) : OwnAddress x s s.loginAttempts :=
  fun _ _ => rfl

theorem ownAddress_limit (x : SessionRef) (s : Server) (now : Nat) :
    OwnAddress x s (isRateLimited s.loginAttempts now x.ipAddress).2 := by
  intro ip other
  unfold isRateLimited
  split
  · rfl
  · split
    · exact Function.update_of_ne other _ _
    · rfl

theorem ownAddress_record {x : SessionRef} {s : Server} {attempts : LoginAttempts}
    (own : OwnAddress x s attempts) (now : Nat) :
    OwnAddress x s (recordFailedLogin attempts now x.ipAddress) := by
  intro ip other
  unfold recordFailedLogin
  dsimp only
  rw [Function.update_of_ne other]
  exact own ip other

theorem ownAddress_clear {x : SessionRef} {s : Server} {attempts : LoginAttempts}
    (own : OwnAddress x s attempts) :
    OwnAddress x s (clearLoginAttempts attempts x.ipAddress) := by
  intro ip other
  unfold clearLoginAttempts
  rw [Function.update_of_ne other]
  exact own ip other

theorem handled_register {x : SessionRef} {msg : Json} {s : Server} (bare : s.name x = "") :
    Always Act.exec E (handleRegister x msg) s (Handled E x msg s) := by
  rw [handleRegister_eq]
  refine handled_valueOf fun username _ => handled_valueOf fun password _ => ?_
  cases checked : credentialError username password with
  | some content => exact handled_refusal _ content (ownAddress_refl x s)
  | none =>
    have nonempty := credentials_nonempty checked
    refine (always_act _ _ _ _).mpr ?_
    intro w _
    by_cases busy : username ∈ s.loginInProgress
    · simp only [Act.exec, if_pos busy]
      exact handled_refusal _ _ (ownAddress_refl x s)
    · simp only [Act.exec, if_neg busy, if_true]
      refine (always_act _ _ _ _).mpr ?_
      intro w₁ _
      change Always Act.exec E ((hashPassword password).bind fun hash =>
        completeRegister x username hash) (reserved s x username) _
      rw [always_bind]
      refine (always_hashPassword password _).mono ?_
      rintro o s₁ ⟨same, ended⟩
      subst same
      cases o with
      | error e =>
        obtain ⟨⟨what, rfl⟩, undrawn⟩ := ended
        exact .stranded username what busy undrawn
      | ok hash =>
        dsimp only
        rw [completeRegister_eq]
        refine (always_act _ _ _ _).mpr ?_
        intro w₂ _
        rcases registerUser_cases w₂.dbOk s.db username hash with taken | ⟨free, inserted⟩
        · have row : (reserved s x username).db.registerUser w₂.dbOk username hash =
            (false, s.db) := taken
          simp only [Act.exec, row]
          refine handled_of_returns (returns_closeFailed x username _ _ _) ?_
          intro s' state
          subst state
          exact .failed username _ _ s.loginAttempts busy (ownAddress_refl x s)
        · have row : (reserved s x username).db.registerUser w₂.dbOk username hash = (true,
            { s.db with users := s.db.users ++ [(cString username, cString hash)] }) := inserted
          simp only [Act.exec, row, if_true]
          refine handled_of_returns (returns_closeLogin x username _) ?_
          rintro s' ⟨rows, now, now', state⟩
          subst state
          exact .entered username _ s.loginAttempts rows now now' bare nonempty busy
            (.register (cString hash) free) (ownAddress_refl x s)

theorem handled_acceptLogin {x : SessionRef} {msg : Json} {s : Server} {username : String}
    {attempts : LoginAttempts} (bare : s.name x = "") (nonempty : username ≠ "")
    (free : username ∉ s.loginInProgress) (entry : Entry s username s.db)
    (own : OwnAddress x s attempts) :
    Always Act.exec E (acceptLogin x username)
      (reserved { s with loginAttempts := attempts } x username) (Handled E x msg s) := by
  rw [acceptLogin_eq]
  split
  · refine (always_act _ _ _ _).mpr ?_
    intro w _
    refine handled_of_returns (returns_closeLogin x username _) ?_
    rintro s' ⟨rows, now, now', state⟩
    subst state
    exact .entered username s.db _ rows now now' bare nonempty free entry (ownAddress_clear own)
  · refine handled_of_returns (returns_closeLogin x username _) ?_
    rintro s' ⟨rows, now, now', state⟩
    subst state
    exact .entered username s.db attempts rows now now' bare nonempty free entry own

theorem handled_rejectLogin {x : SessionRef} {msg : Json} {s : Server} {username : String}
    {attempts : LoginAttempts} (free : username ∉ s.loginInProgress)
    (own : OwnAddress x s attempts) :
    Always Act.exec E (rejectLogin x username)
      (reserved { s with loginAttempts := attempts } x username) (Handled E x msg s) := by
  rw [rejectLogin_eq]
  split
  · refine (always_act _ _ _ _).mpr ?_
    intro w _
    refine handled_of_returns (returns_closeFailed x username _ _ _) ?_
    intro s' state
    subst state
    exact .failed username _ _ _ free (ownAddress_record own w.steady)
  · refine handled_of_returns (returns_closeFailed x username _ _ _) ?_
    intro s' state
    subst state
    exact .failed username _ _ attempts free own

theorem handled_reservedLogin {x : SessionRef} {msg : Json} {s : Server}
    {username : String} (password : String) {attempts : LoginAttempts} (bare : s.name x = "")
    (nonempty : username ≠ "") (own : OwnAddress x s attempts) :
    Always Act.exec E (reservedLogin x username password) { s with loginAttempts := attempts }
      (Handled E x msg s) := by
  rw [reservedLogin_eq]
  refine (always_act _ _ _ _).mpr ?_
  intro w _
  by_cases busy : username ∈ s.loginInProgress
  · simp only [Act.exec, if_pos busy]
    exact handled_refusal _ _ own
  · by_cases online : (s.findSession username).isSome = true
    · have found : (Server.findSession { s with loginAttempts := attempts } username).isSome =
          true := online
      simp only [Act.exec, if_neg busy, if_pos found]
      exact handled_refusal _ _ own
    · have missing : ¬ (Server.findSession { s with loginAttempts := attempts }
          username).isSome = true := online
      have offline : ∀ y ∈ s.sessions, s.name y ≠ username := by
        intro y member same
        apply online
        simp only [Server.findSession, List.find?_isSome]
        exact ⟨y, member, by simpa using same⟩
      simp only [Act.exec, if_neg busy, if_neg missing]
      refine (always_act _ _ _ _).mpr ?_
      intro w₁ _
      refine (always_act _ _ _ _).mpr ?_
      intro w₂ _
      change Always Act.exec E ((passwordAccepted password (s.db.getStoredHash w₂.dbOk
        username)).bind _) (reserved { s with loginAttempts := attempts } x username) _
      refine always_then (returns_passwordAccepted password _ _) ?_
      rintro accepted s₁ ⟨same, checked⟩
      subst same
      cases accepted with
      | true =>
        have row := has_of_getStoredHash (checked rfl)
        exact handled_acceptLogin bare nonempty busy (.login offline row) own
      | false => exact handled_rejectLogin busy own

theorem handled_login {x : SessionRef} {msg : Json} {s : Server} (bare : s.name x = "") :
    Always Act.exec E (handleLogin x msg) s (Handled E x msg s) := by
  rw [handleLogin_eq]
  refine handled_valueOf fun username _ => handled_valueOf fun password _ => ?_
  cases checked : credentialError username password with
  | some content => exact handled_refusal _ content (ownAddress_refl x s)
  | none =>
    have nonempty := credentials_nonempty checked
    dsimp only
    unfold rateLimited
    split
    · exact handled_reservedLogin password bare nonempty (ownAddress_refl x s)
    · refine (always_act _ _ _ _).mpr ?_
      intro w _
      have own := ownAddress_limit x s w.steady
      cases limited : (isRateLimited s.loginAttempts w.steady x.ipAddress).1 with
      | true =>
        simp only [Act.exec, ret_bind, limited, if_true]
        exact handled_refusal _ _ own
      | false =>
        simp only [Act.exec, ret_bind, limited, Bool.false_eq_true, if_false]
        exact handled_reservedLogin password bare nonempty own

theorem handled_broadcast {x : SessionRef} {msg : Json} {s : Server} :
    Always Act.exec E (handleBroadcast x msg) s (Handled E x msg s) := by
  rw [handleBroadcast_eq]
  refine handled_valueOf fun content _ => ?_
  split
  · exact handled_refusal _ _ (ownAddress_refl x s)
  · split
    · exact handled_refusal _ _ (ownAddress_refl x s)
    · refine handled_of_returns (returns_acceptBroadcast x content s) ?_
      rintro s' ⟨now, w, _, state⟩
      subst state
      exact .spoke content now w.dbOk

theorem handled_private {x : SessionRef} {msg : Json} {s : Server} :
    Always Act.exec E (handlePrivate x msg) s (Handled E x msg s) := by
  rw [handlePrivate_eq]
  refine handled_valueOf fun toUser _ => handled_valueOf fun content _ => ?_
  cases privateError toUser content with
  | some text => exact handled_refusal _ _ (ownAddress_refl x s)
  | none =>
    refine (always_act _ _ _ _).mpr ?_
    intro w _
    simp only [Act.exec]
    cases s.findSession toUser with
    | none => exact handled_refusal _ _ (ownAddress_refl x s)
    | some target =>
      refine handled_of_returns (returns_deliverPrivate x target toUser content s) ?_
      rintro s' ⟨now, w₁, _, state⟩
      subst state
      exact .whispered target toUser content now w₁.dbOk

/-- A message handled alone ends in one of the ways listed. -/
theorem handled_route (x : SessionRef) (msg : Json) (s : Server) :
    Always Act.exec E (route x msg) s (Handled E x msg s) := by
  have refusal : ∀ code content, Always Act.exec E (sendError x code content) s
      (Handled E x msg s) := fun code content => handled_refusal code content (ownAddress_refl x s)
  have pong : Always Act.exec E (pure () : Proc Unit) s (Handled E x msg s) :=
    (always_ret _ s _).mpr .ignored
  rw [route_eq]
  refine handled_valueOf fun type _ => ?_
  refine (always_act _ _ _ _).mpr ?_
  intro w _
  change Always (I := serverInterface) Act.exec E (if (s.heap x.id).isAuthenticated then
    routeAuthenticated x msg type else routeUnauthenticated x msg type) s _
  by_cases authenticated : (s.heap x.id).isAuthenticated = true
  · rw [if_pos authenticated]
    unfold routeAuthenticated
    split
    · exact pong
    · split
      · exact handled_broadcast
      · split
        · exact handled_private
        · split
          · rw [handleHistoryReq_eq]
            refine handled_valueOf fun toUser _ => ?_
            refine handled_of_returns (returns_handleHistoryReq x toUser s) ?_
            rintro s' ⟨rows, state⟩
            subst state
            exact .recalled toUser rows
          · split
            · refine handled_of_returns (returns_handleLogout x s) ?_
              rintro s' (⟨_, state⟩ | ⟨bears, now, now', state⟩)
              · subst state
                exact .ignored
              · subst state
                exact .left now now' bears
            · exact refusal _ _
  · have bare : s.name x = "" := by
      by_contra bears
      exact authenticated ((isAuthenticated_iff _).mpr bears)
    rw [if_neg authenticated]
    unfold routeUnauthenticated
    split
    · exact handled_register bare
    · split
      · exact handled_login bare
      · split
        · exact pong
        · exact refusal _ _

end LinuxChat.Guarantees.Serial
