import LinuxChat.Source.Locking
import LinuxChat.Guarantees.Handlers

/-!
# No deadlock

Every path of every program acquires its mutexes in the order of a rank: `login_mutex_`,
then `sessions_mutex_`, then any one of the others, of which none is acquired while another
is held. The answer to a refused reservation, the only thing sent under a mutex of the
router, takes none.
-/

namespace LinuxChat.Source

/-- The order in which mutexes are acquired: `login_mutex_`, then `sessions_mutex_`, then any one
of the others. -/
def Mutex.rank : Mutex → Nat
  | login => 0
  | sessions => 1
  | _ => 2

theorem Mutex.rank_le (mutex : Mutex) : mutex.rank ≤ 2 := by
  cases mutex with
  | login => decide
  | sessions => decide
  | _ => exact Nat.le_refl 2

end LinuxChat.Source

namespace LinuxChat.Guarantees.DeadlockFreedom

open LinuxChat.Lib LinuxChat.Source Prog

/-! ## Blocks -/

/-- In order, without an exception, and with as much held at the end as at the start. -/
def Balanced {α : Type} (held : List (Mutex × Bool)) (p : LockProc α) : Prop :=
  p.Meets (inOrder Mutex.rank) (fun o now => (∃ value, o = .ok value) ∧ now = held) held

theorem balanced_doing (inner : Inner) (held : List (Mutex × Bool)) : Balanced held (doing inner) :=
  ⟨trivial, fun result => ⟨⟨result, rfl⟩, rfl⟩⟩

theorem Balanced.bind {α β : Type} {held : List (Mutex × Bool)} {p : LockProc α}
    {f : α → LockProc β} (first : Balanced held p) (second : ∀ value, Balanced held (f value)) :
    Balanced held (p.bind f) := by
  apply Meets.bind first
  · rintro value now ⟨_, same⟩
    rw [same]
    exact second value
  · rintro error now ⟨⟨value, impossible⟩, _⟩
    cases impossible

theorem balanced_within {α : Type} {held : List (Mutex × Bool)} {mutex : Mutex} {shared : Bool}
    {body : LockProc α} (above : ∀ entry ∈ held, entry.1.rank < mutex.rank)
    (inside : Balanced ((mutex, shared) :: held) body) :
    Balanced held (within mutex shared body) :=
  meets_within above inside

theorem balanced_guarded {action : Act} {held : List (Mutex × Bool)}
    (above : ∀ mutex shared, action.mutex = some (mutex, shared) →
      ∀ entry ∈ held, entry.1.rank < mutex.rank) : Balanced held (guarded action) := by
  unfold guarded
  split
  · rename_i mutex shared takes
    exact balanced_within (above mutex shared takes) (balanced_doing _ _)
  · exact balanced_doing _ _

/-- With nothing held, any mutex may come. -/
theorem balanced_guarded_free (action : Act) : Balanced [] (guarded action) :=
  balanced_guarded fun _ _ _ entry member => nomatch entry, member

variable {held : List (Mutex × Bool)}

/-- Under the lock of the session table, the lock of a name. -/
theorem balanced_getUsername (below : ∀ entry ∈ held, entry.1.rank < 2) (session : SessionRef) :
    Balanced held (guarded (.getUsername session)) := by
  apply balanced_guarded
  intro mutex shared takes
  cases takes
  exact below

theorem balanced_isAuthenticated (below : ∀ entry ∈ held, entry.1.rank < 2)
    (session : SessionRef) : Balanced held (guarded (.isAuthenticated session)) := by
  apply balanced_guarded
  intro mutex shared takes
  cases takes
  exact below

theorem balanced_scanNames (below : ∀ entry ∈ held, entry.1.rank < 2) (username : String)
    (table : List SessionRef) : Balanced held (scanNames username table) := by
  induction table with
  | nil => exact ⟨⟨none, rfl⟩, rfl⟩
  | cons session rest ih =>
    apply (balanced_getUsername below session).bind
    intro name
    split
    · exact ⟨⟨some session, rfl⟩, rfl⟩
    · exact ih

theorem balanced_scanTargets (below : ∀ entry ∈ held, entry.1.rank < 2) (excludeUsername : String)
    (table : List SessionRef) : Balanced held (scanTargets excludeUsername table) := by
  induction table with
  | nil => exact ⟨⟨[], rfl⟩, rfl⟩
  | cons session rest ih =>
    apply (balanced_isAuthenticated below session).bind
    intro authenticated
    split
    · exact ih
    · split
      · apply ih.bind
        intro targets
        exact ⟨⟨_, rfl⟩, rfl⟩
      · apply (balanced_getUsername below session).bind
        intro name
        apply ih.bind
        intro targets
        exact ⟨⟨_, rfl⟩, rfl⟩

/-- Both scans: the table first, then the names one by one. -/
theorem balanced_table {α : Type} (below : ∀ entry ∈ held, entry.1.rank < 1)
    {scan : List SessionRef → LockProc α}
    (inside : ∀ held, (∀ entry ∈ held, entry.1.rank < 2) → ∀ table, Balanced held (scan table)) :
    Balanced held (within .sessions false ((doing .table).bind scan)) := by
  apply balanced_within below
  apply (balanced_doing .table _).bind
  apply inside
  intro entry member
  rcases List.mem_cons.mp member with rfl | member
  · decide
  · exact Nat.lt_succ_of_lt (below entry member)

theorem balanced_findSession (below : ∀ entry ∈ held, entry.1.rank < 1) (username : String) :
    Balanced held (findSessionBlock username) :=
  balanced_table below fun _ below table => balanced_scanNames below username table

theorem balanced_broadcastTargets (below : ∀ entry ∈ held, entry.1.rank < 1)
    (excludeUsername : String) : Balanced held (broadcastTargetsBlock excludeUsername) :=
  balanced_table below fun _ below table => balanced_scanTargets below excludeUsername table

/-- What a thread holds between two actions. -/
def heldFor (owed : Bool) : List (Mutex × Bool) := if owed then [(.login, false)] else []

/-- A block starts with nothing held, and ends so unless it refuses a reservation. -/
def Closed (action : Act) (p : LockProc action.Res) : Prop :=
  p.Meets (inOrder Mutex.rank)
    (fun o now => ∃ result, o = .ok result ∧ now = heldFor (refuses action result)) []

theorem Balanced.closed {action : Act} {p : LockProc action.Res} (balanced : Balanced [] p)
    (keeps : ∀ result, refuses action result = false) : Closed action p := by
  apply Meets.mono balanced
  rintro o now ⟨⟨result, returned⟩, same⟩
  refine ⟨result, returned, ?_⟩
  rw [same, keeps result]
  rfl

theorem closed_reserveForRegister (username : String) :
    Closed (.reserveForRegister username) (reserveForRegisterBlock username) := by
  constructor
  · exact fun entry member => nomatch entry, member
  · intro _
    apply Meets.bind (balanced_doing (.isInProgress username) [(.login, false)])
    · rintro busy now ⟨_, rfl⟩
      cases busy with
      | true => exact ⟨false, rfl, rfl⟩
      | false => exact ⟨trivial, fun _ => ⟨trivial, fun _ => ⟨true, rfl, rfl⟩⟩⟩
    · rintro error now ⟨⟨_, impossible⟩, _⟩
      cases impossible

/-- Between the acquisition of `login_mutex_` and its release the table is searched. -/
theorem closed_reserveForLogin (username : String) :
    Closed (.reserveForLogin username) (reserveForLoginBlock username) := by
  have login : ∀ entry ∈ [(Mutex.login, false)], entry.1.rank < 1 := by decide
  constructor
  · exact fun entry member => nomatch entry, member
  · intro _
    apply Meets.bind (balanced_doing (.isInProgress username) [(.login, false)])
    · rintro busy now ⟨_, rfl⟩
      cases busy with
      | true => exact ⟨.inProgress, rfl, rfl⟩
      | false =>
        apply Meets.bind (balanced_findSession login username)
        · rintro found now ⟨_, rfl⟩
          cases found with
          | some session => exact ⟨.alreadyOnline, rfl, rfl⟩
          | none => exact ⟨trivial, fun _ => ⟨trivial, fun _ => ⟨.reserved, rfl, rfl⟩⟩⟩
        · rintro error now ⟨⟨_, impossible⟩, _⟩
          cases impossible
    · rintro error now ⟨⟨_, impossible⟩, _⟩
      cases impossible

theorem closed_block (action : Act) : Closed action (block action) := by
  cases action with
  | reserveForRegister username => exact closed_reserveForRegister username
  | reserveForLogin username => exact closed_reserveForLogin username
  | findSession username =>
    have free := @balanced_findSession [] (fun entry member => nomatch entry, member) username
    exact free.closed fun _ => rfl
  | broadcastTargets excludeUsername =>
    have free := @balanced_broadcastTargets [] (fun entry member => nomatch entry, member)
      excludeUsername
    exact free.closed fun _ => rfl
  | _ => exact (balanced_guarded_free _).closed fun _ => rfl

/-! ## Programs -/

/-- The answer to a refused reservation is sent without a mutex. -/
def answering : Monitor serverInterface Bool where
  next _ action result := refuses action result
  ok owed action := owed = true → ∃ session msg, action = .sendMsg session false msg

/-- The program answers every refusal so, and at once. -/
def Answers {α : Type} (owed : Bool) (p : Proc α) : Prop :=
  p.Meets answering (fun _ owed => owed = false) owed

/-- With its mutexes such a program is in order and ends with nothing held. -/
theorem Answers.expand {α : Type} {owed : Bool} {p : Proc α} (answers : Answers owed p) :
    (Source.expand owed p).Meets (inOrder Mutex.rank) (fun _ now => now = []) (heldFor owed) := by
  induction p generalizing owed with
  | ret value =>
    cases owed with
    | false => rfl
    | true => cases answers
  | raise error =>
    cases owed with
    | false => rfl
    | true => cases answers
  | act action next ih =>
    obtain ⟨plain, rest⟩ := answers
    cases owed with
    | false =>
      apply Meets.bind (closed_block action)
      · rintro result now ⟨_, returned, rfl⟩
        cases returned
        exact ih result (rest result)
      · rintro error now ⟨_, impossible, _⟩
        cases impossible
    | true =>
      obtain ⟨session, msg, rfl⟩ := plain rfl
      exact ⟨trivial, fun result => ⟨trivial, fun _ => ih result (rest result)⟩⟩

theorem Answers.bind {α β : Type} {p : Proc α} {f : α → Proc β} (first : Answers false p)
    (second : ∀ value, Answers false (f value)) : Answers false (p.bind f) := by
  apply Meets.bind first
  · intro value owed settled
    rw [settled]
    exact second value
  · intro error owed settled
    exact settled

/-- Every action but the two reservations. -/
def Plain : Act → Prop
  | .reserveForRegister _ | .reserveForLogin _ => False
  | _ => True

theorem answers_of_plain {α : Type} {p : Proc α} (plain : p.Forall Plain) : Answers false p := by
  have keeps : ∀ action, Plain action → ∀ owed, owed = false →
      answering.ok owed action ∧ ∀ result, answering.next owed action result = false := by
    intro action plain owed settled
    subst settled
    refine ⟨fun impossible => (nomatch impossible), fun result => ?_⟩
    cases action with
    | reserveForRegister => cases plain
    | reserveForLogin => cases plain
    | _ => rfl
  exact meets_of_forall (J := fun owed => owed = false) keeps plain rfl

theorem plain_announcing : Announcing Plain where
  clock := trivial
  list := trivial
  scan _ := trivial
  find _ := trivial
  users _ _ _ := trivial
  notify _ _ _ := trivial

theorem plain_departing : Departing Plain where
  toAnnouncing := plain_announcing
  gate _ := trivial
  name _ := trivial
  offline _ := trivial
  unname _ := trivial

theorem plain_chatting : Chatting Plain where
  clock := trivial
  name _ := trivial
  store _ _ _ _ := trivial
  scan _ := trivial
  search _ := trivial
  find _ := trivial
  read _ _ _ := trivial
  send _ _ := trivial
  error _ _ _ := trivial

theorem plain_serving : Serving Plain where
  toAnnouncing := plain_announcing
  gate _ := trivial
  name _ := trivial
  offline _ := trivial
  unname _ := trivial
  erase _ := trivial
  registered := trivial
  pending _ := trivial
  cleanup _ := trivial
  unpend _ := trivial
  drop _ := trivial
  store _ _ := trivial
  receive _ := trivial
  handler := trivial
  stamp _ := trivial
  enqueue _ := trivial
  ping _ := trivial

theorem plain_closeLogin (session : SessionRef) (username : String) :
    (closeLogin session username).Forall Plain := by
  unfold closeLogin
  rw [finishLogin_eq]
  apply Forall.bind
  · have announces : (announceLogin session username).Forall Plain :=
      forall_announceLogin plain_announcing trivial trivial fun _ _ => trivial
    exact ⟨trivial, fun _ => ⟨trivial, fun _ => announces⟩⟩
  · exact fun _ => ⟨trivial, fun _ => ⟨trivial, fun _ => trivial⟩⟩

theorem plain_closeFailed (session : SessionRef) (username code content : String) :
    (closeFailed session username code content).Forall Plain :=
  forall_closeFailed trivial trivial trivial

theorem plain_completeRegister (session : SessionRef) (username hash : String) :
    (completeRegister session username hash).Forall Plain := by
  rw [completeRegister_eq]
  constructor
  · trivial
  · intro registered
    dsimp only
    split
    · exact plain_closeLogin session username
    · exact plain_closeFailed session username _ _

/-- The answer to a refusal. -/
theorem answers_refusal (session : SessionRef) (code content : String) :
    Answers true (sendError session code content) :=
  ⟨fun _ => ⟨_, _, rfl⟩, fun _ => rfl⟩

theorem answers_handleRegister (session : SessionRef) (msg : Json) :
    Answers false (handleRegister session msg) := by
  rw [handleRegister_eq]
  apply (answers_of_plain (forall_valueOf msg "from" "")).bind
  intro username
  apply (answers_of_plain (forall_valueOf msg "content" "")).bind
  intro password
  split
  · exact answers_of_plain (forall_sendError trivial)
  · constructor
    · exact fun impossible => nomatch impossible
    · intro reserved
      cases reserved with
      | false => exact answers_refusal session _ _
      | true =>
        apply answers_of_plain
        constructor
        · trivial
        · intro _
          apply (forall_hashPassword password trivial fun _ => trivial).bind
          exact fun hash => plain_completeRegister session username hash

theorem answers_reservedLogin (session : SessionRef) (username password : String) :
    Answers false (reservedLogin session username password) := by
  rw [reservedLogin_eq]
  constructor
  · exact fun impossible => nomatch impossible
  · intro outcome
    cases outcome with
    | inProgress => exact answers_refusal session _ _
    | alreadyOnline => exact answers_refusal session _ _
    | reserved =>
      apply answers_of_plain
      refine ⟨trivial, fun _ => ⟨trivial, fun storedHash => ?_⟩⟩
      apply (forall_passwordAccepted password storedHash fun _ => trivial).bind
      intro accepted
      split
      · rw [acceptLogin_eq]
        split
        · exact ⟨trivial, fun _ => plain_closeLogin session username⟩
        · exact plain_closeLogin session username
      · exact forall_rejectLogin trivial trivial trivial trivial

theorem answers_handleLogin (session : SessionRef) (msg : Json) :
    Answers false (handleLogin session msg) := by
  rw [handleLogin_eq]
  apply (answers_of_plain (forall_valueOf msg "from" "")).bind
  intro username
  apply (answers_of_plain (forall_valueOf msg "content" "")).bind
  intro password
  split
  · exact answers_of_plain (forall_sendError trivial)
  · apply (answers_of_plain (forall_rateLimited session trivial)).bind
    intro limited
    split
    · exact answers_of_plain (forall_sendError trivial)
    · exact answers_reservedLogin session username password

theorem answers_route (session : SessionRef) (msg : Json) : Answers false (route session msg) := by
  rw [route_eq]
  apply (answers_of_plain (forall_valueOf msg "type" "")).bind
  intro type
  constructor
  · exact fun impossible => nomatch impossible
  · intro authenticated
    cases authenticated with
    | true =>
      exact answers_of_plain (forall_routeAuthenticated plain_chatting plain_departing session msg type)
    | false =>
      change Answers false (routeUnauthenticated session msg type)
      unfold routeUnauthenticated
      split
      · exact answers_handleRegister session msg
      · split
        · exact answers_handleLogin session msg
        · split
          · rfl
          · exact answers_of_plain (forall_sendError trivial)

theorem answers_runTask (task : Task) : Answers false (runTask task) := by
  have drop : Answers false (.act (.dropSession task.session) .ret) :=
    answers_of_plain ⟨trivial, fun _ => trivial⟩
  rw [runTask_eq]
  constructor
  · exact fun impossible => nomatch impossible
  · intro current
    cases current with
    | false => exact drop
    | true =>
      have caught : Answers false ((route task.session task.msg).tryCatch fun _ => .ret ()) := by
        apply Meets.tryCatch (answers_route task.session task.msg)
        · exact fun value owed settled => settled
        · exact fun error owed settled => settled
      exact caught.bind fun _ => drop

theorem answers_event (e : Event) : Answers false e.program :=
  answers_of_plain (forall_event plain_serving e)

theorem inOrder_workerRound : workerRound.Meets (inOrder Mutex.rank) AllReleased [] := by
  have popped : Balanced [] (within .pool false (doing .popTask)) :=
    balanced_within (fun entry member => nomatch entry, member) (balanced_doing _ _)
  apply Meets.bind popped
  · rintro taken now ⟨_, rfl⟩
    cases taken with
    | none => rfl
    | some task => exact (answers_runTask task).expand
  · rintro error now ⟨⟨_, impossible⟩, _⟩
    cases impossible

/-! ## What the blocks do

Executed alone, a block does what its action does in one step, and the program made of the
blocks what the program of the actions does.
-/

section Alone

variable {t : Nat} {w : World} {s : Server} {locks : Locks Mutex}

theorem guarded_alone {action : Act}
    (apart : ∀ mutex shared, action.mutex = some (mutex, shared) →
      ∀ entry ∈ locks t, entry.1 ≠ mutex) :
    eval (locking (fun _ => Inner.exec) t) w (guarded action) (s, locks) =
      (.ok (action.exec w s).1, (action.exec w s).2, locks) := by
  unfold guarded
  split
  · rename_i mutex shared takes
    apply eval_within (apart mutex shared takes)
    intro inner _
    rfl
  · rfl

theorem ne_of_rank {entry : Mutex × Bool} {mutex : Mutex} (below : entry.1.rank < mutex.rank) :
    entry.1 ≠ mutex := by
  intro same
  rw [same] at below
  omega

theorem getUsername_alone (below : ∀ entry ∈ locks t, entry.1.rank < 2) (session : SessionRef) :
    eval (locking (fun _ => Inner.exec) t) w (guarded (.getUsername session)) (s, locks) =
      (.ok (s.name session), s, locks) := by
  apply guarded_alone
  intro mutex shared takes entry member
  cases takes
  exact ne_of_rank (below entry member)

theorem isAuthenticated_alone (below : ∀ entry ∈ locks t, entry.1.rank < 2)
    (session : SessionRef) :
    eval (locking (fun _ => Inner.exec) t) w (guarded (.isAuthenticated session)) (s, locks) =
      (.ok (s.heap session.id).isAuthenticated, s, locks) := by
  apply guarded_alone
  intro mutex shared takes entry member
  cases takes
  exact ne_of_rank (below entry member)

theorem scanNames_alone (below : ∀ entry ∈ locks t, entry.1.rank < 2) (username : String)
    (table : List SessionRef) :
    eval (locking (fun _ => Inner.exec) t) w (scanNames username table) (s, locks) =
      (.ok (table.find? fun session => s.name session = username), s, locks) := by
  induction table with
  | nil => rfl
  | cons session rest ih =>
    refine (eval_bind_ok _ _ _ (getUsername_alone below session)).trans ?_
    by_cases named : s.name session = username
    · rw [if_pos named, List.find?_cons_of_pos (by simpa using named)]
      rfl
    · rw [if_neg named, List.find?_cons_of_neg (by simpa using named)]
      exact ih

theorem scanTargets_alone (below : ∀ entry ∈ locks t, entry.1.rank < 2) (excludeUsername : String)
    (table : List SessionRef) :
    eval (locking (fun _ => Inner.exec) t) w (scanTargets excludeUsername table) (s, locks) =
      (.ok (table.filter fun session =>
        (s.heap session.id).isAuthenticated &&
          (excludeUsername.isEmpty || s.name session ≠ excludeUsername)), s, locks) := by
  induction table with
  | nil => rfl
  | cons session rest ih =>
    refine (eval_bind_ok _ _ _ (isAuthenticated_alone below session)).trans ?_
    cases gate : (s.heap session.id).isAuthenticated with
    | false =>
      rw [List.filter_cons_of_neg (by simp [gate])]
      exact ih
    | true =>
      cases anyone : excludeUsername.isEmpty with
      | true =>
        rw [anyone] at ih
        refine (eval_bind_ok _ _ _ ih).trans ?_
        rw [List.filter_cons_of_pos (by simp [gate])]
        rfl
      | false =>
        rw [anyone] at ih
        refine (eval_bind_ok _ _ _ (getUsername_alone below session)).trans ?_
        refine (eval_bind_ok _ _ _ ih).trans ?_
        by_cases excluded : s.name session = excludeUsername
        · rw [if_pos excluded, List.filter_cons_of_neg (by simp [excluded])]
          rfl
        · rw [if_neg excluded, List.filter_cons_of_pos (by simp [gate, excluded])]
          rfl

/-- Both scans. -/
theorem table_alone {α : Type} {scan : List SessionRef → LockProc α} {value : α}
    (below : ∀ entry ∈ locks t, entry.1.rank < 1)
    (inside : ∀ inner : Locks Mutex, (∀ entry ∈ inner t, entry.1.rank < 2) →
      eval (locking (fun _ => Inner.exec) t) w (scan s.sessions) (s, inner) = (.ok value, s, inner)) :
    eval (locking (fun _ => Inner.exec) t) w (within .sessions false ((doing .table).bind scan))
      (s, locks) = (.ok value, s, locks) := by
  apply eval_within
  · exact fun entry member => ne_of_rank (below entry member)
  · rintro inner rfl
    apply inside
    intro entry member
    dsimp only at member
    rw [Function.update_self] at member
    rcases List.mem_cons.mp member with rfl | member
    · decide
    · exact Nat.lt_succ_of_lt (below entry member)

theorem findSession_alone (below : ∀ entry ∈ locks t, entry.1.rank < 1) (username : String) :
    eval (locking (fun _ => Inner.exec) t) w (findSessionBlock username) (s, locks) =
      (.ok (s.findSession username), s, locks) :=
  table_alone below fun _ below => scanNames_alone below username s.sessions

theorem broadcastTargets_alone (below : ∀ entry ∈ locks t, entry.1.rank < 1)
    (excludeUsername : String) :
    eval (locking (fun _ => Inner.exec) t) w (broadcastTargetsBlock excludeUsername) (s, locks) =
      (.ok (s.broadcastTargets excludeUsername), s, locks) :=
  table_alone below fun _ below => scanTargets_alone below excludeUsername s.sessions

theorem update_heldFor (free : locks t = []) : Function.update locks t (heldFor false) = locks := by
  rw [show heldFor false = locks t from free.symm, Function.update_eq_self]

theorem reserveForRegister_alone (free : locks t = []) (username : String) :
    eval (locking (fun _ => Inner.exec) t) w (reserveForRegisterBlock username) (s, locks) =
      (.ok ((Act.reserveForRegister username).exec w s).1,
        ((Act.reserveForRegister username).exec w s).2,
        Function.update locks t (heldFor
          (refuses (.reserveForRegister username) ((Act.reserveForRegister username).exec w s).1))) := by
  by_cases busy : username ∈ s.loginInProgress
  · simp [reserveForRegisterBlock, eval, locking, Inner.exec, Act.exec, LockAct.after, refuses,
      heldFor, busy, free]
  · simp [reserveForRegisterBlock, eval, locking, Inner.exec, Act.exec, LockAct.after, refuses,
      heldFor, busy, free]

theorem reserveForLogin_alone (free : locks t = []) (username : String) :
    eval (locking (fun _ => Inner.exec) t) w (reserveForLoginBlock username) (s, locks) =
      (.ok ((Act.reserveForLogin username).exec w s).1,
        ((Act.reserveForLogin username).exec w s).2,
        Function.update locks t (heldFor
          (refuses (.reserveForLogin username) ((Act.reserveForLogin username).exec w s).1))) := by
  by_cases busy : username ∈ s.loginInProgress
  · simp [reserveForLoginBlock, eval, locking, Inner.exec, Act.exec, LockAct.after, refuses,
      ReserveOutcome.isReserved, heldFor, busy, free]
  · have below : ∀ entry ∈ Function.update locks t [(Mutex.login, false)] t, entry.1.rank < 1 := by
      rw [Function.update_self]
      decide
    have searched := @findSession_alone t w s _ below username
    simp only [reserveForLoginBlock, bind_eq, act_bind, ret_bind, eval, locking, Inner.exec,
      LockAct.after, free, busy, decide_false, Bool.false_eq_true, if_false]
    rw [eval_bind_ok _ _ _ searched]
    cases found : s.findSession username with
    | none =>
      simp [eval, locking, Inner.exec, Act.exec, LockAct.after, refuses,
        ReserveOutcome.isReserved, heldFor, busy, found]
    | some session =>
      simp [eval, Act.exec, refuses, ReserveOutcome.isReserved, heldFor, busy, found]

theorem block_alone (free : locks t = []) (action : Act) :
    eval (locking (fun _ => Inner.exec) t) w (block action) (s, locks) =
      (.ok (action.exec w s).1, (action.exec w s).2,
        Function.update locks t (heldFor (refuses action (action.exec w s).1))) := by
  have below : ∀ entry ∈ locks t, entry.1.rank < 1 := by
    rw [free]
    exact fun entry member => nomatch entry, member
  have plain : ∀ action : Act,
      eval (locking (fun _ => Inner.exec) t) w (guarded action) (s, locks) =
        (.ok (action.exec w s).1, (action.exec w s).2,
          Function.update locks t (heldFor false)) := by
    intro action
    rw [update_heldFor free]
    apply guarded_alone
    intro mutex shared _ entry member
    rw [free] at member
    cases member
  cases action with
  | reserveForRegister username => exact reserveForRegister_alone free username
  | reserveForLogin username => exact reserveForLogin_alone free username
  | findSession username =>
    have searched := @findSession_alone t w s locks below username
    change _ = (_, _, Function.update locks t (heldFor false))
    rw [update_heldFor free]
    exact searched
  | broadcastTargets excludeUsername =>
    have scanned := @broadcastTargets_alone t w s locks below excludeUsername
    change _ = (_, _, Function.update locks t (heldFor false))
    rw [update_heldFor free]
    exact scanned
  | _ => exact plain _

/-- The program with its mutexes computes what the program of the actions does. -/
theorem expand_alone {α : Type} {p : Proc α} {owed : Bool} (answers : Answers owed p)
    (holds : locks t = heldFor owed) :
    eval (locking (fun _ => Inner.exec) t) w (expand owed p) (s, locks) =
      ((eval Act.exec w p s).1, (eval Act.exec w p s).2, Function.update locks t []) := by
  induction p generalizing owed s locks with
  | ret value =>
    cases owed with
    | false =>
      rw [show ([] : List (Mutex × Bool)) = locks t from holds.symm, Function.update_eq_self]
      rfl
    | true => cases answers
  | raise error =>
    cases owed with
    | false =>
      rw [show ([] : List (Mutex × Bool)) = locks t from holds.symm, Function.update_eq_self]
      rfl
    | true => cases answers
  | act action next ih =>
    obtain ⟨plain, rest⟩ := answers
    cases owed with
    | false =>
      have done := @block_alone t w s locks holds action
      have later := ih (action.exec w s).1 (rest _) (s := (action.exec w s).2)
        (Function.update_self t (heldFor (refuses action (action.exec w s).1)) locks)
      rw [Function.update_idem] at later
      exact (eval_bind_ok _ _ _ done).trans later
    | true =>
      obtain ⟨session, msg, rfl⟩ := plain rfl
      have later := ih ((Act.sendMsg session false msg).exec w s).1 (rest _)
        (s := ((Act.sendMsg session false msg).exec w s).2)
        (Function.update_self t (heldFor false) locks)
      rw [Function.update_idem] at later
      have released : (LockAct.release (I := ⟨Inner, Inner.Res⟩) Mutex.login).after (locks t) =
          heldFor false := by
        rw [holds]
        rfl
      rw [← released] at later
      exact later

end Alone

/-! ## The server -/

theorem ordered_server {workers : Nat} {db : Database}
    {c : Config (lockInterface ⟨Inner, Inner.Res⟩ Mutex) Exn (Server × Locks Mutex)}
    (run : (lockMachine workers).Reaches blocking (lockBoot db) c) : Ordered Mutex.rank c := by
  have start : Ordered Mutex.rank (lockBoot db) := fun _ => rfl
  have programs : ∀ t p s s', LockStart workers t p s s' →
      s'.2 = s.2 ∧ p.Meets (inOrder Mutex.rank) AllReleased [] := by
    intro t p s s' started
    cases started with
    | event e => exact ⟨rfl, (answers_event e).expand⟩
    | round => exact ⟨rfl, inOrder_workerRound⟩
  exact ordered_reached programs start run

/-- In no state that the server can reach do threads wait for each other in a cycle. -/
theorem no_deadlock (workers : Nat) (db : Database)
    (c : Config (lockInterface ⟨Inner, Inner.Res⟩ Mutex) Exn (Server × Locks Mutex))
    (run : (lockMachine workers).Reaches blocking (lockBoot db) c) (t : Nat) :
    ¬ Relation.TransGen (WaitsFor c) t t :=
  (ordered_server run).acyclic t

/-- And while some thread is in a program, some thread can go on. -/
theorem never_stuck (workers : Nat) (db : Database)
    (c : Config (lockInterface ⟨Inner, Inner.Res⟩ Mutex) Exn (Server × Locks Mutex))
    (run : (lockMachine workers).Reaches blocking (lockBoot db) c) {t : Nat}
    (busy : ¬ (c.thread t).Halted) :
    ∃ u action next, c.thread u = .act action next ∧ blocking u action c.shared :=
  (ordered_server run).progress Mutex.rank_le busy

/-- A worker waits for the pool's mutex, which another worker has. -/
theorem no_deadlock_waiting :
    ∃ c, (lockMachine 2).Reaches blocking (lockBoot {}) c ∧ WaitsFor c 2 1 ∧
      ∀ t, ¬ Relation.TransGen (WaitsFor c) t t := by
  have start : (lockMachine 2).Reaches blocking (lockBoot {}) (lockBoot {}) := .refl
  have first := start.spawn (lockMachine 2) 1 workerRound _ rfl (.round _ (by decide) (by decide))
  have second := first.spawn (lockMachine 2) 2 workerRound _ rfl (.round _ (by decide) (by decide))
  have free : Available (fun _ => [] : Locks Mutex) .pool false :=
    fun _ _ member => nomatch member
  have run := second.tail (.act (t := 1) default rfl free)
  refine ⟨_, run, ?_, fun t => no_deadlock 2 {} _ run t⟩
  exact ⟨.pool, false, _, false, rfl, List.mem_singleton.mpr rfl⟩

end LinuxChat.Guarantees.DeadlockFreedom
