import LinuxChat.Guarantees.Effects
import LinuxChat.Guarantees.Handlers

/-!
# The login limiter over timed runs

`handle_login` (server/src/message_router.cpp:351-403) asks `is_rate_limited`,
then records a failure or clears the record of the address. A record that was
never blocked still has the default `blocked_until`, which is always in the past:
the check (:172) erases it before a second failure can be counted. So the limiter
never answers RATE_LIMITED when LOGINs are handled one at a time, and five failures
in a minute are never followed by a block.
-/

namespace LinuxChat.Guarantees.BruteForce

open LinuxChat.Lib LinuxChat.Source Prog

/-! ## Runs -/

/-- One LOGIN that was handled: whose, when, and the actions of its handler. -/
structure Handled where
  session : SessionRef
  time : Nat
  log : List Act

namespace Handled

/-- The client got an ERROR frame with this code for the request. -/
def answered (e : Handled) (code : String) : Prop :=
  ∃ content, Act.sendMsg e.session false (errorFrame code content) ∈ e.log

/-- The client got LOGIN_OK for it. -/
def accepted (e : Handled) : Prop :=
  ∃ username, Act.sendMsg e.session false (okFrame "LOGIN_OK" username) ∈ e.log

/-- The stored hash was read. -/
def consulted (e : Handled) : Prop :=
  ∃ username, Act.getStoredHash username ∈ e.log

end Handled

/-- The message has a name and a password that pass the checks of `handle_login`. -/
def PassesChecks (msg : Json) : Prop :=
  ∃ username password, Reads msg username password

/-- LOGINs handled one at a time at positive times that never decrease, from a
server whose limiter is empty. Every clock reading of a LOGIN is at its time or
later. Between two LOGINs anything may happen that leaves the limiter alone. -/
inductive LoginRun : List Handled → Server → Prop
  | start {s : Server} (empty : s.loginAttempts = fun _ => none) : LoginRun [] s
  | elsewhere {history : List Handled} {s s' : Server} (run : LoginRun history s)
      (same : s'.loginAttempts = s.loginAttempts) : LoginRun history s'
  | login {history : List Handled} {s s' : Server} {session : SessionRef} {msg : Json}
      {time : Nat} {o : Except Exn Unit} {log : List Act} (run : LoginRun history s)
      (checked : PassesChecks msg) (positive : 0 < time)
      (later : ∀ e ∈ history, e.time ≤ time)
      (handled : Runs loggedExec (fun w => time ≤ w.steady) (handleLogin session msg)
        (s, []) o (s', log)) :
      LoginRun (history ++ [⟨session, time, log⟩]) s'

/-- The five LOGINs at `fails` failed within a minute, all from the address of the
LOGIN at `next`, with no success from there in between, and `next` came in the
block time after the fifth. -/
structure Demands (history : List Handled) (fails : Fin 5 → Fin history.length)
    (next : Fin history.length) : Prop where
  ordered : StrictMono fails
  after : fails 4 < next
  known : (history.get next).session.ipAddress ≠ ""
  sameAddress : ∀ k,
    (history.get (fails k)).session.ipAddress = (history.get next).session.ipAddress
  failed : ∀ k, (history.get (fails k)).answered "WRONG_PASSWORD"
  noSuccess : ∀ k, fails 0 < k → k < fails 4 →
    (history.get k).session.ipAddress = (history.get next).session.ipAddress →
      ¬ (history.get k).accepted
  span : (history.get (fails 4)).time ≤ (history.get (fails 0)).time + seconds 60
  within : (history.get next).time ≤ (history.get (fails 4)).time + seconds 300

/-- What is owed to a LOGIN in the block time. -/
def Blocked (e : Handled) : Prop :=
  e.answered "RATE_LIMITED" ∧ ¬ e.consulted

/-! ## The limiter's record -/

/-- No record of the limiter blocks at a positive time. -/
def Unblocked (attempts : LoginAttempts) : Prop :=
  ∀ ip attempt, attempts ip = some attempt → attempt.blockedUntil = 0

theorem unblocked_erase {attempts : LoginAttempts} (h : Unblocked attempts) (ip : String) :
    Unblocked (Function.update attempts ip none) := by
  intro other attempt found
  by_cases same : other = ip
  · subst same
    simp at found
  · rw [Function.update_of_ne same] at found
    exact h other attempt found

/-- At a positive time the check passes, and leaves no record of the address. -/
theorem isRateLimited_unblocked {attempts : LoginAttempts} {now : Nat} (h : Unblocked attempts)
    (positive : 0 < now) (ip : String) :
    (isRateLimited attempts now ip).1 = false ∧
      Unblocked (isRateLimited attempts now ip).2 ∧ (isRateLimited attempts now ip).2 ip = none := by
  unfold isRateLimited
  cases found : attempts ip with
  | none => exact ⟨rfl, h, found⟩
  | some attempt =>
    have past : now > attempt.blockedUntil := by
      rw [h ip attempt found]
      exact positive
    simp only [if_pos past]
    exact ⟨trivial, unblocked_erase h ip, by simp⟩

/-- The first failure of an address does not block it. -/
theorem recordFailedLogin_unblocked {attempts : LoginAttempts} {now : Nat} {ip : String}
    (h : Unblocked attempts) (fresh : attempts ip = none) :
    Unblocked (recordFailedLogin attempts now ip) := by
  intro other attempt found
  unfold recordFailedLogin at found
  by_cases same : other = ip
  · subst same
    simp only [fresh, Option.getD_none, Function.update_self, Option.some.injEq] at found
    rw [← found]
    simp [maxLoginAttempts]
  · rw [Function.update_of_ne same] at found
    exact h other attempt found

/-! ## One LOGIN -/

/-- Actions that neither count a failure, nor ask the limiter, nor send its answer. -/
def NotLimiting : Act → Prop
  | .isRateLimited _ => False
  | .recordFailedLogin _ => False
  | .sendMsg _ _ msg => ∀ content, msg ≠ errorFrame "RATE_LIMITED" content
  | _ => True

theorem errorFrame_inj {code code' content content' : String}
    (h : errorFrame code content = errorFrame code' content') : code = code' := by
  simp only [errorFrame, Json.object.injEq, List.cons.injEq, Prod.mk.injEq, Json.string.injEq] at h
  exact h.2.1.2

theorem notLimiting_errorFrame {code content : String} {session : SessionRef} {locked : Bool}
    (other : code ≠ "RATE_LIMITED") :
    NotLimiting (.sendMsg session locked (errorFrame code content)) :=
  fun _ same => other (errorFrame_inj same)

theorem notLimiting_announcing : Announcing NotLimiting where
  clock := trivial
  list := trivial
  scan _ := trivial
  find _ := trivial
  users _ _ _ content same := by simp [userListFrame, errorFrame] at same
  notify _ _ _ content same := by simp [notifyFrame, errorFrame] at same

/-- What holds between LOGINs, and of the actions of one so far. -/
def Calm (s : Server × List Act) : Prop :=
  Unblocked s.1.loginAttempts ∧
    ∀ session content, Act.sendMsg session false (errorFrame "RATE_LIMITED" content) ∉ s.2

/-- After the check of `handle_login`: nothing is recorded of the session's address. -/
def Passed (session : SessionRef) (s : Server × List Act) : Prop :=
  Calm s ∧ (session.ipAddress ≠ "" → s.1.loginAttempts session.ipAddress = none)

/-- The steady clock does not go back behind this time. -/
abbrev since (time : Nat) : World → Prop := fun w => time ≤ w.steady

theorem notLimiting_attempts {action : Act} (h : NotLimiting action) (w : World) (s : Server) :
    (action.exec w s).2.loginAttempts = s.loginAttempts ∨
      ∃ ip, (action.exec w s).2.loginAttempts = Function.update s.loginAttempts ip none := by
  rw [exec_loginAttempts]
  cases action with
  | isRateLimited | recordFailedLogin => cases h
  | clearLoginAttempts ip => exact Or.inr ⟨ip, rfl⟩
  | _ => exact Or.inl rfl

theorem calm_step (action : Act) (h : NotLimiting action) (w : World) {s : Server × List Act}
    (calm : Calm s) : Calm (loggedExec w action s).2 := by
  obtain ⟨unblocked, silent⟩ := calm
  constructor
  · rcases notLimiting_attempts h w s.1 with same | ⟨ip, erased⟩
    · simp only [loggedExec, logging, same]
      exact unblocked
    · simp only [loggedExec, logging, erased]
      exact unblocked_erase unblocked ip
  · intro session content member
    rcases List.mem_append.mp member with old | new
    · exact silent session content old
    · rw [← List.mem_singleton.mp new] at h
      exact h content rfl

theorem passed_step {session : SessionRef} (action : Act) (h : NotLimiting action) (w : World)
    {s : Server × List Act} (passed : Passed session s) :
    Passed session (loggedExec w action s).2 := by
  refine ⟨calm_step action h w passed.1, fun known => ?_⟩
  rcases notLimiting_attempts h w s.1 with same | ⟨ip, erased⟩
  · simp only [loggedExec, logging, same]
    exact passed.2 known
  · simp only [loggedExec, logging, erased]
    by_cases own : session.ipAddress = ip
    · rw [own]
      simp
    · rw [Function.update_of_ne own]
      exact passed.2 known

/-- A piece of a handler that leaves the limiter alone. -/
theorem passed_of_forall {α : Type} {time : Nat} {session : SessionRef} {p : Proc α}
    (h : p.Forall NotLimiting) {s : Server × List Act} (passed : Passed session s) :
    Always loggedExec (since time) p s fun _ s' => Passed session s' :=
  always_of_forall (fun _ quiet _ before w _ => passed_step _ quiet w before) h passed

theorem calm_of_forall {time : Nat} {p : Proc Unit} (h : p.Forall NotLimiting)
    {s : Server × List Act} (calm : Calm s) :
    Always loggedExec (since time) p s fun _ s' => Calm s' :=
  always_of_forall (fun _ quiet _ before w _ => calm_step _ quiet w before) h calm

theorem forall_acceptLogin {session : SessionRef} {username : String} :
    (acceptLogin session username).Forall NotLimiting := by
  have finish : (finishLogin session username).Forall NotLimiting := by
    rw [finishLogin_eq]
    refine ⟨trivial, fun _ => ⟨trivial, fun _ => ?_⟩⟩
    refine forall_announceLogin notLimiting_announcing ?_ trivial ?_
    · intro content same
      simp [okFrame, errorFrame] at same
    · intro target rows content same
      simp [historyFrame, errorFrame] at same
  have ends : (Prog.bind (finishLogin session username) fun _ =>
      .act (.clearPendingLogin session) fun _ =>
        .act (.releaseReservation username) .ret).Forall NotLimiting :=
    finish.bind fun _ => ⟨trivial, fun _ => ⟨trivial, fun _ => trivial⟩⟩
  unfold acceptLogin
  by_cases unknown : session.ipAddress.isEmpty = true
  · simp only [unknown]
    exact ends
  · simp only [unknown]
    exact ⟨trivial, fun _ => ends⟩

theorem rejectLogin_calm {time : Nat} {session : SessionRef} {username : String}
    {s : Server × List Act} (passed : Passed session s) :
    Always loggedExec (since time) (rejectLogin session username) s
      fun _ s' => Calm s' := by
  have ends : (Prog.act (.releaseReservation username) fun _ =>
      .act (.clearPendingLogin session) fun _ =>
        sendError session "WRONG_PASSWORD" "密码错误" : Proc Unit).Forall NotLimiting :=
    ⟨trivial, fun _ => ⟨trivial, fun _ =>
      forall_sendError (notLimiting_errorFrame (by decide))⟩⟩
  unfold rejectLogin
  by_cases unknown : session.ipAddress.isEmpty = true
  · simp only [unknown]
    exact calm_of_forall ends passed.1
  · simp only [unknown]
    have known : session.ipAddress ≠ "" := by simpa using unknown
    refine (always_act _ _ _ _).mpr fun w _ => calm_of_forall ends ?_
    refine ⟨recordFailedLogin_unblocked passed.1.1 (passed.2 known), ?_⟩
    intro other content member
    rcases List.mem_append.mp member with old | new
    · exact passed.1.2 other content old
    · cases List.mem_singleton.mp new

theorem reservedLogin_calm {time : Nat} {session : SessionRef} {username password : String}
    {s : Server × List Act} (passed : Passed session s) :
    Always loggedExec (since time) (reservedLogin session username password) s
      fun _ s' => Calm s' := by
  unfold reservedLogin
  simp only [bind_eq, act_bind, ret_bind]
  refine (always_act _ _ _ _).mpr fun w _ => ?_
  have passed₁ := passed_step (.reserveForLogin username) trivial w passed
  split
  · exact calm_of_forall (forall_sendError (notLimiting_errorFrame (by decide))) passed₁.1
  · exact calm_of_forall (forall_sendError (notLimiting_errorFrame (by decide))) passed₁.1
  · refine (always_act _ _ _ _).mpr fun w₁ _ => (always_act _ _ _ _).mpr fun w₂ _ => ?_
    have passed₂ := passed_step (.setPendingLogin session username) trivial w₁ passed₁
    have passed₃ := passed_step (.getStoredHash username) trivial w₂ passed₂
    rw [always_bind]
    refine (passed_of_forall (forall_passwordAccepted _ _ fun _ => trivial) passed₃).mono
      fun o s₄ passed₄ => ?_
    cases o with
    | error error => exact passed₄.1
    | ok accepted =>
      by_cases granted : accepted = true
      · simp only [if_pos granted]
        exact calm_of_forall forall_acceptLogin passed₄.1
      · simp only [if_neg granted]
        exact rejectLogin_calm passed₄

/-- A LOGIN at a positive time does not answer RATE_LIMITED, and leaves a limiter
that blocks nobody. -/
theorem handleLogin_calm {s : Server} {session : SessionRef} {msg : Json} {time : Nat}
    (unblocked : Unblocked s.loginAttempts) (checked : PassesChecks msg) (positive : 0 < time) :
    Always loggedExec (since time) (handleLogin session msg) (s, [])
      fun _ s' => Calm s' := by
  obtain ⟨username, password, hasName, hasPassword, checks⟩ := checked
  have start : Calm (s, []) := ⟨unblocked, fun _ _ => List.not_mem_nil⟩
  unfold handleLogin valueOf
  simp only [bind_eq, hasName, hasPassword, ofExcept_ok, ret_bind, checks]
  unfold rateLimited
  by_cases unknown : session.ipAddress.isEmpty = true
  · simp only [unknown, pure_eq, ret_bind, if_true]
    have none : session.ipAddress = "" := by simpa using unknown
    exact reservedLogin_calm ⟨start, fun known => absurd none known⟩
  · simp only [unknown]
    refine (always_act _ _ _ _).mpr fun w clock => ?_
    have check := isRateLimited_unblocked unblocked (Nat.lt_of_lt_of_le positive clock)
      session.ipAddress
    simp only [loggedExec, logging, Act.exec, check.1]
    refine reservedLogin_calm ⟨⟨check.2.1, ?_⟩, fun _ => check.2.2⟩
    intro other content member
    cases List.mem_singleton.mp member

/-! ## Whole runs -/

/-- No LOGIN of a run is answered RATE_LIMITED. The invariant of the run is that no
record of the limiter blocks. -/
theorem loginRun_never_limits {history : List Handled} {s : Server} (run : LoginRun history s) :
    Unblocked s.loginAttempts ∧ ∀ e ∈ history, ¬ e.answered "RATE_LIMITED" := by
  induction run with
  | start empty =>
    refine ⟨?_, fun e member => absurd member List.not_mem_nil⟩
    intro ip attempt found
    rw [empty] at found
    cases found
  | elsewhere run same ih =>
    rw [same]
    exact ih
  | login run checked positive later handled ih =>
    obtain ⟨unblocked, silent⟩ := handleLogin_calm ih.1 checked positive _ _ handled
    refine ⟨unblocked, fun e member => ?_⟩
    rcases List.mem_append.mp member with old | new
    · exact ih.2 e old
    · rw [List.mem_singleton.mp new]
      rintro ⟨content, answered⟩
      exact silent _ _ answered

/-- A run gives the protection exactly when it never owes it: whenever five failures
in a minute are followed by a LOGIN in the block time, that LOGIN is not blocked. -/
theorem protected_iff_nothing_demanded (history : List Handled) (s : Server)
    (run : LoginRun history s) :
    (∀ fails next, Demands history fails next → Blocked (history.get next)) ↔
      ∀ fails next, ¬ Demands history fails next := by
  obtain ⟨_, silent⟩ := loginRun_never_limits run
  constructor
  · intro isProtected fails next demands
    exact silent _ (List.get_mem history next) (isProtected fails next demands).1
  · intro free fails next demands
    exact absurd demands (free fails next)

/-! ## Six wrong passwords in a row -/

/-- The connection that tries. -/
def client : SessionRef := ⟨0, 7, "10.0.0.1"⟩

/-- A LOGIN of alice with a password that is not hers. -/
def wrongLogin : Json :=
  .object [("type", .string "LOGIN"), ("from", .string "alice"), ("content", .string "guess")]

/-- An outside whose steady clock stands at this time. -/
def worldAt (time : Nat) : World :=
  { (default : World) with steady := time }

/-- `n` LOGINs with a wrong password, one a nanosecond. -/
def wrongLogins : Nat → List Handled × Server
  | 0 => ([], {})
  | n + 1 =>
    let before := wrongLogins n
    let out := eval loggedExec (worldAt (n + 1)) (handleLogin client wrongLogin) (before.2, [])
    (before.1 ++ [⟨client, n + 1, out.2.2⟩], out.2.1)

/-- So many LOGINs with a wrong password, one after the other, are a run, and each is answered by
its log. -/
theorem wrongLogins_run (n : Nat) :
    LoginRun (wrongLogins n).1 (wrongLogins n).2 ∧ ∀ e ∈ (wrongLogins n).1, e.time ≤ n := by
  induction n with
  | zero => exact ⟨.start rfl, fun e member => absurd member List.not_mem_nil⟩
  | succ n ih =>
    constructor
    · have checked : PassesChecks wrongLogin := ⟨"alice", "guess", rfl, rfl, rfl⟩
      have handled := eval_runs loggedExec (since (n + 1)) (worldAt (n + 1)) (Nat.le_refl (n + 1))
        (handleLogin client wrongLogin) ((wrongLogins n).2, [])
      exact .login ih.1 checked (Nat.succ_pos n)
        (fun e member => Nat.le_succ_of_le (ih.2 e member)) handled
    · intro e member
      rcases List.mem_append.mp member with old | new
      · exact Nat.le_succ_of_le (ih.2 e old)
      · rw [List.mem_singleton.mp new]

/-- The actions of one of them. -/
def wrongLog : List Act :=
  [.isRateLimited "10.0.0.1", .reserveForLogin "alice", .setPendingLogin client "alice",
    .getStoredHash "alice", .recordFailedLogin "10.0.0.1", .releaseReservation "alice",
    .clearPendingLogin client, .sendMsg client false (errorFrame "WRONG_PASSWORD" "密码错误")]

/-- Six of them, a nanosecond apart, and the log that each one leaves. -/
def sixWrong : List Handled :=
  [⟨client, 1, wrongLog⟩, ⟨client, 2, wrongLog⟩, ⟨client, 3, wrongLog⟩, ⟨client, 4, wrongLog⟩,
    ⟨client, 5, wrongLog⟩, ⟨client, 6, wrongLog⟩]

theorem sixWrong_run : LoginRun sixWrong (wrongLogins 6).2 :=
  (wrongLogins_run 6).1

theorem sixWrong_log (k : Fin sixWrong.length) :
    (sixWrong.get k).log = wrongLog ∧ (sixWrong.get k).session = client := by
  have every : ∀ e ∈ sixWrong, e.log = wrongLog ∧ e.session = client := by
    simp [sixWrong]
  exact every _ (List.get_mem sixWrong k)

theorem wrongLog_not_accepted (username : String) :
    Act.sendMsg client false (okFrame "LOGIN_OK" username) ∉ wrongLog := by
  simp [wrongLog, okFrame, errorFrame]

/-- The failures that the sixth LOGIN comes after, the first five of the list. -/
def firstFive : Fin 5 → Fin sixWrong.length :=
  fun k => ⟨k, Nat.lt_succ_of_lt k.isLt⟩

/-- The sixth LOGIN is owed the block. -/
theorem sixWrong_demands : Demands sixWrong firstFive ⟨5, by decide⟩ where
  ordered _ _ lt := lt
  after := by decide
  known := by decide
  sameAddress k := by rw [(sixWrong_log _).2, (sixWrong_log _).2]
  failed k := by
    obtain ⟨log, session⟩ := sixWrong_log (firstFive k)
    refine ⟨"密码错误", ?_⟩
    rw [log, session]
    simp [wrongLog]
  noSuccess k _ _ _ := by
    obtain ⟨log, session⟩ := sixWrong_log k
    rintro ⟨username, accepted⟩
    rw [log, session] at accepted
    exact wrongLog_not_accepted username accepted
  span := by decide
  within := by decide

/-- Five failures within a minute, and the sixth LOGIN is let through to the password: the record
was erased before each of them. -/
theorem sixth_login_not_blocked :
    ¬ ∀ (history : List Handled) (s : Server), LoginRun history s →
      ∀ fails next, Demands history fails next → Blocked (history.get next) := by
  intro always
  obtain ⟨⟨content, answered⟩, _⟩ := always sixWrong _ sixWrong_run _ _ sixWrong_demands
  simp [sixWrong, wrongLog, errorFrame] at answered

/-- The theorem at these six messages, which demand a block. -/
theorem protected_iff_nothing_demanded_sixWrong :
    (∀ fails next, Demands sixWrong fails next → Blocked (sixWrong.get next)) ↔
      ∀ fails next, ¬ Demands sixWrong fails next :=
  protected_iff_nothing_demanded sixWrong _ sixWrong_run

end LinuxChat.Guarantees.BruteForce
