import LinuxChat.Lib.History
import LinuxChat.Guarantees.Effects
import LinuxChat.Guarantees.Passage

/-!
# Lists and debts

`Lists` is a history variable: it counts the contents of `online_users_`, and remembers what
each thread has yet to announce. A connection that was not shown the current list is owed one by
some thread, as long as no USER_LIST frame reaches it after one of a later snapshot.
-/

namespace LinuxChat.Guarantees.UserList

open LinuxChat.Lib LinuxChat.Source Prog

/-! ## Versions and debts -/

/-- What a thread has to announce: a snapshot is to be taken, or it is to be sent to all,
or to these sessions. -/
inductive Debt where
  | settled
  | list
  | scan (names : List String)
  | send (names : List String) (targets : List SessionRef)

/-- How often the online set has changed, what every thread owes the clients, which change the
list it has read reflects, and the latest one that every connection was shown. -/
structure Lists where
  version : Nat := 0
  debt : Nat → Debt := fun _ => .settled
  snapshot : Nat → Nat := fun _ => 0
  shown : Nat → Nat := fun _ => 0

/-- The frame is a USER_LIST. -/
def isUserList (msg : Json) : Bool := msg.typeOf = "USER_LIST"

/-- A thread that changes the online set or a name owes everybody a list; it reads the set, then
the table, and sends the list it has made to one after the other. -/
def Debt.follow (debt : Debt) : (action : Act) → action.Res → Debt
  | .setUsername _ _, _ => .list
  | .insertOnline _, _ => .list
  | .eraseOnline _, _ => .list
  | .listOnline, names => .scan names
  | .broadcastTargets _, targets =>
    match debt with
    | .scan names => .send names targets
    | other => other
  | .sendMsg _ _ msg, _ =>
    match debt with
    | .send names targets => .send names (if isUserList msg then targets.tail else targets)
    | other => other
  | _, _ => debt

/-- The number of the set's contents goes up where it changes. -/
def Lists.follow (l : Lists) (t : Nat) (action : Act) (result : action.Res) (s s' : Server) :
    Lists where
  version := if s'.onlineUsers = s.onlineUsers then l.version else l.version + 1
  debt := Function.update l.debt t ((l.debt t).follow action result)
  snapshot :=
    match action with
    | .listOnline => Function.update l.snapshot t l.version
    | _ => l.snapshot
  shown :=
    match action with
    | .sendMsg x _ msg => if isUserList msg then Function.update l.shown x.id (l.snapshot t) else l.shown
    | _ => l.shown

/-- The history variable that keeps the debts. -/
def announcing (workers : Nat) : History (machine workers) Lists where
  record t action result s s' l := l.follow t action result s.server s'.server
  start _ _ l := l

/-- The server with the debts of its threads. -/
abbrev Announced := Shared × Lists

/-- The server with that history. -/
abbrev announced (workers : Nat) : Machine serverInterface Exn Announced World :=
  (machine workers).recording (announcing workers)

/-- The server as `main` starts it; nobody owes anything. -/
def announcedBoot (db : Database) : Config serverInterface Exn Announced :=
  ⟨((boot db).shared, {}), (boot db).thread⟩

/-- No list is sent to a connection that was sent one of a later snapshot. -/
def Fresh (t : Nat) : Act → Announced → Prop
  | .sendMsg x _ msg, s => isUserList msg = true → s.2.shown x.id ≤ s.2.snapshot t
  | _, _ => True

/-- The last USER_LIST frame sent to a session. -/
def lastUserList (sent : List (SessionRef × Json)) (id : Nat) : Option Json :=
  (sent.filter fun frame => frame.1.id = id && isUserList frame.2).getLast?.map Prod.snd

/-! ## The invariant -/

/-- The session was last sent the current list. -/
structure Shown (s : Announced) (id : Nat) : Prop where
  version : s.2.shown id = s.2.version
  frame : ∃ now, lastUserList s.1.server.sent id = some (userListFrame s.1.server.onlineUsers now)

/-- The thread will send the session a list that is current as of now. -/
def Owes (s : Announced) (t id : Nat) : Prop :=
  match s.2.debt t with
  | .settled => False
  | .list => True
  | .scan _ => s.2.snapshot t = s.2.version
  | .send _ targets => s.2.snapshot t = s.2.version ∧ ∃ x ∈ targets, x.id = id

/-- The names of a snapshot that is to be announced. -/
def Debt.names : Debt → Option (List String)
  | .scan names => some names
  | .send names _ => some names
  | _ => none

/-- The invariant: the names in hand for the latest snapshot are the online set, and every session
with a name was shown that list or is owed it by a thread. -/
structure Listed (s : Announced) : Prop where
  taken : ∀ t, s.2.snapshot t ≤ s.2.version
  names : ∀ t names, (s.2.debt t).names = some names → s.2.snapshot t = s.2.version →
    names = s.1.server.onlineUsers
  current : ∀ x ∈ s.1.server.sessions, s.1.server.name x ≠ "" →
    Shown s x.id ∨ ∃ t, Owes s t x.id

/-- What a thread must know before an action. -/
def Sound (t : Nat) (s : Announced) : Act → Prop
  | .sendMsg x _ msg => isUserList msg = true → ∃ names rest now,
      s.2.debt t = .send names (x :: rest) ∧ msg = userListFrame names now
  | .broadcastTargets exclude => ∀ names, s.2.debt t = .scan names → exclude = ""
  | _ => True

/-- The discipline: a thread relies on the others to leave its own debt alone. -/
def lists (workers : Nat) : Discipline (announced workers) where
  inv := Listed
  allowed := Fresh
  rely t s s' := s'.2.debt t = s.2.debt t
  rely_refl _ _ := rfl
  rely_trans _ _ _ _ h h' := h'.trans h

/-! ## Steps -/

section
variable {workers t : Nat} {s : Announced} {action : Act} (w : World)

/-- The state after an action. -/
abbrev next (workers t : Nat) (w : World) (action : Act) (s : Announced) : Announced :=
  ((announced workers).exec t w action s).2

theorem next_lists :
    (next workers t w action s).2 = s.2.follow t action (action.exec w s.1.server).1 s.1.server
      (action.exec w s.1.server).2 := rfl

theorem next_debt : (next workers t w action s).2.debt t =
    (s.2.debt t).follow action (action.exec w s.1.server).1 :=
  Function.update_self _ _ _

theorem next_debt_other {other : Nat} (differs : other ≠ t) :
    (next workers t w action s).2.debt other = s.2.debt other :=
  Function.update_of_ne differs _ _

/-- These leave the thread with a snapshot to be taken. -/
def Changes : Act → Prop
  | .setUsername _ _ => True
  | .insertOnline _ => True
  | .eraseOnline _ => True
  | _ => False

theorem debt_of_changes (changes : Changes action) :
    (next workers t w action s).2.debt t = .list := by
  rw [next_debt]
  cases action with
  | setUsername | insertOnline | eraseOnline => rfl
  | _ => cases changes

theorem online_of_other (other : ¬ Changes action) (s : Server) :
    (action.exec w s).2.onlineUsers = s.onlineUsers := by
  rw [exec_onlineUsers]
  cases action with
  | setUsername | insertOnline | eraseOnline => exact absurd trivial other
  | _ => rfl

theorem version_of_other (other : ¬ Changes action) :
    (next workers t w action s).2.version = s.2.version :=
  if_pos (online_of_other w other s.1.server)

theorem version_le : s.2.version ≤ (next workers t w action s).2.version := by
  rw [next_lists]
  simp only [Lists.follow]
  split
  · exact Nat.le_refl _
  · exact Nat.le_succ _

/-- Where the version is the same, so is the set. -/
theorem online_of_version (same : (next workers t w action s).2.version = s.2.version) :
    (next workers t w action s).1.server.onlineUsers = s.1.server.onlineUsers := by
  have counted : (if (next workers t w action s).1.server.onlineUsers = s.1.server.onlineUsers
      then s.2.version else s.2.version + 1) = s.2.version := same
  split at counted
  next kept => exact kept
  · omega

theorem next_snapshot_other {other : Nat} (differs : other ≠ t) :
    (next workers t w action s).2.snapshot other = s.2.snapshot other := by
  rw [next_lists]
  cases action with
  | listOnline => exact Function.update_of_ne differs _ _
  | _ => rfl

theorem next_snapshot :
    (next workers t w action s).2.snapshot t = s.2.snapshot t ∨
      action = .listOnline ∧ (next workers t w action s).2.snapshot t = s.2.version := by
  rw [next_lists]
  cases action with
  | listOnline => exact Or.inr ⟨rfl, Function.update_self _ _ _⟩
  | _ => exact Or.inl rfl

/-- The names a thread announces after a step it had before, or it has just read them. -/
theorem names_cases {names : List String}
    (has : ((next workers t w action s).2.debt t).names = some names) :
    (s.2.debt t).names = some names ∧ action ≠ .listOnline ∨
      action = .listOnline ∧ names = s.1.server.onlineUsers := by
  rw [next_debt] at has
  cases action with
  | setUsername | insertOnline | eraseOnline => cases has
  | listOnline => exact Or.inr ⟨rfl, (Option.some.inj has).symm⟩
  | broadcastTargets exclude =>
    refine Or.inl ⟨?_, nofun⟩
    cases debt : s.2.debt t <;> rw [debt] at has <;> exact has
  | sendMsg x locked msg =>
    refine Or.inl ⟨?_, nofun⟩
    cases debt : s.2.debt t <;> rw [debt] at has <;> exact has
  | _ => exact Or.inl ⟨has, nofun⟩

/-- A named session of the table was one before, or has just got its name. -/
theorem live_cases (other : ¬ Changes action) {x : SessionRef}
    (live : x ∈ (next workers t w action s).1.server.sessions)
    (named : (next workers t w action s).1.server.name x ≠ "") :
    x ∈ s.1.server.sessions ∧ s.1.server.name x ≠ "" := by
  have names : (next workers t w action s).1.server.name x = _ :=
    exec_username w action s.1.server x.id
  have table : (next workers t w action s).1.server.sessions = _ :=
    exec_sessions w action s.1.server
  rw [table] at live
  rw [names] at named
  cases action with
  | setUsername | insertOnline | eraseOnline => exact absurd trivial other
  | clearUsername session =>
    refine ⟨live, fun empty => named ?_⟩
    dsimp only
    split
    · rfl
    · exact empty
  | storeSession fd ip =>
    dsimp only at named live
    split at named
    · exact absurd rfl named
    next old =>
      refine ⟨?_, named⟩
      rcases List.mem_cons.mp live with new | kept
      · rw [new] at old
        exact absurd rfl old
      · exact (List.mem_filter.mp kept).1
  | eraseSession fd => exact ⟨(List.mem_filter.mp live).1, named⟩
  | _ => exact ⟨live, named⟩

/-! ### Frames -/

theorem lastUserList_other {sent : List (SessionRef × Json)} {x : SessionRef} {msg : Json} {id : Nat}
    (other : x.id ≠ id ∨ isUserList msg = false) :
    lastUserList (sent ++ [(x, msg)]) id = lastUserList sent id := by
  have skipped : ([(x, msg)].filter fun frame => frame.1.id = id && isUserList frame.2) = [] := by
    rcases other with differs | plain
    · simp [differs]
    · simp [plain]
  unfold lastUserList
  rw [List.filter_append, skipped, List.append_nil]

theorem lastUserList_sent {sent : List (SessionRef × Json)} {x : SessionRef} {msg : Json}
    (list : isUserList msg = true) : lastUserList (sent ++ [(x, msg)]) x.id = some msg := by
  have kept : ([(x, msg)].filter fun frame => frame.1.id = x.id && isUserList frame.2) =
      [(x, msg)] := by
    simp [list]
  unfold lastUserList
  rw [List.filter_append, kept, List.getLast?_append, List.getLast?_singleton]
  rfl

@[simp] theorem isUserList_userListFrame (names : List String) (now : Int) :
    isUserList (userListFrame names now) = true := rfl

/-- A list that is current as of now shows the session the current list. -/
theorem shown_sent {x : SessionRef} {locked : Bool} {names : List String} {now : Int}
    (listed : Listed s) (has : (s.2.debt t).names = some names)
    (latest : s.2.snapshot t = s.2.version) :
    Shown (next workers t w (.sendMsg x locked (userListFrame names now)) s) x.id where
  version := by
    have plain : ¬ Changes (.sendMsg x locked (userListFrame names now)) := False.elim
    rw [version_of_other w plain, ← latest]
    exact Function.update_self _ _ _
  frame := by
    have online : (next workers t w (.sendMsg x locked (userListFrame names now)) s).1.server.onlineUsers =
        names := (listed.names t names has latest).symm
    have sent : (next workers t w (.sendMsg x locked (userListFrame names now)) s).1.server.sent =
        s.1.server.sent ++ [(x, userListFrame names now)] := exec_sent w _ s.1.server
    rw [online, sent]
    exact ⟨now, lastUserList_sent (isUserList_userListFrame names now)⟩

/-- Another frame, or a frame to another session, shows the session nothing new. -/
theorem shown_other {id : Nat} (other : ¬ Changes action) (shown : Shown s id)
    (elsewhere : ∀ x locked msg, action = .sendMsg x locked msg →
      x.id ≠ id ∨ isUserList msg = false) : Shown (next workers t w action s) id := by
  have version := @version_of_other workers t s _ w other
  have online : (next workers t w action s).1.server.onlineUsers = s.1.server.onlineUsers :=
    online_of_other w other s.1.server
  have sent : (next workers t w action s).1.server.sent = _ := exec_sent w action s.1.server
  constructor
  · rw [version, ← shown.version]
    cases action with
    | sendMsg x locked msg =>
      have follows : (next workers t w (.sendMsg x locked msg) s).2.shown =
          if isUserList msg then Function.update s.2.shown x.id (s.2.snapshot t) else s.2.shown := rfl
      rw [follows]
      split
      next list =>
        rcases elsewhere x locked msg rfl with differs | plain
        · exact Function.update_of_ne (Ne.symm differs) _ _
        · rw [plain] at list
          cases list
      · rfl
    | _ => rfl
  · rw [online]
    obtain ⟨now, last⟩ := shown.frame
    refine ⟨now, ?_⟩
    cases action with
    | sendMsg x locked msg =>
      dsimp only at sent
      rw [sent, lastUserList_other (elsewhere x locked msg rfl)]
      exact last
    | _ =>
      dsimp only at sent
      rw [sent]
      exact last

theorem Shown.kept {id : Nat} (other : ¬ Changes action) (listed : Listed s)
    (sound : Sound t s action) (allowed : Fresh t action s) (shown : Shown s id) :
    Shown (next workers t w action s) id := by
  by_cases elsewhere : ∀ x locked msg, action = .sendMsg x locked msg →
      x.id ≠ id ∨ isUserList msg = false
  · exact shown_other w other shown elsewhere
  · push Not at elsewhere
    obtain ⟨x, locked, msg, rfl, same, list⟩ := elsewhere
    have list : isUserList msg = true := by simpa using list
    subst same
    obtain ⟨names, rest, now, debt, rfl⟩ := sound list
    have latest : s.2.snapshot t = s.2.version := by
      have newer := allowed list
      have taken := listed.taken t
      have version := shown.version
      omega
    exact shown_sent w listed (by rw [debt]; rfl) latest

theorem Owes.kept {other id : Nat} (differs : other ≠ t) (unchanged : ¬ Changes action)
    (owes : Owes s other id) : Owes (next workers t w action s) other id := by
  unfold Owes at owes ⊢
  rw [next_debt_other w differs, next_snapshot_other w differs, version_of_other w unchanged]
  exact owes

/-- What the thread itself owes a live session it pays, or goes on owing. -/
theorem Owes.own {x : SessionRef} (other : ¬ Changes action) (listed : Listed s)
    (sound : Sound t s action) (live : x ∈ s.1.server.sessions) (named : s.1.server.name x ≠ "")
    (owes : Owes s t x.id) :
    Shown (next workers t w action s) x.id ∨ Owes (next workers t w action s) t x.id := by
  have version := @version_of_other workers t s _ w other
  have debts := @next_debt workers t s action w
  -- a debt that stays as it is
  have stays : (next workers t w action s).2.debt t = s.2.debt t → action ≠ .listOnline →
      Owes (next workers t w action s) t x.id := by
    intro same plain
    rcases @next_snapshot workers t s action w with
      snapshot | ⟨lists, _⟩
    · unfold Owes at owes ⊢
      rw [same, snapshot, version]
      exact owes
    · exact absurd lists plain
  cases action with
  | setUsername | insertOnline | eraseOnline => exact absurd trivial other
  | listOnline =>
    right
    unfold Owes
    rw [debts, version]
    exact Function.update_self _ _ _
  | broadcastTargets exclude =>
    right
    cases debt : s.2.debt t with
    | scan names =>
      have all := sound names debt
      subst all
      rw [debt] at debts
      unfold Owes at owes ⊢
      rw [debt] at owes
      rw [debts]
      refine ⟨Eq.trans owes version.symm, x, ?_, rfl⟩
      have authenticated : (s.1.server.heap x.id).isAuthenticated = true :=
        (isAuthenticated_iff _).mpr named
      exact List.mem_filter.mpr ⟨live, by simp [authenticated]⟩
    | settled => exact stays (by rw [debts, debt]; rfl) nofun
    | list => exact stays (by rw [debts, debt]; rfl) nofun
    | send names targets => exact stays (by rw [debts, debt]; rfl) nofun
  | sendMsg y locked msg =>
    cases list : isUserList msg with
    | false =>
      right
      refine stays ?_ nofun
      rw [debts]
      simp only [Debt.follow, list]
      cases s.2.debt t <;> rfl
    | true =>
      obtain ⟨names, rest, now, debt, rfl⟩ := sound list
      unfold Owes at owes
      rw [debt] at owes debts
      obtain ⟨latest, z, member, target⟩ := owes
      rcases List.mem_cons.mp member with head | later
      · subst head
        rw [← target]
        exact Or.inl (shown_sent w listed (by rw [debt]; rfl) latest)
      · right
        unfold Owes
        rw [debts]
        exact ⟨latest.trans version.symm, z, later, target⟩
  | _ => exact Or.inr (stays debts nofun)

/-- An action that changes the set owes everyone a list; one that sends a list pays its recipient,
unless a later one came before it. -/
theorem Listed.step (listed : Listed s) (sound : Sound t s action) (allowed : Fresh t action s) :
    Listed (next workers t w action s) where
  taken other := by
    have grows := @version_le workers t s action w
    by_cases actor : other = t
    · subst actor
      rcases @next_snapshot workers other s action w with
        same | ⟨_, new⟩
      · rw [same]
        exact Nat.le_trans (listed.taken other) grows
      · rw [new]
        exact grows
    · rw [next_snapshot_other w actor]
      exact Nat.le_trans (listed.taken other) grows
  names other names has latest := by
    have grows := @version_le workers t s action w
    by_cases actor : other = t
    · subst actor
      rcases names_cases w has with ⟨before, plain⟩ | ⟨rfl, read⟩
      · have snapshot : (next workers other w action s).2.snapshot other = s.2.snapshot other := by
          rcases @next_snapshot workers other s action w with
            same | ⟨lists, _⟩
          · exact same
          · exact absurd lists plain
        rw [snapshot] at latest
        have taken := listed.taken other
        have same : (next workers other w action s).2.version = s.2.version := by omega
        rw [online_of_version w same]
        exact listed.names other names before (by omega)
      · have plain : ¬ Changes .listOnline := False.elim
        rw [read]
        exact (online_of_other w plain s.1.server).symm
    · rw [next_debt_other w actor] at has
      rw [next_snapshot_other w actor] at latest
      have taken := listed.taken other
      have same : (next workers t w action s).2.version = s.2.version := by omega
      rw [online_of_version w same]
      exact listed.names other names has (by omega)
  current x live named := by
    by_cases changes : Changes action
    · refine Or.inr ⟨t, ?_⟩
      unfold Owes
      rw [debt_of_changes w changes]
      trivial
    · obtain ⟨before, had⟩ := live_cases w changes live named
      rcases listed.current x before had with shown | ⟨other, owes⟩
      · exact Or.inl (shown.kept w changes listed sound allowed)
      · by_cases actor : other = t
        · subst actor
          exact (owes.own w changes listed sound before had).imp_right fun still => ⟨other, still⟩
        · exact Or.inr ⟨other, owes.kept w actor changes⟩

theorem keeps_of_sound (listed : Listed s) (sound : Sound t s action) (allowed : Fresh t action s) :
    (lists workers).Keeps t s (next workers t w action s) :=
  ⟨listed.step w sound allowed, fun _ differs => next_debt_other w differs⟩

end

end LinuxChat.Guarantees.UserList
