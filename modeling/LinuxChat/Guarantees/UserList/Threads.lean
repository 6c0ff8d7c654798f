import LinuxChat.Guarantees.UserList.Steps

/-!
# Every debt is paid

A login, a logout and the removal of a client change the set and owe everyone a list; the
broadcast that follows pays. Between these no thread has a list to announce.
-/

namespace LinuxChat.Guarantees.UserList

open LinuxChat.Lib LinuxChat.Source Prog

/-- Actions that neither change the set nor announce it. -/
def Plain : Act → Prop
  | .setUsername _ _ => False
  | .insertOnline _ => False
  | .eraseOnline _ => False
  | .listOnline => False
  | .sendMsg _ _ msg => isUserList msg = false
  | _ => True

/-- Where a thread stands with its announcement. -/
def At (t : Nat) (debt : Debt) (s : Announced) : Prop := s.2.debt t = debt

/-- Nothing left to announce. -/
def Settled (t : Nat) (s : Announced) : Prop :=
  s.2.debt t = .settled ∨ ∃ names, s.2.debt t = .send names []

section
variable {workers t : Nat} {s : Announced} {action : Act} {debt : Debt} {α : Type}
  {Q : α → Announced → Prop} {X : Exn → Announced → Prop}

theorem At.stable : (lists workers).Stable t (At t debt) :=
  fun _ _ same at_ => Eq.trans same at_

theorem Settled.stable : (lists workers).Stable t (Settled t) := by
  intro s s' same settled
  unfold Settled
  rw [same]
  exact settled

/-- Outside a scan, plain actions change no debt. -/
theorem plain_step (plain : Plain action) (unscanned : ∀ names, s.2.debt t ≠ .scan names)
    (w : World) :
    Sound t s action ∧ (next workers t w action s).2.debt t = s.2.debt t := by
  have debts := @next_debt workers t s action w
  rw [debts]
  cases action with
  | setUsername | insertOnline | eraseOnline | listOnline => cases plain
  | broadcastTargets exclude =>
    refine ⟨fun names scans => absurd scans (unscanned names), ?_⟩
    cases debt : s.2.debt t with
    | scan names => exact absurd debt (unscanned names)
    | settled => rfl
    | list => rfl
    | send names targets => rfl
  | sendMsg x locked msg =>
    have plain : isUserList msg = false := plain
    refine ⟨fun list => ?_, ?_⟩
    · rw [plain] at list
      cases list
    · simp only [Debt.follow, plain]
      cases s.2.debt t <;> rfl
  | _ => exact ⟨trivial, rfl⟩

theorem Settled.unscanned (settled : Settled t s) (names : List String) :
    s.2.debt t ≠ .scan names := by
  rcases settled with none | ⟨_, paid⟩
  · rw [none]
    nofun
  · rw [paid]
    nofun

/-- The rule for an action that moves the debt on. -/
theorem wp_follow {next' : action.Res → Proc α} (at_ : At t debt s)
    (sound : ∀ s₁, At t debt s₁ → Sound t s₁ action)
    (go : ∀ result s₁, At t (debt.follow action result) s₁ →
      (lists workers).wp t Q X (next' result) s₁) :
    (lists workers).wp t Q X (.act action next') s := by
  refine Discipline.wp_act At.stable at_ fun s₁ at₁ listed allowed w => ?_
  refine ⟨keeps_of_sound w listed (sound s₁ at₁) allowed, go _ _ ?_⟩
  have debts := @next_debt workers t s₁ action w
  rw [at₁] at debts
  exact debts

theorem wp_plain {p : Proc α} (plain : p.Forall Plain) (unscanned : ∀ names, debt ≠ .scan names)
    (at_ : At t debt s) :
    (lists workers).wp t (fun _ => At t debt) (fun _ => At t debt) p s := by
  refine Discipline.wp_of_forall At.stable (fun action plain s₁ at₁ listed allowed w => ?_)
    (fun _ _ h => h) (fun _ _ h => h) plain at_
  have unscanned₁ : ∀ names, s₁.2.debt t ≠ .scan names := by
    rw [at₁]
    exact unscanned
  obtain ⟨sound, same⟩ := @plain_step workers _ _ _ plain unscanned₁ w
  exact ⟨keeps_of_sound w listed sound allowed, same.trans at₁⟩

theorem wp_sendEach (names : List String) (now : Int) (targets : List SessionRef)
    (at_ : At t (.send names targets) s) :
    (lists workers).wp t (fun _ => At t (.send names [])) X
      (sendEach (userListFrame names now) targets) s := by
  induction targets generalizing s with
  | nil => exact at_
  | cons x rest ih =>
    refine wp_follow at_ (fun s₁ at₁ _ => ⟨names, rest, now, at₁, rfl⟩) fun result s₁ at₁ => ?_
    exact ih at₁

/-- The snapshot is taken, and sent to everyone logged in. -/
theorem wp_broadcastUserList (at_ : At t .list s) :
    (lists workers).wp t (fun _ => Settled t) X broadcastUserList s := by
  refine wp_follow at_ (fun _ _ => trivial) fun names s₁ at₁ => ?_
  refine wp_follow at₁ (fun _ _ => trivial) fun now s₂ at₂ => ?_
  refine wp_follow at₂ (fun _ _ _ _ => rfl) fun targets s₃ at₃ => ?_
  refine Discipline.wp_mono (wp_sendEach names now targets at₃) (fun _ s₄ at₄ => ?_) fun _ _ h => h
  exact Or.inr ⟨names, at₄⟩

theorem plain_notify (content exclude : String) :
    ((notifyMsg content).bind fun notify => broadcast notify exclude).Forall Plain :=
  forall_notify trivial trivial fun _ _ => rfl

theorem plain_pushHistory (fd : Nat) (username : String) : (pushHistory fd username).Forall Plain :=
  forall_pushHistory trivial trivial fun _ _ => rfl

theorem settled_frame (plain : Plain action) (settled : Settled t s) (listed : Listed s)
    (allowed : Fresh t action s) (w : World) :
    (lists workers).Keeps t s (next workers t w action s) ∧
      Settled t (next workers t w action s) := by
  obtain ⟨sound, same⟩ := @plain_step workers _ _ _ plain settled.unscanned w
  refine ⟨keeps_of_sound w listed sound allowed, ?_⟩
  unfold Settled
  rw [same]
  exact settled

theorem wp_settled {p : Proc α} (plain : p.Forall Plain) (settled : Settled t s) :
    (lists workers).wp t (fun _ => Settled t) (fun _ => Settled t) p s :=
  Discipline.wp_of_forall Settled.stable
    (fun _ plain _ settled listed allowed w => settled_frame plain settled listed allowed w)
    (fun _ _ h => h) (fun _ _ h => h) plain settled

/-- An action after which a snapshot is to be taken. -/
theorem wp_change {next' : action.Res → Proc α} (changes : Changes action)
    (go : ∀ result s₁, At t .list s₁ → (lists workers).wp t Q X (next' result) s₁) :
    (lists workers).wp t Q X (.act action next') s := by
  intro s₁ _ listed allowed w
  have sound : Sound t s₁ action := by
    cases action with
    | setUsername | insertOnline | eraseOnline => trivial
    | _ => cases changes
  exact ⟨keeps_of_sound w listed sound allowed, go _ _ (debt_of_changes w changes)⟩

/-- The end of a login or logout: the list goes out, then the notification. -/
theorem wp_announce (content exclude : String) (at_ : At t .list s) :
    (lists workers).wp t (fun _ => Settled t) (fun _ => Settled t)
      (broadcastUserList.bind fun _ =>
        (notifyMsg content).bind fun notify => broadcast notify exclude) s :=
  Discipline.wp_seq (wp_broadcastUserList (X := fun _ => Settled t) at_)
    (fun _ _ settled => wp_settled (plain_notify content exclude) settled) fun _ _ h => h

theorem wp_finishLogin (session : SessionRef) (username : String) :
    (lists workers).wp t (fun _ => Settled t) (fun _ => Settled t)
      (finishLogin session username) s := by
  rw [finishLogin_eq]
  refine wp_change trivial fun _ s₁ _ => wp_change trivial fun _ s₂ at₂ => ?_
  have unscanned : ∀ names : List String, Debt.list ≠ Debt.scan names := fun _ => Debt.noConfusion
  have answers := Discipline.wp_noRaise (Y := fun _ => Settled t)
    (noRaise_sendOk session "LOGIN_OK" username)
    (@wp_plain workers _ _ _ _ _ (forall_sendOk rfl) unscanned at₂)
  refine Discipline.wp_seq answers (fun _ s₃ at₃ => ?_) fun _ _ h => h
  have shows := Discipline.wp_noRaise (Y := fun _ => Settled t)
    (noRaise_pushHistory session.fd username)
    (@wp_plain workers _ _ _ _ _ (plain_pushHistory session.fd username) unscanned at₃)
  exact Discipline.wp_seq shows (fun _ s₄ at₄ => wp_announce _ username at₄) fun _ _ h => h

theorem wp_handleLogout (session : SessionRef) (settled : Settled t s) :
    (lists workers).wp t (fun _ => Settled t) (fun _ => Settled t) (handleLogout session) s := by
  rw [handleLogout_eq]
  refine Discipline.wp_act Settled.stable settled fun s₁ settled listed allowed w => ?_
  obtain ⟨keeps, after⟩ := @settled_frame workers _ _ (.isAuthenticated session)
    trivial settled listed allowed w
  refine ⟨keeps, ?_⟩
  dsimp only
  split
  · refine Discipline.wp_act Settled.stable after fun s₂ settled listed allowed w => ?_
    obtain ⟨keeps, _⟩ := @settled_frame workers _ _ (.getUsername session)
      trivial settled listed allowed w
    refine ⟨keeps, wp_change trivial fun _ s₃ at₃ => ?_⟩
    refine wp_follow at₃ (fun _ _ => trivial) fun _ s₄ at₄ => ?_
    exact wp_announce _ "" at₄
  · exact after

theorem plain_talking : Talking Plain where
  clock := trivial
  name _ := trivial
  store _ _ _ _ := trivial
  scan _ := trivial
  search _ := trivial
  find _ := trivial
  read _ _ _ := trivial
  spread _ _ _ _ := rfl
  whisper _ _ _ _ _ := rfl
  history _ _ _ := rfl
  error _ _ _ := rfl

theorem plain_preparing : Preparing Plain where
  gate _ := trivial
  limit _ := trivial
  count _ := trivial
  uncount _ := trivial
  reserveNew _ := trivial
  reserveOld _ := trivial
  release _ := trivial
  pend _ _ := trivial
  unpend _ := trivial
  row _ _ := trivial
  record _ := trivial
  draw := trivial
  hash _ := trivial
  error _ _ _ := rfl
  check _ := trivial
  drop _ := trivial

theorem plain_looping : Looping Plain where
  store _ _ := trivial
  find _ := trivial
  receive _ := trivial
  gate _ := trivial
  name _ := trivial
  erase _ := trivial
  registered := trivial
  pending _ := trivial
  cleanup _ := trivial
  unpend _ := trivial
  drop _ := trivial
  handler := trivial
  stamp _ := trivial
  enqueue _ := trivial
  scan := trivial
  ping _ := rfl

end

/-- Between logins and logouts no thread has a list to announce. -/
def settling (workers t : Nat) : Passage (lists workers) t where
  holds := Settled t
  plain := Plain
  stable := Settled.stable
  frame w plain settled listed allowed := settled_frame plain settled listed allowed w
  preparing := plain_preparing
  login session username _ _ := wp_finishLogin session username
  logout session _ settled := wp_handleLogout session settled

/-- All programs keep to the discipline, and between them nobody has a list to announce. -/
theorem lists_verified (workers : Nat) : (lists workers).Verified Settled where
  stable _ := Settled.stable
  spawn t p s s' listed settled start := by
    obtain ⟨start, unrecorded⟩ := start
    obtain ⟨shared, history⟩ := s'
    dsimp only at start
    replace unrecorded : history = s.2 := unrecorded
    subst unrecorded
    have chats : ∀ session msg, (settling workers t).Stays (route session msg) :=
      Passage.stays_route
        (fun session msg => Passage.stays_of_forall (plain_talking.handleBroadcast session msg))
        (fun session msg => Passage.stays_of_forall (plain_talking.handlePrivate session msg))
        (fun session msg => Passage.stays_of_forall (plain_talking.handleHistoryReq session msg))
    cases start with
    | event e _ possible =>
      refine ⟨⟨listed, fun other _ => (lists workers).rely_refl other s⟩, ?_⟩
      have stays : (settling workers 0).Stays e.program := Passage.stays_event plain_looping e
      exact stays _ settled
    | @task _ _ task rest worker inPool queued =>
      refine ⟨⟨⟨listed.taken, listed.names, fun x live named => ?_⟩, fun _ _ => rfl⟩, ?_⟩
      · exact (listed.current x live named).imp (fun shown => ⟨shown.version, shown.frame⟩)
          fun owed => owed
      · exact Passage.stays_runTask (chats task.session task.msg) _ settled

end LinuxChat.Guarantees.UserList
