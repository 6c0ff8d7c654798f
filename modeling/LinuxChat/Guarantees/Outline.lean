import LinuxChat.Guarantees.Core
import LinuxChat.Guarantees.Handlers

/-!
# A proof outline of the login handlers

One walk through `route` with its LOGIN, REGISTER and LOGOUT handlers, for any
discipline of the server's threads. A stage is where a thread stands between two
actions that touch the core; `Moves` are the actions that lead from one to the next.
A guarantee gives each stage an assertion and proves the moves, and gets the
weakest precondition of `route` for it.
-/

namespace LinuxChat.Guarantees

open LinuxChat.Lib LinuxChat.Source Prog

/-- `reserved` to `listed` are the stages of LOGIN and REGISTER for a username:
reserved, granted by the scan of the table, free to be given (its row exists and no
session has it), given, in the online set. `leaving` and `unlisted` are LOGOUT's, and
`over` is the end of the handler. -/
inductive Stage where
  | settled
  | nameless
  | reserved (username : String)
  | granted (username : String)
  | free (username : String)
  | named (username : String)
  | listed (username : String)
  | leaving (username : String)
  | unlisted (username : String)
  | over

/-- How an action of the login handlers takes the thread from one stage to the next, for a
session. -/
inductive Moves (session : SessionRef) : Stage → (action : Act) → action.Res → Stage → Prop
  | neutral {stage : Stage} {action : Act} {result : action.Res} (h : Neutral action) :
      Moves session stage action result stage
  | gateClosed : Moves session .settled (.isAuthenticated session) false .nameless
  | read {username : String} :
      Moves session .settled (.getUsername session) username (.leaving username)
  | unlist {username : String} :
      Moves session (.leaving username) (.eraseOnline username) () (.unlisted username)
  | unname {username : String} :
      Moves session (.unlisted username) (.clearUsername session) () .nameless
  | reserve {username : String} (nonempty : username ≠ "") :
      Moves session .nameless (.reserveForRegister username) true (.reserved username)
  | refuse {username : String} (nonempty : username ≠ "") :
      Moves session .nameless (.reserveForRegister username) false .nameless
  | insertRow {username hash : String} :
      Moves session (.reserved username) (.registerUser username hash) true (.free username)
  | refuseRow {username hash : String} :
      Moves session (.reserved username) (.registerUser username hash) false (.reserved username)
  | grant {username : String} (nonempty : username ≠ "") :
      Moves session .nameless (.reserveForLogin username) .reserved (.granted username)
  | deny {username : String} {outcome : ReserveOutcome} (nonempty : username ≠ "")
      (denied : outcome ≠ .reserved) :
      Moves session .nameless (.reserveForLogin username) outcome .nameless
  | findRow {username record : String} (nonempty : record ≠ "") :
      Moves session (.granted username) (.getStoredHash username) record (.free username)
  | give {username : String} :
      Moves session (.free username) (.setUsername session username) () (.named username)
  | list {username : String} :
      Moves session (.named username) (.insertOnline username) () (.listed username)
  | giveUp {username : String} :
      Moves session (.reserved username) (.releaseReservation username) () .nameless
  | release {username : String} :
      Moves session (.listed username) (.releaseReservation username) () .over

/-- Assertions for the stages of thread `t` at work on `session`. -/
structure Outline {σ : Type} {M : Machine serverInterface Exn σ World} (D : Discipline M) (t : Nat)
    (session : SessionRef) where
  holds : Stage → σ → Prop
  stable : ∀ stage, D.Stable t (holds stage)
  moves : ∀ {stage stage' : Stage} {action : Act} {result : action.Res} {s : σ} (w : World),
    holds stage s → D.inv s → D.allowed t action s → (M.exec t w action s).1 = result →
      Moves session stage action result stage' →
        D.Keeps t s (M.exec t w action s).2 ∧ holds stage' (M.exec t w action s).2
  rest : ∀ {s : σ}, holds .nameless s ∨ holds .settled s → holds .over s
  forget : ∀ {username : String} {s : σ}, holds (.granted username) s ∨
    holds (.free username) s → holds (.reserved username) s
  drop : ∀ {username : String} {s : σ}, holds (.reserved username) s ∨
    holds (.listed username) s → holds .over s

namespace Outline

variable {σ : Type} {M : Machine serverInterface Exn σ World} {D : Discipline M} {t : Nat}
  {session : SessionRef} (o : Outline D t session) {α : Type} {Q : α → σ → Prop}
  {X : Exn → σ → Prop} {s : σ}

/-- From one stage to another whatever the program returns or throws. -/
def Leads (stage stage' : Stage) (p : Proc α) : Prop :=
  ∀ s, o.holds stage s → D.wp t (fun _ => o.holds stage') (fun _ => o.holds stage') p s

theorem wp_act {stage : Stage} {action : Act} {next : action.Res → Proc α} (h : o.holds stage s)
    (go : ∀ result : action.Res, ∃ stage', Moves session stage action result stage' ∧
      ∀ s', o.holds stage' s' → D.wp t Q X (next result) s') :
    D.wp t Q X (.act action next) s := by
  refine Discipline.wp_act (o.stable stage) h fun s₁ h₁ inv allowed w => ?_
  obtain ⟨stage', moves, rest⟩ := go (M.exec t w action s₁).1
  obtain ⟨keeps, after⟩ := o.moves w h₁ inv allowed rfl moves
  exact ⟨keeps, rest _ after⟩

/-- The action rule where the next stage does not depend on the result. -/
theorem leads_act {stage stage' stage'' : Stage} {action : Act} {next : action.Res → Proc α}
    (moves : ∀ result : action.Res, Moves session stage action result stage')
    (go : ∀ result : action.Res, o.Leads stage' stage'' (next result)) :
    o.Leads stage stage'' (.act action next) :=
  fun _ h => o.wp_act h fun result => ⟨stage', moves result, go result⟩

theorem leads_ret (stage : Stage) (value : α) : o.Leads stage stage (.ret value) :=
  fun _ h => h

theorem leads_of_neutral (stage : Stage) {p : Proc α} (h : p.Forall Neutral) :
    o.Leads stage stage p := by
  intro s hs
  refine Discipline.wp_of_forall (o.stable stage) (fun action neutral s₁ h₁ inv allowed w => ?_)
    (fun _ _ after => after) (fun _ _ after => after) h hs
  exact o.moves w h₁ inv allowed rfl (.neutral neutral)

variable {o}

theorem Leads.weaken {stage stage' stage'' : Stage} {p : Proc α} (h : o.Leads stage stage' p)
    (imp : ∀ {s}, o.holds stage' s → o.holds stage'' s) : o.Leads stage stage'' p :=
  fun s hs => Discipline.wp_mono (h s hs) (fun _ _ => imp) fun _ _ => imp

theorem Leads.strengthen {stage stage' stage'' : Stage} {p : Proc α} (h : o.Leads stage' stage'' p)
    (imp : ∀ {s}, o.holds stage s → o.holds stage' s) : o.Leads stage stage'' p :=
  fun s hs => h s (imp hs)

/-- Sequencing; the first program may also throw where it stands. -/
theorem Leads.bind {β : Type} {stage stage' stage'' : Stage} {p : Proc α} {f : α → Proc β}
    (first : o.Leads stage stage' p) (second : ∀ value, o.Leads stage' stage'' (f value))
    (throws : ∀ {s}, o.holds stage' s → o.holds stage'' s) : o.Leads stage stage'' (p.bind f) :=
  fun s hs => Discipline.wp_seq (first s hs) (fun value s' => second value s') fun _ _ => throws

/-! ## The walk -/

theorem neutral_announcing : Announcing Neutral where
  clock := trivial
  list := trivial
  scan _ := trivial
  find _ := trivial
  users _ _ _ := trivial
  notify _ _ _ := trivial

theorem neutral_chatting : Chatting Neutral where
  clock := trivial
  name _ := trivial
  store _ _ _ _ := trivial
  scan _ := trivial
  search _ := trivial
  find _ := trivial
  read _ _ _ := trivial
  send _ _ := trivial
  error _ _ _ := trivial

variable (o)

theorem leads_sendError (stage : Stage) (code content : String) :
    o.Leads stage stage (sendError session code content) :=
  o.leads_of_neutral stage (forall_sendError trivial)

/-- The last answer of a refused LOGIN or REGISTER. -/
theorem leads_refusal (code content : String) :
    o.Leads .nameless .over (sendError session code content) :=
  (o.leads_sendError .nameless code content).weaken fun h => o.rest (Or.inl h)

/-- A handler that leaves the core alone. -/
theorem leads_chat {p : Proc α} (h : p.Forall Neutral) : o.Leads .settled .over p :=
  (o.leads_of_neutral .settled h).weaken fun h => o.rest (Or.inr h)

/-- Reading a field of the message, which throws where it stands. -/
theorem leads_valueOf {stage stage' : Stage} (msg : Json) (key default : String)
    {next : String → Proc α} (reads : ∀ found, o.Leads stage stage' (next found))
    (throws : ∀ {s}, o.holds stage s → o.holds stage' s) :
    o.Leads stage stage' ((valueOf msg key default).bind next) :=
  Leads.bind (o.leads_of_neutral stage (forall_valueOf msg key default)) reads throws

theorem leads_finishLogin (username : String) :
    o.Leads (.free username) (.listed username) (finishLogin session username) := by
  rw [finishLogin_eq]
  refine o.leads_act (fun _ => .give) fun _ => o.leads_act (fun _ => .list) fun _ => ?_
  exact o.leads_of_neutral _ (forall_announceLogin neutral_announcing trivial trivial
    fun _ _ => trivial)

theorem leads_closeLogin (username : String) :
    o.Leads (.free username) .over (closeLogin session username) := by
  refine Leads.bind (o.leads_finishLogin username) (fun _ => ?_) fun h => o.drop (Or.inr h)
  refine o.leads_act (fun _ => .neutral trivial) fun _ => ?_
  exact o.leads_act (fun _ => .release) fun _ => o.leads_ret .over _

theorem leads_closeFailed (username code content : String) :
    o.Leads (.reserved username) .over (closeFailed session username code content) := by
  refine o.leads_act (fun _ => .giveUp) fun _ => o.leads_act (fun _ => .neutral trivial) fun _ => ?_
  exact o.leads_refusal code content

theorem leads_completeRegister (username hash : String) :
    o.Leads (.reserved username) .over (completeRegister session username hash) := by
  rw [completeRegister_eq]
  intro s h
  refine o.wp_act h fun registered => ?_
  cases registered with
  | true => exact ⟨.free username, .insertRow, o.leads_closeLogin username⟩
  | false => exact ⟨.reserved username, .refuseRow, o.leads_closeFailed username _ _⟩

theorem leads_handleRegister (msg : Json) : o.Leads .nameless .over (handleRegister session msg) := by
  rw [handleRegister_eq]
  refine o.leads_valueOf msg _ _ (fun username => ?_) fun h => o.rest (Or.inl h)
  refine o.leads_valueOf msg _ _ (fun password => ?_) fun h => o.rest (Or.inl h)
  split
  · exact o.leads_refusal _ _
  next checked =>
    intro s h
    have nonempty := credentials_nonempty checked
    refine o.wp_act h fun reserved => ?_
    cases reserved with
    | false =>
      exact ⟨.nameless, .refuse nonempty, o.leads_refusal _ _⟩
    | true =>
      refine ⟨.reserved username, .reserve nonempty, ?_⟩
      refine o.leads_act (fun _ => .neutral trivial) fun _ => ?_
      -- RAND_bytes may fail: the exception leaves the reservation where it is
      have hashes := o.leads_of_neutral (.reserved username)
        (forall_hashPassword password trivial fun _ => trivial)
      exact hashes.bind (fun hash => o.leads_completeRegister username hash)
        fun held => o.drop (Or.inl held)

theorem leads_acceptLogin (username : String) :
    o.Leads (.free username) .over (acceptLogin session username) := by
  rw [acceptLogin_eq]
  split
  · exact o.leads_act (fun _ => .neutral trivial) fun _ => o.leads_closeLogin username
  · exact o.leads_closeLogin username

theorem leads_rejectLogin (username : String) :
    o.Leads (.reserved username) .over (rejectLogin session username) := by
  rw [rejectLogin_eq]
  split
  · exact o.leads_act (fun _ => .neutral trivial) fun _ => o.leads_closeFailed username _ _
  · exact o.leads_closeFailed username _ _

/-- An empty stored hash is never accepted, so a login that succeeds has found a row. -/
theorem leads_checkedLogin (username password record : String) :
    o.Leads (if record = "" then .granted username else .free username) .over
      ((passwordAccepted password record).bind fun accepted =>
        if accepted then acceptLogin session username else rejectLogin session username) := by
  by_cases missing : record = ""
  · subst missing
    rw [if_pos rfl]
    exact (o.leads_rejectLogin username).strengthen fun h => o.forget (Or.inl h)
  · rw [if_neg missing]
    have checks := o.leads_of_neutral (.free username)
      (forall_passwordAccepted password record fun _ => trivial)
    refine checks.bind (fun accepted => ?_) fun h => o.drop (Or.inl (o.forget (Or.inr h)))
    cases accepted with
    | true => exact o.leads_acceptLogin username
    | false => exact (o.leads_rejectLogin username).strengthen fun h => o.forget (Or.inr h)

theorem leads_reservedLogin {username : String} (password : String) (nonempty : username ≠ "") :
    o.Leads .nameless .over (reservedLogin session username password) := by
  rw [reservedLogin_eq]
  intro s h
  refine o.wp_act h fun outcome => ?_
  cases outcome with
  | inProgress =>
    exact ⟨.nameless, .deny nonempty (by decide), o.leads_refusal _ _⟩
  | alreadyOnline =>
    exact ⟨.nameless, .deny nonempty (by decide), o.leads_refusal _ _⟩
  | reserved =>
    refine ⟨.granted username, .grant nonempty, ?_⟩
    refine o.leads_act (fun _ => .neutral trivial) fun _ s' granted => ?_
    refine o.wp_act granted fun record => ⟨_, ?_, o.leads_checkedLogin username password record⟩
    split
    · exact .neutral trivial
    next found => exact .findRow found

theorem leads_handleLogin (msg : Json) : o.Leads .nameless .over (handleLogin session msg) := by
  rw [handleLogin_eq]
  refine o.leads_valueOf msg _ _ (fun username => ?_) fun h => o.rest (Or.inl h)
  refine o.leads_valueOf msg _ _ (fun password => ?_) fun h => o.rest (Or.inl h)
  split
  · exact o.leads_refusal _ _
  next checked =>
    have asks := o.leads_of_neutral .nameless (forall_rateLimited (P := Neutral) session trivial)
    refine asks.bind (fun limited => ?_) fun h => o.rest (Or.inl h)
    cases limited with
    | true => exact o.leads_refusal _ _
    | false => exact o.leads_reservedLogin password (credentials_nonempty checked)

theorem leads_handleLogout : o.Leads .settled .nameless (handleLogout session) := by
  rw [handleLogout_eq]
  intro s h
  refine o.wp_act h fun authenticated => ?_
  cases authenticated with
  | false => exact ⟨.nameless, .gateClosed, o.leads_ret .nameless ()⟩
  | true =>
    refine ⟨.settled, .neutral trivial, fun s₁ h₁ => ?_⟩
    refine o.wp_act h₁ fun username => ⟨.leaving username, .read, ?_⟩
    refine o.leads_act (fun _ => .unlist) fun _ => o.leads_act (fun _ => .unname) fun _ => ?_
    exact o.leads_of_neutral _ (forall_announceLogout neutral_announcing)

theorem leads_routeAuthenticated (msg : Json) (type : String) :
    o.Leads .settled .over (routeAuthenticated session msg type) := by
  unfold routeAuthenticated
  split
  · exact o.leads_chat trivial
  · split
    · exact o.leads_chat (forall_handleBroadcast neutral_chatting session msg)
    · split
      · exact o.leads_chat (forall_handlePrivate neutral_chatting session msg)
      · split
        · exact o.leads_chat (forall_handleHistoryReq neutral_chatting session msg)
        · split
          · exact o.leads_handleLogout.weaken fun h => o.rest (Or.inl h)
          · exact o.leads_chat (forall_sendError trivial)

theorem leads_routeUnauthenticated (msg : Json) (type : String) :
    o.Leads .nameless .over (routeUnauthenticated session msg type) := by
  unfold routeUnauthenticated
  split
  · exact o.leads_handleRegister msg
  · split
    · exact o.leads_handleLogin msg
    · split
      · exact (o.leads_ret .nameless ()).weaken fun h => o.rest (Or.inl h)
      · exact o.leads_refusal _ _

theorem leads_route (msg : Json) : o.Leads .settled .over (route session msg) := by
  rw [route_eq]
  refine o.leads_valueOf msg _ _ (fun type => ?_) fun h => o.rest (Or.inr h)
  intro s h
  refine o.wp_act h fun authenticated => ?_
  cases authenticated with
  | true => exact ⟨.settled, .neutral trivial, o.leads_routeAuthenticated msg type⟩
  | false => exact ⟨.nameless, .gateClosed, o.leads_routeUnauthenticated msg type⟩

/-- The worker catches what `route` throws. -/
theorem wp_guardedRoute (msg : Json) {X : Exn → σ → Prop} (h : o.holds .settled s) :
    D.wp t (fun _ => o.holds .over) X ((route session msg).tryCatch fun _ => .ret ()) s :=
  (Discipline.wp_tryCatch _ _ s).mpr (o.leads_route msg s h)

end Outline

end LinuxChat.Guarantees
