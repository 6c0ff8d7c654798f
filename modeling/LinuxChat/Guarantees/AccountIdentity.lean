import LinuxChat.Guarantees.Accounts

/-!
# One account, one username

Accounts over whole runs of requests handled one at a time. A username is compared
as a whole string in the session table and in the reservation set, but reaches the
users table through `c_str()` (server/src/database.cpp:112-154), cut at its first
NUL. `registered` is the history of successful REGISTERs; the main theorem says for
every REGISTER and LOGIN of every run when the answer agrees with it.
-/

namespace LinuxChat.Guarantees.AccountIdentity

open LinuxChat.Lib LinuxChat.Source Prog Accounts

variable {H : String → Octets 32}

/-- Requests handled one at a time, from an empty server; `allowed` restricts the
messages. The list holds the REGISTERs that succeeded, with their passwords. -/
inductive AccountRun (H : String → Octets 32)
    (allowed : List (String × String) → Json → Prop) : List (String × String) → Server → Prop
  | boot : AccountRun H allowed [] {}
  | accept {registered : List (String × String)} {s s' : Server} {fd : Nat} {ip : String}
      {o : Except Exn Unit} {log : List Act} (run : AccountRun H allowed registered s)
      (unused : ∀ x ∈ s.sessions, x.fd ≠ fd)
      (handled : Runs loggedExec (Sound H) (handleNewConnection fd ip) (s, []) o (s', log)) :
      AccountRun H allowed registered s'
  | message {registered : List (String × String)} {s s' : Server} {session : SessionRef}
      {msg : Json} {o : Except Exn Unit} {log : List Act}
      (run : AccountRun H allowed registered s) (live : session ∈ s.sessions)
      (ok : allowed registered msg)
      (handled : Runs loggedExec (Sound H) (route session msg) (s, []) o (s', log)) :
      AccountRun H allowed (registered ++ newAccounts session msg log) s'
  | disconnect {registered : List (String × String)} {s s' : Server} {fd : Nat}
      {o : Except Exn Unit} {log : List Act} (run : AccountRun H allowed registered s)
      (handled : Runs loggedExec (Sound H) (removeClient fd) (s, []) o (s', log)) :
      AccountRun H allowed registered s'

/-! ## What every run keeps -/

/-- The row that holds an account. -/
def Records (H : String → Octets 32) (account row : String × String) : Prop :=
  ∃ salt, row = (cString account.1, saltedRecord H salt account.2)

/-- Between two requests the users table is the list of accounts, in order. -/
structure Ledger (H : String → Octets 32) (registered : List (String × String)) (v : View) : Prop where
  idle : v.reserved = []
  rows : List.Forall₂ (Records H) registered v.users
  distinct : (registered.map fun account => cString account.1).Nodup

theorem has_iff {registered users : List (String × String)}
    (rows : List.Forall₂ (Records H) registered users) (name : String) :
    Has users name ↔ ∃ account ∈ registered, cString account.1 = name := by
  induction rows with
  | nil => simp [Has]
  | cons record _ ih =>
    obtain ⟨salt, rfl⟩ := record
    unfold Has at ih ⊢
    rw [List.exists_mem_cons_iff, List.exists_mem_cons_iff, ih]

theorem lookup_account {registered users : List (String × String)}
    (rows : List.Forall₂ (Records H) registered users) {name record : String}
    (found : users.lookup name = some record) :
    ∃ account ∈ registered, cString account.1 = name ∧
      ∃ salt, record = saltedRecord H salt account.2 := by
  induction rows with
  | nil => cases found
  | @cons account row _ _ stored _ ih =>
    obtain ⟨salt, rfl⟩ := stored
    by_cases same : name = cString account.1
    · subst same
      rw [List.lookup_cons_self] at found
      exact ⟨account, List.mem_cons_self, rfl, salt, (Option.some.inj found).symm⟩
    · rw [List.lookup_cons, beq_eq_false_iff_ne.mpr same] at found
      obtain ⟨account', member, rest⟩ := ih found
      exact ⟨account', List.mem_cons_of_mem account member, rest⟩

/-- Accounts have distinct C strings, so each is found under its own. -/
theorem lookup_own {registered users : List (String × String)}
    (rows : List.Forall₂ (Records H) registered users)
    (distinct : (registered.map fun account => cString account.1).Nodup)
    {account : String × String} (member : account ∈ registered) :
    ∃ salt, users.lookup (cString account.1) = some (saltedRecord H salt account.2) := by
  induction rows with
  | nil => cases member
  | @cons first row _ _ stored _ ih =>
    obtain ⟨salt, rfl⟩ := stored
    obtain ⟨fresh, distinct'⟩ := List.nodup_cons.mp distinct
    rcases List.mem_cons.mp member with same | later
    · subst same
      exact ⟨salt, List.lookup_cons_self⟩
    · have other : cString account.1 ≠ cString first.1 := by
        intro same
        exact fresh (List.mem_map.mpr ⟨account, later, same⟩)
      rw [List.lookup_cons, beq_eq_false_iff_ne.mpr other]
      exact ih distinct' later

theorem Ledger.salted {registered : List (String × String)} {s : Server}
    (ledger : Ledger H registered (view s)) : Salted H s.db.users := by
  intro name record found
  obtain ⟨account, _, _, salt, made⟩ := lookup_account ledger.rows found
  exact ⟨salt, account.2, made⟩

theorem Ledger.of_receded {registered : List (String × String)} {v v' : View}
    (ledger : Ledger H registered v) (recedes : Receded v v') : Ledger H registered v' where
  idle := recedes.reserved ledger.idle
  rows := recedes.users ▸ ledger.rows
  distinct := ledger.distinct

theorem Ledger.step {registered new : List (String × String)} {session : SessionRef} {msg : Json}
    {v v' : View} (ledger : Ledger H registered v) (outcome : Outcome H session msg v new v') :
    Ledger H (registered ++ new) v' := by
  cases outcome with
  | @opened username password salt reads free =>
    refine ⟨ledger.idle, ?_, ?_⟩
    · exact List.rel_append ledger.rows (.cons ⟨salt, rfl⟩ .nil)
    · rw [List.map_append, List.map_singleton, ← List.concat_eq_append, List.nodup_concat]
      refine ⟨fun taken => free ?_, ledger.distinct⟩
      obtain ⟨account, member, same⟩ := List.mem_map.mp taken
      exact (has_iff ledger.rows _).mpr ⟨account, member, same⟩
  | entered reads opens =>
    rw [List.append_nil]
    exact ⟨ledger.idle, ledger.rows, ledger.distinct⟩
  | receded recedes =>
    rw [List.append_nil]
    exact ledger.of_receded recedes

/-- Request by request, whichever of them are allowed: a REGISTER that opens an account adds it to
the ledger, nothing else touches it. -/
theorem ledger_of_run {allowed : List (String × String) → Json → Prop}
    {registered : List (String × String)} {s : Server} (run : AccountRun H allowed registered s) :
    Ledger H registered (view s) := by
  induction run with
  | boot => exact ⟨rfl, .nil, List.nodup_nil⟩
  | accept run unused handled ih =>
    rw [view_accepted handled]
    exact ⟨ih.idle, ih.rows, ih.distinct⟩
  | @message _ _ _ session msg _ _ run live ok handled ih =>
    exact ih.step (always_route session msg ih.idle ih.salted _ _ handled)
  | disconnect run handled ih =>
    have receded := always_receding ⟨0, 0, ""⟩ (forall_removeClient receding_leaving _) rfl _ _ _ handled
    exact ih.of_receded receded.1

/-! ## One username for each account -/

/-- The message names no account by a name other than its own. -/
def Unaliased (registered : List (String × String)) (msg : Json) : Prop :=
  ∀ username, msg.value "from" "" = .ok username →
    ∀ account ∈ registered, cString account.1 = cString username → account.1 = username

/-- Live sessions have names that were registered, and no two of them belong to one
account, whatever their names are. -/
structure Exclusive (registered : List (String × String)) (v : View) : Prop where
  known : ∀ x ∈ v.sessions, v.username x.id ≠ "" → v.username x.id ∈ registered.map Prod.fst
  single : ∀ x ∈ v.sessions, ∀ y ∈ v.sessions, v.username x.id ≠ "" → v.username y.id ≠ "" →
    cString (v.username x.id) = cString (v.username y.id) → x = y

theorem numbered_receded {v v' : View} (numbered : Numbered v.sessions v.nextId)
    (recedes : Receded v v') : Numbered v'.sessions v'.nextId := by
  rw [recedes.nextId]
  exact numbered.sublist recedes.sessions

theorem numbered_step {session : SessionRef} {msg : Json} {v v' : View}
    {new : List (String × String)} (numbered : Numbered v.sessions v.nextId)
    (outcome : Outcome H session msg v new v') : Numbered v'.sessions v'.nextId := by
  cases outcome with
  | opened salt reads free => exact numbered
  | entered reads opens => exact numbered
  | receded recedes => exact numbered_receded numbered recedes

theorem Exclusive.of_receded {registered : List (String × String)} {v v' : View}
    (exclusive : Exclusive registered v) (recedes : Receded v v') : Exclusive registered v' := by
  have kept : ∀ id, v'.username id ≠ "" → v'.username id = v.username id := by
    intro id named
    rcases recedes.username id with same | gone
    · exact same
    · exact absurd gone named
  refine ⟨fun x member named => ?_, fun x hx y hy namedX namedY same => ?_⟩
  · have earlier := kept x.id named
    rw [earlier] at named ⊢
    exact exclusive.known x (recedes.sessions.subset member) named
  · have earlierX := kept x.id namedX
    have earlierY := kept y.id namedY
    rw [earlierX] at namedX same
    rw [earlierY] at namedY same
    exact exclusive.single x (recedes.sessions.subset hx) y (recedes.sessions.subset hy) namedX
      namedY same

theorem Exclusive.accepted {registered : List (String × String)} {v : View}
    (exclusive : Exclusive registered v) (fd : Nat) (ip : String)
    (numbered : Numbered v.sessions v.nextId) :
    Exclusive registered (v.accepted fd ip) := by
  -- the new session has no name, the others are as before
  have older : ∀ x ∈ (v.accepted fd ip).sessions, (v.accepted fd ip).username x.id ≠ "" →
      x ∈ v.sessions ∧ (v.accepted fd ip).username x.id = v.username x.id := by
    intro x member named
    rcases List.mem_cons.mp member with new | old
    · subst new
      simp [View.accepted] at named
    · have earlier := (List.mem_filter.mp old).1
      have other : x.id ≠ v.nextId := Nat.ne_of_lt (numbered.bound x earlier)
      exact ⟨earlier, Function.update_of_ne other _ _⟩
  refine ⟨fun x member named => ?_, fun x hx y hy namedX namedY same => ?_⟩
  · obtain ⟨earlier, name⟩ := older x member named
    rw [name] at named ⊢
    exact exclusive.known x earlier named
  · obtain ⟨earlierX, nameX⟩ := older x hx namedX
    obtain ⟨earlierY, nameY⟩ := older y hy namedY
    rw [nameX] at namedX same
    rw [nameY] at namedY same
    exact exclusive.single x earlierX y earlierY namedX namedY same

/-- A session takes a registered name of an account that no live session has. -/
theorem Exclusive.named {registered : List (String × String)} {v : View}
    (exclusive : Exclusive registered v) (numbered : Numbered v.sessions v.nextId) {session : SessionRef}
    (live : session ∈ v.sessions) {username : String}
    (known : username ∈ registered.map Prod.fst)
    (unused : ∀ x ∈ v.sessions, v.username x.id ≠ "" →
      cString (v.username x.id) ≠ cString username) :
    Exclusive registered (v.named session username) := by
  have other : ∀ x ∈ v.sessions, x ≠ session →
      (v.named session username).username x.id = v.username x.id := by
    intro x member differs
    refine Function.update_of_ne (fun same => differs ?_) _ _
    exact numbered.apart x member session live same
  have own : (v.named session username).username session.id = username :=
    Function.update_self _ _ _
  refine ⟨fun x member name => ?_, fun x hx y hy nameX nameY same => ?_⟩
  · by_cases new : x = session
    · subst new
      rw [own]
      exact known
    · rw [other x member new] at name ⊢
      exact exclusive.known x member name
  · by_cases newX : x = session
    · subst newX
      by_contra differs
      rw [other y hy fun h => differs h.symm] at nameY same
      rw [own] at same
      exact unused y hy nameY same.symm
    · rw [other x hx newX] at nameX same
      by_cases newY : y = session
      · subst newY
        rw [own] at same
        exact absurd same (unused x hx nameX)
      · rw [other y hy newY] at nameY same
        exact exclusive.single x hx y hy nameX nameY same

theorem Exclusive.more {registered : List (String × String)} {v : View}
    (exclusive : Exclusive registered v) (new : List (String × String)) :
    Exclusive (registered ++ new) v where
  known x member named := by
    rw [List.map_append]
    exact List.mem_append_left _ (exclusive.known x member named)
  single := exclusive.single

theorem Exclusive.step {registered new : List (String × String)} {session : SessionRef} {msg : Json}
    {v v' : View} (exclusive : Exclusive registered v) (ledger : Ledger H registered v)
    (numbered : Numbered v.sessions v.nextId) (live : session ∈ v.sessions)
    (unaliased : Unaliased registered msg)
    (outcome : Outcome H session msg v new v') : Exclusive (registered ++ new) v' := by
  cases outcome with
  | @opened username password salt reads free =>
    have taken : ∀ x ∈ v.sessions, v.username x.id ≠ "" →
        cString (v.username x.id) ≠ cString username := by
      intro x member named same
      obtain ⟨account, known, own⟩ := List.mem_map.mp (exclusive.known x member named)
      refine free ((has_iff ledger.rows _).mpr ⟨account, known, ?_⟩)
      rw [own]
      exact same
    have known : username ∈ (registered ++ [(username, password)]).map Prod.fst := by
      simp
    have named := (exclusive.more [(username, password)]).named numbered live known taken
    exact ⟨named.known, named.single⟩
  | @entered username password reads opens =>
    obtain ⟨offline, salt, row⟩ := opens
    obtain ⟨account, member, same, _⟩ := lookup_account ledger.rows row
    have own := unaliased username reads.1 account member same
    rw [List.append_nil]
    refine exclusive.named numbered live (own ▸ List.mem_map_of_mem member) ?_
    intro x live' named same'
    obtain ⟨account', member', own'⟩ := List.mem_map.mp (exclusive.known x live' named)
    have equal := unaliased username reads.1 account' member' (by rw [own']; exact same')
    exact offline x live' (own'.symm.trans equal)
  | receded recedes =>
    rw [List.append_nil]
    exact exclusive.of_receded recedes

/-- In a run in which nobody registers or enters an account under another spelling of its name,
live sessions have an account each. -/
theorem exclusive_of_run {registered : List (String × String)} {s : Server}
    (run : AccountRun H Unaliased registered s) :
    Exclusive registered (view s) ∧ Numbered (view s).sessions (view s).nextId := by
  induction run with
  | boot =>
    exact ⟨⟨fun _ member => absurd member List.not_mem_nil, fun _ member =>
      absurd member List.not_mem_nil⟩, fun _ member => absurd member List.not_mem_nil,
      fun _ member => absurd member List.not_mem_nil⟩
  | @accept _ _ _ fd ip _ _ run unused handled ih =>
    rw [view_accepted handled]
    exact ⟨ih.1.accepted fd ip ih.2, (ih.2.sublist List.filter_sublist).push fd ip⟩
  | @message _ _ _ session msg _ _ run live ok handled ih =>
    have ledger := ledger_of_run run
    have outcome := always_route session msg ledger.idle ledger.salted _ _ handled
    exact ⟨ih.1.step ledger ih.2 live ok outcome, numbered_step ih.2 outcome⟩
  | disconnect run handled ih =>
    have receded := always_receding ⟨0, 0, ""⟩ (forall_removeClient receding_leaving _) rfl _ _ _ handled
    exact ⟨ih.1.of_receded receded.1, numbered_receded ih.2 receded.1⟩

/-! ## The law -/

/-- REGISTER succeeds exactly for the names that no REGISTER has succeeded for. -/
def RegisterLawful (H : String → Octets 32) (registered : List (String × String)) (s : Server)
    (session : SessionRef) (msg : Json) (username : String) : Prop :=
  Always loggedExec (Sound H) (handleRegister session msg) (s, []) fun _ s' =>
    (answered "LOGIN_OK" session s'.2 = true ↔ username ∉ registered.map Prod.fst)

/-- LOGIN from an address that is not rate limited is answered LOGIN_OK exactly for
the names and passwords of successful REGISTERs. -/
def LoginLawful (H : String → Octets 32) (registered : List (String × String)) (s : Server)
    (session : SessionRef) (msg : Json) (username password : String) : Prop :=
  Always loggedExec (fun w => Sound H w ∧ ¬ RateLimited s session w) (handleLogin session msg)
    (s, []) fun _ s' =>
      (answered "LOGIN_OK" session s'.2 = true ↔ (username, password) ∈ registered)

/-- What REGISTER answers by: the C strings of the accounts. -/
theorem always_registerAnswer {registered : List (String × String)} {s : Server}
    (ledger : Ledger H registered (view s)) (session : SessionRef) {msg : Json}
    {username password : String} (reads : Reads msg username password) :
    Always loggedExec (Sound H) (handleRegister session msg) (s, []) fun _ s' =>
      (answered "LOGIN_OK" session s'.2 = true ↔
        ∀ account ∈ registered, cString account.1 ≠ cString username) := by
  refine (always_handleRegister ledger.idle rfl reads).mono fun _ s' ends => ?_
  have has := has_iff ledger.rows (cString username)
  rcases ends with ⟨taken, _, silent⟩ | ⟨free, _, _, positive⟩
  · obtain ⟨account, member, same⟩ := has.mp taken
    rw [silent]
    exact ⟨fun h => absurd h Bool.false_ne_true, fun none_ => absurd same (none_ account member)⟩
  · rw [positive]
    exact ⟨fun _ account member same => free (has.mpr ⟨account, member, same⟩), fun _ => rfl⟩

/-- What LOGIN answers by: the account of the C string, and its password. -/
theorem always_loginAnswer {registered : List (String × String)} {s : Server}
    (ledger : Ledger H registered (view s)) (session : SessionRef) {msg : Json}
    {username password : String} (reads : Reads msg username password)
    (apart : Separates H (password :: registered.map Prod.snd))
    (offline : ∀ x ∈ s.sessions, s.name x ≠ username) :
    Always loggedExec (fun w => Sound H w ∧ ¬ RateLimited s session w) (handleLogin session msg)
      (s, []) fun _ s' => (answered "LOGIN_OK" session s'.2 = true ↔
        ∃ account ∈ registered, cString account.1 = cString username ∧ account.2 = password) := by
  have opens : Opens H (view s) username password ↔
      ∃ account ∈ registered, cString account.1 = cString username ∧ account.2 = password := by
    constructor
    · rintro ⟨_, salt, row⟩
      obtain ⟨account, member, same, salt', made⟩ := lookup_account ledger.rows row
      have chosen : account.2 ∈ password :: registered.map Prod.snd :=
        List.mem_cons_of_mem _ (List.mem_map_of_mem member)
      exact ⟨account, member, same,
        (saltedRecord_inj apart List.mem_cons_self chosen made).symm⟩
    · rintro ⟨account, member, same, own⟩
      obtain ⟨salt, row⟩ := lookup_own ledger.rows ledger.distinct member
      rw [same, own] at row
      exact ⟨offline, salt, row⟩
  rw [← opens]
  refine (always_handleLogin (fun _ h => h.1) ledger.idle ledger.salted rfl reads).mono ?_
  rintro _ s' (⟨open_, _, positive⟩ | ⟨limited, _, silent⟩)
  · rw [positive]
    exact ⟨fun _ => open_, fun _ => rfl⟩
  · rw [silent]
    refine ⟨fun h => absurd h Bool.false_ne_true, fun open_ => ?_⟩
    obtain ⟨w, admissible, full⟩ := limited open_
    exact absurd full admissible.2

/-- An outside in which everything succeeds, at a time of the steady clock. -/
def soundWorld (H : String → Octets 32) (steady : Nat) : World :=
  { (default : World) with
    steady := steady
    rand := some (Octets.zeros 16)
    sha256 := fun text => some (H text) }

theorem soundWorld_sound (steady : Nat) : Sound H (soundWorld H steady) :=
  ⟨rfl, ⟨_, rfl⟩, fun _ => rfl⟩

/-- No address is rate limited for ever. -/
theorem eventually_unlimited (s : Server) (session : SessionRef) :
    ∃ steady, ¬ RateLimited s session (soundWorld H steady) := by
  cases found : s.loginAttempts session.ipAddress with
  | none =>
    refine ⟨0, fun limited => ?_⟩
    have full := limited.2
    simp [isRateLimited, found] at full
  | some attempt =>
    refine ⟨attempt.blockedUntil + 1, fun limited => ?_⟩
    have full := limited.2
    simp [isRateLimited, found, soundWorld] at full

/-- Two accounts with one C string are one. -/
theorem Ledger.unique {registered : List (String × String)} {v : View}
    (ledger : Ledger H registered v) {a b : String × String} (ha : a ∈ registered)
    (hb : b ∈ registered) (same : cString a.1 = cString b.1) : a = b :=
  List.inj_on_of_nodup_map ledger.distinct ha hb same

theorem registerLawful_iff {registered : List (String × String)} {s : Server}
    (ledger : Ledger H registered (view s)) (session : SessionRef) {msg : Json}
    {username password : String} (reads : Reads msg username password) :
    RegisterLawful H registered s session msg username ↔
      ∀ account ∈ registered, cString account.1 = cString username → account.1 = username := by
  have answer := always_registerAnswer ledger session reads
  constructor
  · intro lawful account member same
    obtain ⟨_, s', law, fact⟩ := lawful.both (soundWorld H 0) (soundWorld_sound 0) answer
    have known : username ∈ registered.map Prod.fst := by
      by_contra fresh
      exact fact.mp (law.mpr fresh) account member same
    obtain ⟨own, member', name⟩ := List.mem_map.mp known
    rw [ledger.unique member member' (same.trans (congrArg cString name.symm))]
    exact name
  · intro unaliased
    refine answer.mono fun _ s' fact => fact.trans ⟨fun free known => ?_, fun fresh account member => ?_⟩
    · obtain ⟨own, member, name⟩ := List.mem_map.mp known
      exact free own member (congrArg cString name)
    · intro same
      exact fresh (List.mem_map.mpr ⟨account, member, unaliased account member same⟩)

theorem loginLawful_iff {registered : List (String × String)} {s : Server}
    (ledger : Ledger H registered (view s)) (session : SessionRef) {msg : Json}
    {username password : String} (reads : Reads msg username password)
    (apart : Separates H (password :: registered.map Prod.snd))
    (offline : ∀ x ∈ s.sessions, s.name x ≠ username) :
    LoginLawful H registered s session msg username password ↔
      ∀ account ∈ registered, account.2 = password → cString account.1 = cString username →
        account.1 = username := by
  have answer := always_loginAnswer ledger session reads apart offline
  constructor
  · intro lawful account member own same
    obtain ⟨steady, unlimited⟩ := eventually_unlimited (H := H) s session
    obtain ⟨_, s', law, fact⟩ := lawful.both (soundWorld H steady)
      ⟨soundWorld_sound steady, unlimited⟩ answer
    have known := law.mp (fact.mpr ⟨account, member, same, own⟩)
    rw [ledger.unique member known same]
  · intro unaliased
    refine answer.mono fun _ s' fact => fact.trans ⟨?_, fun known => ⟨_, known, rfl, rfl⟩⟩
    rintro ⟨account, member, same, own⟩
    have name := unaliased account member own same
    rw [← name, ← own]
    exact member

/-- For every request of every run: the answer to a REGISTER agrees with the history
exactly when no account has the C string of the name under another name, and so for a
LOGIN with the accounts of its password. If every request of the run is so, no two
live sessions share an account. -/
theorem account_identity (H : String → Octets 32) :
    (∀ registered s, AccountRun H (fun _ _ => True) registered s →
      ∀ session msg username password, Reads msg username password →
        (RegisterLawful H registered s session msg username ↔
          ∀ account ∈ registered, cString account.1 = cString username → account.1 = username) ∧
        (Separates H (password :: registered.map Prod.snd) →
          (∀ x ∈ s.sessions, s.name x ≠ username) →
          (LoginLawful H registered s session msg username password ↔
            ∀ account ∈ registered, account.2 = password →
              cString account.1 = cString username → account.1 = username))) ∧
    ∀ registered s, AccountRun H Unaliased registered s →
      (registered.map fun account => cString account.1).Nodup ∧ Exclusive registered (view s) := by
  refine ⟨fun registered s run session msg username password reads => ⟨?_, ?_⟩,
    fun registered s run => ⟨?_, ?_⟩⟩
  · exact registerLawful_iff (ledger_of_run run) session reads
  · exact loginLawful_iff (ledger_of_run run) session reads
  · exact (ledger_of_run run).distinct
  · exact (exclusive_of_run run).1

/-! ## Alice, with and without a NUL -/

/-- A digest that tells texts apart by their last character. -/
def lastChar (text : String) : Octets 32 :=
  ⟨List.replicate 32 (UInt8.ofNat (text.toList.getLastD ' ').toNat), List.length_replicate⟩

/-- A REGISTER or LOGIN with these two members. -/
def credentials (type username password : String) : Json :=
  .object [("type", .string type), ("from", .string username), ("content", .string password)]

/-- The server after a request that runs in the sound world. -/
def after (p : Proc Unit) (s : Server) : Server × List Act :=
  (eval loggedExec (soundWorld lastChar 0) p (s, [])).2

theorem runs_after (p : Proc Unit) (s : Server) :
    ∃ o, Runs loggedExec (Sound lastChar) p (s, []) o ((after p s).1, (after p s).2) :=
  ⟨_, eval_runs loggedExec (Sound lastChar) (soundWorld lastChar 0) (soundWorld_sound 0) p (s, [])⟩

/-- The first connection of the run. -/
def one : SessionRef := ⟨0, 5, "10.0.0.1"⟩

/-- The second, from another address. -/
def two : SessionRef := ⟨1, 6, "10.0.0.2"⟩

/-- Two connections, and the first one registers alice. -/
def connected : Server :=
  (after (handleNewConnection 6 "10.0.0.2") (after (handleNewConnection 5 "10.0.0.1") {}).1).1

/-- The first connection has registered as alice. -/
def aliceIn : Server := (after (route one (credentials "REGISTER" "alice" "pw")) connected).1

/-- She has logged out again, and her record stays. -/
def aliceOut : Server := (after (route one (.object [("type", .string "LOGOUT")])) aliceIn).1

theorem aliceIn_run : AccountRun lastChar Unaliased [("alice", "pw")] aliceIn := by
  obtain ⟨_, first⟩ := runs_after (handleNewConnection 5 "10.0.0.1") {}
  obtain ⟨_, second⟩ := runs_after (handleNewConnection 6 "10.0.0.2")
    (after (handleNewConnection 5 "10.0.0.1") {}).1
  obtain ⟨_, register⟩ := runs_after (route one (credentials "REGISTER" "alice" "pw")) connected
  have empty : AccountRun lastChar Unaliased [] {} := .boot
  have accepted := empty.accept (fun _ member => nomatch member) first
  have both : AccountRun lastChar Unaliased [] connected := accepted.accept (by decide) second
  have live : one ∈ connected.sessions := by decide
  exact both.message live (fun _ _ _ member => nomatch member) register

theorem aliceOut_run : AccountRun lastChar Unaliased [("alice", "pw")] aliceOut := by
  obtain ⟨_, logout⟩ := runs_after (route one (.object [("type", .string "LOGOUT")])) aliceIn
  have live : one ∈ aliceIn.sessions := by decide
  refine aliceIn_run.message live ?_ logout
  intro username reads account member
  cases reads
  cases List.mem_singleton.mp member
  decide

theorem AccountRun.any {allowed : List (String × String) → Json → Prop}
    {registered : List (String × String)} {s : Server} (run : AccountRun H allowed registered s) :
    AccountRun H (fun _ _ => True) registered s := by
  induction run with
  | boot => exact .boot
  | accept _ unused handled ih => exact ih.accept unused handled
  | message _ live _ handled ih => exact ih.message live trivial handled
  | disconnect _ handled ih => exact ih.disconnect handled

theorem separates_lastChar : Separates lastChar ["px", "pw"] := by
  intro salt p hp q hq same
  have px : (lastChar (hex salt.bytes ++ ":" ++ "px")).bytes.head? = some 120 := by
    simp [lastChar]
  have pw : (lastChar (hex salt.bytes ++ ":" ++ "pw")).bytes.head? = some 119 := by
    simp [lastChar]
  simp only [List.mem_cons, List.not_mem_nil, or_false] at hp hq
  rcases hp with rfl | rfl
  · rcases hq with rfl | rfl
    · rfl
    · rw [same, pw] at px
      exact absurd px (by decide)
  · rcases hq with rfl | rfl
    · rw [same, px] at pw
      exact absurd pw (by decide)
    · rfl

/-- Alice has registered and is away; Bob registers, and a LOGIN is tried with her name and the
wrong password. Both do what the law asks, since no account but the one named shares its C string.
-/
theorem account_identity_alice :
    (RegisterLawful lastChar [("alice", "pw")] aliceOut two (credentials "REGISTER" "bob" "px") "bob" ↔
      ∀ account ∈ [("alice", "pw")], cString account.1 = cString "bob" → account.1 = "bob") ∧
    (LoginLawful lastChar [("alice", "pw")] aliceOut two (credentials "LOGIN" "alice" "px") "alice"
      "px" ↔ ∀ account ∈ [("alice", "pw")], account.2 = "px" →
        cString account.1 = cString "alice" → account.1 = "alice") ∧
    Exclusive [("alice", "pw")] (view aliceOut) := by
  obtain ⟨requests, sessions⟩ := account_identity lastChar
  have asked := requests _ _ aliceOut_run.any two
  refine ⟨(asked (credentials "REGISTER" "bob" "px") "bob" "px" ⟨rfl, rfl, by decide⟩).1, ?_, ?_⟩
  · exact (asked (credentials "LOGIN" "alice" "px") "alice" "px" ⟨rfl, rfl, by decide⟩).2
      separates_lastChar (by decide)
  · exact (sessions _ _ aliceOut_run).2

/-- Behind alice's back, `alice\0x` logs in with her password. -/
theorem login_under_another_name :
    ¬ ∀ H registered s, AccountRun H (fun _ _ => True) registered s →
      ∀ session msg username password, Reads msg username password →
        Separates H (password :: registered.map Prod.snd) →
          (∀ x ∈ s.sessions, s.name x ≠ username) →
            LoginLawful H registered s session msg username password := by
  intro always
  have apart : Separates lastChar ["pw", "pw"] := by
    intro salt p hp q hq _
    simp only [List.mem_cons, List.not_mem_nil, or_false, or_self] at hp hq
    rw [hp, hq]
  have law := always lastChar _ _ aliceIn_run.any two (credentials "LOGIN" "alice\x00x" "pw")
    "alice\x00x" "pw" ⟨rfl, rfl, by decide⟩ apart (by decide)
  have unlimited : ¬ RateLimited aliceIn two (soundWorld lastChar 0) :=
    fun limited => Bool.false_ne_true limited.2
  have fact := law _ _ (eval_runs loggedExec _ (soundWorld lastChar 0)
    ⟨soundWorld_sound 0, unlimited⟩ _ _)
  have positive : answered "LOGIN_OK" two (eval loggedExec (soundWorld lastChar 0)
      (handleLogin two (credentials "LOGIN" "alice\x00x" "pw")) (aliceIn, [])).2.2 = true := by
    decide +kernel
  have known := fact.mp positive
  revert known
  decide

end LinuxChat.Guarantees.AccountIdentity
