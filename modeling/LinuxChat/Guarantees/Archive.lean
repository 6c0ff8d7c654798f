import LinuxChat.Guarantees.ConnectionOrder
import LinuxChat.Guarantees.Credentials

/-!
# What the database holds

The two tables are all that outlives the server. Wherever it is killed, and however often it
is started on the file again, no row is lost or changed, and what the callers of
`register_user` and `store_message` check (server/src/message_router.cpp:258-307, 443-520)
holds of every row: the names of a message are those of accounts, the texts keep their
bounds. A handler reads the names some actions before it stores them.
-/

namespace LinuxChat.Guarantees.Archive

open LinuxChat.Lib LinuxChat.Source Prog Credentials
open ConnectionOrder (speech)

/-! ## Rows -/

/-- A bound string of at most so many octets, as SQLite has it. -/
structure Text (text : String) (size : Nat) : Prop where
  whole : '\x00' ∉ text.toList
  bound : text.utf8ByteSize ≤ size

/-- The sender's name is empty when another worker has logged the session out in between. -/
structure Filed (users : List (String × String)) (row : Row) : Prop where
  sender : row.fromUser = "" ∨ Has users row.fromUser
  addressee : row.toUser = Database.roomTarget ∨ Has users row.toUser
  content : Text row.content maxMessageLen

/-- A file that the server has written: its messages are numbered from one on without a gap, no
account occurs twice, every record has the form in which the server writes it, and every message
is filed between accounts. -/
structure Kept (db : Database) : Prop where
  ids : db.messages.map Row.id = List.range' 1 db.messages.length
  nextId : db.nextId = db.messages.length + 1
  unique : (db.users.map Prod.fst).Nodup
  accounts : ∀ user ∈ db.users, Text user.1 maxUsernameLen ∧
    ∃ salt digest, user.2 = recordText salt digest
  rows : ∀ row ∈ db.messages, Filed db.users row

theorem Filed.mono {users users' : List (String × String)} {row : Row} (filed : Filed users row)
    (more : users <+: users') : Filed users' row := by
  have kept : ∀ name, Has users name → Has users' name := by
    rintro name ⟨user, member, same⟩
    exact ⟨user, more.subset member, same⟩
  obtain ⟨sender, addressee, content⟩ := filed
  exact ⟨sender.imp_right (kept _), addressee.imp_right (kept _), content⟩

theorem text_cString {text : String} {size : Nat} (bound : text.utf8ByteSize ≤ size) :
    Text (cString text) size where
  whole := nul_notMem_cString text
  bound := by
    have joined : cString text ++ String.ofList (text.toList.dropWhile (· ≠ '\x00')) = text := by
      apply String.toList_injective
      rw [String.toList_append, cString_toList, String.toList_ofList, List.takeWhile_append_dropWhile]
    have sizes := congrArg String.utf8ByteSize joined
    rw [String.utf8ByteSize_append] at sizes
    omega

theorem kept_register {db : Database} {username : String} {salt : Octets 16}
    {digest : Option (Octets 32)} (ok : Bool) (kept : Kept db)
    (bound : username.utf8ByteSize ≤ maxUsernameLen) :
    Kept (db.registerUser ok username (recordText salt digest)).2 := by
  rcases registerUser_cases ok db username (recordText salt digest) with same | ⟨free, grown⟩
  · rw [same]
    exact kept
  · rw [grown]
    have more : db.users <+: db.users ++ [(cString username, cString (recordText salt digest))] :=
      List.prefix_append _ _
    refine ⟨kept.ids, kept.nextId, ?_, ?_, fun row member => (kept.rows row member).mono more⟩
    · have new : cString username ∉ db.users.map Prod.fst := by
        intro taken
        obtain ⟨user, member, same⟩ := List.mem_map.mp taken
        exact free ⟨user, member, same⟩
      rw [List.map_append, List.map_singleton, ← List.concat_eq_append]
      exact List.Nodup.concat new kept.unique
    · intro user member
      rcases List.mem_append.mp member with old | new
      · exact kept.accounts user old
      · rw [List.mem_singleton.mp new]
        exact ⟨text_cString bound, salt, digest, cString_recordText salt digest⟩

theorem kept_store {db : Database} {sender toUser content : String} {timestamp : Int} (ok : Bool)
    (kept : Kept db) (named : cString sender = "" ∨ Has db.users (cString sender))
    (addressed : toUser = Database.roomTarget ∨ Has db.users (cString toUser))
    (bound : content.utf8ByteSize ≤ maxMessageLen) :
    Kept (db.storeMessage ok sender toUser content timestamp) := by
  unfold Database.storeMessage
  split
  · refine ⟨?_, ?_, kept.unique, kept.accounts, ?_⟩
    · simp only [List.map_append, List.map_singleton, List.length_append, List.length_singleton]
      rw [kept.ids, kept.nextId, List.range'_concat, Nat.add_comm db.messages.length 1, Nat.one_mul]
    · simp only [List.length_append, List.length_singleton]
      rw [kept.nextId]
    · intro row member
      rcases List.mem_append.mp member with old | new
      · exact kept.rows row old
      · rw [List.mem_singleton.mp new]
        refine ⟨named, addressed.imp_left fun room => ?_, text_cString bound⟩
        dsimp only
        rw [room]
        decide
  · exact kept

/-! ## What the handlers have in hand -/

/-- The name a thread has read last, and the name it has last found a session of. -/
structure Names where
  sender : Option String := none
  addressee : Option String := none

/-- A name is in hand from the action that finds it on; the next task begins without one. -/
def Names.follow (names : Names) : (action : Act) → action.Res → Names
  | .checkGeneration _, _ => {}
  | .getUsername _, name => { names with sender := some name }
  | .findSession username, found =>
    if found.isSome then { names with addressee := some username } else names
  | _, _ => names

/-- The checks before a row is inserted. -/
def checks : Monitor serverInterface Names where
  next := Names.follow
  ok names
    | .findSession username => username ≠ ""
    | .registerUser username record =>
      username.utf8ByteSize ≤ maxUsernameLen ∧ ∃ salt digest, record = recordText salt digest
    | .storeMessage sender toUser content _ =>
      names.sender = some sender ∧
        (toUser = Database.roomTarget ∨ names.addressee = some toUser) ∧
        content.utf8ByteSize ≤ maxMessageLen
    | _ => True

/-- Neither inserts a row nor looks for an addressee. -/
def Plain : Act → Prop
  | .findSession _ => False
  | .registerUser _ _ => False
  | .storeMessage _ _ _ _ => False
  | _ => True

theorem plain_ok (action : Act) (plain : Plain action) (names : Names) : checks.ok names action := by
  cases action with
  | findSession | registerUser | storeMessage => cases plain
  | _ => trivial

/-- The program meets `checks`, wherever it ends. -/
abbrev Checked {α : Type} (p : Proc α) (names : Names) : Prop :=
  p.Meets checks (fun _ _ => True) names

section
variable {names : Names}

theorem checked_of_plain {α : Type} {p : Proc α} (h : p.Forall Plain) : Checked p names :=
  meets_of_forall (J := fun _ => True)
    (fun action plain names _ => ⟨plain_ok action plain names, fun _ => trivial⟩) h trivial

theorem plain_announcing : Announcing Plain where
  clock := trivial
  list := trivial
  scan _ := trivial
  find _ := trivial
  users _ _ _ := trivial
  notify _ _ _ := trivial

theorem plain_departing : Departing Plain where
  toAnnouncing := plain_announcing
  gate _ := trivial
  name _ := trivial
  offline _ := trivial
  unname _ := trivial

theorem plain_serving : Serving Plain where
  toAnnouncing := plain_announcing
  gate _ := trivial
  name _ := trivial
  offline _ := trivial
  unname _ := trivial
  erase _ := trivial
  registered := trivial
  pending _ := trivial
  cleanup _ := trivial
  unpend _ := trivial
  drop _ := trivial
  store _ _ := trivial
  receive _ := trivial
  handler := trivial
  stamp _ := trivial
  enqueue _ := trivial
  ping _ := trivial

theorem plain_sendError (session : SessionRef) (code content : String) :
    (sendError session code content).Forall Plain :=
  forall_sendError trivial

theorem plain_closeLogin (session : SessionRef) (username : String) :
    (closeLogin session username).Forall Plain := by
  have announces : (announceLogin session username).Forall Plain :=
    forall_announceLogin plain_announcing trivial trivial fun _ _ => trivial
  unfold closeLogin
  rw [finishLogin_eq]
  refine Forall.bind ⟨trivial, fun _ => ⟨trivial, fun _ => announces⟩⟩ fun _ => ?_
  exact ⟨trivial, fun _ => ⟨trivial, fun _ => trivial⟩⟩

theorem plain_reservedLogin (session : SessionRef) (username password : String) :
    (reservedLogin session username password).Forall Plain := by
  rw [reservedLogin_eq]
  refine ⟨trivial, fun outcome => ?_⟩
  cases outcome with
  | inProgress => exact plain_sendError _ _ _
  | alreadyOnline => exact plain_sendError _ _ _
  | reserved =>
    refine ⟨trivial, fun _ => ⟨trivial, fun record => ?_⟩⟩
    refine (forall_passwordAccepted password record fun _ => trivial).bind fun accepted => ?_
    split
    · rw [acceptLogin_eq]
      split
      · exact ⟨trivial, fun _ => plain_closeLogin session username⟩
      · exact plain_closeLogin session username
    · exact forall_rejectLogin trivial trivial trivial trivial

theorem plain_handleLogin (session : SessionRef) (msg : Json) :
    (handleLogin session msg).Forall Plain := by
  rw [handleLogin_eq]
  refine (forall_valueOf msg _ _).bind fun username => (forall_valueOf msg _ _).bind fun password => ?_
  split
  · exact plain_sendError _ _ _
  · refine (forall_rateLimited session trivial).bind fun limited => ?_
    split
    · exact plain_sendError _ _ _
    · exact plain_reservedLogin session username password

theorem checked_valueOf {α : Type} {msg : Json} {key default : String} {next : String → Proc α}
    (reads : ∀ found, Checked (next found) names) :
    Checked ((valueOf msg key default).bind next) names := by
  unfold valueOf
  cases msg.value key default with
  | error e => trivial
  | ok text => exact reads text

/-- What is returned is a record. -/
theorem meets_record (password : String) :
    (hashPassword password).Meets checks
      (fun o _ => ∀ record, o = .ok record → ∃ salt digest, record = recordText salt digest)
      names := by
  rw [hashPassword_eq]
  refine ⟨trivial, fun drawn => ?_⟩
  cases drawn with
  | none =>
    intro record impossible
    cases impossible
  | some salt =>
    refine ⟨trivial, fun digest => ?_⟩
    cases digest with
    | none =>
      rintro record made
      cases made
      exact ⟨salt, none, rfl⟩
    | some octets =>
      rintro record made
      cases made
      exact ⟨salt, some octets, rfl⟩

theorem credentials_bounded {username password : String}
    (accepted : credentialError username password = none) :
    username.utf8ByteSize ≤ maxUsernameLen := by
  unfold credentialError at accepted
  split at accepted
  · cases accepted
  · split at accepted
    · cases accepted
    · omega

theorem private_bounded {toUser content : String} (accepted : privateError toUser content = none) :
    content.utf8ByteSize ≤ maxMessageLen := by
  unfold privateError at accepted
  split at accepted
  · cases accepted
  · split at accepted
    · cases accepted
    · split at accepted
      · cases accepted
      · omega

theorem checked_handleRegister (session : SessionRef) (msg : Json) :
    Checked (handleRegister session msg) names := by
  rw [handleRegister_eq]
  refine checked_valueOf fun username => checked_valueOf fun password => ?_
  cases accepted : credentialError username password with
  | some text => exact checked_of_plain (plain_sendError _ _ _)
  | none =>
    refine ⟨trivial, fun reserved => ?_⟩
    cases reserved with
    | false => exact checked_of_plain (plain_sendError _ _ _)
    | true =>
      refine ⟨trivial, fun _ => Meets.bind (meets_record password) ?_ fun _ _ _ => trivial⟩
      intro record names' made
      rw [completeRegister_eq]
      refine ⟨⟨credentials_bounded accepted, made record rfl⟩, fun registered => ?_⟩
      cases registered with
      | false => exact checked_of_plain (forall_closeFailed trivial trivial trivial)
      | true => exact checked_of_plain (plain_closeLogin session username)

theorem checked_handleBroadcast (session : SessionRef) (msg : Json) :
    Checked (handleBroadcast session msg) names := by
  rw [handleBroadcast_eq]
  refine checked_valueOf fun content => ?_
  split
  · exact checked_of_plain (plain_sendError _ _ _)
  · split
    · exact checked_of_plain (plain_sendError _ _ _)
    next bounded =>
      refine ⟨trivial, fun timestamp => ⟨trivial, fun sender => ?_⟩⟩
      refine ⟨⟨rfl, Or.inl rfl, Nat.le_of_not_gt bounded⟩, fun _ => checked_of_plain ?_⟩
      exact forall_broadcast trivial fun _ => trivial

theorem checked_handlePrivate (session : SessionRef) (msg : Json) :
    Checked (handlePrivate session msg) names := by
  rw [handlePrivate_eq]
  refine checked_valueOf fun toUser => checked_valueOf fun content => ?_
  cases accepted : privateError toUser content with
  | some text => exact checked_of_plain (plain_sendError _ _ _)
  | none =>
    refine ⟨privateError_none accepted, fun found => ?_⟩
    cases found with
    | none => exact checked_of_plain (plain_sendError _ _ _)
    | some target =>
      change Checked (deliverPrivate session target toUser content) _
      rw [deliverPrivate_eq]
      refine ⟨trivial, fun timestamp => ⟨trivial, fun sender => ?_⟩⟩
      refine ⟨⟨rfl, Or.inr rfl, private_bounded accepted⟩, fun _ => checked_of_plain ?_⟩
      refine (forall_sendToFd trivial fun _ => trivial).bind fun _ => ?_
      exact (forall_sendToFd trivial fun _ => trivial).bind fun _ => trivial

theorem checked_handleHistoryReq (session : SessionRef) (msg : Json) :
    Checked (handleHistoryReq session msg) names := by
  rw [handleHistoryReq_eq]
  refine checked_valueOf fun toUser => checked_of_plain ⟨trivial, fun _ => ⟨trivial, fun _ => ?_⟩⟩
  exact (forall_sendToFd trivial fun _ => trivial).bind fun _ => trivial

theorem checked_route (session : SessionRef) (msg : Json) : Checked (route session msg) names := by
  rw [route_eq]
  refine checked_valueOf fun type => ⟨trivial, fun authenticated => ?_⟩
  cases authenticated with
  | true =>
    change Checked (routeAuthenticated session msg type) _
    unfold routeAuthenticated
    split
    · trivial
    · split
      · exact checked_handleBroadcast session msg
      · split
        · exact checked_handlePrivate session msg
        · split
          · exact checked_handleHistoryReq session msg
          · split
            · exact checked_of_plain (forall_logout plain_departing session)
            · exact checked_of_plain (plain_sendError _ _ _)
  | false =>
    change Checked (routeUnauthenticated session msg type) _
    unfold routeUnauthenticated
    split
    · exact checked_handleRegister session msg
    · split
      · exact checked_of_plain (plain_handleLogin session msg)
      · split
        · trivial
        · exact checked_of_plain (plain_sendError _ _ _)

end

theorem checked_runTask (task : Task) (names : Names) : Checked (runTask task) names := by
  rw [runTask_eq]
  refine ⟨trivial, fun current => ?_⟩
  cases current with
  | false => exact ⟨trivial, fun _ => trivial⟩
  | true =>
    have caught : Checked ((route task.session task.msg).tryCatch fun _ => .ret ())
        (names.follow (.checkGeneration task) true) :=
      (checked_route task.session task.msg).tryCatch (fun _ _ _ => trivial) fun _ _ _ => trivial
    exact caught.bind (fun _ _ _ => ⟨trivial, fun _ => trivial⟩) fun _ _ _ => trivial

/-- The server, and beside it what every thread has in hand. -/
abbrev Noted := Shared × (Nat → Names)

/-- The server, with the names that every thread has in hand. -/
abbrev noted (workers : Nat) : Machine serverInterface Exn Noted World :=
  (machine workers).recording ((machine workers).following checks)

/-- Every program of the server keeps to what the monitor asks of it, and the history variable is
what the monitor sees. -/
theorem follows (workers : Nat) :
    (noted workers).Follows checks (fun s t => s.2 t) fun _ _ => True := by
  apply Machine.follows_following
  intro t p s s' names started _
  cases started with
  | event e => exact checked_of_plain (forall_event plain_serving e)
  | task => exact checked_runTask _ _

/-! ## The invariant -/

/-- No row is lost or changed. -/
structure Grown (db db' : Database) : Prop where
  users : db.users <+: db'.users
  messages : db.messages <+: db'.messages

theorem Grown.refl (db : Database) : Grown db db := ⟨List.prefix_rfl, List.prefix_rfl⟩

theorem Grown.trans {db₁ db₂ db₃ : Database} (first : Grown db₁ db₂) (second : Grown db₂ db₃) :
    Grown db₁ db₃ :=
  ⟨first.users.trans second.users, first.messages.trans second.messages⟩

theorem Grown.has {db db' : Database} (grown : Grown db db') {name : String}
    (has : Has db.users name) : Has db'.users name := by
  obtain ⟨user, member, same⟩ := has
  exact ⟨user, grown.users.subset member, same⟩

theorem grown_exec (w : World) (action : Act) (s : Server) : Grown s.db (action.exec w s).2.db := by
  rw [exec_db]
  cases action with
  | registerUser username record =>
    dsimp only
    rcases registerUser_cases w.dbOk s.db username record with same | ⟨_, grown⟩
    · rw [same]
      exact Grown.refl s.db
    · rw [grown]
      exact ⟨List.prefix_append _ _, List.prefix_rfl⟩
  | storeMessage sender toUser content timestamp =>
    simp only [Database.storeMessage]
    split
    · exact ⟨List.prefix_rfl, List.prefix_append _ _⟩
    · exact Grown.refl s.db
  | _ => exact Grown.refl s.db

/-- Sessions bear the names of accounts. -/
def Named (s : Noted) : Prop :=
  ∀ id, (s.1.server.heap id).username ≠ "" →
    Has s.1.server.db.users (cString (s.1.server.heap id).username)

/-- Every name that a session bears has its row in the users table, since it was earned. -/
theorem named_of_run {workers : Nat} {db : Database} {c : Config serverInterface Exn Noted}
    (run : (noted workers).Reaches Machine.unrestricted ⟨((boot db).shared, fun _ => {}),
      (boot db).thread⟩ c) : Named c.shared := by
  obtain ⟨claims, recorded⟩ := run.forget.record (H := claiming workers) {}
  have sound := sound_of_run recorded
  intro id named
  obtain ⟨grant, member, _, name⟩ := sound.named id named
  obtain ⟨_, _, _, password, _, proof⟩ := sound.granted grant member
  rw [name] at proof
  rcases proof with ⟨_, _, _, _, row⟩ | ⟨_, _, row, _⟩
  · exact ⟨_, row, rfl⟩
  · exact ⟨_, row, rfl⟩

/-- The invariant: the file is kept, and the names in hand are those of accounts. -/
structure Sound (db : Database) (s : Noted) : Prop where
  sender : ∀ t name, (s.2 t).sender = some name → name = "" ∨ Has s.1.server.db.users (cString name)
  addressee : ∀ t name, (s.2 t).addressee = some name → Has s.1.server.db.users (cString name)
  kept : Kept s.1.server.db
  grown : Grown db s.1.server.db

section
variable {workers t : Nat} {s : Noted} {action : Act} {db : Database} (w : World)

/-- The state after an action of thread `t`. -/
abbrev next (workers t : Nat) (w : World) (action : Act) (s : Noted) : Noted :=
  ((noted workers).exec t w action s).2

theorem next_server : (next workers t w action s).1.server = (action.exec w s.1.server).2 := rfl

theorem next_own : (next workers t w action s).2 t =
    (s.2 t).follow action (action.exec w s.1.server).1 :=
  Function.update_self _ _ _

theorem next_other {u : Nat} (differs : u ≠ t) : (next workers t w action s).2 u = s.2 u :=
  Function.update_of_ne differs _ _

theorem sender_step (sound : Sound db s) (named : Named s) (u : Nat) (name : String)
    (read : ((next workers t w action s).2 u).sender = some name) :
    name = "" ∨ Has (next workers t w action s).1.server.db.users (cString name) := by
  have grown : Grown s.1.server.db (next workers t w action s).1.server.db :=
    grown_exec w action s.1.server
  have before : (s.2 u).sender = some name →
      name = "" ∨ Has (next workers t w action s).1.server.db.users (cString name) :=
    fun old => (sound.sender u name old).imp_right grown.has
  by_cases actor : u = t
  · subst actor
    rw [next_own] at read
    cases action with
    | getUsername session =>
      have same : (s.1.server.heap session.id).username = name := Option.some.inj read
      by_cases empty : name = ""
      · exact Or.inl empty
      · right
        rw [← same] at empty ⊢
        exact grown.has (named session.id empty)
    | findSession username =>
      simp only [Names.follow] at read
      split at read
      · exact before read
      · exact before read
    | checkGeneration task => cases read
    | _ => exact before read
  · rw [next_other w actor] at read
    exact before read

theorem addressee_step (sound : Sound db s) (named : Named s) (ok : checks.ok (s.2 t) action)
    (u : Nat) (name : String)
    (found : ((next workers t w action s).2 u).addressee = some name) :
    Has (next workers t w action s).1.server.db.users (cString name) := by
  have grown : Grown s.1.server.db (next workers t w action s).1.server.db :=
    grown_exec w action s.1.server
  have before : (s.2 u).addressee = some name →
      Has (next workers t w action s).1.server.db.users (cString name) :=
    fun old => grown.has (sound.addressee u name old)
  by_cases actor : u = t
  · subst actor
    rw [next_own] at found
    cases action with
    | findSession username =>
      simp only [Names.follow] at found
      split at found
      next present =>
        cases found
        obtain ⟨target, searched⟩ := Option.isSome_iff_exists.mp present
        have bears : s.1.server.name target = name := findSession_name searched
        have nonempty : (s.1.server.heap target.id).username ≠ "" := by
          intro empty
          exact ok (bears.symm.trans empty)
        have account := named target.id nonempty
        rw [show (s.1.server.heap target.id).username = name from bears] at account
        exact grown.has account
      next => exact before found
    | checkGeneration task => cases found
    | _ => exact before found
  · rw [next_other w actor] at found
    exact before found

theorem kept_step (sound : Sound db s) (ok : checks.ok (s.2 t) action) :
    Kept (next workers t w action s).1.server.db := by
  rw [next_server, exec_db]
  cases action with
  | registerUser username record =>
    obtain ⟨bound, salt, digest, rfl⟩ := ok
    exact kept_register w.dbOk sound.kept bound
  | storeMessage sender toUser content timestamp =>
    obtain ⟨read, addressed, bound⟩ := ok
    refine kept_store w.dbOk sound.kept ?_ ?_ bound
    · refine (sound.sender t sender read).imp_left fun empty => ?_
      rw [empty]
      decide
    · exact addressed.imp_right fun found => sound.addressee t toUser found
  | _ => exact sound.kept

/-- Part by part, for an action of a thread that keeps to the monitor. -/
theorem sound_step (sound : Sound db s) (named : Named s) (ok : checks.ok (s.2 t) action) :
    Sound db (next workers t w action s) where
  sender := sender_step w sound named
  addressee := addressee_step w sound named ok
  kept := kept_step w sound ok
  grown := sound.grown.trans (grown_exec w action s.1.server)

end

theorem sound_of_life {workers : Nat} {db : Database} {c : Config serverInterface Exn Shared}
    (kept : Kept db) (run : (machine workers).Reaches Machine.unrestricted (boot db) c) :
    Kept c.shared.server.db ∧ Grown db c.shared.server.db := by
  obtain ⟨names, recorded⟩ := run.record (H := (machine workers).following checks) fun _ => {}
  have idle : ∀ t, Checked ((boot db).thread t) {} := fun _ => trivial
  have sound : Sound db (c.shared, names) := by
    refine (follows workers).invariant_of_known idle (K := Named) (P := Sound db)
      (fun c run => named_of_run run) ⟨?_, ?_, kept, Grown.refl db⟩ ?_ ?_ recorded
    · intro t name read
      cases read
    · intro t name found
      cases found
    · exact fun t w action s named sound ok _ => sound_step w sound named ok
    · intro t p s s' _ sound _ start
      obtain ⟨shared, held⟩ := s'
      obtain ⟨started, same⟩ := start
      replace same : held = s.2 := same
      dsimp only at started
      subst same
      cases started with
      | event e => exact sound
      | task => exact ⟨sound.sender, sound.addressee, sound.kept, sound.grown⟩
  exact ⟨sound.kept, sound.grown⟩

/-- What is in the file after the server has been started on it any number of times, with any
number of workers, and killed at any moment. -/
inductive Lives (db : Database) : Database → Prop
  | new : Lives db db
  | life {db' : Database} (workers : Nat) {c : Config serverInterface Exn Shared}
      (before : Lives db db')
      (run : (machine workers).Reaches Machine.unrestricted (boot db') c) :
      Lives db c.shared.server.db

/-- Whatever the server has been through, the rows of its database are numbered without a gap,
no two accounts have one name, every account has a salted record, every message is between
accounts or to the room, all texts keep their bounds, and no row is lost or changed. -/
theorem database_kept {db db' : Database} (kept : Kept db) (lives : Lives db db') :
    Kept db' ∧ Grown db db' := by
  induction lives with
  | new => exact ⟨kept, Grown.refl db⟩
  | life workers before run ih =>
    obtain ⟨kept', grown⟩ := ih
    obtain ⟨again, more⟩ := sound_of_life kept' run
    exact ⟨again, grown.trans more⟩

/-- Alice registers and says something; the server dies while she says it again. -/
def firstLife : List Turn :=
  accept 5 ++ read 5 (request "REGISTER" "alice") ++ work 1 60 ++ read 5 (speech "hi") ++
    work 1 20 ++ read 5 (speech "hi") ++ work 1 4

/-- Bob registers and says hello. -/
def secondLife : List Turn :=
  accept 5 ++ read 5 (request "REGISTER" "bob") ++ work 1 60 ++ read 5 (speech "hello") ++ work 1 20

/-- The record of a password that was registered in the steady world. -/
def steadyRecord : String := recordText (Octets.zeros 16) (some (Octets.zeros 32))

/-- The file after the first life. -/
def between : Database where
  users := [("alice", steadyRecord)]
  messages := [⟨1, "alice", "__room__", "hi", 0⟩]
  nextId := 2

/-- The server dies while it handles alice's second message; in its second life Bob says
hello. The rows of both finished messages are there, and none of the unfinished one. -/
theorem database_kept_secondLife :
    ∃ db, Lives {} db ∧ db.messages.map Row.content = ["hi", "hello"] ∧ Kept db := by
  have first : (play 1 firstLife (boot {})).any (fun c =>
      c.shared.server.db.users = between.users ∧ c.shared.server.db.messages = between.messages ∧
        c.shared.server.db.nextId = between.nextId) = true := by
    decide +kernel
  have second : (play 1 secondLife (boot between)).any (fun c =>
      c.shared.server.db.messages.map Row.content = ["hi", "hello"]) = true := by
    decide +kernel
  have fresh : Kept {} :=
    ⟨rfl, rfl, List.nodup_nil, (fun _ member => nomatch member), fun _ member => nomatch member⟩
  obtain ⟨c₁, run₁, test₁⟩ := reaches_of_play first
  obtain ⟨c₂, run₂, test₂⟩ := reaches_of_play second
  obtain ⟨users, messages, nextId⟩ := of_decide_eq_true test₁
  have left : c₁.shared.server.db = between := by
    cases same : c₁.shared.server.db
    rw [same] at users messages nextId
    dsimp only at users messages nextId
    rw [users, messages, nextId]
  have once : Lives {} between := left ▸ .life 1 .new run₁
  have twice := Lives.life 1 once run₂
  exact ⟨_, twice, of_decide_eq_true test₂, (database_kept fresh twice).1⟩

end LinuxChat.Guarantees.Archive
