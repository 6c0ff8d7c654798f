import LinuxChat.Lib.Monitor
import LinuxChat.Lib.History
import LinuxChat.Guarantees.Effects
import LinuxChat.Guarantees.Passwords
import LinuxChat.Guarantees.Playback

/-!
# How a session comes by its name

`handle_register` and `handle_login` give a session its name several actions after they
have looked at the users table (server/src/message_router.cpp:258-411), while other workers
go on. `Claims` is a history variable: for every name given, the message it was given for,
the row read or inserted, and the last digest computed. In every run a name was earned: its
row is in the users table, and either this REGISTER has put it there or the password of this
LOGIN passed the comparison with it.
-/

namespace LinuxChat.Guarantees.Credentials

open LinuxChat.Lib LinuxChat.Source Prog

/-! ## The record -/

/-- What a thread has in hand for the message it handles: the last text digested and the
digest, the row it has read, the row it has inserted. -/
structure Claim where
  origin : Option SessionRef := none
  message : Json := .null
  digest : Option (String × String) := none
  stored : Option (String × String) := none
  inserted : Option (String × String) := none

/-- What `sha256_hex` makes of the answer of OpenSSL. -/
def digestText : Option (Octets 32) → String
  | some octets => hex octets.bytes
  | none => ""

/-- The record that `hash_password` composes. -/
def recordText (salt : Octets 16) (digest : Option (Octets 32)) : String :=
  hex salt.bytes ++ ":" ++ digestText digest

namespace Claim

/-- The thread begins with the message of its task, and notes the last digest it made, the last
record it read and the last one it inserted. -/
def follow (c : Claim) : (action : Act) → action.Res → Claim
  | .checkGeneration task, _ => { origin := some task.session, message := task.msg }
  | .sha256 input, result => { c with digest := some (input, digestText result) }
  | .getStoredHash username, record => { c with stored := some (username, record) }
  | .registerUser username record, accepted =>
    if accepted then { c with inserted := some (username, record) } else c
  | _, _ => c

end Claim

/-- A name given to a session, and what it was given for. -/
structure Grant where
  session : SessionRef
  name : String
  claim : Claim

/-- What every thread has in hand, and all the names that were given to sessions, each with what
the thread had in hand then. -/
structure Claims where
  claim : Nat → Claim := fun _ => {}
  granted : List Grant := []

namespace Claims

/-- Setting a username is a grant. -/
def grants (claims : Claims) (t : Nat) : Act → List Grant
  | .setUsername session name => ⟨session, name, claims.claim t⟩ :: claims.granted
  | _ => claims.granted

/-- One action of a thread. -/
def record (claims : Claims) (t : Nat) (action : Act) (result : action.Res) : Claims where
  claim := Function.update claims.claim t ((claims.claim t).follow action result)
  granted := claims.grants t action

end Claims

/-- The history variable that records the grants. -/
def claiming (workers : Nat) : History (machine workers) Claims where
  record t action result _ _ claims := claims.record t action result
  start _ _ claims := claims

/-- The server with the grants made so far. -/
abbrev Claimed := Shared × Claims

/-- The server with the history of its grants. -/
abbrev claimed (workers : Nat) : Machine serverInterface Exn Claimed World :=
  (machine workers).recording (claiming workers)

/-- The server as `main` starts it; nothing has been granted. -/
def claimedBoot (db : Database) : Config serverInterface Exn Claimed :=
  ⟨((boot db).shared, {}), (boot db).thread⟩

/-! ## What a name takes -/

/-- The text that `verify_password` digests, and the digest it expects. -/
def challenge (password stored : String) : String × String :=
  let colonPos := stored.toList.idxOf ':'
  if colonPos + 1 ≥ stored.toList.length then (password, stored)
  else
    (String.ofList (stored.toList.take colonPos) ++ ":" ++ password,
      String.ofList (stored.toList.drop (colonPos + 1)))

theorem verifyPassword_eq (password stored : String) :
    verifyPassword password stored =
      (sha256Hex (challenge password stored).1).bind fun computed =>
        .ret (decide (computed = (challenge password stored).2)) := by
  unfold verifyPassword challenge
  dsimp only
  split
  · rfl
  · rfl

/-- A REGISTER of this name and password whose record was inserted. -/
structure Registers (c : Claim) (name password : String) : Prop where
  type : c.message.typeOf = "REGISTER"
  row : ∃ salt digest, c.digest = some (hex salt.bytes ++ ":" ++ password, digestText digest) ∧
    c.inserted = some (name, recordText salt digest)

/-- A LOGIN of this name whose password has the digest that the record read asks for. -/
structure Verifies (c : Claim) (name password : String) : Prop where
  type : c.message.typeOf = "LOGIN"
  row : ∃ record, record ≠ "" ∧ c.stored = some (name, record) ∧
    c.digest = some (challenge password record)

/-- What a thread has in hand entitles the session to the name: the message came from the session
and names it, and either the record stored under the name was verified or one was just stored for
it. -/
structure Earns (c : Claim) (session : SessionRef) (name : String) : Prop where
  own : c.origin = some session
  sender : c.message.value "from" "" = .ok name
  nonempty : name ≠ ""
  proof : ∃ password, c.message.value "content" "" = .ok password ∧
    (Registers c name password ∨ Verifies c name password)

/-- A monitor of the handlers: a session gets only a name that it has earned. -/
def claims : Monitor serverInterface Claim where
  next := Claim.follow
  ok c
    | .setUsername session name => Earns c session name
    | _ => True

/-- Gives no name. -/
def Nameless : Act → Prop
  | .setUsername _ _ => False
  | _ => True

theorem nameless_ok (action : Act) (nameless : Nameless action) (c : Claim) :
    claims.ok c action := by
  cases action with
  | setUsername => cases nameless
  | _ => trivial

/-- The program meets `claims`, wherever it ends. -/
abbrev Honest {α : Type} (p : Proc α) (c : Claim) : Prop := p.Meets claims (fun _ _ => True) c

theorem honest_of_nameless {α : Type} {p : Proc α} (h : p.Forall Nameless) (c : Claim) :
    Honest p c :=
  meets_of_forall (J := fun _ => True)
    (fun action nameless c _ => ⟨nameless_ok action nameless c, fun _ => trivial⟩) h trivial

theorem nameless_announcing : Announcing Nameless where
  clock := trivial
  list := trivial
  scan _ := trivial
  find _ := trivial
  users _ _ _ := trivial
  notify _ _ _ := trivial

theorem nameless_serving : Serving Nameless where
  toAnnouncing := nameless_announcing
  gate _ := trivial
  name _ := trivial
  offline _ := trivial
  unname _ := trivial
  erase _ := trivial
  registered := trivial
  pending _ := trivial
  cleanup _ := trivial
  unpend _ := trivial
  drop _ := trivial
  store _ _ := trivial
  receive _ := trivial
  handler := trivial
  stamp _ := trivial
  enqueue _ := trivial
  ping _ := trivial

section
variable {c : Claim}

theorem honest_valueOf {α : Type} {msg : Json} {key default : String} {next : String → Proc α}
    (reads : ∀ found, msg.value key default = .ok found → Honest (next found) c) :
    Honest ((valueOf msg key default).bind next) c := by
  unfold valueOf
  cases found : msg.value key default with
  | error e => trivial
  | ok text => exact reads text found

theorem honest_sendError (session : SessionRef) (code content : String) :
    Honest (sendError session code content) c :=
  honest_of_nameless (forall_sendError trivial) c

theorem honest_closeFailed (session : SessionRef) (username code content : String) :
    Honest (closeFailed session username code content) c :=
  honest_of_nameless (forall_closeFailed trivial trivial trivial) c

theorem honest_closeLogin {session : SessionRef} {username : String}
    (earns : Earns c session username) : Honest (closeLogin session username) c := by
  have announces : (announceLogin session username).Forall Nameless :=
    forall_announceLogin nameless_announcing trivial trivial fun _ _ => trivial
  have rest : ((announceLogin session username).bind fun _ =>
      .act (.clearPendingLogin session) fun _ => .act (.releaseReservation username) .ret :
        Proc Unit).Forall Nameless :=
    announces.bind fun _ => ⟨trivial, fun _ => ⟨trivial, fun _ => trivial⟩⟩
  exact ⟨earns, fun _ => ⟨trivial, fun _ => honest_of_nameless rest _⟩⟩

theorem meets_sha256Hex (input : String) :
    (sha256Hex input).Meets claims
      (fun o c' => ∃ digest, o = .ok (digestText digest) ∧
        c' = { c with digest := some (input, digestText digest) }) c := by
  refine ⟨trivial, fun digest => ?_⟩
  cases digest with
  | none => exact ⟨none, rfl, rfl⟩
  | some octets => exact ⟨some octets, rfl, rfl⟩

theorem hashPassword_eq (password : String) :
    hashPassword password = .act .randBytes fun drawn =>
      match drawn with
      | none =>
        .raise (.runtimeError "FATAL: RAND_bytes failed — cannot generate cryptographic salt")
      | some octets => (sha256Hex (hex octets.bytes ++ ":" ++ password)).bind fun digest =>
        .ret (hex octets.bytes ++ ":" ++ digest) := by
  unfold hashPassword generateSalt
  simp only [bind_eq, pure_eq, act_bind, ret_bind]
  congr 1
  funext drawn
  cases drawn <;> rfl

/-- A record is a salt and the digest of it with the password. -/
theorem meets_hashPassword (password : String) :
    (hashPassword password).Meets claims (fun o c' => ∀ record, o = .ok record →
      ∃ salt digest, record = recordText salt digest ∧
        c' = { c with digest := some (hex salt.bytes ++ ":" ++ password, digestText digest) })
      c := by
  rw [hashPassword_eq]
  refine ⟨trivial, fun drawn => ?_⟩
  cases drawn with
  | none =>
    intro record impossible
    cases impossible
  | some salt =>
    refine Meets.bind (meets_sha256Hex (hex salt.bytes ++ ":" ++ password)) ?_ ?_
    · rintro text c' ⟨digest, same, rfl⟩ record made
      cases same
      cases made
      exact ⟨salt, digest, rfl, rfl⟩
    · rintro e c' ⟨_, impossible, _⟩
      cases impossible

/-- An accepted password has the digest that the record asks for. -/
theorem meets_passwordAccepted (password record : String) :
    (passwordAccepted password record).Meets claims (fun o c' => ∀ accepted, o = .ok accepted →
      accepted = true → record ≠ "" ∧ c' = { c with digest := some (challenge password record) })
      c := by
  unfold passwordAccepted
  split
  · intro accepted returned passes
    cases returned
    cases passes
  next present =>
    rw [verifyPassword_eq]
    refine Meets.bind (meets_sha256Hex (challenge password record).1) ?_ ?_
    · rintro text c' ⟨digest, same, rfl⟩ accepted returned passes
      cases same
      cases returned
      have equal : digestText digest = (challenge password record).2 := of_decide_eq_true passes
      rw [equal]
      refine ⟨?_, rfl⟩
      intro empty
      rw [empty] at present
      exact present rfl
    · rintro e c' ⟨_, impossible, _⟩
      cases impossible

/-- The thread handles this message of this session, read so far. -/
structure Handles (session : SessionRef) (msg : Json) (c : Claim) : Prop where
  own : c.origin = some session
  message : c.message = msg

variable {session : SessionRef} {msg : Json}

theorem honest_handleRegister (handles : Handles session msg c) (type : msg.typeOf = "REGISTER") :
    Honest (handleRegister session msg) c := by
  rw [handleRegister_eq]
  refine honest_valueOf fun username sender => honest_valueOf fun password content => ?_
  cases checks : credentialError username password with
  | some text => exact honest_sendError _ _ _
  | none =>
    refine ⟨trivial, fun reserved => ?_⟩
    cases reserved with
    | false => exact honest_sendError _ _ _
    | true =>
      refine ⟨trivial, fun _ => Meets.bind (meets_hashPassword password) ?_ fun _ _ _ => trivial⟩
      intro record c' made
      obtain ⟨salt, digest, rfl, rfl⟩ := made record rfl
      rw [completeRegister_eq]
      refine ⟨trivial, fun accepted => ?_⟩
      cases accepted with
      | false => exact honest_closeFailed _ _ _ _
      | true =>
        refine honest_closeLogin ⟨handles.own, ?_, credentials_nonempty checks, password, ?_, ?_⟩
        · exact (congrArg (fun m => Json.value m "from" "") handles.message).trans sender
        · exact (congrArg (fun m => Json.value m "content" "") handles.message).trans content
        · exact Or.inl ⟨(congrArg Json.typeOf handles.message).trans type, salt, digest, rfl, rfl⟩

theorem honest_handleLogin (handles : Handles session msg c) (type : msg.typeOf = "LOGIN") :
    Honest (handleLogin session msg) c := by
  rw [handleLogin_eq]
  refine honest_valueOf fun username sender => honest_valueOf fun password content => ?_
  cases checks : credentialError username password with
  | some text => exact honest_sendError _ _ _
  | none =>
    have asks : (rateLimited session).Meets claims (fun _ c' => c = c') c := by
      unfold rateLimited
      split
      · rfl
      · exact ⟨trivial, fun _ => rfl⟩
    refine Meets.bind asks ?_ fun _ _ _ => trivial
    rintro limited _ rfl
    cases limited with
    | true => exact honest_sendError _ _ _
    | false =>
      change Honest (reservedLogin session username password) _
      rw [reservedLogin_eq]
      refine ⟨trivial, fun outcome => ?_⟩
      cases outcome with
      | inProgress => exact honest_sendError _ _ _
      | alreadyOnline => exact honest_sendError _ _ _
      | reserved =>
        refine ⟨trivial, fun _ => ⟨trivial, fun record => ?_⟩⟩
        refine Meets.bind (meets_passwordAccepted password record) ?_ fun _ _ _ => trivial
        intro accepted c' checked
        cases accepted with
        | false =>
          refine honest_of_nameless ?_ _
          exact forall_rejectLogin trivial trivial trivial trivial
        | true =>
          obtain ⟨present, rfl⟩ := checked true rfl rfl
          have earns : Earns (Claim.follow { Claim.follow c (.getStoredHash username) record with
              digest := some (challenge password record) } (.clearLoginAttempts "") ())
              session username := by
            refine ⟨handles.own, ?_, credentials_nonempty checks, password, ?_, ?_⟩
            · exact (congrArg (fun m => Json.value m "from" "") handles.message).trans sender
            · exact (congrArg (fun m => Json.value m "content" "") handles.message).trans content
            · exact Or.inr ⟨(congrArg Json.typeOf handles.message).trans type, record, present,
                rfl, rfl⟩
          change Honest (acceptLogin session username) _
          rw [acceptLogin_eq]
          split
          · exact ⟨trivial, fun _ => honest_closeLogin earns⟩
          · exact honest_closeLogin earns

theorem nameless_chatting : Chatting Nameless where
  clock := trivial
  name _ := trivial
  store _ _ _ _ := trivial
  scan _ := trivial
  search _ := trivial
  find _ := trivial
  read _ _ _ := trivial
  send _ _ := trivial
  error _ _ _ := trivial

theorem nameless_departing : Departing Nameless where
  toAnnouncing := nameless_announcing
  gate _ := trivial
  name _ := trivial
  offline _ := trivial
  unname _ := trivial

theorem typeOf_eq {type : String} (reads : msg.value "type" "" = .ok type) : msg.typeOf = type := by
  unfold Json.typeOf
  rw [reads]

theorem honest_route (handles : Handles session msg c) : Honest (route session msg) c := by
  rw [route_eq]
  refine honest_valueOf fun type reads => ⟨trivial, fun authenticated => ?_⟩
  cases authenticated with
  | true =>
    exact honest_of_nameless
      (forall_routeAuthenticated nameless_chatting nameless_departing session msg type) _
  | false =>
    have isType := typeOf_eq reads
    change Honest (routeUnauthenticated session msg type) c
    unfold routeUnauthenticated
    split
    next register => exact honest_handleRegister handles (isType.trans register)
    next =>
      split
      next login => exact honest_handleLogin handles (isType.trans login)
      next =>
        split
        · trivial
        · exact honest_sendError _ _ _

end

theorem honest_runTask (task : Task) (c : Claim) : Honest (runTask task) c := by
  rw [runTask_eq]
  refine ⟨trivial, fun current => ?_⟩
  cases current with
  | false => exact ⟨trivial, fun _ => trivial⟩
  | true =>
    have handles : Handles task.session task.msg (c.follow (.checkGeneration task) true) :=
      ⟨rfl, rfl⟩
    have caught : Honest ((route task.session task.msg).tryCatch fun _ => .ret ())
        (c.follow (.checkGeneration task) true) :=
      (honest_route handles).tryCatch (fun _ _ _ => trivial) fun _ _ _ => trivial
    exact caught.bind (fun _ _ _ => ⟨trivial, fun _ => trivial⟩) fun _ _ _ => trivial

/-- The claims recorded for a thread are those that its monitor has followed. -/
theorem follows (workers : Nat) :
    (claimed workers).Follows claims (fun s t => s.2.claim t) fun _ _ => True where
  acts t w action s u := by
    by_cases same : u = t
    · subst same
      rw [if_pos rfl]
      exact Function.update_self _ _ _
    · rw [if_neg same]
      exact Function.update_of_ne same _ _
  starts t p s s' start := by
    obtain ⟨shared, held⟩ := s'
    obtain ⟨started, kept⟩ := start
    replace kept : held = s.2 := kept
    dsimp only at started
    refine ⟨fun u _ => by rw [kept], fun _ => ?_⟩
    cases started with
    | event e => exact honest_of_nameless (forall_event nameless_serving e) _
    | task => exact honest_runTask _ _

/-! ## The invariant -/

/-- The name was earned, and the row that tells is in the table. -/
structure Earned (users : List (String × String)) (grant : Grant) : Prop where
  own : grant.claim.origin = some grant.session
  sender : grant.claim.message.value "from" "" = .ok grant.name
  nonempty : grant.name ≠ ""
  proof : ∃ password, grant.claim.message.value "content" "" = .ok password ∧
    ((grant.claim.message.typeOf = "REGISTER" ∧ ∃ salt digest,
        grant.claim.digest = some (hex salt.bytes ++ ":" ++ password, digestText digest) ∧
        (cString grant.name, recordText salt digest) ∈ users) ∨
      (grant.claim.message.typeOf = "LOGIN" ∧ ∃ record, (cString grant.name, record) ∈ users ∧
        cString record ≠ "" ∧ grant.claim.digest = some (challenge password (cString record))))

theorem Earned.mono {users users' : List (String × String)} {grant : Grant}
    (earned : Earned users grant) (more : ∀ row ∈ users, row ∈ users') : Earned users' grant := by
  obtain ⟨own, sender, nonempty, password, content, proof⟩ := earned
  refine ⟨own, sender, nonempty, password, content, ?_⟩
  rcases proof with ⟨type, salt, digest, last, row⟩ | ⟨type, record, row, present, last⟩
  · exact Or.inl ⟨type, salt, digest, last, more _ row⟩
  · exact Or.inr ⟨type, record, more _ row, present, last⟩

/-- The invariant: what the threads have read and stored is in the users table, and everything
granted was earned. -/
structure Sound (s : Claimed) : Prop where
  stored : ∀ t name text, (s.2.claim t).stored = some (name, text) → text ≠ "" →
    ∃ record, (cString name, record) ∈ s.1.server.db.users ∧ text = cString record
  inserted : ∀ t name text, (s.2.claim t).inserted = some (name, text) →
    (cString name, cString text) ∈ s.1.server.db.users
  granted : ∀ grant ∈ s.2.granted, Earned s.1.server.db.users grant
  named : ∀ id, (s.1.server.heap id).username ≠ "" →
    ∃ grant ∈ s.2.granted, grant.session.id = id ∧ grant.name = (s.1.server.heap id).username

theorem cString_recordText (salt : Octets 16) (digest : Option (Octets 32)) :
    cString (recordText salt digest) = recordText salt digest := by
  have characters : ∀ octets : List UInt8, '\x00' ∉ hexChars octets :=
    fun octets => notMem_hexChars (by decide) octets
  apply cString_eq_self
  cases digest with
  | none => simp [recordText, digestText, hex, characters]
  | some octets => simp [recordText, digestText, hex, characters]

section
variable {workers t : Nat} {s : Claimed} {action : Act} (w : World)

/-- The state after an action of thread `t`. -/
abbrev next (workers t : Nat) (w : World) (action : Act) (s : Claimed) : Claimed :=
  ((claimed workers).exec t w action s).2

theorem next_server : (next workers t w action s).1.server = (action.exec w s.1.server).2 := rfl

theorem next_granted : (next workers t w action s).2.granted = s.2.grants t action := rfl

theorem next_own : (next workers t w action s).2.claim t =
    (s.2.claim t).follow action (action.exec w s.1.server).1 :=
  Function.update_self _ _ _

theorem next_other {u : Nat} (differs : u ≠ t) :
    (next workers t w action s).2.claim u = s.2.claim u :=
  Function.update_of_ne differs _ _

/-- Rows of the users table stay. -/
theorem users_kept : ∀ row ∈ s.1.server.db.users,
    row ∈ (next workers t w action s).1.server.db.users := by
  intro row member
  rw [next_server, exec_db]
  cases action with
  | registerUser username record =>
    dsimp only
    rcases registerUser_cases w.dbOk s.1.server.db username record with same | ⟨_, grown⟩
    · rw [same]
      exact member
    · rw [grown]
      exact List.mem_append_left _ member
  | storeMessage sender toUser content timestamp =>
    simp only [Database.storeMessage]
    split
    · exact member
    · exact member
  | _ => exact member

theorem stored_step (sound : Sound s) (u : Nat) (name text : String)
    (stored : ((next workers t w action s).2.claim u).stored = some (name, text))
    (present : text ≠ "") :
    ∃ record, (cString name, record) ∈ (next workers t w action s).1.server.db.users ∧
      text = cString record := by
  have before : (s.2.claim u).stored = some (name, text) →
      ∃ record, (cString name, record) ∈ (next workers t w action s).1.server.db.users ∧
        text = cString record := by
    intro old
    obtain ⟨record, row, same⟩ := sound.stored u name text old present
    exact ⟨record, users_kept w _ row, same⟩
  by_cases actor : u = t
  · subst actor
    rw [next_own] at stored
    cases action with
    | getStoredHash username =>
      cases stored
      simp only [Act.exec, Database.getStoredHash] at present ⊢
      cases works : w.dbOk with
      | false => simp [works] at present
      | true =>
        cases found : s.1.server.db.users.lookup (cString name) with
        | none => simp [works, found] at present
        | some record =>
          obtain ⟨before, after, table, _⟩ := List.lookup_eq_some_iff.mp found
          refine ⟨record, ?_, rfl⟩
          rw [next_server, exec_db]
          dsimp only
          rw [table]
          simp
    | registerUser username record =>
      simp only [Claim.follow] at stored
      split at stored <;> exact before stored
    | checkGeneration task => cases stored
    | _ => exact before stored
  · rw [next_other w actor] at stored
    exact before stored

theorem inserted_step (sound : Sound s) (u : Nat) (name text : String)
    (inserted : ((next workers t w action s).2.claim u).inserted = some (name, text)) :
    (cString name, cString text) ∈ (next workers t w action s).1.server.db.users := by
  have before : (s.2.claim u).inserted = some (name, text) →
      (cString name, cString text) ∈ (next workers t w action s).1.server.db.users :=
    fun old => users_kept w _ (sound.inserted u name text old)
  by_cases actor : u = t
  · subst actor
    rw [next_own] at inserted
    cases action with
    | registerUser username record =>
      simp only [Claim.follow] at inserted
      split at inserted
      next accepted =>
        cases inserted
        rw [next_server, exec_db]
        simp only [Act.exec] at accepted
        rcases registerUser_cases w.dbOk s.1.server.db name text with same | ⟨_, grown⟩
        · rw [same] at accepted
          cases accepted
        · dsimp only
          rw [grown]
          simp
      next => exact before inserted
    | checkGeneration task => cases inserted
    | _ => exact before inserted
  · rw [next_other w actor] at inserted
    exact before inserted

/-- What a thread has earned it has in the table. -/
theorem earned_of_earns (sound : Sound s) {session : SessionRef} {name : String}
    (earns : Earns (s.2.claim t) session name) :
    Earned s.1.server.db.users ⟨session, name, s.2.claim t⟩ := by
  obtain ⟨own, sender, nonempty, password, content, registers | verifies⟩ := earns
  · obtain ⟨type, salt, digest, last, inserted⟩ := registers
    have row := sound.inserted t _ _ inserted
    rw [cString_recordText] at row
    exact ⟨own, sender, nonempty, password, content, Or.inl ⟨type, salt, digest, last, row⟩⟩
  · obtain ⟨type, text, present, stored, last⟩ := verifies
    obtain ⟨record, row, rfl⟩ := sound.stored t name text stored present
    exact ⟨own, sender, nonempty, password, content,
      Or.inr ⟨type, record, row, present, last⟩⟩

theorem granted_step (sound : Sound s) (ok : claims.ok (s.2.claim t) action) :
    ∀ grant ∈ (next workers t w action s).2.granted,
      Earned (next workers t w action s).1.server.db.users grant := by
  intro grant member
  refine Earned.mono ?_ (users_kept w)
  rw [next_granted] at member
  cases action with
  | setUsername session name =>
    rcases List.mem_cons.mp member with new | old
    · rw [new]
      exact earned_of_earns sound ok
    · exact sound.granted grant old
  | _ => exact sound.granted grant member

theorem named_step (sound : Sound s) (id : Nat)
    (named : ((next workers t w action s).1.server.heap id).username ≠ "") :
    ∃ grant ∈ (next workers t w action s).2.granted, grant.session.id = id ∧
      grant.name = ((next workers t w action s).1.server.heap id).username := by
  rw [next_granted]
  rw [next_server, exec_username] at named ⊢
  cases action with
  | setUsername session name =>
    dsimp only at named ⊢
    by_cases own : id = session.id
    · rw [if_pos own]
      exact ⟨_, List.mem_cons_self, own.symm, rfl⟩
    · rw [if_neg own] at named ⊢
      obtain ⟨grant, member, same⟩ := sound.named id named
      exact ⟨grant, List.mem_cons_of_mem _ member, same⟩
  | clearUsername session =>
    dsimp only at named ⊢
    by_cases own : id = session.id
    · exact absurd (if_pos own) named
    · rw [if_neg own] at named ⊢
      exact sound.named id named
  | storeSession fd ip =>
    dsimp only at named ⊢
    by_cases new : id = s.1.server.nextId
    · exact absurd (if_pos new) named
    · rw [if_neg new] at named ⊢
      exact sound.named id named
  | _ => exact sound.named id named

/-- An action keeps every grant earned: rows of the users table stay, and a name is given only
with a claim that earns it. -/
theorem sound_step (sound : Sound s) (ok : claims.ok (s.2.claim t) action) :
    Sound (next workers t w action s) where
  stored := stored_step w sound
  inserted := inserted_step w sound
  granted := granted_step w sound ok
  named := named_step w sound

end

/-- By induction over the run, whatever its steps. -/
theorem sound_of_run {workers : Nat} {db : Database} {c : Config serverInterface Exn Claimed}
    (run : (claimed workers).Reaches Machine.unrestricted (claimedBoot db) c) : Sound c.shared := by
  have idle : ∀ t, Honest ((claimedBoot db).thread t) ((claimedBoot db).shared.2.claim t) :=
    fun _ => trivial
  refine (follows workers).invariant idle (P := Sound) ⟨?_, ?_, ?_, ?_⟩ ?_ ?_ run
  · intro t name text stored
    cases stored
  · intro t name text inserted
    cases inserted
  · intro grant member
    cases member
  · intro id named
    exact absurd rfl named
  · exact fun t w action s sound ok _ => sound_step w sound ok
  · intro t p s s' sound start
    obtain ⟨shared, held⟩ := s'
    obtain ⟨started, kept⟩ := start
    replace kept : held = s.2 := kept
    dsimp only at started
    subst kept
    cases started with
    | event e => exact sound
    | task => exact ⟨sound.stored, sound.inserted, sound.granted, sound.named⟩

/-- Whatever the other workers do meanwhile, a session bears a name only if a message that
came in on this session has earned it: it carried the name, and either it was a REGISTER
whose own salted record is in the users table under that name, or a LOGIN whose password has
the digest that the record in the users table asks for. -/
theorem names_are_earned (workers : Nat) (db : Database) (c : Config serverInterface Exn Claimed)
    (run : (claimed workers).Reaches Machine.unrestricted (claimedBoot db) c) (x : SessionRef)
    (named : c.shared.1.server.name x ≠ "") :
    ∃ grant ∈ c.shared.2.granted, grant.session.id = x.id ∧
      grant.name = c.shared.1.server.name x ∧ Earned c.shared.1.server.db.users grant := by
  have sound := sound_of_run run
  obtain ⟨grant, member, own, name⟩ := sound.named x.id named
  exact ⟨grant, member, own, name, sound.granted grant member⟩

/-- Alice logs in over the first connection. -/
def aliceLogsIn : List Turn := accept 5 ++ read 5 loginAlice ++ work 1 60

/-- Alice logs in: the name she bears was given for this LOGIN, whose password fits her row. -/
theorem names_are_earned_alice :
    ∃ c, (claimed 1).Reaches Machine.unrestricted (claimedBoot aliceDb) c ∧
      c.shared.1.server.name ⟨0, 5, "10.0.0.1"⟩ = "alice" ∧
      ∃ grant ∈ c.shared.2.granted, grant.session.id = 0 ∧ grant.name = "alice" ∧
        Earned c.shared.1.server.db.users grant := by
  have passes : (replay (claiming 1) aliceLogsIn (claimedBoot aliceDb)).any
      (fun c => c.shared.1.server.name ⟨0, 5, "10.0.0.1"⟩ = "alice") = true := by
    decide +kernel
  obtain ⟨c, run, test⟩ := reaches_of_replay passes
  have alice := of_decide_eq_true test
  have named : c.shared.1.server.name ⟨0, 5, "10.0.0.1"⟩ ≠ "" := by
    rw [alice]
    decide
  obtain ⟨grant, member, own, name, earned⟩ :=
    names_are_earned 1 aliceDb c run ⟨0, 5, "10.0.0.1"⟩ named
  exact ⟨c, run, alice, grant, member, own, name.trans alice, earned⟩

end LinuxChat.Guarantees.Credentials
