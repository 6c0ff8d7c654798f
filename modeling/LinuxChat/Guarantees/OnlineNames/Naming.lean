import LinuxChat.Lib.Monitor
import LinuxChat.Guarantees.Handlers.Composed

/-!
# Where a thread is with a name

`finish_login` gives a session its name and then lists the name, `handle_logout` reads the name,
takes it off the list and then from the session, and `remove_client` takes the session from the
table before its disconnect handler looks for a name (server/src/message_router.cpp:207-233,
413-441; server/src/epoll_server.cpp:309-352). `Naming` is a history variable: between which two of
these a thread is.
-/

namespace LinuxChat.Guarantees.OnlineNames

open LinuxChat.Lib LinuxChat.Source Prog

/-- The last name read and of which session; the session named and not yet listed; the session
taken off the list and not yet unnamed; and the session taken from the table whose disconnect
handler has still to find it without a name, or to take that. -/
structure Naming where
  read : Option (SessionRef × String) := none
  giving : Option (SessionRef × String) := none
  taking : Option SessionRef := none
  removing : Option SessionRef := none

namespace Naming

/-- An action begins or ends one of these. -/
def follow (n : Naming) : (action : Act) → action.Res → Naming
  | .getUsername session, name => { n with read := some (session, name) }
  | .setUsername session name, _ => { n with giving := some (session, name) }
  | .insertOnline _, _ => { n with giving := none }
  | .eraseOnline _, _ => { n with taking := n.read.map Prod.fst }
  | .clearUsername session, _ =>
    { n with
      taking := none
      removing := n.removing.filter fun x => x ≠ session }
  | .isAuthenticated session, authenticated =>
    { n with removing := n.removing.filter fun x => authenticated || x ≠ session }
  | .hasDisconnectHandler, registered =>
    { n with removing := n.removing.filter fun _ => registered }
  | .eraseSession _, removed => { n with removing := removed }
  | _, _ => n

/-- Between none of them. -/
def Free (n : Naming) : Prop := n.giving = none ∧ n.taking = none ∧ n.removing = none

/-- Free, or removing this session. -/
def Leaves (session : SessionRef) (n : Naming) : Prop :=
  n.giving = none ∧ n.taking = none ∧ (n.removing = none ∨ n.removing = some session)

end Naming

/-- A name is listed once it is given, taken off the list once it is read, and then taken from the
session; one removal is over before the next begins. -/
def naming : Monitor serverInterface Naming where
  next := Naming.follow
  ok n
    | .setUsername _ name => n.giving = none ∧ n.taking = none ∧ name ≠ ""
    | .insertOnline name => ∃ x, n.giving = some (x, name)
    | .eraseOnline name => n.giving = none ∧ n.taking = none ∧ ∃ x, n.read = some (x, name)
    | .clearUsername x => n.taking = some x
    | .eraseSession _ => n.removing = none
    | _ => True

/-! ## What the programs do -/

/-- Begins nothing. -/
def Aside : Act → Prop
  | .setUsername _ _ | .insertOnline _ | .eraseOnline _ | .clearUsername _ | .eraseSession _ => False
  | _ => True

/-- The program keeps to the monitor and is free at its end, if it is at its start. -/
def Frees (α : Type) (p : Proc α) : Prop := ∀ n, n.Free → p.Meets naming (fun _ n' => n'.Free) n

theorem free_aside {action : Act} (aside : Aside action) {n : Naming} (free : n.Free) :
    naming.ok n action ∧ ∀ result, (naming.next n action result).Free := by
  obtain ⟨giving, taking, removing⟩ := free
  cases action with
  | setUsername | insertOnline | eraseOnline | clearUsername | eraseSession => cases aside
  | getUsername session => exact ⟨trivial, fun _ => ⟨giving, taking, removing⟩⟩
  | isAuthenticated session =>
    exact ⟨trivial, fun _ => ⟨giving, taking, by simp [naming, Naming.follow, removing]⟩⟩
  | hasDisconnectHandler =>
    exact ⟨trivial, fun _ => ⟨giving, taking, by simp [naming, Naming.follow, removing]⟩⟩
  | _ => exact ⟨trivial, fun _ => ⟨giving, taking, removing⟩⟩

theorem frees_composed : Composed Aside Frees where
  ret _ _ free := free
  raise _ _ free := free
  act aside rest _ free :=
    ⟨(free_aside aside free).1, fun result => rest result _ ((free_aside aside free).2 result)⟩
  bind first rest n free :=
    Meets.bind (first n free) (fun value n' => rest value n') fun _ _ free => free
  tryCatch first rest n free :=
    Meets.tryCatch (first n free) (fun _ _ free => free) fun error n' => rest error n'

theorem aside_announcing : Announcing Aside where
  clock := trivial
  list := trivial
  scan _ := trivial
  find _ := trivial
  users _ _ _ := trivial
  notify _ _ _ := trivial

theorem aside_preparing : Preparing Aside where
  gate _ := trivial
  limit _ := trivial
  count _ := trivial
  uncount _ := trivial
  reserveNew _ := trivial
  reserveOld _ := trivial
  release _ := trivial
  pend _ _ := trivial
  unpend _ := trivial
  row _ _ := trivial
  record _ := trivial
  draw := trivial
  hash _ := trivial
  error _ _ _ := trivial
  check _ := trivial
  drop _ := trivial

theorem aside_chatting : Chatting Aside where
  clock := trivial
  name _ := trivial
  store _ _ _ _ := trivial
  scan _ := trivial
  search _ := trivial
  find _ := trivial
  read _ _ _ := trivial
  send _ _ := trivial
  error _ _ _ := trivial

theorem frees_finishLogin (session : SessionRef) (username : String) (nonempty : username ≠ "") :
    Frees Unit (finishLogin session username) := by
  intro n free
  have announces : Frees Unit (announceLogin session username) :=
    frees_composed.of_forall (forall_announceLogin aside_announcing trivial trivial
      fun _ _ => trivial)
  rw [finishLogin_eq]
  exact ⟨⟨free.1, free.2.1, nonempty⟩, fun _ =>
    ⟨⟨session, rfl⟩, fun _ => announces _ ⟨rfl, free.2.1, free.2.2⟩⟩⟩

/-- A logout takes the name off the list and from the session, if there is one; the removal it
belongs to is over then. -/
theorem frees_leaving {session : SessionRef} {n : Naming} (leaves : n.Leaves session) :
    (handleLogout session).Meets naming (fun _ n' => n'.Free) n := by
  obtain ⟨giving, taking, removing⟩ := leaves
  rw [handleLogout_eq]
  refine ⟨trivial, fun authenticated => ?_⟩
  cases authenticated with
  | false =>
    refine ⟨giving, taking, ?_⟩
    rcases removing with none | own
    · simp [naming, Naming.follow, none]
    · simp [naming, Naming.follow, own]
  | true =>
    refine ⟨trivial, fun username => ⟨⟨giving, taking, session, rfl⟩, fun _ => ⟨rfl, fun _ => ?_⟩⟩⟩
    have announces : Frees Unit (announceLogout username) :=
      frees_composed.of_forall (forall_announceLogout aside_announcing)
    refine announces _ ⟨giving, rfl, ?_⟩
    rcases removing with none | own
    · simp [naming, Naming.follow, none]
    · simp [naming, Naming.follow, own]

theorem frees_handleLogout (session : SessionRef) : Frees Unit (handleLogout session) :=
  fun _ free => frees_leaving ⟨free.1, free.2.1, Or.inl free.2.2⟩

/-- Whatever a message asks for, what is begun is ended. -/
theorem frees_runTask (task : Task) : Frees Unit (runTask task) :=
  frees_composed.runTask aside_preparing <|
    frees_composed.route aside_preparing frees_finishLogin frees_handleLogout
      (fun session msg => frees_composed.of_forall (forall_handleBroadcast aside_chatting session msg))
      (fun session msg => frees_composed.of_forall (forall_handlePrivate aside_chatting session msg))
      (fun session msg => frees_composed.of_forall (forall_handleHistoryReq aside_chatting session msg))
      task.session task.msg

theorem frees_endRemoval (session : SessionRef) : Frees Unit (endRemoval session) := by
  refine frees_composed.act trivial fun authenticated => ?_
  have drops : Frees Unit (.act (.dropSession session) .ret) :=
    frees_composed.act trivial fun _ => frees_composed.ret _
  dsimp only
  split
  · exact frees_composed.act trivial fun _ => drops
  · exact drops

theorem frees_removeClient (fd : Nat) : Frees Unit (removeClient fd) := by
  rintro n ⟨giving, taking, removing⟩
  rw [removeClient_eq]
  refine ⟨removing, fun removed => ?_⟩
  cases removed with
  | none => exact ⟨giving, taking, rfl⟩
  | some session =>
    refine ⟨trivial, fun registered => ?_⟩
    cases registered with
    | false => exact frees_endRemoval session _ ⟨giving, taking, rfl⟩
    | true =>
      have leaves : ∀ n' : Naming, n'.giving = none → n'.taking = none →
          n'.removing = some session → n'.Leaves session :=
        fun _ giving taking own => ⟨giving, taking, Or.inr own⟩
      have handler : (disconnectHandler session).Meets naming (fun _ n' => n'.Free)
          { n with removing := some session } := by
        rw [disconnectHandler_eq]
        refine ⟨trivial, fun pending => ?_⟩
        dsimp only
        split
        · exact ⟨trivial, fun _ => ⟨trivial, fun _ => frees_leaving (leaves _ giving taking rfl)⟩⟩
        · exact frees_leaving (leaves _ giving taking rfl)
      have caught : ((disconnectHandler session).tryCatch fun _ => .ret ()).Meets naming
          (fun _ n' => n'.Free) { n with removing := some session } :=
        Meets.tryCatch handler (fun _ _ free => free) fun _ _ free => free
      exact Meets.bind caught (fun _ n' free => frees_endRemoval session n' free)
        fun _ _ free => free

theorem frees_event (e : Event) : Frees Unit e.program := by
  cases e with
  | newConnection fd ip => exact frees_composed.act trivial fun _ => frees_composed.ret _
  | heartbeat => exact frees_composed.of_forall (forall_broadcast trivial fun _ => trivial)
  | client fd =>
    change Frees Unit (handleClientEvent fd)
    rw [handleClientEvent_eq]
    refine frees_composed.act trivial fun found => ?_
    cases found with
    | none => exact frees_composed.ret _
    | some session =>
      refine frees_composed.act trivial fun received => ?_
      cases received with
      | error e => exact frees_composed.raise e
      | ok msgs =>
        cases msgs with
        | none => exact frees_removeClient fd
        | some msgs =>
          exact frees_composed.of_forall
            (forall_dispatch trivial trivial trivial (fun _ _ => trivial) msgs)

/-! ## The server with the variable -/

/-- The server's state, and where every thread is with a name. -/
abbrev Followed := Shared × (Nat → Naming)

/-- The server with that history. -/
abbrev followed (workers : Nat) : Machine serverInterface Exn Followed World :=
  (machine workers).recording ((machine workers).following naming)

/-- The server as `main` starts it. -/
def followedBoot (db : Database) : Config serverInterface Exn Followed :=
  ⟨((boot db).shared, fun _ => {}), (boot db).thread⟩

theorem follows (workers : Nat) :
    (followed workers).Follows naming (fun s t => s.2 t) fun _ n => n.Free := by
  refine Machine.follows_following fun t p s s' n start free => ?_
  cases start with
  | event e => exact frees_event e n free
  | task => exact frees_runTask _ n free

end LinuxChat.Guarantees.OnlineNames
