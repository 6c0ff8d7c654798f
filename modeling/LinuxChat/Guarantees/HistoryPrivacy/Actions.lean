import LinuxChat.Guarantees.HistoryPrivacy.Law
import LinuxChat.Guarantees.Handlers

/-!
# Actions on the archive

Most actions concern no message. Three do: naming a session, which must not give two names the
same C string, and querying and sending a history.
-/

namespace LinuxChat.Guarantees.HistoryPrivacy

open LinuxChat.Lib LinuxChat.Source Prog

variable {α : Type} {Q : α → Archive → Prop} {X : Exn → Archive → Prop}

/-! ## Actions that concern no message -/

/-- Actions other than those that name a session, store or query messages, send a
HISTORY_RESP or make a session. -/
def Quiet : Act → Prop
  | .setUsername _ _ => False
  | .storeMessage _ _ _ _ => False
  | .getHistory _ _ _ => False
  | .storeSession _ _ => False
  | .recvMsgs _ => False
  | .sendMsg _ _ msg => msg.typeOf ≠ "HISTORY_RESP"
  | _ => True

/-- A step that leaves messages and archive alone; sessions and names may only go. -/
structure Undisturbed (a a' : Archive) : Prop where
  sessions : a'.server.sessions.Sublist a.server.sessions
  username : ∀ id, (a'.server.heap id).username = (a.server.heap id).username ∨
    (a'.server.heap id).username = ""
  messages : a'.server.db.messages = a.server.db.messages
  nextId : a'.server.db.nextId = a.server.db.nextId
  names : a'.names = a.names
  accepted : a'.accepted = a.accepted
  deliveries : a'.deliveries = a.deliveries

theorem registerUser_messages (ok : Bool) (db : Database) (username hash : String) :
    (db.registerUser ok username hash).2.messages = db.messages ∧
      (db.registerUser ok username hash).2.nextId = db.nextId := by
  unfold Database.registerUser
  split
  · exact ⟨rfl, rfl⟩
  · split
    · exact ⟨rfl, rfl⟩
    · split <;> exact ⟨rfl, rfl⟩

theorem quiet_messages {action : Act} (h : Quiet action) (w : World) (s : Server) :
    (action.exec w s).2.db.messages = s.db.messages ∧ (action.exec w s).2.db.nextId = s.db.nextId := by
  rw [exec_db]
  cases action with
  | registerUser username hash => exact registerUser_messages w.dbOk s.db username hash
  | storeMessage => cases h
  | _ => exact ⟨rfl, rfl⟩

theorem quiet_record {action : Act} (h : Quiet action) (w : World) (a : Archive) :
    a.record w action = a := by
  cases action with
  | setUsername | storeMessage | getHistory => cases h
  | sendMsg target locked msg => exact if_neg h
  | _ => rfl

theorem quiet_undisturbed {action : Act} (h : Quiet action) (w : World) (a : Archive) :
    Undisturbed a (archivedExec w action a).2 := by
  have record := quiet_record h w a
  refine ⟨?_, fun id => ?_, (quiet_messages h w a.server).1, (quiet_messages h w a.server).2,
    (congrArg Archive.names record :), (congrArg Archive.accepted record :),
    (congrArg Archive.deliveries record :)⟩
  · change (action.exec w a.server).2.sessions.Sublist a.server.sessions
    rw [exec_sessions]
    cases action with
    | storeSession => cases h
    | eraseSession fd => exact List.filter_sublist
    | _ => exact List.Sublist.refl _
  · have name := exec_username w action a.server id
    cases action with
    | setUsername | storeSession => cases h
    | clearUsername session =>
      dsimp only at name
      split at name
      · exact Or.inr name
      · exact Or.inl name
    | _ => exact Or.inl name

theorem Kept.of_undisturbed {a a' : Archive} (kept : Kept a) (same : Undisturbed a a') :
    Kept a' where
  fds := kept.fds.sublist same.sessions
  named id nonempty := by
    rcases same.username id with unchanged | gone
    · rw [unchanged] at nonempty ⊢
      rw [same.names]
      exact kept.named id nonempty
    · exact absurd gone nonempty
  distinct := by
    rw [same.names]
    exact kept.distinct
  rows := by
    rw [same.messages, same.accepted, same.names]
    exact kept.rows
  ids := by
    rw [same.accepted, same.nextId]
    exact kept.ids
  once := by
    rw [same.accepted]
    exact kept.once
  lawful := by
    rw [same.deliveries, same.accepted]
    exact kept.lawful

/-- A session that is in the table, as a quiet action leaves it unless it erases one. -/
def Steady : Act → Prop
  | .eraseSession _ => False
  | action => Quiet action

theorem Steady.quiet {action : Act} (h : Steady action) : Quiet action := by
  cases action with
  | eraseSession => trivial
  | _ => exact h

/-- The session is in the table. -/
def Seated (session : SessionRef) (a : Archive) : Prop :=
  session ∈ a.server.sessions

theorem steady_seated {action : Act} (h : Steady action) (w : World) {session : SessionRef}
    {a : Archive} (seated : Seated session a) : Seated session (archivedExec w action a).2 := by
  change session ∈ (action.exec w a.server).2.sessions
  rw [exec_sessions]
  cases action with
  | storeSession | eraseSession => cases h
  | _ => exact seated

/-- A piece of a handler that concerns no message keeps the session in the table. -/
theorem wp_steady {p : Proc α} (h : p.Forall Steady) {session : SessionRef} {a : Archive}
    (seated : Seated session a) :
    privacy.wp 0 (fun _ => Seated session) (fun _ => Seated session) p a :=
  Discipline.wp_of_forall (stable_zero _)
    (fun _ steady _ before kept _ w =>
      ⟨keeps_of_kept (kept.of_undisturbed (quiet_undisturbed steady.quiet w _)),
        steady_seated steady w before⟩)
    (fun _ _ after => after) (fun _ _ after => after) h seated

theorem wp_quiet {p : Proc α} (h : p.Forall Quiet) (a : Archive) :
    privacy.wp 0 (fun _ _ => True) (fun _ _ => True) p a :=
  Discipline.wp_of_forall (stable_zero fun _ => True)
    (fun _ quiet _ _ kept _ w =>
      ⟨keeps_of_kept (kept.of_undisturbed (quiet_undisturbed quiet w _)), trivial⟩)
    (fun _ _ _ => trivial) (fun _ _ _ => trivial) h trivial

/-! ## Naming a session -/

theorem Accounted.mono {names names' : List String} (sub : ∀ n ∈ names, n ∈ names') {row : Row}
    {e : Accepted} (h : Accounted names row e) : Accounted names' row e := by
  obtain ⟨id, sender, addressee, kind⟩ := h
  refine ⟨id, sender, addressee, kind.imp_right ?_⟩
  rintro ⟨type, known, known', other⟩
  exact ⟨type, sub _ known, sub _ known', other⟩

theorem kept_setUsername {a : Archive} (kept : Kept a) {session : SessionRef} {name : String}
    (allowed : Distinguishable 0 (.setUsername session name) a) (w : World) :
    Kept (archivedExec w (.setUsername session name) a).2 where
  fds := kept.fds
  named id nonempty := by
    have username := exec_username w (.setUsername session name) a.server id
    dsimp only at username
    change ((Act.exec w (.setUsername session name) a.server).2.heap id).username ≠ "" at nonempty
    change ((Act.exec w (.setUsername session name) a.server).2.heap id).username ∈ name :: a.names
    rw [username] at nonempty ⊢
    split
    · exact List.mem_cons_self
    next other =>
      rw [if_neg other] at nonempty
      exact List.mem_cons_of_mem name (kept.named id nonempty)
  distinct := by
    have known : ∀ n ∈ a.names, cString n = cString name → n = name := allowed
    intro m hm n hn same
    rcases List.mem_cons.mp hm with new | old
    · rcases List.mem_cons.mp hn with new' | old'
      · rw [new, new']
      · rw [new] at same ⊢
        exact (known n old' same.symm).symm
    · rcases List.mem_cons.mp hn with new' | old'
      · rw [new'] at same ⊢
        exact known m old same
      · exact kept.distinct m old n old' same
  rows row member := by
    obtain ⟨e, accepted, accounted⟩ := kept.rows row member
    exact ⟨e, accepted, accounted.mono fun n h => List.mem_cons_of_mem name h⟩
  ids := kept.ids
  once := kept.once
  lawful := kept.lawful

/-- The session is in the table under a name that was given. -/
structure Named (session : SessionRef) (name : String) (a : Archive) : Prop where
  seated : Seated session a
  name_eq : a.server.name session = name
  known : name ∈ a.names

theorem named_step (action : Act) (h : Steady action) (keeps : ∀ x, action ≠ .clearUsername x)
    (w : World) {session : SessionRef} {name : String} {a : Archive}
    (named : Named session name a) : Named session name (archivedExec w action a).2 where
  seated := steady_seated h w named.seated
  name_eq := by
    have username := exec_username w action a.server session.id
    refine Eq.trans ?_ named.name_eq
    cases action with
    | setUsername | storeSession => cases h
    | clearUsername x => exact absurd rfl (keeps x)
    | _ => exact username
  known := by
    have same := (quiet_undisturbed h.quiet w a).names
    rw [same]
    exact named.known

/-- The action rule for a step that concerns no message. -/
theorem wp_steady_act {action : Act} {next : action.Res → Proc α} {a : Archive}
    (h : Steady action)
    (rest : ∀ w, privacy.wp 0 Q X (next (archivedExec w action a).1) (archivedExec w action a).2) :
    privacy.wp 0 Q X (.act action next) a :=
  wp_solo fun kept _ w => ⟨kept.of_undisturbed (quiet_undisturbed h.quiet w a), rest w⟩

/-! ## Answering a history request -/

/-- The rows of a query that `requestor` makes are lawful for `requestor`. The
private branch of the query compares C strings, so this rests on no two known names
having the same one. -/
theorem lawful_query {a : Archive} (kept : Kept a) {requestor : String} (target : String)
    (known : requestor ∈ a.names) (w : World) (limit : Int) :
    let rows := a.server.db.selectHistory w.order w.dbOk requestor target limit
    (Delivery.mk requestor (historyFrame target (rows.map Database.historyJson)) rows).Lawful
      a.accepted := by
  intro rows
  constructor
  · intro row member
    obtain ⟨stored, matched⟩ := Database.mem_selectHistory member
    obtain ⟨e, accepted, id, sender, addressee, kind⟩ := kept.rows row stored
    refine ⟨e, accepted, id, kind.imp_right ?_⟩
    rintro ⟨type, senderKnown, addresseeKnown, notRoom⟩
    refine ⟨type, ?_⟩
    unfold Database.inHistory at matched
    split at matched
    next room =>
      have toRoom : row.toUser = cString target := by simpa using matched
      rw [room, addressee] at toRoom
      exact absurd toRoom notRoom
    next =>
      simp only [Bool.or_eq_true, Bool.and_eq_true, decide_eq_true_eq] at matched
      rcases matched with ⟨mine, _⟩ | ⟨_, mine⟩
      · left
        exact kept.distinct _ senderKnown _ known (sender.symm.trans mine)
      · right
        exact kept.distinct _ addresseeKnown _ known (addressee.symm.trans mine)
  · refine ⟨target, rfl, fun room row member => ?_⟩
    obtain ⟨stored, matched⟩ := Database.mem_selectHistory member
    obtain ⟨e, accepted, id, sender, addressee, kind⟩ := kept.rows row stored
    refine ⟨e, accepted, id, kind.resolve_right ?_⟩
    rintro ⟨type, senderKnown, addresseeKnown, notRoom⟩
    have toRoom : row.toUser = cString "__room__" := by
      simpa [Database.inHistory, Database.roomTarget, room] using matched
    rw [addressee] at toRoom
    exact notRoom toRoom

theorem kept_getHistory {a : Archive} (kept : Kept a) (requestor target : String) (limit : Int)
    (w : World) : Kept (archivedExec w (.getHistory requestor target limit) a).2 :=
  ⟨kept.fds, kept.named, kept.distinct, kept.rows, kept.ids, kept.once, kept.lawful⟩

theorem kept_delivery {a : Archive} (kept : Kept a) {target : SessionRef} {locked : Bool}
    {toUser : String} {rows : List Json} (w : World)
    (lawful : (Delivery.mk (a.server.name target) (historyFrame toUser rows) a.queried).Lawful
      a.accepted) :
    Kept (archivedExec w (.sendMsg target locked (historyFrame toUser rows)) a).2 := by
  have record : a.record w (.sendMsg target locked (historyFrame toUser rows)) =
      { a with deliveries :=
          a.deliveries ++ [⟨a.server.name target, historyFrame toUser rows, a.queried⟩] } := by
    unfold Archive.record
    dsimp only
    rw [if_pos (historyFrame_type toUser rows)]
  unfold archivedExec
  rw [record]
  refine ⟨kept.fds, kept.named, kept.distinct, kept.rows, kept.ids, kept.once, ?_⟩
  intro d member
  rcases List.mem_append.mp member with old | new
  · exact kept.lawful d old
  · rw [List.mem_singleton.mp new]
    exact lawful

/-- Query and answer of `push_history` and `handle_history_req`: the answer goes to
the session that asked, because its fd is in the table once. -/
theorem wp_answer {session : SessionRef} {requestor target : String} {limit : Int} {a : Archive}
    (named : Named session requestor a) :
    privacy.wp 0 (fun _ => Seated session) (fun _ => Seated session)
      (.act (.getHistory requestor target limit) fun rows =>
        (sendToFd session.fd (historyFrame target rows)).bind fun _ => .ret ()) a := by
  refine wp_solo fun kept _ w => ⟨kept_getHistory kept requestor target limit w, ?_⟩
  have lawful := lawful_query kept target named.known w limit
  have found : a.server.findByFd session.fd = some session :=
    findByFd_of_mem kept.fds named.seated
  refine wp_solo fun kept₁ _ w₁ => ⟨kept₁, ?_⟩
  simp only [archivedExec, Act.exec, found, ret_bind]
  refine wp_solo fun kept₂ _ w₂ => ⟨kept_delivery kept₂ w₂ ?_, ?_⟩
  · have receiver : a.server.name session = requestor := named.name_eq
    simp only [Archive.record, Server.name] at receiver ⊢
    rw [receiver]
    exact lawful
  · exact named.seated

end LinuxChat.Guarantees.HistoryPrivacy
