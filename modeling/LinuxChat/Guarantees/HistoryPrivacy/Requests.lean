import LinuxChat.Guarantees.HistoryPrivacy.Actions

/-!
# Requests keep the law

Handler by handler, as the router calls them for one message, and with them what the event loop
does when a connection is accepted or ends.
-/

namespace LinuxChat.Guarantees.HistoryPrivacy

open LinuxChat.Lib LinuxChat.Source Prog

variable {α : Type} {Q : α → Archive → Prop} {X : Exn → Archive → Prop}

/-! ## Logging in -/

theorem steady_announcing : Announcing Steady where
  clock := trivial
  list := trivial
  scan _ := trivial
  find _ := trivial
  users _ names now := by
    change (userListFrame names now).typeOf ≠ "HISTORY_RESP"
    simp
  notify _ content now := by
    change (notifyFrame content now).typeOf ≠ "HISTORY_RESP"
    simp

theorem steady_errorFrame (session : SessionRef) (locked : Bool) (code content : String) :
    Steady (.sendMsg session locked (errorFrame code content)) := by
  change (errorFrame code content).typeOf ≠ "HISTORY_RESP"
  simp

/-- Answering with an error concerns no message. -/
theorem wp_sendError {session : SessionRef} {code content : String} {a : Archive}
    (seated : Seated session a) :
    privacy.wp 0 (fun _ => Seated session) (fun _ => Seated session)
      (sendError session code content) a :=
  wp_steady (forall_sendError (steady_errorFrame _ _ _ _)) seated

/-- The action rule for a step that concerns no message, in a handler. -/
theorem wp_seated_act {action : Act} {next : action.Res → Proc α} {session : SessionRef}
    {a : Archive} (h : Steady action) (seated : Seated session a)
    (rest : ∀ result a', Seated session a' → privacy.wp 0 Q X (next result) a') :
    privacy.wp 0 Q X (.act action next) a :=
  wp_steady_act h fun w => rest _ _ (steady_seated h w seated)

theorem wp_finishLogin {session : SessionRef} {username : String} {a : Archive}
    (seated : Seated session a) :
    privacy.wp 0 (fun _ => Seated session) (fun _ => Seated session)
      (finishLogin session username) a := by
  rw [finishLogin_eq]
  refine wp_solo fun kept allowed w => ⟨kept_setUsername kept allowed w, ?_⟩
  have named : Named session username (archivedExec w (.setUsername session username) a).2 := by
    refine ⟨seated, ?_, List.mem_cons_self⟩
    have given := exec_username w (.setUsername session username) a.server session.id
    exact given.trans (if_pos rfl)
  refine wp_steady_act trivial fun w₁ => ?_
  have named₁ := named_step (.insertOnline username) trivial (fun _ => Act.noConfusion) w₁ named
  have greets : Steady (.sendMsg session false (okFrame "LOGIN_OK" username)) := by
    change (okFrame "LOGIN_OK" username).typeOf ≠ "HISTORY_RESP"
    simp
  rw [announceLogin_eq]
  refine wp_steady_act greets fun w₂ => ?_
  have named₂ := named_step _ greets (fun _ => Act.noConfusion) w₂ named₁
  rw [pushHistory_eq]
  refine Discipline.wp_seq (wp_answer named₂) (fun _ _ seated₁ => ?_) fun _ _ h => h
  exact wp_steady (steady_announcing.userList.bind fun _ => steady_announcing.notifyAll _ _) seated₁

/-- The postcondition of a handler: the session is still in the table. -/
abbrev wpSeated (session : SessionRef) (p : Proc Unit) (a : Archive) : Prop :=
  privacy.wp 0 (fun _ => Seated session) (fun _ => Seated session) p a

theorem forall_afterLogin (session : SessionRef) (username : String) :
    (Prog.act (.clearPendingLogin session) fun _ =>
      .act (.releaseReservation username) .ret : Proc Unit).Forall Steady :=
  ⟨trivial, fun _ => ⟨trivial, fun _ => trivial⟩⟩

theorem wp_closeLogin {session : SessionRef} {username : String} {a : Archive}
    (seated : Seated session a) : wpSeated session (closeLogin session username) a :=
  Discipline.wp_seq (wp_finishLogin seated)
    (fun _ _ seated₁ => wp_steady (forall_afterLogin session username) seated₁) fun _ _ h => h

theorem wp_completeRegister {session : SessionRef} {username hash : String} {a : Archive}
    (seated : Seated session a) : wpSeated session (completeRegister session username hash) a := by
  rw [completeRegister_eq]
  refine wp_seated_act trivial seated fun registered a₁ seated₁ => ?_
  split
  · exact wp_closeLogin seated₁
  · exact wp_steady (forall_closeFailed trivial trivial (steady_errorFrame _ _ _ _)) seated₁

theorem wp_handleRegister {session : SessionRef} {msg : Json} {a : Archive}
    (seated : Seated session a) : wpSeated session (handleRegister session msg) a := by
  rw [handleRegister_eq]
  refine wp_valueOf (fun _ => seated) fun username _ => ?_
  refine wp_valueOf (fun _ => seated) fun password _ => ?_
  split
  · exact wp_sendError seated
  · refine wp_seated_act trivial seated fun reserved a₁ seated₁ => ?_
    split
    · refine wp_seated_act trivial seated₁ fun _ a₂ seated₂ => ?_
      have hashing := wp_steady (forall_hashPassword password trivial fun _ => trivial) seated₂
      exact Discipline.wp_seq hashing (fun hash _ seated₃ => wp_completeRegister seated₃) fun _ _ h => h
    · exact wp_sendError seated₁

theorem wp_acceptLogin {session : SessionRef} {username : String} {a : Archive}
    (seated : Seated session a) : wpSeated session (acceptLogin session username) a := by
  rw [acceptLogin_eq]
  split
  · exact wp_seated_act trivial seated fun _ _ seated₁ => wp_closeLogin seated₁
  · exact wp_closeLogin seated

theorem wp_reservedLogin {session : SessionRef} {username password : String} {a : Archive}
    (seated : Seated session a) :
    wpSeated session (reservedLogin session username password) a := by
  rw [reservedLogin_eq]
  refine wp_seated_act trivial seated fun outcome a₁ seated₁ => ?_
  cases outcome with
  | inProgress => exact wp_sendError seated₁
  | alreadyOnline => exact wp_sendError seated₁
  | reserved =>
    refine wp_seated_act trivial seated₁ fun _ a₂ seated₂ => ?_
    refine wp_seated_act trivial seated₂ fun storedHash a₃ seated₃ => ?_
    have hashing := wp_steady (forall_passwordAccepted password storedHash fun _ => trivial) seated₃
    refine Discipline.wp_seq hashing (fun accepted a₄ seated₄ => ?_) fun _ _ h => h
    split
    · exact wp_acceptLogin seated₄
    · exact wp_steady (forall_rejectLogin trivial trivial trivial (steady_errorFrame _ _ _ _)) seated₄

theorem wp_handleLogin {session : SessionRef} {msg : Json} {a : Archive}
    (seated : Seated session a) : wpSeated session (handleLogin session msg) a := by
  rw [handleLogin_eq]
  refine wp_valueOf (fun _ => seated) fun username _ => ?_
  refine wp_valueOf (fun _ => seated) fun password _ => ?_
  split
  · exact wp_sendError seated
  · refine Discipline.wp_seq (wp_steady (forall_rateLimited session trivial) seated)
      (fun limited a₁ seated₁ => ?_) fun _ _ h => h
    split
    · exact wp_sendError seated₁
    · exact wp_reservedLogin seated₁

/-! ## Storing a message -/

/-- A message may be stored: it is a broadcast, or a private one between known names
and not to the room's. -/
def Storable (a : Archive) (sender toUser : String) : Prop :=
  a.handling = "BROADCAST" ∨
    a.handling = "PRIVATE" ∧ sender ∈ a.names ∧ toUser ∈ a.names ∧ cString toUser ≠ "__room__"

theorem kept_storeMessage {a : Archive} (kept : Kept a) {sender toUser : String}
    (storable : Storable a sender toUser) (content : String) (timestamp : Int) (w : World) :
    Kept (archivedExec w (.storeMessage sender toUser content timestamp) a).2 := by
  by_cases stored : w.dbOk = true
  · have fresh : a.server.db.nextId ∉ a.accepted.map Accepted.row := by
      intro member
      obtain ⟨e, accepted, same⟩ := List.mem_map.mp member
      have below := kept.ids e accepted
      omega
    have db : (Act.exec w (.storeMessage sender toUser content timestamp) a.server).2.db =
        a.server.db.storeMessage true sender toUser content timestamp := by
      rw [exec_db, stored]
    unfold archivedExec
    simp only [Archive.record, stored, if_true]
    refine ⟨kept.fds, kept.named, kept.distinct, ?_, ?_, ?_, ?_⟩
    · intro row member
      rw [db] at member
      rcases List.mem_append.mp member with old | new
      · obtain ⟨e, accepted, accounted⟩ := kept.rows row old
        exact ⟨e, List.mem_append_left _ accepted, accounted⟩
      · rw [List.mem_singleton.mp new]
        exact ⟨_, List.mem_append_right _ (List.mem_singleton.mpr rfl), rfl, rfl, rfl, storable⟩
    · intro e member
      rw [db]
      change e.row < a.server.db.nextId + 1
      rcases List.mem_append.mp member with old | new
      · exact Nat.lt_succ_of_lt (kept.ids e old)
      · rw [List.mem_singleton.mp new]
        exact Nat.lt_succ_self _
    · rw [List.map_append, List.nodup_append]
      refine ⟨kept.once, List.nodup_singleton _, ?_⟩
      intro x old y new
      rw [List.map_singleton, List.mem_singleton] at new
      intro same
      rw [same, new] at old
      exact fresh old
    · intro d member
      have grown : ∀ e ∈ a.accepted,
          e ∈ a.accepted ++ [⟨a.server.db.nextId, a.handling, sender, toUser⟩] :=
        fun e h => List.mem_append_left _ h
      obtain ⟨own, toUser', frame, shown⟩ := kept.lawful d member
      refine ⟨fun row h => ?_, toUser', frame, fun room row h => ?_⟩
      · obtain ⟨e, accepted, rest⟩ := own row h
        exact ⟨e, grown e accepted, rest⟩
      · obtain ⟨e, accepted, rest⟩ := shown room row h
        exact ⟨e, grown e accepted, rest⟩
  · have same : (archivedExec w (.storeMessage sender toUser content timestamp) a).2 = a := by
      simp [archivedExec, Archive.record, stored, Act.exec, Database.storeMessage]
    rw [same]
    exact kept

/-- A session that passed the gate while a message of this type is handled. -/
structure Admitted (session : SessionRef) (type : String) (a : Archive) : Prop where
  seated : Seated session a
  named : a.server.name session ≠ ""
  handling : a.handling = type

theorem wp_acceptBroadcast {session : SessionRef} {content : String} {a : Archive}
    (admitted : Admitted session "BROADCAST" a) :
    wpSeated session (acceptBroadcast session content) a := by
  unfold acceptBroadcast
  refine wp_steady_act trivial fun w => wp_steady_act trivial fun w₁ => ?_
  refine wp_solo fun kept _ w₂ => ⟨kept_storeMessage kept (Or.inl admitted.handling) _ _ w₂, ?_⟩
  have seated : Seated session a := admitted.seated
  refine wp_steady (forall_broadcast trivial fun target => ?_) ?_
  · change (broadcastFrame _ _ _).typeOf ≠ "HISTORY_RESP"
    simp
  · exact seated

theorem steady_privateFrame (target : SessionRef) (sender toUser content : String)
    (timestamp : Int) : Steady (.sendMsg target true (privateFrame sender toUser content timestamp)) := by
  change (privateFrame sender toUser content timestamp).typeOf ≠ "HISTORY_RESP"
  simp

theorem forall_sendPrivate (fd : Nat) (sender toUser content : String) (timestamp : Int) :
    (sendToFd fd (privateFrame sender toUser content timestamp)).Forall Steady :=
  forall_sendToFd trivial fun target => steady_privateFrame target _ _ _ _

theorem wp_deliverPrivate {session target : SessionRef} {toUser content : String} {a : Archive}
    (admitted : Admitted session "PRIVATE" a) (found : a.server.name target = toUser)
    (addressed : toUser ≠ "") :
    wpSeated session (deliverPrivate session target toUser content) a := by
  rw [deliverPrivate_eq]
  refine wp_steady_act trivial fun w => wp_steady_act trivial fun w₁ => ?_
  have sends : ∀ timestamp sender,
      ((sendToFd target.fd (privateFrame sender toUser content timestamp)).bind fun _ =>
        (sendToFd session.fd (privateFrame sender toUser content timestamp)).bind fun _ =>
          .ret () : Proc Unit).Forall Steady := by
    intro timestamp sender
    refine (forall_sendPrivate _ _ _ _ _).bind fun _ => ?_
    exact (forall_sendPrivate _ _ _ _ _).bind fun _ => trivial
  refine wp_solo fun kept allowed w₂ => ⟨kept_storeMessage kept (Or.inr ?_) _ _ w₂, ?_⟩
  · have toUserKnown : toUser ∈ a.names := by
      have given : a.server.name target ≠ "" → a.server.name target ∈ a.names :=
        kept.named target.id
      rw [found] at given
      exact given addressed
    exact ⟨admitted.handling, kept.named session.id admitted.named, toUserKnown,
      allowed admitted.handling⟩
  · have seated : Seated session a := admitted.seated
    exact wp_steady (sends _ _) seated

theorem wp_handlePrivate {session : SessionRef} {msg : Json} {a : Archive}
    (admitted : Admitted session "PRIVATE" a) : wpSeated session (handlePrivate session msg) a := by
  have seated := admitted.seated
  rw [handlePrivate_eq]
  refine wp_valueOf (fun _ => seated) fun toUser _ => ?_
  refine wp_valueOf (fun _ => seated) fun content _ => ?_
  split
  · exact wp_sendError seated
  next checked =>
    refine wp_steady_act trivial fun w => ?_
    simp only [archivedExec, Act.exec]
    cases found : a.server.findSession toUser with
    | none => exact wp_sendError seated
    | some target =>
      exact wp_deliverPrivate ⟨seated, admitted.named, admitted.handling⟩ (findSession_name found)
        (privateError_none checked)

theorem wp_handleBroadcast {session : SessionRef} {msg : Json} {a : Archive}
    (admitted : Admitted session "BROADCAST" a) :
    wpSeated session (handleBroadcast session msg) a := by
  rw [handleBroadcast_eq]
  refine wp_valueOf (fun _ => admitted.seated) fun content _ => ?_
  split
  · exact wp_sendError admitted.seated
  · split
    · exact wp_sendError admitted.seated
    · exact wp_acceptBroadcast admitted

theorem wp_handleHistoryReq {session : SessionRef} {msg : Json} {a : Archive}
    (seated : Seated session a) (authenticated : a.server.name session ≠ "") :
    wpSeated session (handleHistoryReq session msg) a := by
  rw [handleHistoryReq_eq]
  refine wp_valueOf (fun _ => seated) fun toUser _ => ?_
  refine wp_solo fun kept _ w => ⟨kept, ?_⟩
  have known := kept.named session.id authenticated
  exact wp_answer ⟨seated, rfl, known⟩

/-! ## Requests -/

theorem steady_leaving : Leaving Quiet where
  clock := trivial
  list := trivial
  scan _ := trivial
  find _ := trivial
  users := steady_announcing.users
  notify := steady_announcing.notify
  gate _ := trivial
  name _ := trivial
  offline _ := trivial
  unname _ := trivial
  erase _ := trivial
  registered := trivial
  pending _ := trivial
  cleanup _ := trivial
  unpend _ := trivial
  drop _ := trivial

theorem wp_handleLogout (session : SessionRef) (a : Archive) :
    privacy.wp 0 (fun _ _ => True) (fun _ _ => True) (handleLogout session) a :=
  wp_quiet (forall_handleLogout steady_leaving.toClosing session) a

/-- The handler of a message that passed the gate. -/
theorem wp_routeAuthenticated {session : SessionRef} {msg : Json} {type : String} {a : Archive}
    (admitted : Admitted session type a) :
    privacy.wp 0 (fun _ _ => True) (fun _ _ => True) (routeAuthenticated session msg type) a := by
  have weaken : ∀ p : Proc Unit, wpSeated session p a →
      privacy.wp 0 (fun _ _ => True) (fun _ _ => True) p a :=
    fun p h => Discipline.wp_mono h (fun _ _ _ => trivial) fun _ _ _ => trivial
  unfold routeAuthenticated
  split
  · trivial
  · split
    next broadcasts => exact weaken _ (wp_handleBroadcast (broadcasts ▸ admitted))
    · split
      next private_ => exact weaken _ (wp_handlePrivate (private_ ▸ admitted))
      · split
        · exact weaken _ (wp_handleHistoryReq admitted.seated admitted.named)
        · split
          · exact wp_handleLogout session a
          · exact weaken _ (wp_sendError admitted.seated)

theorem wp_routeUnauthenticated {session : SessionRef} {msg : Json} {type : String} {a : Archive}
    (seated : Seated session a) : wpSeated session (routeUnauthenticated session msg type) a := by
  unfold routeUnauthenticated
  split
  · exact wp_handleRegister seated
  · split
    · exact wp_handleLogin seated
    · split
      · exact seated
      · exact wp_sendError seated

/-- Whatever the message, the law holds when it has been handled, also where a handler throws. -/
theorem wp_route {session : SessionRef} {msg : Json} {a : Archive} (seated : Seated session a)
    (handling : a.handling = msg.typeOf) :
    privacy.wp 0 (fun _ _ => True) (fun _ _ => True) (route session msg) a := by
  rw [route_eq]
  refine wp_valueOf (fun _ => trivial) fun type read => ?_
  have current : a.handling = type := by
    rw [handling, Json.typeOf, read]
  refine wp_steady_act trivial fun w => ?_
  split
  next gate =>
    have named : a.server.name session ≠ "" := (isAuthenticated_iff _).mp gate
    exact wp_routeAuthenticated ⟨seated, named, current⟩
  next =>
    exact Discipline.wp_mono (wp_routeUnauthenticated seated) (fun _ _ _ => trivial)
      fun _ _ _ => trivial

theorem kept_storeSession {a : Archive} (kept : Kept a) {fd : Nat} {ip : String} (w : World) :
    Kept (archivedExec w (.storeSession fd ip) a).2 where
  fds := by
    change (Act.exec w (.storeSession fd ip) a.server).2.sessions.Pairwise _
    rw [exec_sessions]
    refine List.pairwise_cons.mpr ⟨?_, kept.fds.filter _⟩
    intro other member same
    have differs := (List.mem_filter.mp member).2
    rw [← same] at differs
    simp at differs
  named id nonempty := by
    have username := exec_username w (.storeSession fd ip) a.server id
    change ((Act.exec w (.storeSession fd ip) a.server).2.heap id).username ≠ "" at nonempty
    change ((Act.exec w (.storeSession fd ip) a.server).2.heap id).username ∈ a.names
    rw [username] at nonempty ⊢
    dsimp only at nonempty ⊢
    split at nonempty
    · exact absurd rfl nonempty
    next old =>
      rw [if_neg old]
      exact kept.named id nonempty
  distinct := kept.distinct
  rows := kept.rows
  ids := kept.ids
  once := kept.once
  lawful := kept.lawful

/-- All requests keep to the law, so every run of distinguishable names does. -/
theorem privacy_verified : privacy.Verified fun _ _ => True where
  stable _ _ _ _ _ := trivial
  spawn t p a a' kept _ start := by
    obtain ⟨zero, request⟩ := start
    subst zero
    cases request with
    | accept fd ip =>
      refine ⟨keeps_of_kept kept, ?_⟩
      exact wp_solo fun kept _ w => ⟨kept_storeSession kept w, trivial⟩
    | message session msg _ live =>
      have kept' : Kept { a with handling := msg.typeOf } :=
        ⟨kept.fds, kept.named, kept.distinct, kept.rows, kept.ids, kept.once, kept.lawful⟩
      refine ⟨keeps_of_kept kept', ?_⟩
      refine (Discipline.wp_tryCatch _ _ _).mpr ?_
      exact Discipline.wp_mono (wp_route live rfl) (fun _ _ _ => trivial) fun _ _ _ => trivial
    | disconnect fd =>
      exact ⟨keeps_of_kept kept, wp_quiet (forall_removeClient steady_leaving fd) a⟩

end LinuxChat.Guarantees.HistoryPrivacy
