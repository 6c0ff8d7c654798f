import LinuxChat.Guarantees.FanOut.Recipients

/-!
# Who is told what

The frames of `finish_login`, `handle_logout`, `handle_broadcast` and `handle_private`
(server/src/message_router.cpp:207-233, :413-520) and of a disconnect, in runs of one
handler at a time: every turn that succeeds sends them to the live authenticated connections,
one to each.
-/

namespace LinuxChat.Guarantees.FanOut

open LinuxChat.Lib LinuxChat.Source Prog Serial SerialRuns SerialPlayback Rejections

/-! ## The turns -/

/-- What `route` always comes to, the task comes to. -/
theorem handles_route {task : Task} {s s' : Server} {Q : Server → Prop}
    (handles : Handles task s s')
    (routed : ∀ rest, s.tasks = task :: rest → Always Act.exec Works
      (route task.session task.msg) { s with tasks := rest } fun _ s₁ => Q s₁) : Q s' := by
  obtain ⟨rest, o, queued, current, ran⟩ := handles
  have always : Always Act.exec Works (runTask task) { s with tasks := rest } fun _ s₁ => Q s₁ := by
    rw [runTask_eq]
    refine (always_act _ _ _ _).mpr ?_
    intro w _
    simp only [Act.exec, current, decide_true, if_true]
    rw [always_bind, always_tryCatch]
    refine (routed rest queued).mono ?_
    intro o₁ s₁ q
    have drops : Always Act.exec Works (Prog.act (.dropSession task.session) .ret : Proc Unit) s₁
        fun _ s₂ => Q s₂ := by
      refine (always_act _ _ _ _).mpr ?_
      intro w₁ _
      exact (always_ret _ _ _).mpr q
    cases o₁ with
    | ok value => exact drops
    | error e => exact (always_ret _ _ _).mpr drops
  exact always _ _ ran

/-- The authenticated branch of `route` for a message of a known type. -/
theorem always_routeAuthenticated {E : World → Prop} {x : SessionRef} {msg : Json} {type : String}
    {s : Server} {Q : Except Exn Unit → Server → Prop} (bears : s.name x ≠ "")
    (typed : msg.value "type" "" = .ok type)
    (rest : Always Act.exec E (routeAuthenticated x msg type) s Q) :
    Always Act.exec E (route x msg) s Q := by
  have authenticated : (s.heap x.id).isAuthenticated = true := (isAuthenticated_iff _).mpr bears
  rw [route_eq]
  unfold valueOf
  rw [typed]
  simp only [ofExcept_ok, ret_bind]
  refine (always_act _ _ _ _).mpr ?_
  intro w _
  simp only [Act.exec, authenticated, if_true]
  exact rest

theorem live_session {s : Server} {task : Task} {s' : Server} (orderly : Orderly s)
    (handles : Handles task s s') : task.session ∈ s.sessions := by
  obtain ⟨rest, o, queued, current, _⟩ := handles
  apply orderly.current task _ current
  rw [queued]
  exact List.mem_cons_self

theorem broadcast_fans_out {s s' : Server} {task : Task} {content : String}
    (orderly : Orderly s) (accepted : AcceptedBroadcast s task content)
    (handles : Handles task s s') :
    ∃ now row, s'.db.messages = s.db.messages ++ [row] ∧
      row.fromUser = cString (s.name task.session) ∧ row.toUser = "__room__" ∧
      row.content = cString content ∧ task.session ∈ live s' ∧
      OneEach (newFrames s s') (broadcastFrame (s.name task.session) content now) (live s') := by
  have member : task.session ∈ live s :=
    mem_live.mpr ⟨live_session orderly handles, accepted.bears⟩
  have nodup := nodup_live orderly
  apply handles_route handles
  intro rest _
  refine always_routeAuthenticated accepted.bears accepted.type ?_
  have filled : content.isEmpty = false := by simpa using accepted.filled
  have short := accepted.short
  have handler : routeAuthenticated task.session task.msg "BROADCAST" =
      handleBroadcast task.session task.msg := by simp [routeAuthenticated]
  rw [handler, handleBroadcast_eq]
  unfold valueOf
  rw [accepted.reads]
  simp only [ofExcept_ok, ret_bind, filled, Bool.false_eq_true, if_false]
  rw [if_neg (by omega)]
  refine (returns_acceptBroadcast _ _ _).mono ?_
  intro o s₁ h
  cases o with
  | error e => exact h.elim
  | ok value =>
    obtain ⟨now, w, works, state⟩ := h
    subst state
    have stored : ∀ db : Database, (db.storeMessage w.dbOk (s.name task.session) "__room__" content
        now).messages = db.messages ++ [⟨db.nextId, cString (s.name task.session),
          cString "__room__", cString content, now⟩] := by
      intro db
      simp [Database.storeMessage, works.1]
    have room : cString "__room__" = "__room__" := by decide
    refine ⟨now, _, stored s.db, rfl, room, rfl, member, nodup, List.Perm.of_eq ?_⟩
    rw [← broadcastTargets_all]
    exact newFrames_told s _ _ rfl

/-- The search by name can only find the addressee. -/
theorem findSession_of_named {s : Server} {target : SessionRef} (orderly : Orderly s)
    (online : target ∈ s.sessions) (bears : s.name target ≠ "") :
    s.findSession (s.name target) = some target := by
  cases search : s.findSession (s.name target) with
  | none =>
    have missing := List.find?_eq_none.mp search target online
    simp at missing
  | some y =>
    have same : s.name y = s.name target := by simpa using List.find?_some search
    have there : y ∈ s.sessions := List.mem_of_find?_eq_some search
    rw [orderly.distinct y there target online (same ▸ bears) same]

/-- A PRIVATE that passes the checks, to a live session: one row, the frame to the
addressee, and the same frame to the sender. -/
theorem always_private {E : World → Prop} {s : Server} {x target : SessionRef} {msg : Json}
    {content : String} (orderly : Orderly s) (live : x ∈ s.sessions) (bears : s.name x ≠ "")
    (online : target ∈ s.sessions) (type : msg.value "type" "" = .ok "PRIVATE")
    (addressee : msg.value "to" "" = .ok (s.name target))
    (reads : msg.value "content" "" = .ok content)
    (checked : privateError (s.name target) content = none) :
    Always Act.exec E (route x msg) s (Returns fun _ s' => ∃ now w, E w ∧ s' =
      told { s with db := s.db.storeMessage w.dbOk (s.name x) (s.name target) content now }
        [(target, privateFrame (s.name x) (s.name target) content now),
          (x, privateFrame (s.name x) (s.name target) content now)]) := by
  have filled : s.name target ≠ "" := by
    intro empty
    rw [empty] at checked
    simp [privateError] at checked
  refine always_routeAuthenticated bears type ?_
  have handler : routeAuthenticated x msg "PRIVATE" = handlePrivate x msg := by
    simp [routeAuthenticated]
  rw [handler, handlePrivate_eq]
  unfold valueOf
  rw [addressee, reads]
  simp only [ofExcept_ok, ret_bind, checked]
  refine (always_act _ _ _ _).mpr ?_
  intro w _
  simp only [Act.exec, findSession_of_named orderly online filled]
  refine (returns_deliverPrivate x target (s.name target) content s).mono ?_
  intro o s₁ h
  cases o with
  | error e => exact h
  | ok value =>
    have toOther := orderly.findByFd online
    have toOwn := orderly.findByFd live
    simpa [Returns, toFd, toAll, toOther, toOwn] using h

theorem private_fans_out {s s' : Server} {task : Task} {toUser content : String}
    {target : SessionRef} (orderly : Orderly s)
    (accepted : AcceptedPrivate s task toUser content target) (handles : Handles task s s') :
    ∃ now row, s'.db.messages = s.db.messages ++ [row] ∧
      row.fromUser = cString (s.name task.session) ∧ row.toUser = cString toUser ∧
      row.content = cString content ∧
      newFrames s s' = [(target, privateFrame (s.name task.session) toUser content now),
        (task.session, privateFrame (s.name task.session) toUser content now)] := by
  have member := live_session orderly handles
  have named := accepted.named
  subst named
  apply handles_route handles
  intro rest queued
  refine (always_private (orderly.dequeued queued) member accepted.bears accepted.online
    accepted.type accepted.addressee accepted.reads accepted.checked).mono ?_
  intro o s₁ h
  cases o with
  | error e => exact h.elim
  | ok value =>
    obtain ⟨now, w, works, state⟩ := h
    subst state
    have stored : ∀ db : Database, (db.storeMessage w.dbOk (s.name task.session) (s.name target)
        content now).messages = db.messages ++ [⟨db.nextId, cString (s.name task.session),
          cString (s.name target), cString content, now⟩] := by
      intro db
      simp [Database.storeMessage, works.1]
    exact ⟨now, _, stored s.db, rfl, rfl, rfl, newFrames_told s _ _ rfl⟩

/-- The frames of a logout, in a server with the book of an orderly one. -/
theorem departs {s s₁ s₂ : Server} {username : String} {now now' : Int} (orderly : Orderly s₁)
    (same : SameBook s₁ s₂) (quiet : s₂.sent = s.sent) :
    Departure s (told s₂ (logoutFrames s₂ username now now')) username := by
  have frames := newFrames_told s s₂ (logoutFrames s₂ username now now') quiet
  have after : SameBook s₁ (told s₂ (logoutFrames s₂ username now now')) :=
    same.trans (sameBook_told _ _)
  have recipients : s₂.broadcastTargets "" =
      live (told s₂ (logoutFrames s₂ username now now')) := by
    rw [broadcastTargets_all]
    rfl
  have names : Lists s₂.onlineUsers (told s₂ (logoutFrames s₂ username now now')) := by
    rw [same.online]
    exact lists_same after (lists_online orderly)
  have nodup : (live (told s₂ (logoutFrames s₂ username now now'))).Nodup := by
    rw [live_same after]
    exact nodup_live orderly
  refine ⟨s₂.onlineUsers, now, now', _, _, names, frames, ?_, ?_⟩
  · rw [recipients]
    exact oneEach_toAll nodup
  · rw [recipients]
    exact oneEach_toAll nodup

theorem logout_fans_out {s s' : Server} {task : Task} (orderly : Orderly s)
    (bears : s.name task.session ≠ "") (type : task.msg.value "type" "" = .ok "LOGOUT")
    (handles : Handles task s s') :
    task.session ∉ live s' ∧ Departure s s' (s.name task.session) := by
  have member := live_session orderly handles
  apply handles_route handles
  intro rest queued
  refine always_routeAuthenticated bears type ?_
  have handler : routeAuthenticated task.session task.msg "LOGOUT" = handleLogout task.session := by
    simp [routeAuthenticated]
  rw [handler]
  refine (returns_handleLogout _ _).mono ?_
  intro o s₁ h
  cases o with
  | error e => exact h.elim
  | ok value =>
    rcases h with ⟨bare, _⟩ | ⟨_, now, now', state⟩
    · exact absurd bare bears
    · subst state
      have out := (orderly.dequeued queued).unnamed member
      constructor
      · intro still
        apply (mem_live.mp still).2
        exact (unnamed_name { s with tasks := rest } task.session task.session
          (s.name task.session)).trans (if_pos rfl)
      · exact departs out (SameBook.refl _) rfl

theorem okFrame_inj {u v : String} (nonempty : v ≠ "")
    (same : okFrame "LOGIN_OK" u = okFrame "LOGIN_OK" v) : u = v := by
  have filled : v.isEmpty = false := by simpa using nonempty
  unfold okFrame at same
  simp only [filled, Bool.false_eq_true, if_false, Json.object.injEq, List.cons.injEq, true_and]
    at same
  by_cases blank : u.isEmpty = true
  · simp [blank] at same
  · simpa [blank] using same

/-- The state after a name has been let in. -/
def Entered (s : Server) (x : SessionRef) (username : String) (s' : Server) : Prop :=
  ∃ db attempts rows now now', s' = settled (told (admitted s x username db attempts)
    (loginFrames (admitted s x username db attempts) x username rows now now')) x username

/-- A handler after which the session bears a name has let it in. -/
theorem entered_of_name {E : World → Prop} {x : SessionRef} {msg : Json} {s s' : Server}
    {o : Except Exn Unit} (ended : Handled E x msg s o s') (bare : s.name x = "")
    (bears : s'.name x ≠ "") : Entered s x (s'.name x) s' := by
  cases ended with
  | unreadable | ignored | refused | spoke | whispered | recalled => exact absurd bare bears
  | failed name code content attempts free own =>
    have reserving := (sameBook_reserved { s with loginAttempts := attempts } x name).username x.id
    have settling := (sameBook_settled (reserved { s with loginAttempts := attempts } x name) x
      name).username x.id
    exact absurd ((settling.trans reserving).trans bare) bears
  | stranded name what free undrawn =>
    exact absurd (((sameBook_reserved s x name).username x.id).trans bare) bears
  | entered name db attempts rows now now' bare nonempty free entry own =>
    have title : (settled (told (admitted s x name db attempts) (loginFrames (admitted s x name db
        attempts) x name rows now now')) x name).name x = name := by
      refine ((sameBook_settled _ x name).username x.id).trans ?_
      exact (named_name _ x x name).trans (if_pos rfl)
    rw [title]
    exact ⟨db, attempts, rows, now, now', rfl⟩
  | left now now' named => exact absurd bare named

/-- A handler that sends LOGIN_OK has let the name in. -/
theorem entered_of_ok {E : World → Prop} {x : SessionRef} {msg : Json} {s s' : Server}
    {o : Except Exn Unit} {username : String} (ended : Handled E x msg s o s')
    (ok : (x, okFrame "LOGIN_OK" username) ∈ newFrames s s') :
    s.name x = "" ∧ username ≠ "" ∧ Entered s x username s' := by
  have silent : ∀ {s₁ : Server} {frames : List (SessionRef × Json)}, newFrames s s₁ = frames →
      (∀ f ∈ frames, f.2.typeOf ≠ "LOGIN_OK") →
      (x, okFrame "LOGIN_OK" username) ∈ newFrames s s₁ → False := by
    intro s₁ frames sent other member
    rw [sent] at member
    exact other _ member (okFrame_type _ _)
  have empty : ∀ {s₁ : Server}, s₁.sent = s.sent → newFrames s s₁ = [] := by
    intro s₁ same
    simp [newFrames, same]
  cases ended with
  | unreadable id => exact (silent (empty rfl) (by simp) ok).elim
  | ignored => exact (silent (empty rfl) (by simp) ok).elim
  | refused code content attempts own =>
    exact (silent (newFrames_told s { s with loginAttempts := attempts } _ rfl) (by simp) ok).elim
  | failed name code content attempts free own =>
    exact (silent (newFrames_told s (settled (reserved { s with loginAttempts := attempts } x name)
      x name) _ rfl) (by simp) ok).elim
  | stranded name what free undrawn => exact (silent (empty rfl) (by simp) ok).elim
  | entered name db attempts rows now now' bare nonempty free entry own =>
    have frames := newFrames_told s (admitted s x name db attempts)
      (loginFrames (admitted s x name db attempts) x name rows now now') rfl
    have member : (x, okFrame "LOGIN_OK" username) ∈
        loginFrames (admitted s x name db attempts) x name rows now now' := by
      rw [← frames]
      exact ok
    have same : username = name := by
      rcases List.mem_cons.mp member with first | later
      · exact okFrame_inj nonempty (congrArg Prod.snd first)
      · refine absurd (okFrame_type "LOGIN_OK" username) ?_
        rcases List.mem_append.mp later with history | rest
        · exact toAll_other (by simp) _ _ history
        · rcases List.mem_append.mp rest with users | notify
          · exact toAll_other (by simp) _ _ users
          · exact toAll_other (by simp) _ _ notify
    subst same
    exact ⟨bare, nonempty, db, attempts, rows, now, now', rfl⟩
  | left now now' bears =>
    refine (silent (newFrames_told s _ _ rfl) ?_ ok).elim
    intro f member
    rcases List.mem_append.mp member with users | notify
    · exact toAll_other (by simp) _ f users
    · exact toAll_other (by simp) _ f notify
  | spoke content now stored =>
    exact (silent (newFrames_told s _ _ rfl) (toAll_other (by simp) _) ok).elim
  | whispered target toUser content now stored =>
    refine (silent (newFrames_told s _ _ rfl) ?_ ok).elim
    intro f member
    rcases List.mem_append.mp member with first | second
    · exact toAll_other (by simp) _ f first
    · exact toAll_other (by simp) _ f second
  | recalled toUser rows =>
    exact (silent (newFrames_told s _ _ rfl) (toAll_other (by simp) _) ok).elim

/-- The frames of an entry, in a server that is orderly afterwards. -/
theorem arrives {s s₀ s' : Server} {x : SessionRef} {username : String} (nonempty : username ≠ "")
    (entered : Entered s₀ x username s') (after : Orderly s') (member : x ∈ s₀.sessions)
    (quiet : s₀.sent = s.sent) : Arrival s s' x username := by
  obtain ⟨db, attempts, rows, now, now', rfl⟩ := entered
  generalize entry : admitted s₀ x username db attempts = a at *
  have same : SameBook a (settled (told a
      (loginFrames a x username rows now now')) x username) :=
    (sameBook_told a _).trans (sameBook_settled _ x username)
  have orderlyA := after.same same.symm
  have table : a.sessions = s₀.sessions := by
    rw [← entry]
    rfl
  have sent : a.sent = s.sent := by
    rw [← entry]
    exact quiet
  have bears : a.name x = username := by
    rw [← entry]
    exact (named_name _ x x username).trans (if_pos rfl)
  have inside : x ∈ live a := by
    apply mem_live.mpr
    rw [table, bears]
    exact ⟨member, nonempty⟩
  have history : toFd a x.fd (historyFrame "__room__" rows) =
      [(x, historyFrame "__room__" rows)] := by
    have found := orderlyA.findByFd (mem_live.mp inside).1
    simp [toFd, toAll, found]
  have exclude := broadcastTargets_except orderlyA inside
  rw [bears] at exclude
  unfold Arrival
  rw [live_same same]
  refine ⟨rows, a.onlineUsers, now, now', _, _, inside, (same.username _).trans bears,
    lists_same same (lists_online orderlyA), ?_, oneEach_toAll (nodup_live orderlyA),
    oneEach_toAll ((nodup_live orderlyA).filter _)⟩
  have frames := newFrames_told s a (loginFrames a x username rows now now') sent
  refine Eq.trans frames ?_
  rw [loginFrames, history, broadcastTargets_all, exclude]
  rfl

theorem login_fans_out {s s' : Server} {task : Task} {username : String} (orderly : Orderly s)
    (handles : Handles task s s') (bare : s.name task.session = "")
    (title : s'.name task.session = username) (nonempty : username ≠ "") :
    Arrival s s' task.session username := by
  have member := live_session orderly handles
  revert title
  apply handles_route handles
  intro rest queued
  have before := orderly.dequeued queued
  refine (handled_route task.session task.msg _).mono ?_
  intro o s₁ ended title
  have bears : s₁.name task.session ≠ "" := title ▸ nonempty
  have entered := entered_of_name ended bare bears
  rw [title] at entered
  exact arrives nonempty entered (before.handled member ended) member rfl

theorem positive_fans_out {s s' : Server} {task : Task} {username : String} (orderly : Orderly s)
    (handles : Handles task s s')
    (ok : (task.session, okFrame "LOGIN_OK" username) ∈ newFrames s s') :
    s.name task.session = "" ∧ username ≠ "" ∧ Arrival s s' task.session username := by
  have member := live_session orderly handles
  revert ok
  apply handles_route handles
  intro rest queued
  have before := orderly.dequeued queued
  refine (handled_route task.session task.msg _).mono ?_
  intro o s₁ ended ok
  obtain ⟨bare, nonempty, entered⟩ := entered_of_ok ended ok
  exact ⟨bare, nonempty, arrives nonempty entered (before.handled member ended) member rfl⟩

/-- `remove_client` in a server with the book of an orderly one. -/
theorem removed_fans_out {s b s' : Server} {x : SessionRef} (orderly : Orderly s)
    (same : SameBook s b) (quiet : b.sent = s.sent) (member : x ∈ s.sessions)
    (bears : s.name x ≠ "") (removed : Disconnected (b.eraseSession x.fd).2 x s') :
    s'.sessions = (s.sessions.filter fun z => z.fd ≠ x.fd) ∧ Departure s s' (s.name x) := by
  have before := orderly.same same
  have table := same.sessions
  have found : b.findByFd x.fd = some x := before.findByFd (table ▸ member)
  have title : b.name x = s.name x := same.username x.id
  have name : (b.eraseSession x.fd).2.name x = s.name x := by
    rw [← title]
    simp only [Server.eraseSession, found, Server.name, modify_heap]
    split <;> rfl
  have erased : (b.eraseSession x.fd).2.sessions = s.sessions.filter fun z => z.fd ≠ x.fd := by
    rw [← table]
    simp only [Server.eraseSession, found]
    rfl
  cases removed with
  | stranger bare =>
    rw [name] at bare
    exact absurd bare bears
  | user now now' filled =>
    rw [name]
    have bare : (unnamed b x (s.name x)).name x = "" := by
      rw [unnamed_name, if_pos rfl]
    have out := before.unnamed (table ▸ member)
    rw [title] at out
    have silent : (unnamed (cleaned (b.eraseSession x.fd).2 x) x (s.name x)).sent = s.sent := by
      rw [← quiet]
      unfold cleaned
      simp only [Server.eraseSession, found]
      split <;> rfl
    refine ⟨((sameBook_cleaned _ x).sessions).trans erased, ?_⟩
    exact departs (out.erased (table ▸ member) bare) ((sameBook_unnamed_erased found
      (s.name x)).trans ((sameBook_cleaned _ x).unnamed x (s.name x))) silent

theorem notMem_erased {sessions : List SessionRef} (x : SessionRef) :
    x ∉ sessions.filter fun z => z.fd ≠ x.fd := by
  intro member
  have apart := (List.mem_filter.mp member).2
  simp at apart

theorem removal_fans_out {s b s' : Server} {x : SessionRef} {o : Except Exn Unit}
    (orderly : Orderly s) (same : SameBook s b) (quiet : b.sent = s.sent) (member : x ∈ s.sessions)
    (bears : s.name x ≠ "") {E : World → Prop} (ran : Runs Act.exec E (removeClient x.fd) b o s') :
    x ∉ s'.sessions ∧ Departure s s' (s.name x) := by
  have before := orderly.same same
  have found : b.findByFd x.fd = some x := before.findByFd (same.sessions ▸ member)
  have removed := returns_removeClient found before.registered _ _ ran
  cases o with
  | error e => exact removed.elim
  | ok value =>
    obtain ⟨table, departure⟩ := removed_fans_out orderly same quiet member bears removed
    rw [table]
    exact ⟨notMem_erased x, departure⟩

theorem disconnect_fans_out {s s' : Server} {x : SessionRef} {o : Except Exn Unit}
    (orderly : Orderly s) (member : x ∈ s.sessions) (bears : s.name x ≠ "")
    (ran : Runs Act.exec (GivesUp s x) (handleClientEvent x.fd) s o s') :
    x ∉ s'.sessions ∧ Departure s s' (s.name x) := by
  have found := orderly.findByFd member
  have always : Always Act.exec (GivesUp s x) (handleClientEvent x.fd) s fun _ s' =>
      x ∉ s'.sessions ∧ Departure s s' (s.name x) := by
    rw [handleClientEvent_eq]
    refine (always_act _ _ _ _).mpr ?_
    intro w _
    simp only [Act.exec, found]
    refine (always_act _ _ _ _).mpr ?_
    intro w₁ gives
    obtain ⟨buf, failures, kept⟩ := recvMsgs_kept w₁.parse (s.heap x.id) w₁.recvs
    have after : (Act.exec w₁ (.recvMsgs x) s).2 = buffered s x buf failures := by
      have state : (Act.exec w₁ (.recvMsgs x) s).2 =
        s.modify x fun _ => (recvMsgs w₁.parse (s.heap x.id) w₁.recvs).2 := rfl
      rw [state, kept]
      rfl
    rw [gives.2, after]
    exact fun o₁ s₁ removes => removal_fans_out orderly (sameBook_buffered s x buf failures) rfl
      member bears removes
  exact always _ _ ran

theorem missing_fans_out {s s' : Server} {x : SessionRef} (orderly : Orderly s)
    (member : x ∈ s.sessions) (bears : s.name x ≠ "") (turn : SerialTurn Works s s')
    (gone : x ∉ s'.sessions) : Departure s s' (s.name x) := by
  have left : ∀ {s₁ : Server}, s₁.sessions = s.sessions → x ∉ s₁.sessions → False := by
    intro s₁ same out
    rw [same] at out
    exact out member
  cases turn.ends orderly.registered with
  | idle => exact (left rfl gone).elim
  | accepted fd ip free =>
    have other : x.fd ≠ fd := free x member
    refine (gone ?_).elim
    simp [Server.storeSession, member, other]
  | pinged => exact (left rfl gone).elim
  | received y there buf failures _ queued =>
    obtain ⟨added, rfl, _⟩ := queued
    exact (left rfl gone).elim
  | stale task rest queued => exact (left rfl gone).elim
  | handled task rest queued current o _ ended =>
    refine (left ?_ gone).elim
    cases ended <;> rfl
  | removed y there buf failures _ removed =>
    have book := sameBook_buffered s y buf failures
    have table : s'.sessions = s.sessions.filter fun z => z.fd ≠ y.fd := by
      have found : (buffered s y buf failures).findByFd y.fd = some y := there
      have erased : ((buffered s y buf failures).eraseSession y.fd).2.sessions =
          s.sessions.filter fun z => z.fd ≠ y.fd := by
        simp only [Server.eraseSession, found]
        rfl
      rw [← erased]
      cases removed with
      | stranger bare => exact (sameBook_cleaned _ y).sessions
      | user now now' filled => exact (sameBook_cleaned _ y).sessions
    -- only the session of the closed socket leaves the table
    have same : x = y := by
      by_cases fd : x.fd = y.fd
      · have own := orderly.findByFd member
        rw [fd, there] at own
        exact (Option.some.inj own).symm
      · refine absurd ?_ gone
        rw [table]
        exact List.mem_filter.mpr ⟨member, by simpa using fd⟩
    subst same
    exact (removed_fans_out orderly book rfl member bears removed).2

/-- Every turn of every run of one handler at a time fans out as specified. -/
theorem fan_out_specified {db : Database} {s : Server} (run : SerialRun Works db s) : FansOut s := by
  have orderly := orderly_of_run run
  exact
    { broadcast := fun _ _ _ accepted handles => broadcast_fans_out orderly accepted handles
      privately := fun _ _ _ _ _ accepted handles => private_fans_out orderly accepted handles
      login := fun _ _ _ handles bare title nonempty =>
        login_fans_out orderly handles bare title nonempty
      positive := fun _ _ _ handles ok => positive_fans_out orderly handles ok
      logout := fun _ _ bears type handles => logout_fans_out orderly bears type handles
      disconnect := fun _ _ _ member bears ran => disconnect_fans_out orderly member bears ran
      removal := fun _ _ _ member bears ran =>
        removal_fans_out orderly (SameBook.refl s) rfl member bears ran
      missing := fun _ _ member bears turn gone =>
        missing_fans_out orderly member bears turn gone }

/-! ## Two users -/

theorem works_telling (msg : Json) : Works (tellingWorld msg) := ⟨rfl, rfl⟩

/-- The oldest task of the queue. -/
def foremost (s : Server) : Task := s.tasks.headD ⟨⟨0, 0, ""⟩, 0, .null⟩

theorem handles_serves {s : Server} (waiting : s.tasks.isEmpty = false)
    (current : (s.heap (foremost s).session.id).generation = (foremost s).genAtDispatch) :
    Handles (foremost s) s (serves s) := by
  unfold foremost at current ⊢
  unfold serves
  cases queued : s.tasks with
  | nil =>
    rw [queued] at waiting
    cases waiting
  | cons task rest =>
    rw [queued] at current
    exact ⟨rest, _, queued, current, eval_runs Act.exec Works (tellingWorld .null) (works_telling _)
      (runTask task) _⟩

/-- Alice's message is in the queue. -/
def aliceSends (fields : List (String × Json)) : Server := hears aliceAndBob 5 (.object fields)

/-- Alice's BROADCAST is in the queue. -/
def aliceSpeaks : Server :=
  aliceSends [("content", .string "hello"), ("type", .string "BROADCAST")]

/-- Her PRIVATE to Bob is. -/
def aliceWhispers : Server :=
  aliceSends [("content", .string "psst"), ("to", .string "bob"), ("type", .string "PRIVATE")]

/-- Her LOGOUT is. -/
def aliceLeaves : Server := aliceSends [("type", .string "LOGOUT")]

/-- An outside in which the peer has closed the connection. -/
def hangingUp : World := { tellingWorld .null with recvs := [.closed] }

/-- Bob's peer has closed the connection. -/
def bobHangsUp : Server := (eval Act.exec hangingUp (handleClientEvent 6) aliceAndBob).2

/-- A message to all, a message to one, a logout and a disconnect among two users, and how
the second one came. -/
theorem fan_out_specified_aliceAndBob :
    Arrival bobKnocks (serves bobKnocks) bob "bob" ∧ live aliceAndBob = [bob, alice] ∧
    (∃ now, OneEach (newFrames aliceSpeaks (serves aliceSpeaks))
      (broadcastFrame "alice" "hello" now) [bob, alice]) ∧
    (∃ now, newFrames aliceWhispers (serves aliceWhispers) =
      [(bob, privateFrame "alice" "bob" "psst" now),
        (alice, privateFrame "alice" "bob" "psst" now)]) ∧
    Departure aliceLeaves (serves aliceLeaves) "alice" ∧ live (serves aliceLeaves) = [bob] ∧
    Departure aliceAndBob bobHangsUp "bob" ∧ live bobHangsUp = [alice] := by
  have met : SerialRun Works {} aliceAndBob := run_aliceAndBob works_telling
  have speaks : SerialRun Works {} aliceSpeaks := run_hears works_telling met 5 _
  have whispers : SerialRun Works {} aliceWhispers := run_hears works_telling met 5 _
  have leaves : SerialRun Works {} aliceLeaves := run_hears works_telling met 5 _
  refine ⟨?_, by decide +kernel, ?_, ?_, ?_, by decide +kernel, ?_, by decide +kernel⟩
  · exact (fan_out_specified (run_bobKnocks works_telling)).login (foremost bobKnocks) "bob" _
      (handles_serves (by decide +kernel) (by decide +kernel)) (by decide +kernel)
      (by decide +kernel) (by decide)
  · have handles := handles_serves (s := aliceSpeaks) (by decide +kernel) (by decide +kernel)
    obtain ⟨now, _, _, _, _, _, _, sent⟩ := (fan_out_specified speaks).broadcast _ "hello" _
      ⟨by decide +kernel, by decide +kernel, by decide +kernel, by decide, by decide⟩ handles
    have title : aliceSpeaks.name (foremost aliceSpeaks).session = "alice" := by decide +kernel
    have everyone : live (serves aliceSpeaks) = [bob, alice] := by decide +kernel
    rw [everyone] at sent
    exact ⟨now, title ▸ sent⟩
  · have handles := handles_serves (s := aliceWhispers) (by decide +kernel) (by decide +kernel)
    obtain ⟨now, _, _, _, _, _, sent⟩ := (fan_out_specified whispers).privately _ "bob" "psst" bob _
      ⟨by decide +kernel, by decide +kernel, by decide +kernel, by decide +kernel, by decide,
        by decide +kernel, by decide +kernel⟩ handles
    have title : aliceWhispers.name (foremost aliceWhispers).session = "alice" := by decide +kernel
    have own : (foremost aliceWhispers).session = alice := by decide +kernel
    rw [title, own] at sent
    exact ⟨now, sent⟩
  · have handles := handles_serves (s := aliceLeaves) (by decide +kernel) (by decide +kernel)
    have title : aliceLeaves.name (foremost aliceLeaves).session = "alice" := by decide +kernel
    have left := (fan_out_specified leaves).logout _ _ (by rw [title]; decide)
      (by decide +kernel) handles
    rw [← title]
    exact left.2
  · have gives : GivesUp aliceAndBob bob hangingUp := ⟨⟨rfl, rfl⟩, rfl⟩
    have ran := eval_runs Act.exec (GivesUp aliceAndBob bob) hangingUp gives
      (handleClientEvent bob.fd) aliceAndBob
    have title : aliceAndBob.name bob = "bob" := by decide +kernel
    rw [← title]
    exact ((fan_out_specified met).disconnect bob _ _ (by decide +kernel)
      (by rw [title]; decide) ran).2

end LinuxChat.Guarantees.FanOut
