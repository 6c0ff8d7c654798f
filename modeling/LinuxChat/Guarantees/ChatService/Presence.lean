import LinuxChat.Guarantees.ChatService.Entrance

/-!
# A user at work, and his leave

BROADCAST and PRIVATE are remarks of the room, HISTORY_REQ asks for a window of its log.
LOGOUT and the end of a connection take the user from his seat, and the others are told.
-/

namespace LinuxChat.Guarantees.ChatService

open LinuxChat.Lib LinuxChat.Lib.ChatRoom LinuxChat.Source Prog Serial SerialRuns SerialPlayback
open FanOut

variable {s s' : Server} {x : SessionRef} {username : String}

/-! ## A user at work -/

/-- What a program returns in serves the room. -/
theorem serves_of_returns {p : Proc Unit} {R : Unit → Server → Prop}
    (h : Always Act.exec Works p s (Returns R)) (ends : ∀ s', R () s' → Serves s s') :
    Always Act.exec Works p s fun _ s' => Serves s s' := by
  refine h.mono ?_
  intro o s' returned
  cases o with
  | ok value => exact ends s' returned
  | error e => exact returned.elim

theorem serves_valueOf {msg : Json} {key default : String} {next : String → Proc Unit}
    (reads : ∀ found, Always Act.exec Works (next found) s fun _ s' => Serves s s') :
    Always Act.exec Works ((valueOf msg key default).bind next) s fun _ s' => Serves s s' := by
  unfold valueOf
  cases msg.value key default with
  | ok found => exact reads found
  | error e => exact (always_raise _ s _).mpr (serves_refl s)

theorem serves_sendError (code content : String) :
    Always Act.exec Works (sendError x code content) s fun _ s' => Serves s s' := by
  refine serves_of_returns (returns_sendError x code content s) ?_
  intro s' state
  subst state
  exact serves_error rfl rfl x code content

theorem messages_stored {w : World} (works : Works w) (db : Database)
    (sender toUser content : String) (now : Int) :
    (db.storeMessage w.dbOk sender toUser content now).messages.map remark =
      db.messages.map remark ++
        [⟨cString sender, cString toUser, (cString sender, cString content), now⟩] := by
  unfold Database.storeMessage
  rw [works.1, if_pos rfl, List.map_append]
  simp only [List.map_cons, List.map_nil, remark, cString_cString]

theorem roomOf_stored {w : World} (works : Works w) (s : Server)
    (sender toUser content : String) (now : Int) :
    roomOf { s with db := s.db.storeMessage w.dbOk sender toUser content now } =
      (roomOf s).say
        ⟨cString sender, cString toUser, (cString sender, cString content), now⟩ := by
  have users : (s.db.storeMessage w.dbOk sender toUser content now).users = s.db.users :=
    (sameBook_stored s w.dbOk sender toUser content now).users
  unfold roomOf Room.say
  rw [messages_stored works, users]
  rfl

theorem serves_acceptBroadcast (orderly : Orderly s) (inside : x ∈ live s) (content : String) :
    Always Act.exec Works (acceptBroadcast x content) s fun _ s' => Serves s s' := by
  refine serves_of_returns (returns_acceptBroadcast x content s) ?_
  rintro s' ⟨now, w, works, state⟩
  subst state
  refine ⟨_, rfl, ?_⟩
  rw [roomOf_told, roomOf_stored works, notices_toAll (notice_broadcast _ _ _),
    broadcastTargets_all]
  exact .speak (seat_iff.mpr ⟨inside, rfl⟩) (everyone_live orderly)

theorem serves_handleBroadcast (orderly : Orderly s) (inside : x ∈ live s) (msg : Json) :
    Always Act.exec Works (handleBroadcast x msg) s fun _ s' => Serves s s' := by
  rw [handleBroadcast_eq]
  refine serves_valueOf fun content => ?_
  split
  · exact serves_sendError _ _
  · split
    · exact serves_sendError _ _
    · exact serves_acceptBroadcast orderly inside content

theorem toFd_own (orderly : Orderly s) {y : SessionRef} (member : y ∈ s.sessions) (frame : Json) :
    toFd s y.fd frame = toAll frame [y] := by
  rw [toFd, orderly.findByFd member]
  rfl

theorem serves_handlePrivate (orderly : Orderly s) (inside : x ∈ live s) (msg : Json) :
    Always Act.exec Works (handlePrivate x msg) s fun _ s' => Serves s s' := by
  rw [handlePrivate_eq]
  refine serves_valueOf fun toUser => serves_valueOf fun content => ?_
  cases checked : privateError toUser content with
  | some text => exact serves_sendError _ _
  | none =>
    refine (always_act _ _ _ _).mpr ?_
    intro w _
    simp only [Act.exec]
    cases search : s.findSession toUser with
    | none => exact serves_sendError _ _
    | some target =>
      have online : target ∈ s.sessions := List.mem_of_find?_eq_some search
      have named := findSession_name search
      have filled : s.name target ≠ "" := by
        rw [named]
        exact privateError_none checked
      have present : target ∈ live s := mem_live.mpr ⟨online, filled⟩
      refine serves_of_returns (returns_deliverPrivate x target toUser content s) ?_
      rintro s' ⟨now, w₁, works, state⟩
      subst state
      refine ⟨_, rfl, ?_⟩
      rw [roomOf_told, roomOf_stored works, toFd_own orderly online,
        toFd_own orderly (mem_live.mp inside).1, notices_append,
        notices_toAll (notice_private _ _ _ _), notices_toAll (notice_private _ _ _ _)]
      exact .whisper (seat_iff.mpr ⟨inside, rfl⟩) (seat_iff.mpr ⟨present, named⟩)

theorem serves_handleHistoryReq (orderly : Orderly s) (inside : x ∈ live s) (msg : Json) :
    Always Act.exec Works (handleHistoryReq x msg) s fun _ s' => Serves s s' := by
  rw [handleHistoryReq_eq]
  refine serves_valueOf fun toUser => ?_
  refine (always_act _ _ _ _).mpr ?_
  intro w _
  refine (always_act _ _ _ _).mpr ?_
  intro w₁ works
  have rows : (Act.exec w₁ (.getHistory (s.name x) toUser 50) s).1 =
      s.db.getHistory w₁.order true (s.name x) toUser 50 := by
    simp only [Act.exec, works.1]
  obtain ⟨found, recent, shown⟩ := window_roomOf w₁.order s (s.name x) toUser 50
  change Always Act.exec Works ((sendToFd x.fd (historyFrame toUser
    (Act.exec w₁ (.getHistory (s.name x) toUser 50) s).1)).bind fun _ => .ret ()) s _
  rw [rows]
  refine always_then (returns_sendToFd x.fd _ s) ?_
  intro _ s' state
  subst state
  refine (always_ret _ _ _).mpr ⟨_, rfl, ?_⟩
  rw [roomOf_told, toFd_own orderly (mem_live.mp inside).1, notices_toAll (notice_history _ _),
    shown]
  exact .look (seat_iff.mpr ⟨inside, rfl⟩) recent

/-! ## A user goes -/

theorem serves_leave {s₁ : Server} {now now' : Int} (inside : x ∈ live s) (after : Orderly s₁)
    (room : roomOf s₁ = (roomOf s).rise x) (sent : s₁.sent = s.sent) :
    Serves s (told s₁ (logoutFrames s₁ (s.name x) now now')) := by
  refine ⟨logoutFrames s₁ (s.name x) now now', by rw [← sent]; rfl, ?_⟩
  rw [roomOf_told, room, logoutFrames, broadcastTargets_all, notices_append,
    notices_toAll (notice_userList _ _), notices_toAll (notice_notify _ _)]
  refine .leave (seat_iff.mpr ⟨inside, rfl⟩) ?_ ?_
  · rw [← room]
    exact lists_names (lists_online after)
  · rw [← room]
    exact everyone_live after

theorem roomOf_unnamed (orderly : Orderly s) (member : x ∈ s.sessions) (username : String) :
    roomOf (unnamed s x username) = (roomOf s).rise x := by
  have table : (unnamed s x username).sessions = s.sessions := rfl
  unfold roomOf Room.rise
  rw [table]
  congr 1
  funext y
  simp only [unnamed_name]
  by_cases own : y = x
  · subst own
    simp
  · rw [Function.update_of_ne own]
    by_cases there : y ∈ s.sessions
    · have apart : y.id ≠ x.id := fun same => own ((orderly.apart member there).mp same)
      simp only [apart, if_false]
    · simp only [there, false_and, if_false]

theorem serves_handleLogout (orderly : Orderly s) (inside : x ∈ live s) :
    Always Act.exec Works (handleLogout x) s fun _ s' => Serves s s' := by
  have member := (mem_live.mp inside).1
  refine serves_of_returns (returns_handleLogout x s) ?_
  rintro s' (⟨bare, state⟩ | ⟨bears, now, now', state⟩)
  · exact absurd bare (mem_live.mp inside).2
  · subst state
    exact serves_leave inside (orderly.unnamed member) (roomOf_unnamed orderly member _) rfl

/-- A session without a name leaves the table, but it was not in the room. -/
theorem roomOf_erased (orderly : Orderly s) (member : x ∈ s.sessions) (bare : s.name x = "") :
    roomOf (s.eraseSession x.fd).2 = roomOf s := by
  have found := orderly.findByFd member
  have table : (s.eraseSession x.fd).2.sessions =
      s.sessions.filter fun other => other.fd ≠ x.fd := by
    simp only [Server.eraseSession, found]
    rfl
  have names : ∀ y, (s.eraseSession x.fd).2.name y = s.name y := by
    intro y
    simp only [Server.eraseSession, found, Server.name, modify_heap]
    split <;> rfl
  have db : (s.eraseSession x.fd).2.db = s.db := by
    simp only [Server.eraseSession, found]
    rfl
  unfold roomOf
  rw [db, table]
  congr 1
  funext y
  simp only [names]
  by_cases own : y = x
  · subst own
    simp [bare]
  · by_cases there : y ∈ s.sessions
    · have other : y.fd ≠ x.fd := by
        intro same
        have back := orderly.findByFd there
        rw [same, found] at back
        exact own (Option.some.inj back).symm
      simp [there, other]
    · simp [there]

theorem cleaned_messages (s : Server) (x : SessionRef) :
    (cleaned s x).db.messages = s.db.messages := by
  unfold cleaned
  split <;> rfl

theorem cleaned_sent (s : Server) (x : SessionRef) : (cleaned s x).sent = s.sent := by
  unfold cleaned
  split <;> rfl

theorem serves_disconnected (orderly : Orderly s) (member : x ∈ s.sessions)
    (gone : Disconnected (s.eraseSession x.fd).2 x s') : Serves s s' := by
  have found := orderly.findByFd member
  have title : (s.eraseSession x.fd).2.name x = s.name x := by
    simp only [Server.eraseSession, found, Server.name, modify_heap]
    rfl
  have sent : (s.eraseSession x.fd).2.sent = s.sent := by
    simp only [Server.eraseSession, found]
    rfl
  cases gone with
  | stranger bare =>
    rw [title] at bare
    have erased := roomOf_erased orderly member bare
    have clean := roomOf_same (sameBook_cleaned _ x) (cleaned_messages (s.eraseSession x.fd).2 x)
    exact serves_same (clean.trans erased) ((cleaned_sent _ x).trans sent)
  | user now now' bears =>
    rw [title] at bears ⊢
    have bare : (unnamed s x (s.name x)).name x = "" := by
      rw [unnamed_name, if_pos rfl]
    have still : x ∈ (unnamed s x (s.name x)).sessions := member
    have out := orderly.unnamed member
    have book := (sameBook_unnamed_erased found (s.name x)).trans
      ((sameBook_cleaned _ x).unnamed x (s.name x))
    have messages : (unnamed (cleaned (s.eraseSession x.fd).2 x) x (s.name x)).db.messages =
        ((unnamed s x (s.name x)).eraseSession x.fd).2.db.messages := by
      have found' : (unnamed s x (s.name x)).findByFd x.fd = some x := found
      refine (cleaned_messages (s.eraseSession x.fd).2 x).trans ?_
      simp only [Server.eraseSession, found, found']
      rfl
    have room : roomOf (unnamed (cleaned (s.eraseSession x.fd).2 x) x (s.name x)) =
        (roomOf s).rise x := by
      rw [roomOf_same book messages, roomOf_erased out still bare,
        roomOf_unnamed orderly member]
    exact serves_leave (mem_live.mpr ⟨member, bears⟩) ((out.erased still bare).same book) room
      ((cleaned_sent _ x).trans sent)

end LinuxChat.Guarantees.ChatService
