import LinuxChat.Guarantees.Core
import LinuxChat.Guarantees.Transcript.Seating
import LinuxChat.Guarantees.Transcript.Sending

/-!
# Every step

When a client is sent the room's history, every message stored before that was read must have been
sent to it, and every message stored after must be still to be sent.
-/

namespace LinuxChat.Guarantees.Transcript

open LinuxChat.Lib LinuxChat.Lib.ChatRoom LinuxChat.Source Prog ChatService RoomWindow

/-- The room's history as thread `t` has read it meets the BROADCAST frames to `x` in their order:
a message stored before the reading is not to be sent to `x` any more, one stored after it and since
`x` has its name is still to be sent; and of the messages since, the reading has missed none,
because SQLite answered and no more messages than the limit have the time of one of them or a later
one. -/
structure InTurn (t : Nat) (x : SessionRef) (s : Noted) : Prop where
  earlier : ∀ row ∈ roomRows (s.notes.reading t).db, ¬ (sceneOf s).Ahead row x
  later : ∀ k, s.notes.since x = some k → ∀ row ∈ roomRows s.server.db, k ≤ row.id →
    row ∈ (s.notes.reading t).db.messages ∨ (sceneOf s).Ahead row x
  complete : ∀ k, s.notes.since x = some k → (s.notes.reading t).ok = true ∧
    ∀ row ∈ roomRows (s.notes.reading t).db, k ≤ row.id → (s.notes.reading t).Recent row

/-- A history of the room is sent to `x` in its turn, and nobody is found under the room's own
name. -/
def Orderly (x : SessionRef) (t : Nat) : Act → Noted → Prop
  | .sendMsg y _ frame, s => y = x → (historyOf frame).isSome → InTurn t x s
  | .findSession name, s =>
    cString name = Database.roomTarget → s.server.findSession name = none
  | _, _ => True

section
variable {workers t : Nat} {x : SessionRef} {s : Noted} {action : Act} (w : World)

/-- The state after an action. -/
abbrev next (workers t : Nat) (w : World) (action : Act) (s : Noted) : Noted :=
  ((noted workers).exec t w action s).2

theorem sceneOf_next : sceneOf (next workers t w action s) =
    { rows := (action.exec w s.server).2.db.messages
      number := (action.exec w s.server).2.db.nextId
      table := (action.exec w s.server).2.sessions
      name := fun id => ((action.exec w s.server).2.heap id).username
      sent := (action.exec w s.server).2.sent
      speech := Function.update (sceneOf s).speech t
        ((s.tells t).follow action (action.exec w s.server).1).speech
      history := Function.update (sceneOf s).history t
        ((s.tells t).follow action (action.exec w s.server).1).history
      greets := Function.update (sceneOf s).greets t
        ((s.tells t).follow action (action.exec w s.server).1).greets
      found := Function.update (sceneOf s).found t
        ((s.tells t).follow action (action.exec w s.server).1).found
      whispers := Function.update (sceneOf s).whispers t
        ((s.tells t).follow action (action.exec w s.server).1).whispers
      notes := s.notes.follow t w s.server (action.exec w s.server).2 action } := by
  have part {β : Type} (g : Telling → β) :
      (fun u => g (Function.update s.tells t
        ((s.tells t).follow action (action.exec w s.server).1) u)) =
          Function.update (fun u => g (s.tells u)) t
            (g ((s.tells t).follow action (action.exec w s.server).1)) :=
    Function.comp_update g s.tells t _
  have speech := part Telling.speech
  have history := part Telling.history
  have greets := part Telling.greets
  have found := part Telling.found
  have whispers := part Telling.whispers
  change _ = Scene.mk _ _ _ _ _ (Function.update (fun u => (s.tells u).speech) t _)
    (Function.update (fun u => (s.tells u).history) t _)
    (Function.update (fun u => (s.tells u).greets) t _)
    (Function.update (fun u => (s.tells u).found) t _)
    (Function.update (fun u => (s.tells u).whispers) t _) _
  rw [← speech, ← history, ← greets, ← found, ← whispers]
  rfl

/-! ### What an action leaves as it is -/

theorem speech_kept :
    Function.update (sceneOf s).speech t (s.tells t).speech = (sceneOf s).speech :=
  Function.update_eq_self _ _

theorem history_kept :
    Function.update (sceneOf s).history t (s.tells t).history = (sceneOf s).history :=
  Function.update_eq_self _ _

theorem greets_kept :
    Function.update (sceneOf s).greets t (s.tells t).greets = (sceneOf s).greets :=
  Function.update_eq_self _ _

theorem found_kept : Function.update (sceneOf s).found t (s.tells t).found = (sceneOf s).found :=
  Function.update_eq_self _ _

theorem whispers_kept :
    Function.update (sceneOf s).whispers t (s.tells t).whispers = (sceneOf s).whispers :=
  Function.update_eq_self _ _

theorem messages_register (ok : Bool) (db : Database) (username hash : String) :
    (db.registerUser ok username hash).2.messages = db.messages ∧
      (db.registerUser ok username hash).2.nextId = db.nextId := by
  rcases registerUser_cases ok db username hash with same | ⟨_, same⟩ <;> rw [same] <;>
    exact ⟨rfl, rfl⟩

/-- The row that an insertion has added. -/
def inserted (ok : Bool) (db : Database) (sender toUser content : String) (timestamp : Int) :
    Option Row :=
  if ok then some ⟨db.nextId, cString sender, cString toUser, cString content, timestamp⟩ else none

theorem storeMessage_inserted (ok : Bool) (db : Database) (sender toUser content : String)
    (timestamp : Int) :
    let db' := db.storeMessage ok sender toUser content timestamp
    let row := inserted ok db sender toUser content timestamp
    db'.messages = db.messages ++ row.toList ∧ db'.nextId = db.nextId + row.toList.length ∧
      (db'.messages.drop db.messages.length).head? = row := by
  cases ok with
  | true => simp [Database.storeMessage, inserted]
  | false => simp [Database.storeMessage, inserted]

/-! ### Every action -/

theorem faithful_store (h : Faithful x (sceneOf s)) {sender toUser content : String}
    {timestamp : Int}
    (ok : telling.ok (s.tells t) (.storeMessage sender toUser content timestamp)) :
    Faithful x (sceneOf (next workers t w (.storeMessage sender toUser content timestamp) s)) := by
  obtain ⟨ended, addressee⟩ := ok
  obtain ⟨rows, number, last⟩ :=
    storeMessage_inserted w.dbOk s.server.db sender toUser content timestamp
  have added : ∀ row, inserted w.dbOk s.server.db sender toUser content timestamp = some row →
      row = ⟨s.server.db.nextId, cString sender, cString toUser, cString content, timestamp⟩ := by
    intro row same
    unfold inserted at same
    split at same
    · exact (Option.some.inj same).symm
    · cases same
  rw [sceneOf_next]
  simp only [Act.exec, Notes.follow]
  rw [last, rows, number]
  cases whispers : (s.tells t).whispers with
  | none =>
    have follows : (s.tells t).follow (.storeMessage sender toUser content timestamp) () =
        { s.tells t with speech := .stored sender content timestamp } := by
      simp only [Telling.follow, whispers, Option.isSome_none, Bool.false_eq_true, if_false]
    rw [follows]
    dsimp only
    rw [history_kept, greets_kept, found_kept, whispers_kept]
    refine h.store ended (.stored sender content timestamp) _ ?_ rfl ?_ fun _ _ _ => trivial
    · exact fun row same => by rw [added row same]; rfl
    · intro row line same _ shown
      rw [added row same]
      cases shown
      simp only [remark, Remark.shown, cString_cString]
  | some name =>
    have follows : (s.tells t).follow (.storeMessage sender toUser content timestamp) () =
        { s.tells t with whispers := none } := by
      simp only [Telling.follow, whispers, Option.isSome_some, if_true]
    rw [follows]
    dsimp only
    rw [history_kept, greets_kept, found_kept]
    have elsewhere := h.elsewhere t name whispers
    rw [whispers] at addressee
    replace addressee : toUser = name := addressee
    have stored := h.store ended (s.tells t).speech
      (inserted w.dbOk s.server.db sender toUser content timestamp)
      (fun row same => by rw [added row same]; rfl) ?_ (fun _ _ _ under => absurd ended under) ?_
    · exact stored.search none fun name found => absurd found.symm (Option.some_ne_none name)
    · cases speech : (s.tells t).speech with
      | silent | stored => rfl
      | sending =>
        change (s.tells t).speech.Over at ended
        rw [speech] at ended
        exact ended
    · intro row same room
      rw [added row same, addressee] at room
      exact absurd room elsewhere

theorem faithful_send (h : Faithful x (sceneOf s)) {y : SessionRef} {locked : Bool} {frame : Json}
    (ok : telling.ok (s.tells t) (.sendMsg y locked frame))
    (orderly : Orderly x t (.sendMsg y locked frame) s) :
    Faithful x (sceneOf (next workers t w (.sendMsg y locked frame) s)) := by
  rw [sceneOf_next]
  by_cases mute : Mute frame
  · rw [(follow_mute mute _).2, speech_kept, history_kept, greets_kept, found_kept, whispers_kept]
    have noted : s.notes.follow t w s.server (Act.exec w (.sendMsg y locked frame) s.server).2
        (.sendMsg y locked frame) = s.notes := by
      unfold Mute at mute
      simp only [Notes.follow]
      split
      next reads => rw [reads] at mute; exact mute.elim
      next reads => rw [reads] at mute; exact mute.elim
      · rfl
    rw [noted]
    exact h.tell y mute
  · unfold Mute at mute
    simp only [telling] at ok
    simp only [Orderly, historyOf] at orderly
    simp only [Act.exec, Telling.follow, Notes.follow]
    split at mute
    next sender content timestamp reads =>
      simp only [reads] at ok ⊢
      obtain ⟨rest, speech⟩ := ok
      rw [history_kept, greets_kept, found_kept, whispers_kept, speech]
      exact h.post reads speech
    next lines reads =>
      simp only [reads] at ok orderly ⊢
      rw [speech_kept, history_kept, found_kept, whispers_kept]
      refine h.window reads ok.1 ok.2 ?_ ?_
      · rintro rfl row member
        exact (orderly rfl rfl).earlier row (Reading.mem_roomRows member)
      · rintro rfl k since row stored room from_k
        obtain ⟨_, later, complete⟩ := orderly rfl rfl
        have among : row ∈ roomRows s.server.db :=
          List.mem_filter.mpr ⟨stored, decide_eq_true room⟩
        refine (later k since row among from_k).imp_left fun read => ?_
        obtain ⟨answered, recent⟩ := complete k since
        have before : row ∈ roomRows (s.notes.reading t).db :=
          List.mem_filter.mpr ⟨read, decide_eq_true room⟩
        exact Reading.mem_of_recent answered read room (recent row before from_k)
    · exact absurd trivial mute

/-- The invariant withstands every action that is orderly. -/
theorem faithful_step (h : Faithful x (sceneOf s)) (ok : telling.ok (s.tells t) action)
    (orderly : Orderly x t action s) : Faithful x (sceneOf (next workers t w action s)) := by
  have names := funext fun id => exec_username w action s.server id
  cases action with
  | storeMessage => exact faithful_store w h ok
  | sendMsg => exact faithful_send w h ok orderly
  | getHistory requestor target limit =>
    rw [sceneOf_next]
    simp only [Act.exec, Telling.follow, Notes.follow]
    split
    next room =>
      subst room
      dsimp only
      rw [speech_kept, greets_kept, found_kept, whispers_kept]
      have json := Reading.getHistory_eq ⟨s.server.db, w.order, w.dbOk, limit⟩ requestor
      dsimp only at json
      rw [json]
      exact h.read ⟨s.server.db, w.order, w.dbOk, limit⟩ rfl
    next =>
      rw [speech_kept, history_kept, greets_kept, found_kept, whispers_kept]
      exact h
  | broadcastTargets exclude =>
    rw [sceneOf_next]
    simp only [Act.exec, Telling.follow, Notes.follow]
    rw [history_kept, greets_kept, found_kept, whispers_kept]
    refine h.copy _ ?_ ?_
    · have table : s.server.sessions.Nodup :=
        h.fds.imp fun apart same => apart (congrArg SessionRef.fd same)
      exact table.filter _
    · intro under there k since
      have all : exclude = "" := ok under
      have named : (s.server.heap x.id).isAuthenticated = true :=
        (isAuthenticated_iff _).mpr (h.named k since)
      subst all
      exact List.mem_filter.mpr ⟨there, by simp [named]⟩
  | setUsername session name =>
    dsimp only at names
    rw [ite_eq_update] at names
    rw [sceneOf_next, names]
    simp only [Act.exec, Server.modify, Telling.follow, Notes.follow]
    rw [speech_kept, history_kept, whispers_kept]
    exact h.name session ok.2 ok.1
  | clearUsername session =>
    dsimp only at names
    rw [ite_eq_update] at names
    rw [sceneOf_next, names]
    simp only [Act.exec, Server.modify, Telling.follow, Notes.follow]
    rw [speech_kept, history_kept, greets_kept, found_kept, whispers_kept]
    exact h.unname session.id
  | storeSession fd ip =>
    dsimp only at names
    rw [ite_eq_update] at names
    rw [sceneOf_next, names]
    simp only [Act.exec, Server.storeSession, Telling.follow, Notes.follow]
    rw [speech_kept, history_kept, greets_kept, found_kept, whispers_kept]
    exact h.accept s.server.nextId fd ip
  | eraseSession fd =>
    dsimp only at names
    rw [sceneOf_next, names, exec_sessions, exec_db, exec_sent]
    simp only [Telling.follow, Notes.follow]
    rw [speech_kept, history_kept, greets_kept, found_kept, whispers_kept]
    exact h.erase fd
  | findByFd fd =>
    rw [sceneOf_next]
    simp only [Act.exec, Telling.follow, Notes.follow]
    rw [speech_kept, history_kept, whispers_kept]
    exact h.find rfl ok
  | findSession name =>
    rw [sceneOf_next]
    simp only [Act.exec, Telling.follow, Notes.follow]
    rw [speech_kept, history_kept, greets_kept, found_kept]
    refine h.search _ fun other found room => ?_
    obtain ⟨y, there, rfl⟩ := Option.map_eq_some_iff.mp found
    rw [orderly room] at there
    cases there
  | registerUser username hash =>
    obtain ⟨messages, number⟩ := messages_register w.dbOk s.server.db username hash
    rw [sceneOf_next]
    simp only [Act.exec, Telling.follow, Notes.follow]
    rw [messages, number, speech_kept, history_kept, greets_kept, found_kept, whispers_kept]
    exact h
  | _ =>
    dsimp only at names
    rw [sceneOf_next, names, exec_sessions, exec_db, exec_sent]
    simp only [Telling.follow, Notes.follow]
    rw [speech_kept, history_kept, greets_kept, found_kept, whispers_kept]
    exact h

end

end LinuxChat.Guarantees.Transcript
