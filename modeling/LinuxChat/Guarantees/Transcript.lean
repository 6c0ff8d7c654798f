import LinuxChat.Guarantees.Transcript.Turns
import LinuxChat.Guarantees.Playback

/-!
# Every message once

A client shows what `HISTORY_RESP` told it last and every BROADCAST since
(client/src/chat_backend.cpp:64-105), while the server stores a message, copies its recipients,
reads the history and sends either in steps of different threads.
-/

namespace LinuxChat.Guarantees.Transcript

open LinuxChat.Lib LinuxChat.Lib.ChatRoom LinuxChat.Source Prog ChatService RoomWindow
open SerialPlayback (bob)

/-- The database numbers its messages, as SQLite does with a primary key. -/
structure Keyed (db : Database) : Prop where
  distinct : (db.messages.map Row.id).Nodup
  below : ∀ row ∈ db.messages, row.id < db.nextId

theorem looks_before (timeText : Int → String) (items : List (Line × String)) :
    List.Forall₂ (Looks timeText) items (List.replicate items.length none) := by
  induction items with
  | nil => exact .nil
  | cons item rest ih => exact .cons (fun row origin => nomatch origin) ih

/-- When `main` starts, nothing has been shown to anybody. -/
theorem faithful_boot {db : Database} (keyed : Keyed db) (x : SessionRef) :
    Faithful x (sceneOf (notedBoot db).shared) where
  distinct := keyed.distinct
  below := keyed.below
  fds := List.Pairwise.nil
  named _ since := nomatch since
  readings _ := ⟨List.nodup_nil, fun _ member => nomatch member⟩
  texts _ := rfl
  said _ _ said := nomatch said
  looks _ _ _ _ said := nomatch said
  alone _ _ _ said := nomatch said
  left _ := List.nodup_nil
  elsewhere _ _ whispers := nomatch whispers
  kept _ shown := nomatch shown
  once _ := Nat.zero_le 1
  apart _ shown := nomatch shown
  whole there := nomatch there
  recalled _ recalled := nomatch recalled
  last := rfl
  greeted there := nomatch there
  items timeText start := by
    have all : (notedBoot db).shared.2.2.items x start.items.length =
        List.replicate start.items.length none := List.append_nil _
    exact all ▸ looks_before timeText start.items

theorem meets_boot (db : Database) (t : Nat) :
    ((notedBoot db).thread t).Meets telling (fun _ h => h.Free) ((notedBoot db).shared.tells t) :=
  ⟨trivial, rfl, rfl⟩

section
variable {workers : Nat} {x : SessionRef} {db : Database} {c : Config serverInterface Exn Noted}
  (run : (noted workers).Reaches (Orderly x) (notedBoot db) c)
include run

theorem faithful_of_run (keyed : Keyed db) : Faithful x (sceneOf c.shared) := by
  refine (follows_noted workers).invariant (meets_boot db) (P := fun s => Faithful x (sceneOf s))
    (faithful_boot keyed x) ?_ ?_ run
  · exact fun t w action s faithful ok orderly => faithful_step w faithful ok orderly
  · rintro t p s ⟨⟨shared, w⟩, h, n⟩ faithful ⟨⟨started, _⟩, kept⟩
    cases kept
    dsimp only at started
    cases started with
    | event => exact faithful
    | task => exact faithful

/-- A thread with nothing left to do has told the room all it was to tell. -/
theorem free_of_halted {t : Nat} (halted : (c.thread t).Halted) : (c.shared.tells t).Free := by
  obtain ⟨_, free⟩ := ((follows_noted workers).reaches (meets_boot db) run t).of_halted halted
  exact free

end

/-- What the client of `x` shows of the room, as the notes have it: every stored message that it
shows stands there once; all of the last history sent to it are there, and if it is logged in it has
been sent one and all messages stored since it got its name are there. -/
structure EachOnce (timeText : Int → String) (s : Noted) (x : SessionRef) (client : BackendState) :
    Prop where
  shows : ∃ before, List.Forall₂ (Looks timeText) (chatItems client) (s.notes.items x before)
  stored : ∀ row, some row ∈ s.notes.shown x →
    row ∈ s.server.db.messages ∧ (s.notes.shown x).count (some row) = 1
  history : ∀ lines, lastHistory s.server.sent x = some lines →
    ∃ rows, lines = linesOf rows ∧ ∀ row ∈ rows, some row ∈ s.notes.shown x
  since : x ∈ s.server.sessions → ∀ k, s.notes.since x = some k →
    (lastHistory s.server.sent x).isSome ∧
      ∀ row ∈ roomRows s.server.db, k ≤ row.id → some row ∈ s.notes.shown x

/-- In every run in which a client is sent the histories in their turn, whenever no thread has
anything left to do the client shows each message stored since it got its name, and each message of
the last history it was sent, exactly once. -/
theorem each_message_once (workers : Nat) (x : SessionRef) (db : Database) (keyed : Keyed db)
    (c : Config serverInterface Exn Noted)
    (run : (noted workers).Reaches (Orderly x) (notedBoot db) c) (quiet : c.Quiescent)
    (timeText : Int → String) (client : BackendState)
    (attends : Attends timeText x c.shared.server.sent client) :
    EachOnce timeText c.shared x client := by
  have faithful := faithful_of_run run keyed
  have free : ∀ t, (c.shared.tells t).Free := fun t => free_of_halted run (quiet t)
  have last : lastHistory c.shared.server.sent x = (c.shared.notes.recalled x).map linesOf :=
    faithful.last
  refine ⟨?_, fun row shown => ⟨faithful.kept row shown, ?_⟩, fun lines sent => ?_,
    fun there k since => ⟨?_, fun row member from_k => ?_⟩⟩
  · obtain ⟨start, view⟩ := viewed_attends attends
    have same : chatItems client = (viewOf service (display timeText) x start
        (notices c.shared.server.sent)).items := congrArg View.items view
    rw [same]
    exact ⟨start.items.length, faithful.items timeText start⟩
  · exact Nat.le_antisymm (faithful.once row) (List.count_pos_iff.mpr shown)
  · rw [last] at sent
    obtain ⟨rows, recalled, rfl⟩ := Option.map_eq_some_iff.mp sent
    exact ⟨rows, rfl, faithful.recalled rows recalled⟩
  · rcases faithful.greeted there k since with recalled | ⟨t, greeting, _⟩
    · rw [last, Option.isSome_map]
      exact recalled
    · have nobody : (c.shared.tells t).greets = none := (free t).2.1
      replace greeting : (c.shared.tells t).greets = some x := greeting
      rw [nobody] at greeting
      cases greeting
  · obtain ⟨stored, room⟩ := List.mem_filter.mp member
    have shown := faithful.whole there k since row stored (of_decide_eq_true room) from_k
    refine shown.resolve_right ?_
    rintro ⟨t, reaches, _⟩
    exact Faithful.reaches_of_over (free t).1 x reaches

/-! ## The condition as the threads of the pool show it -/

/-- The session is still to be sent the row by a thread of the pool. -/
def aheadNow (workers : Nat) (s : Noted) (row : Row) (x : SessionRef) : Bool :=
  (List.range (workers + 1)).any fun t =>
    decide ((s.tells t).speech.Reaches x) && decide (s.notes.saying t = some row)

/-- `InTurn`, before any thread of the pool has come to its end. -/
def inTurnNow (workers t : Nat) (x : SessionRef) (s : Noted) : Bool :=
  let past := roomRows (s.notes.reading t).db
  past.all (fun row => !aheadNow workers s row x) &&
    (s.notes.since x).all fun k =>
      (roomRows s.server.db).all (fun row => decide (k ≤ row.id →
        row ∈ (s.notes.reading t).db.messages ∨ aheadNow workers s row x = true)) &&
      (s.notes.reading t).ok &&
      past.all fun row => decide (k ≤ row.id → (s.notes.reading t).Recent row)

/-- `Orderly`, as the threads of the pool show it. -/
def orderlyNow (workers : Nat) (x : SessionRef) (t : Nat) (action : Act) (s : Noted) : Bool :=
  match action with
  | .sendMsg y _ frame => decide (y ≠ x) || (historyOf frame).isNone || inTurnNow workers t x s
  | .findSession name =>
    decide (cString name ≠ Database.roomTarget) || (s.server.findSession name).isNone
  | _ => true

section
variable {workers : Nat} {x : SessionRef} {db : Database} {c : Config serverInterface Exn Noted}
  (run : (noted workers).Reaches (Orderly x) (notedBoot db) c)
include run

theorem ahead_now (row : Row) :
    aheadNow workers c.shared row x = true ↔ (sceneOf c.shared).Ahead row x := by
  simp only [aheadNow, List.any_eq_true, List.mem_range, Bool.and_eq_true, decide_eq_true_eq]
  constructor
  · rintro ⟨t, _, reaches, said⟩
    exact ⟨t, reaches, said⟩
  · rintro ⟨t, reaches, said⟩
    refine ⟨t, ?_, reaches, said⟩
    by_contra beyond
    have idle : c.thread t = .ret () := idle_beyond run.forget.outside t (by omega)
    have halted : (c.thread t).Halted := by
      rw [idle]
      trivial
    exact Faithful.reaches_of_over (free_of_halted run halted).1 x reaches

theorem orderly_of_now {t : Nat} {action : Act}
    (now : orderlyNow workers x t action c.shared = true) : Orderly x t action c.shared := by
  cases action with
  | sendMsg y locked frame =>
    intro own told
    simp only [orderlyNow, Bool.or_eq_true, decide_eq_true_eq, Option.isNone_iff_eq_none] at now
    rcases now with (other | none) | now
    · exact absurd own other
    · rw [none] at told
      cases told
    · simp only [inTurnNow, Bool.and_eq_true, List.all_eq_true, Bool.not_eq_true',
        Option.all_eq_true, decide_eq_true_eq, ahead_now run] at now
      obtain ⟨earlier, rest⟩ := now
      refine ⟨fun row member ahead => ?_, fun k since row member from_k => ?_, fun k since => ?_⟩
      · have none := earlier row member
        rw [(ahead_now run row).mpr ahead] at none
        cases none
      · exact (rest k since).1.1 row member from_k
      · exact ⟨(rest k since).1.2, (rest k since).2⟩
  | findSession name =>
    intro room
    simp only [orderlyNow, Bool.or_eq_true, decide_eq_true_eq, Option.isNone_iff_eq_none] at now
    exact now.resolve_left fun other => other room
  | _ => trivial

end

/-! ## Messages twice, not at all, and once -/

/-- A message to the room. -/
def spoken (content : String) : Json :=
  .object [("type", .string "BROADCAST"), ("content", .string content)]

/-- A request for the room's history. -/
def asking : Json := .object [("type", .string "HISTORY_REQ"), ("to", .string "__room__")]

/-- Alice's message is stored; before its recipients are copied bob registers, and is sent the
history with it. -/
def tooEarly : List Turn :=
  accept 5 ++ accept 6 ++ read 5 (request "REGISTER" "alice") ++ work 1 40 ++
    read 5 (spoken "hello") ++ work 1 5 ++ read 6 (request "REGISTER" "bob") ++ work 2 40 ++
    [.act 1 40 steadyWorld]

/-- Alice and bob have registered. -/
def bothThere : List Turn :=
  accept 5 ++ accept 6 ++ read 5 (request "REGISTER" "alice") ++ work 1 40 ++
    read 6 (request "REGISTER" "bob") ++ work 2 40

/-- Bob's request has read the history, which is empty, when alice's message is stored and sent to
all; then he is sent what was read. -/
def tooLate : List Turn :=
  read 6 asking ++ work 2 5 ++ read 5 (spoken "hello") ++ work 1 40 ++ [.act 2 40 steadyWorld]

/-- Alice's message. -/
def hello : Row := ⟨1, "alice", "__room__", "hello", 0⟩

/-- All is done. Alice's message is the only one there is, and bob, who was last sent a history of
these rows, shows that many messages, all of them alice's. -/
def bobShows (times : Nat) (recalled : List Row) (c : Config serverInterface Exn Shared) : Bool :=
  poolResting 2 c && c.shared.server.tasks.isEmpty &&
    decide (bob ∈ c.shared.server.sessions ∧ c.shared.server.name bob = "bob") &&
    decide (roomRows c.shared.server.db = [hello]) &&
    decide (lastHistory c.shared.server.sent bob = some (linesOf recalled)) &&
    decide (chatItems (attend (fun _ => "12:00:00") "12:00:01" bob c.shared.server.sent {}) =
      List.replicate times (rowItem (fun _ => "12:00:00") hello))

/-- `bobShows`, of a client that has dealt with all frames sent to bob. -/
structure Outcome (times : Nat) (recalled : List Row) (c : Config serverInterface Exn Shared) :
    Prop where
  quiet : c.Quiescent
  handled : c.shared.server.tasks = []
  there : bob ∈ c.shared.server.sessions ∧ c.shared.server.name bob = "bob"
  stored : roomRows c.shared.server.db = [hello]
  recalls : lastHistory c.shared.server.sent bob = some (linesOf recalled)
  shows : ∃ client, Attends (fun _ => "12:00:00") bob c.shared.server.sent client ∧
    chatItems client = List.replicate times (rowItem (fun _ => "12:00:00") hello)

theorem outcome_of_shows {times : Nat} {recalled : List Row} {db : Database}
    {c : Config serverInterface Exn Shared}
    (run : (machine 2).Reaches Machine.unrestricted (boot db) c)
    (shows : bobShows times recalled c = true) : Outcome times recalled c := by
  simp only [bobShows, Bool.and_eq_true, decide_eq_true_eq, List.isEmpty_iff] at shows
  obtain ⟨⟨⟨⟨⟨resting, handled⟩, there⟩, stored⟩, recalls⟩, items⟩ := shows
  exact ⟨quiescent_of_pool run resting, handled, there, stored, recalls, _,
    attends_attend "12:00:01" (.start {}) c.shared.server.sent, items⟩

/-- Alice's message is in the history that bob is sent when he registers, and he shows it twice; or
it is stored while he is there, and he does not show it at all. -/
theorem shown_twice_or_never :
    (∃ c, (machine 2).Reaches Machine.unrestricted (boot {}) c ∧ Outcome 2 [hello] c) ∧
    ∃ c c', (machine 2).Reaches Machine.unrestricted (boot {}) c ∧
      c.shared.server.name bob = "bob" ∧ roomRows c.shared.server.db = [] ∧
      (machine 2).Reaches Machine.unrestricted c c' ∧ Outcome 0 [] c' := by
  have doubled : (play 2 tooEarly (boot {})).any (bobShows 2 [hello]) = true := by
    decide +kernel
  have lost : (play 2 bothThere (boot {})).any (fun c =>
      decide (c.shared.server.name bob = "bob" ∧ roomRows c.shared.server.db = []) &&
        (play 2 tooLate c).any (bobShows 0 [])) = true := by
    decide +kernel
  obtain ⟨c₁, run₁, shows₁⟩ := reaches_of_play doubled
  obtain ⟨c₂, run₂, test⟩ := reaches_of_play lost
  obtain ⟨before, later⟩ := Bool.and_eq_true_iff.mp test
  obtain ⟨named, empty⟩ := of_decide_eq_true before
  obtain ⟨c₃, run₃, shows₃⟩ := Player.reaches_of_play later
  exact ⟨⟨c₁, run₁, outcome_of_shows run₁ shows₁⟩, c₂, c₃, run₂, named, empty, run₃,
    outcome_of_shows (run₂.trans run₃) shows₃⟩

/-- Alice has said hello when bob registers. His request has read the history when carol's message
is stored, and he is sent what was read before he is sent the message. -/
def inTurn : List Turn :=
  accept 5 ++ accept 6 ++ accept 7 ++ read 5 (request "REGISTER" "alice") ++ work 1 40 ++
    read 5 (spoken "hello") ++ work 1 20 ++ read 6 (request "REGISTER" "bob") ++ work 2 40 ++
    read 7 (request "REGISTER" "carol") ++ work 1 40 ++ read 6 asking ++ work 2 5 ++
    read 7 (spoken "again") ++ work 1 5 ++ [.act 2 10 steadyWorld, .act 1 20 steadyWorld]

/-- The histories of two workers, and whether every action so far was orderly. -/
abbrev testing : History ((machine 2).within lastOutside) (((Nat → Telling) × Notes) × Bool) :=
  ((((machine 2).within lastOutside).following telling).both (noting 2)).tested (orderlyNow 2 bob)

/-- All is done, every action was orderly, and bob, who got his name after the first message, was
last sent that and shows it and the second. -/
def bobShowsBoth
    (c : Config serverInterface Exn ((Shared × World) × ((Nat → Telling) × Notes) × Bool)) : Bool :=
  c.shared.2.2 && poolResting 2 (Machine.forget (Machine.forget c)) &&
    decide (bob ∈ c.shared.1.1.server.sessions) &&
    decide (c.shared.2.1.2.since bob = some 2) &&
    decide (c.shared.2.1.2.recalled bob = some [hello]) &&
    decide (c.shared.2.1.2.shown bob = [some hello, some ⟨2, "carol", "__room__", "again", 0⟩])

/-- Three users on two workers, one of whom asks for the history while another speaks. -/
theorem each_message_once_inTurn :
    ∃ c client, (noted 2).Reaches (Orderly bob) (notedBoot {}) c ∧ c.Quiescent ∧
      bob ∈ c.shared.server.sessions ∧ c.shared.notes.since bob = some 2 ∧
      c.shared.notes.recalled bob = some [hello] ∧
      c.shared.notes.shown bob = [some hello, some ⟨2, "carol", "__room__", "again", 0⟩] ∧
      Attends (fun _ => "12:00:00") bob c.shared.server.sent client ∧
      EachOnce (fun _ => "12:00:00") c.shared bob client := by
  have passes : ((((Player.plain 2).within lastOutside).recording testing).play inTurn
      ⟨(((boot {}).shared, default), ((fun _ => {}), {}), true), (boot {}).thread⟩).any
        bobShowsBoth = true := by
    decide +kernel
  obtain ⟨c, run, both⟩ := Player.reaches_of_play passes
  simp only [bobShowsBoth, Bool.and_eq_true, decide_eq_true_eq] at both
  obtain ⟨⟨⟨⟨⟨passed, resting⟩, there⟩, since⟩, recalled⟩, shown⟩ := both
  have quiet : (Machine.forget (Machine.forget c)).Quiescent :=
    quiescent_of_pool run.forget.outside resting
  have orderly : (noted 2).Reaches (Orderly bob) (notedBoot {})
      ⟨(c.shared.1, c.shared.2.1), c.thread⟩ :=
    run.of_tested (fun _ run _ _ now => orderly_of_now run now) passed
  have keyed : Keyed {} := ⟨List.nodup_nil, fun _ member => nomatch member⟩
  have attends : Attends (fun _ => "12:00:00") bob c.shared.1.1.server.sent _ :=
    attends_attend "12:00:01" (.start {}) c.shared.1.1.server.sent
  exact ⟨_, _, orderly, quiet, there, since, recalled, shown, attends,
    each_message_once 2 bob {} keyed _ orderly quiet _ _ attends⟩

end LinuxChat.Guarantees.Transcript
