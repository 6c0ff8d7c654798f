import LinuxChat.Lib.Ties
import Mathlib.Data.Set.Insert

/-!
# Chat rooms

A service where peers take a seat under a name and speak to the whole room or to one
another. `Step` gives the notices an event sends, in their order; a `View` is what one
peer makes of those it receives. In every run a seated peer knows the names of the
seated, and sees the end of what was said to the room: `view_of_run`.
-/

namespace LinuxChat.Lib.ChatRoom

variable {Peer Name Account Text Line Item : Type}

/-- What a service fixes. Several names may share an account. -/
structure Rules (Name Account Text Line : Type) where
  account : Name → Account
  /-- What is kept of a text said under a name. -/
  line : Name → Text → Line
  /-- The addressee of what is said to the whole room. -/
  everybody : Account
  arrival : Name → Text
  departure : Name → Text
  /-- How many remarks an arriving peer is shown, and how many one who asks. -/
  greeting : Nat
  page : Nat

/-- Something that was said: by whom, to whom (an account, or what stands for all), and when. -/
structure Remark (Account Line : Type) where
  author : Account
  addressee : Account
  line : Line
  time : Int

/-- A room with its accounts, who sits where under which name, and all that was ever said. -/
structure Room (Peer Name Account Line : Type) where
  accounts : Set Account
  seat : Peer → Option Name
  log : List (Remark Account Line)

/-- What a peer is told: that he is in, who is there, a note, a remark to all or to him, or a
window of what was said. -/
inductive Notice (Name Text Line : Type)
  | welcome (name : Name)
  | roster (names : List Name)
  | note (text : Text)
  | post (author : Name) (text : Text) (time : Int)
  | letter (author addressee : Name) (text : Text) (time : Int)
  | window (place : Option Name) (lines : List (Line × Int))

/-- A notice and the peer it goes to. -/
abbrev Delivery (Peer Name Text Line : Type) := Peer × Notice Name Text Line

/-! ## Rooms -/

section
variable [DecidableEq Account]

/-- What was said to the whole room. -/
def Room.talk (rules : Rules Name Account Text Line) (room : Room Peer Name Account Line) :
    List (Remark Account Line) :=
  room.log.filter fun remark => remark.addressee = rules.everybody

/-- What two accounts have said to each other. -/
def Room.between (room : Room Peer Name Account Line) (a b : Account) :
    List (Remark Account Line) :=
  room.log.filter fun remark =>
    remark.author = a ∧ remark.addressee = b ∨ remark.author = b ∧ remark.addressee = a

/-- What `own` may read of the room, or of the correspondence with someone. -/
def Room.read (rules : Rules Name Account Text Line) (room : Room Peer Name Account Line)
    (own : Name) : Option Name → List (Remark Account Line)
  | none => room.talk rules
  | some name => room.between (rules.account own) (rules.account name)

end

/-- What a window shows of a remark. -/
def Remark.shown (remark : Remark Account Line) : Line × Int := (remark.line, remark.time)

/-- One more remark. -/
def Room.say (room : Room Peer Name Account Line) (remark : Remark Account Line) :
    Room Peer Name Account Line :=
  { room with log := room.log ++ [remark] }

section
variable [DecidableEq Peer]

/-- A peer takes his seat under a name, possibly with a new account. -/
def Room.sit (room : Room Peer Name Account Line) (peer : Peer) (name : Name)
    (accounts : Set Account) : Room Peer Name Account Line :=
  { room with accounts := accounts, seat := Function.update room.seat peer (some name) }

/-- A peer leaves his seat. -/
def Room.rise (room : Room Peer Name Account Line) (peer : Peer) :
    Room Peer Name Account Line :=
  { room with seat := Function.update room.seat peer none }

end

/-- The seated peers, each once. -/
def Everyone (room : Room Peer Name Account Line) (peers : List Peer) : Prop :=
  peers.Nodup ∧ ∀ peer, peer ∈ peers ↔ room.seat peer ≠ none

/-- The names of the seated peers, each once. -/
def Lists (room : Room Peer Name Account Line) (names : List Name) : Prop :=
  names.Nodup ∧ ∀ name, name ∈ names ↔ ∃ peer, room.seat peer = some name

/-- The account of the name exists, or is created now. -/
def Admits (rules : Rules Name Account Text Line) (room : Room Peer Name Account Line)
    (name : Name) (accounts : Set Account) : Prop :=
  rules.account name ∈ room.accounts ∧ accounts = room.accounts ∨
    rules.account name ∉ room.accounts ∧ accounts = insert (rules.account name) room.accounts

/-- The same notice to each of them. -/
def toEach (notice : Notice Name Text Line) (peers : List Peer) :
    List (Delivery Peer Name Text Line) :=
  peers.map fun peer => (peer, notice)

/-! ## Events -/

section
variable [DecidableEq Peer] [DecidableEq Account]

/-- An event, the notices it sends, and the room after it. -/
inductive Step (rules : Rules Name Account Text Line) (room : Room Peer Name Account Line) :
    List (Delivery Peer Name Text Line) → Room Peer Name Account Line → Prop
  | enter {peer : Peer} {name : Name} {accounts : Set Account} {names : List Name}
      {found : List (Remark Account Line)} {all others : List Peer}
      (vacant : room.seat peer = none) (unseated : ∀ other, room.seat other ≠ some name)
      (admits : Admits rules room name accounts)
      (recent : Selected Remark.time rules.greeting (room.talk rules) found)
      (lists : Lists (room.sit peer name accounts) names)
      (everyone : Everyone (room.sit peer name accounts) all) (before : Everyone room others) :
      Step rules room
        ((peer, .welcome name) :: (peer, .window none (found.map Remark.shown)) ::
          (toEach (.roster names) all ++ toEach (.note (rules.arrival name)) others))
        (room.sit peer name accounts)
  | leave {peer : Peer} {name : Name} {names : List Name} {all : List Peer}
      (seated : room.seat peer = some name) (lists : Lists (room.rise peer) names)
      (everyone : Everyone (room.rise peer) all) :
      Step rules room
        (toEach (.roster names) all ++ toEach (.note (rules.departure name)) all)
        (room.rise peer)
  | speak {peer : Peer} {name : Name} {text : Text} {time : Int} {all : List Peer}
      (seated : room.seat peer = some name) (everyone : Everyone room all) :
      Step rules room (toEach (.post name text time) all)
        (room.say ⟨rules.account name, rules.everybody, rules.line name text, time⟩)
  | whisper {peer target : Peer} {name addressee : Name} {text : Text} {time : Int}
      (seated : room.seat peer = some name) (present : room.seat target = some addressee) :
      Step rules room
        [(target, .letter name addressee text time), (peer, .letter name addressee text time)]
        (room.say ⟨rules.account name, rules.account addressee, rules.line name text, time⟩)
  | look {peer : Peer} {name : Name} {place : Option Name} {found : List (Remark Account Line)}
      (seated : room.seat peer = some name)
      (recent : Selected Remark.time rules.page (room.read rules name place) found) :
      Step rules room [(peer, .window place (found.map Remark.shown))] room
  | idle : Step rules room [] room

/-- Steps of the room one after the other, with all that the peers were told. -/
inductive Run (rules : Rules Name Account Text Line) (start : Room Peer Name Account Line) :
    List (Delivery Peer Name Text Line) → Room Peer Name Account Line → Prop
  | empty : Run rules start [] start
  | step {sent more : List (Delivery Peer Name Text Line)} {room next : Room Peer Name Account Line}
      (run : Run rules start sent room) (event : Step rules room more next) :
      Run rules start (sent ++ more) next

end

/-! ## Views -/

/-- What a listener has in front of him: the items of his list, and the names of those who are
there. -/
structure View (Name Item : Type) where
  items : List Item
  names : List Name

/-- `display` is how a peer shows a line and its time. -/
def View.see (rules : Rules Name Account Text Line) (display : Line × Int → Item)
    (view : View Name Item) : Notice Name Text Line → View Name Item
  | .post author text time =>
    { view with items := view.items ++ [display (rules.line author text, time)] }
  | .window none lines => { view with items := lines.map display }
  | .roster names => { view with names := names }
  | _ => view

/-- The notices to one peer. -/
def received [DecidableEq Peer] (peer : Peer) (sent : List (Delivery Peer Name Text Line)) :
    List (Notice Name Text Line) :=
  (sent.filter fun delivery => delivery.1 = peer).map Prod.snd

/-- The view of a peer that had another one before. -/
def viewOf [DecidableEq Peer] (rules : Rules Name Account Text Line)
    (display : Line × Int → Item) (peer : Peer) (view : View Name Item)
    (sent : List (Delivery Peer Name Text Line)) : View Name Item :=
  (received peer sent).foldl (View.see rules display) view

section
variable [DecidableEq Peer] {rules : Rules Name Account Text Line} {display : Line × Int → Item}
  {peer : Peer} {view : View Name Item}

theorem viewOf_append (sent more : List (Delivery Peer Name Text Line)) :
    viewOf rules display peer view (sent ++ more) =
      viewOf rules display peer (viewOf rules display peer view sent) more := by
  simp [viewOf, received]

theorem viewOf_cons (delivery : Delivery Peer Name Text Line)
    (more : List (Delivery Peer Name Text Line)) :
    viewOf rules display peer view (delivery :: more) =
      viewOf rules display peer
        (if delivery.1 = peer then view.see rules display delivery.2 else view) more := by
  by_cases own : delivery.1 = peer <;> simp [viewOf, received, own]

@[simp] theorem viewOf_nil : viewOf rules display peer view [] = view := rfl

/-- Everyone is sent a notice once. -/
theorem viewOf_toEach {notice : Notice Name Text Line} {peers : List Peer} (once : peers.Nodup) :
    viewOf rules display peer view (toEach notice peers) =
      if peer ∈ peers then view.see rules display notice else view := by
  induction peers generalizing view with
  | nil => simp [toEach]
  | cons head rest ih =>
    obtain ⟨absent, once⟩ := List.nodup_cons.mp once
    have step : viewOf rules display peer view (toEach notice (head :: rest)) = viewOf rules display peer
        (if head = peer then view.see rules display notice else view) (toEach notice rest) :=
      viewOf_cons (head, notice) _
    rw [step, ih once]
    by_cases own : head = peer
    · subst own
      simp [absent]
    · have other : peer ≠ head := fun same => own same.symm
      simp [own, other]

theorem viewOf_note {text : Text} {peers : List Peer} (once : peers.Nodup) :
    viewOf rules display peer view (toEach (.note text) peers) = view := by
  rw [viewOf_toEach once]
  split <;> rfl

end

/-! ## What events keep -/

/-- Who is seated has an account. -/
def Housed (rules : Rules Name Account Text Line) (room : Room Peer Name Account Line) : Prop :=
  ∀ peer name, room.seat peer = some name → rules.account name ∈ room.accounts

section
variable [DecidableEq Peer] [DecidableEq Account] {rules : Rules Name Account Text Line}
  {room next : Room Peer Name Account Line} {sent : List (Delivery Peer Name Text Line)}

theorem Step.accounts (event : Step rules room sent next) : room.accounts ⊆ next.accounts := by
  cases event with
  | enter vacant unseated admits =>
    rcases admits with ⟨_, same⟩ | ⟨_, more⟩
    · exact same.symm.subset
    · intro account member
      simp [Room.sit, more, member]
  | leave | speak | whisper | look | idle => exact subset_rfl

theorem Step.log (event : Step rules room sent next) : room.log <+: next.log := by
  cases event with
  | speak | whisper => exact List.prefix_append _ _
  | enter | leave | look | idle => exact List.prefix_rfl

theorem Step.housed (event : Step rules room sent next) (housed : Housed rules room) :
    Housed rules next := by
  have grows := event.accounts
  cases event with
  | @enter peer name accounts _ _ _ _ vacant unseated admits =>
    intro other seated bears
    simp only [Room.sit] at bears
    by_cases own : other = peer
    · subst own
      rw [Function.update_self] at bears
      cases bears
      rcases admits with ⟨known, same⟩ | ⟨_, more⟩
      · simpa [Room.sit, same] using known
      · simp [Room.sit, more]
    · rw [Function.update_of_ne own] at bears
      exact grows (housed other seated bears)
  | @leave peer =>
    intro other seated bears
    simp only [Room.rise] at bears
    by_cases own : other = peer
    · subst own
      rw [Function.update_self] at bears
      cases bears
    · rw [Function.update_of_ne own] at bears
      exact housed other seated bears
  | speak | whisper | look | idle => exact housed

end

/-! ## Views of a run -/

section
variable [DecidableEq Account] {rules : Rules Name Account Text Line}
  {room next : Room Peer Name Account Line}

/-- Time does not run backwards in what is said to the room, and what was said at one
time looks the same. -/
structure Chronological (rules : Rules Name Account Text Line)
    (room : Room Peer Name Account Line) : Prop where
  sorted : (room.talk rules).Pairwise fun a b => a.time ≤ b.time
  apart : ∀ a ∈ room.talk rules, ∀ b ∈ room.talk rules, a.time = b.time → a.shown = b.shown

theorem talk_grows (log : room.log <+: next.log) : room.talk rules <+: next.talk rules :=
  log.filter _

theorem Chronological.earlier (ordered : Chronological rules next)
    (log : room.log <+: next.log) : Chronological rules room where
  sorted := ordered.sorted.sublist (talk_grows log).sublist
  apart a ha b hb :=
    ordered.apart a ((talk_grows log).subset ha) b ((talk_grows log).subset hb)

/-- However ties are ordered, the latest remarks are shown. -/
theorem Chronological.recent {k : Nat} {found : List (Remark Account Line)}
    (ordered : Chronological rules room) (selected : Selected Remark.time k (room.talk rules) found)
    (display : Line × Int → Item) :
    (found.map Remark.shown).map display =
      (latest k (room.talk rules)).map fun remark => display remark.shown := by
  have shown : found.map Remark.shown = (latest k (room.talk rules)).map Remark.shown := by
    apply selected.shown ordered.sorted
    intro a ha b hb same
    exact ordered.apart a ha b (latest_subset hb) same
  rw [shown, List.map_map]
  rfl

theorem talk_say_room (author : Account) (line : Line) (time : Int) :
    (room.say ⟨author, rules.everybody, line, time⟩).talk rules =
      room.talk rules ++ [⟨author, rules.everybody, line, time⟩] := by
  simp [Room.talk, Room.say]

theorem talk_say_other {remark : Remark Account Line} (other : remark.addressee ≠ rules.everybody) :
    (room.say remark).talk rules = room.talk rules := by
  simp [Room.talk, Room.say, other]

/-- The end of what was said to the room, and the names of the seated. -/
structure Current (rules : Rules Name Account Text Line) (display : Line × Int → Item)
    (room : Room Peer Name Account Line) (view : View Name Item) : Prop where
  items : ∃ k, min rules.greeting rules.page ≤ k ∧
    view.items = (latest k (room.talk rules)).map fun remark => display remark.shown
  names : Lists room view.names

variable [DecidableEq Peer] {sent : List (Delivery Peer Name Text Line)} {peer : Peer}
  {display : Line × Int → Item} {view : View Name Item}

theorem Step.current (event : Step rules room sent next) (ordered : Chronological rules next)
    (free : rules.everybody ∉ next.accounts) (housed : Housed rules room)
    (before : room.seat peer ≠ none → Current rules display room view) (seated : next.seat peer ≠ none) :
    Current rules display next (viewOf rules display peer view sent) := by
  cases event with
  | @enter own name accounts names found all others vacant unseated admits recent lists everyone
      others_ =>
    have present : peer ∈ all := (everyone.2 peer).mpr seated
    rw [viewOf_cons, viewOf_cons, viewOf_append, viewOf_toEach everyone.1, if_pos present,
      viewOf_note others_.1]
    refine ⟨?_, lists⟩
    by_cases mine : own = peer
    · have earlier : Chronological rules room := ordered.earlier List.prefix_rfl
      have shown := earlier.recent recent display
      refine ⟨rules.greeting, Nat.min_le_left _ _, ?_⟩
      rw [if_pos mine]
      exact shown
    · have other : peer ≠ own := fun same => mine same.symm
      have still : room.seat peer ≠ none := by
        simpa [Room.sit, Function.update_of_ne other] using seated
      rw [if_neg mine, if_neg mine]
      exact (before still).items
  | @leave own name names all seated' lists everyone =>
    have present : peer ∈ all := (everyone.2 peer).mpr seated
    have other : peer ≠ own := by
      intro same
      subst same
      simp [Room.rise] at seated
    have still : room.seat peer ≠ none := by
      simpa [Room.rise, Function.update_of_ne other] using seated
    rw [viewOf_append, viewOf_note everyone.1, viewOf_toEach everyone.1, if_pos present]
    exact ⟨(before still).items, lists⟩
  | @speak own name text time all seated' everyone =>
    have present : peer ∈ all := (everyone.2 peer).mpr seated
    have known := before seated
    obtain ⟨k, enough, items⟩ := known.items
    rw [viewOf_toEach everyone.1, if_pos present]
    refine ⟨⟨k + 1, by omega, ?_⟩, known.names⟩
    rw [talk_say_room, latest_concat, List.map_append, ← items]
    rfl
  | @whisper own target name addressee text time seated' present =>
    have account := housed target addressee present
    have other : rules.account addressee ≠ rules.everybody := by
      intro same
      rw [same] at account
      exact free account
    have known := before seated
    have same : viewOf rules display peer view
        [(target, .letter name addressee text time), (own, .letter name addressee text time)] =
          view := by
      rw [viewOf_cons, viewOf_cons]
      simp [View.see]
    rw [same]
    obtain ⟨k, enough, items⟩ := known.items
    refine ⟨⟨k, enough, ?_⟩, known.names⟩
    rw [talk_say_other other, items]
  | @look own name place found seated' recent =>
    have known := before seated
    rw [viewOf_cons, viewOf_nil]
    by_cases mine : own = peer
    · rw [if_pos mine]
      cases place with
      | none =>
        exact ⟨⟨rules.page, Nat.min_le_right _ _, ordered.recent recent display⟩, known.names⟩
      | some other => exact known
    · rw [if_neg mine]
      exact known
  | idle => exact before seated

theorem Run.housed {start : Room Peer Name Account Line} (run : Run rules start sent room)
    (housed : Housed rules start) : Housed rules room := by
  induction run with
  | empty => exact housed
  | step run event ih => exact event.housed ih

/-- From a room where nobody sits: whoever is seated is up to date, whatever it saw before. -/
theorem view_of_run {start : Room Peer Name Account Line} (nobody : ∀ p, start.seat p = none)
    (run : Run rules start sent room) (ordered : Chronological rules room)
    (free : rules.everybody ∉ room.accounts) (seated : room.seat peer ≠ none) :
    Current rules display room (viewOf rules display peer view sent) := by
  have housed : Housed rules start := by
    intro p name bears
    rw [nobody p] at bears
    cases bears
  induction run with
  | empty => exact absurd (nobody peer) seated
  | @step sent more room next run event ih =>
    rw [viewOf_append]
    apply event.current ordered free (run.housed housed) ?_ seated
    intro before
    exact ih (ordered.earlier event.log) (fun member => free (event.accounts member)) before

end

end LinuxChat.Lib.ChatRoom
