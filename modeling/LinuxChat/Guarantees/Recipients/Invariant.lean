import LinuxChat.Guarantees.Recipients.Programs

/-!
# What holds of what the threads have in hand

The table has no two sessions of one descriptor, an addressee has borne the name he was found
by, and the recipients of a list have been logged in. Each part of the invariant has its own
step lemma, and every run from the start of the server keeps all of them.
-/

namespace LinuxChat.Guarantees.Recipients

open LinuxChat.Lib LinuxChat.Source Prog

/-- The thread's reference keeps this session object alive. -/
def Custody.Has (c : Custody) (x : SessionRef) : Prop :=
  c.origin = some x ∨ ∃ name, c.addressee = some (name, x)

theorem held_custody {s : Posted} {t : Nat} {x : SessionRef} (has : (s.2.custody t).Has x) :
    Held s x := Or.inr (Or.inr ⟨t, has⟩)

/-- The invariant: what the threads have in hand is true of the sessions, and every frame sent so
far went to one entitled to it. -/
structure Sound (s : Posted) : Prop where
  bore : ∀ id, (s.1.server.heap id).username ≠ "" →
    (id, (s.1.server.heap id).username) ∈ s.2.borne
  admitted : ∀ t x, (s.2.custody t).origin = some x → (s.2.custody t).admitted = true →
    Bore s.2.borne x.id
  addressed : ∀ t name x, (s.2.custody t).addressee = some (name, x) → name ≠ "" →
    (x.id, name) ∈ s.2.borne
  listed : ∀ t, ∀ x ∈ (s.2.custody t).recipients, Bore s.2.borne x.id
  apart : ∀ x y, Held s x → Held s y → x.fd = y.fd → x = y
  found : ∀ t fd x, (s.2.custody t).found = some (fd, x) →
    ∀ y, (s.2.custody t).Has y → y.fd = fd → x = y
  inTable : ∀ fd x, (s.2.custody 0).found = some (fd, x) → x ∈ s.1.server.sessions
  entitled : ∀ parcel ∈ s.2.sent, Entitled s.2.borne parcel
  all : s.2.sent.map (fun parcel => (parcel.recipient, parcel.frame)) = s.1.server.sent

theorem Bore.mono {borne borne' : List (Nat × String)} {id : Nat} (bore : Bore borne id)
    (more : ∀ entry ∈ borne, entry ∈ borne') : Bore borne' id := by
  obtain ⟨name, nonempty, member⟩ := bore
  exact ⟨name, nonempty, more _ member⟩

theorem Entitled.mono {borne borne' : List (Nat × String)} {parcel : Parcel}
    (entitled : Entitled borne parcel) (more : ∀ entry ∈ borne, entry ∈ borne') :
    Entitled borne' parcel := by
  cases entitled with
  | refused type own => exact .refused type own
  | answered type own named => exact .answered type own (named.mono more)
  | addressed name type reads nonempty named =>
    exact .addressed name type reads nonempty (more _ named)
  | announced type named => exact .announced type (named.mono more)

section
variable {workers t : Nat} {s : Posted} {action : Act} (w : World)

/-- The state after an action of thread `t`. -/
abbrev next (workers t : Nat) (w : World) (action : Act) (s : Posted) : Posted :=
  ((posted workers).exec t w action s).2

theorem next_server : (next workers t w action s).1.server = (action.exec w s.1.server).2 := rfl

theorem next_borne : (next workers t w action s).2.borne = Post.names s.2.borne action := rfl

theorem next_own : (next workers t w action s).2.custody t =
    (s.2.custody t).follow action (action.exec w s.1.server).1 :=
  Function.update_self _ _ _

theorem next_other {u : Nat} (differs : u ≠ t) :
    (next workers t w action s).2.custody u = s.2.custody u :=
  Function.update_of_ne differs _ _

theorem names_grow : ∀ entry ∈ s.2.borne, entry ∈ (next workers t w action s).2.borne := by
  intro entry member
  rw [next_borne]
  cases action with
  | setUsername session name => exact List.mem_cons_of_mem _ member
  | _ => exact member

theorem bore_of_authenticated (sound : Sound s) {id : Nat}
    (authenticated : (s.1.server.heap id).isAuthenticated = true) : Bore s.2.borne id := by
  have named := (isAuthenticated_iff _).mp authenticated
  exact ⟨_, named, sound.bore id named⟩

theorem bore_step (sound : Sound s) (id : Nat)
    (named : ((next workers t w action s).1.server.heap id).username ≠ "") :
    (id, ((next workers t w action s).1.server.heap id).username) ∈
      (next workers t w action s).2.borne := by
  rw [next_borne]
  rw [next_server, exec_username] at named ⊢
  cases action with
  | setUsername session name =>
    dsimp only at named ⊢
    split
    next same =>
      rw [same]
      exact List.mem_cons_self
    next other =>
      rw [if_neg other] at named
      exact List.mem_cons_of_mem _ (sound.bore id named)
  | clearUsername session =>
    dsimp only at named ⊢
    split
    next same => exact absurd (if_pos same) named
    next other =>
      rw [if_neg other] at named
      exact sound.bore id named
  | storeSession fd ip =>
    dsimp only at named ⊢
    split
    next same => exact absurd (if_pos same) named
    next other =>
      rw [if_neg other] at named
      exact sound.bore id named
  | _ => exact sound.bore id named

/-- What an action does to its thread's custody, as far as references go. -/
theorem has_cases {x : SessionRef}
    (has : ((s.2.custody t).follow action (action.exec w s.1.server).1).Has x) :
    (s.2.custody t).Has x ∨ x ∈ s.1.server.sessions := by
  cases action with
  | isAuthenticated session =>
    simp only [Custody.follow] at has
    split at has
    · exact Or.inl has
    · exact Or.inl has
  | findSession username =>
    rcases has with origin | ⟨name, addressee⟩
    · exact Or.inl (Or.inl origin)
    · obtain ⟨target, found, same⟩ := Option.map_eq_some_iff.mp addressee
      cases same
      exact Or.inr (List.mem_of_find?_eq_some found)
  | dropSession session =>
    rcases has with origin | ⟨name, addressee⟩
    · cases origin
    · cases addressee
  | _ => exact Or.inl has

/-- A session object that is alive was so before, or is the newest. -/
theorem held_cases (sound : Sound s) (ok : posts.ok (viewOf s t) action) {x : SessionRef}
    (held : Held (next workers t w action s) x) :
    Held s x ∨ ∃ fd ip, action = .storeSession fd ip ∧ x = ⟨s.1.server.nextId, fd, ip⟩ := by
  rcases held with inTable | ⟨task, queued, own⟩ | ⟨u, has⟩
  · rw [next_server, exec_sessions] at inTable
    cases action with
    | storeSession fd ip =>
      rcases List.mem_cons.mp inTable with new | old
      · exact Or.inr ⟨fd, ip, rfl, new⟩
      · exact Or.inl (Or.inl (List.mem_of_mem_filter old))
    | eraseSession fd => exact Or.inl (Or.inl (List.mem_of_mem_filter inTable))
    | _ => exact Or.inl (Or.inl inTable)
  · left
    rw [next_server, exec_tasks] at queued
    cases action with
    | enqueue new =>
      dsimp only at queued
      have old : task ∈ s.1.server.tasks → Held s x :=
        fun member => Or.inr (Or.inl ⟨task, member, own⟩)
      split at queued
      · exact old queued
      · rcases List.mem_append.mp queued with member | last
        · exact old member
        · rw [List.mem_singleton.mp last] at own
          obtain ⟨loop, fd, found⟩ := ok
          have thread : t = 0 := of_decide_eq_true loop
          subst thread
          rw [← own]
          exact Or.inl (sound.inTable fd _ found)
    | _ => exact Or.inr (Or.inl ⟨task, queued, own⟩)
  · left
    by_cases actor : u = t
    · subst actor
      rw [next_own] at has
      rcases has_cases w has with old | inTable
      · exact held_custody old
      · exact Or.inl inTable
    · rw [next_other w actor] at has
      exact held_custody has

theorem apart_step (sound : Sound s) (ok : posts.ok (viewOf s t) action)
    (closed : Closed t action s) (x y : SessionRef) (heldX : Held (next workers t w action s) x)
    (heldY : Held (next workers t w action s) y) (same : x.fd = y.fd) : x = y := by
  rcases held_cases w sound ok heldX with oldX | ⟨fd, ip, stores, newX⟩
  · rcases held_cases w sound ok heldY with oldY | ⟨fd, ip, stores, newY⟩
    · exact sound.apart x y oldX oldY same
    · subst newY
      exact absurd same (closed fd ip stores x oldX)
  · rcases held_cases w sound ok heldY with oldY | ⟨fd', ip', stores', newY⟩
    · subst newX
      exact absurd same.symm (closed fd ip stores y oldY)
    · rw [stores] at stores'
      cases stores'
      rw [newX, newY]

theorem admitted_step (sound : Sound s) (ok : posts.ok (viewOf s t) action) (u : Nat)
    (x : SessionRef) (origin : ((next workers t w action s).2.custody u).origin = some x)
    (admitted : ((next workers t w action s).2.custody u).admitted = true) :
    Bore (next workers t w action s).2.borne x.id := by
  by_cases actor : u = t
  · subst actor
    rw [next_own] at origin admitted
    cases action with
    | isAuthenticated session =>
      simp only [Custody.follow] at origin admitted
      split at origin
      next gate =>
        obtain ⟨authenticated, own⟩ := gate
        rw [own] at origin
        cases origin
        exact bore_of_authenticated sound authenticated
      next other =>
        rw [if_neg other] at admitted
        exact sound.admitted u x origin admitted
    | setUsername session name =>
      obtain ⟨own, nonempty⟩ := ok
      have same : session = x := Option.some.inj (own.symm.trans origin)
      rw [same]
      exact ⟨name, nonempty, List.mem_cons_self⟩
    | dropSession => cases origin
    | _ => exact (sound.admitted u x origin admitted).mono (names_grow w)
  · rw [next_other w actor] at origin admitted
    exact (sound.admitted u x origin admitted).mono (names_grow w)

theorem addressed_step (sound : Sound s) (u : Nat) (name : String) (x : SessionRef)
    (addressee : ((next workers t w action s).2.custody u).addressee = some (name, x))
    (nonempty : name ≠ "") : (x.id, name) ∈ (next workers t w action s).2.borne := by
  by_cases actor : u = t
  · subst actor
    rw [next_own] at addressee
    cases action with
    | isAuthenticated session =>
      simp only [Custody.follow] at addressee
      split at addressee <;> exact sound.addressed u name x addressee nonempty
    | findSession username =>
      obtain ⟨target, found, same⟩ := Option.map_eq_some_iff.mp addressee
      cases same
      have bears : (s.1.server.heap x.id).username = name := findSession_name found
      have member := sound.bore x.id (bears.symm ▸ nonempty)
      rwa [bears] at member
    | dropSession => cases addressee
    | _ => exact names_grow w _ (sound.addressed u name x addressee nonempty)
  · rw [next_other w actor] at addressee
    exact names_grow w _ (sound.addressed u name x addressee nonempty)

theorem listed_step (sound : Sound s) (u : Nat) :
    ∀ x ∈ ((next workers t w action s).2.custody u).recipients,
      Bore (next workers t w action s).2.borne x.id := by
  intro x member
  by_cases actor : u = t
  · subst actor
    rw [next_own] at member
    cases action with
    | isAuthenticated session =>
      simp only [Custody.follow] at member
      split at member <;> exact sound.listed u x member
    | broadcastTargets excludeUsername =>
      have chosen := (List.mem_filter.mp member).2
      exact bore_of_authenticated sound (Bool.and_eq_true_iff.mp chosen).1
    | dropSession => cases member
    | _ => exact (sound.listed u x member).mono (names_grow w)
  · rw [next_other w actor] at member
    exact (sound.listed u x member).mono (names_grow w)

theorem found_step (sound : Sound s) (u fd : Nat) (x : SessionRef)
    (found : ((next workers t w action s).2.custody u).found = some (fd, x)) (y : SessionRef)
    (has : ((next workers t w action s).2.custody u).Has y) (same : y.fd = fd) : x = y := by
  by_cases actor : u = t
  · subst actor
    rw [next_own] at found has
    cases action with
    | isAuthenticated session =>
      simp only [Custody.follow] at found has
      split at found
      next gate =>
        rw [if_pos gate] at has
        exact sound.found u fd x found y has same
      next other =>
        rw [if_neg other] at has
        exact sound.found u fd x found y has same
    | findByFd number =>
      obtain ⟨session, member, pair⟩ := Option.map_eq_some_iff.mp found
      cases pair
      have own : x.fd = fd := by simpa using List.find?_some member
      have live : Held s x := Or.inl (List.mem_of_find?_eq_some member)
      exact sound.apart x y live (held_custody has) (own.trans same.symm)
    | findSession | eraseSession | storeSession | dropSession => cases found
    | _ => exact sound.found u fd x found y has same
  · rw [next_other w actor] at found has
    exact sound.found u fd x found y has same

/-- Only the event loop changes the table, and then it has found nobody. -/
theorem inTable_step (sound : Sound s) (ok : posts.ok (viewOf s t) action) (fd : Nat)
    (x : SessionRef) (found : ((next workers t w action s).2.custody 0).found = some (fd, x)) :
    x ∈ (next workers t w action s).1.server.sessions := by
  rw [next_server, exec_sessions]
  by_cases loop : 0 = t
  · subst loop
    rw [next_own] at found
    cases action with
    | isAuthenticated session =>
      simp only [Custody.follow] at found
      split at found <;> exact sound.inTable fd x found
    | findByFd number =>
      obtain ⟨session, member, pair⟩ := Option.map_eq_some_iff.mp found
      cases pair
      exact List.mem_of_find?_eq_some member
    | findSession | eraseSession | storeSession | dropSession => cases found
    | _ => exact sound.inTable fd x found
  · rw [next_other w loop] at found
    cases action with
    | eraseSession | storeSession => exact absurd (of_decide_eq_true ok) (Ne.symm loop)
    | _ => exact sound.inTable fd x found

/-- What a program sends as it should reaches a session entitled to it. -/
theorem entitled_of_sends (sound : Sound s) {x : SessionRef} {frame : Json}
    (sends : Sends (s.2.custody t) x frame) :
    Entitled s.2.borne ⟨(s.2.custody t).origin, x, frame⟩ := by
  cases sends with
  | refuses type own => exact .refused type own
  | answers type admitted own => exact .answered type own (sound.admitted t x own admitted)
  | returns type admitted origin own found =>
    have same := sound.found t origin.fd x found origin (Or.inl own) rfl
    subst same
    exact .answered type own (sound.admitted t x own admitted)
  | delivers name target type reads nonempty addressee found =>
    have same := sound.found t target.fd x found target (Or.inr ⟨name, addressee⟩) rfl
    subst same
    exact .addressed name type reads nonempty (sound.addressed t name x addressee nonempty)
  | announces type listed => exact .announced type (sound.listed t x listed)

theorem entitled_step (sound : Sound s) (ok : posts.ok (viewOf s t) action) :
    ∀ parcel ∈ (next workers t w action s).2.sent,
      Entitled (next workers t w action s).2.borne parcel := by
  intro parcel member
  refine Entitled.mono ?_ (names_grow w)
  have sent : (next workers t w action s).2.sent = s.2.parcels t action := rfl
  rw [sent] at member
  cases action with
  | sendMsg x locked frame =>
    rcases List.mem_append.mp member with old | new
    · exact sound.entitled parcel old
    · rw [List.mem_singleton.mp new]
      exact entitled_of_sends sound ok
  | _ => exact sound.entitled parcel member

theorem all_step (sound : Sound s) :
    (next workers t w action s).2.sent.map (fun parcel => (parcel.recipient, parcel.frame)) =
      (next workers t w action s).1.server.sent := by
  have sent : (next workers t w action s).2.sent = s.2.parcels t action := rfl
  rw [sent, next_server, exec_sent, ← sound.all]
  cases action with
  | sendMsg x locked frame => exact List.map_append
  | _ => rfl

/-- Part by part, for an action that the monitor allows and that accepts no descriptor somebody
still refers to. -/
theorem sound_step (sound : Sound s) (ok : posts.ok (viewOf s t) action)
    (closed : Closed t action s) : Sound (next workers t w action s) where
  bore := bore_step w sound
  admitted := admitted_step w sound ok
  addressed := addressed_step w sound
  listed := listed_step w sound
  apart := apart_step w sound ok closed
  found := found_step w sound
  inTable := inTable_step w sound ok
  entitled := entitled_step w sound ok
  all := all_step w sound

end

theorem sound_take {s : Posted} {t : Nat} {task : Task} {rest : List Task} (sound : Sound s)
    (worker : t ≠ 0) (queued : s.1.server.tasks = task :: rest) :
    Sound ({ s.1 with server := { s.1.server with tasks := rest } },
      s.2.take t s.1.server.tasks) := by
  have own : (s.2.take t s.1.server.tasks).custody t = { origin := some task.session } := by
    rw [take_own worker, queued]
    rfl
  have other : ∀ u, u ≠ t → (s.2.take t s.1.server.tasks).custody u = s.2.custody u :=
    fun u differs => take_other differs
  have borne : (s.2.take t s.1.server.tasks).borne = s.2.borne := by
    unfold Post.take
    rw [if_neg worker]
  have sent : (s.2.take t s.1.server.tasks).sent = s.2.sent := by
    unfold Post.take
    rw [if_neg worker]
  have taken : Held s task.session := by
    refine Or.inr (Or.inl ⟨task, ?_, rfl⟩)
    rw [queued]
    exact List.mem_cons_self
  have older : ∀ x, Held ({ s.1 with server := { s.1.server with tasks := rest } },
      s.2.take t s.1.server.tasks) x → Held s x := by
    rintro x (inTable | ⟨later, member, mine⟩ | ⟨u, has⟩)
    · exact Or.inl inTable
    · refine Or.inr (Or.inl ⟨later, ?_, mine⟩)
      rw [queued]
      exact List.mem_cons_of_mem _ member
    · dsimp only at has
      by_cases actor : u = t
      · subst actor
        rw [own] at has
        rcases has with origin | ⟨name, addressee⟩
        · cases origin
          exact taken
        · cases addressee
      · rw [other u actor] at has
        exact held_custody has
  have at_ : ∀ {P : Custody → Prop}, P { origin := some task.session } →
      (∀ u, P (s.2.custody u)) → ∀ u, P ((s.2.take t s.1.server.tasks).custody u) := by
    intro P fresh kept u
    by_cases actor : u = t
    · rw [actor, own]
      exact fresh
    · rw [other u actor]
      exact kept u
  refine ⟨?_, ?_, ?_, ?_, ?_, ?_, ?_, ?_, ?_⟩
  · dsimp only
    rw [borne]
    exact sound.bore
  · dsimp only
    rw [borne]
    exact at_ (P := fun c => ∀ x, c.origin = some x → c.admitted = true → Bore s.2.borne x.id)
      (fun _ _ admitted => nomatch admitted) sound.admitted
  · dsimp only
    rw [borne]
    exact at_ (P := fun c => ∀ name x, c.addressee = some (name, x) → name ≠ "" →
      (x.id, name) ∈ s.2.borne) (fun _ _ addressee => nomatch addressee) sound.addressed
  · dsimp only
    rw [borne]
    exact at_ (P := fun c => ∀ x ∈ c.recipients, Bore s.2.borne x.id)
      (fun _ member => nomatch member) sound.listed
  · exact fun x y heldX heldY => sound.apart x y (older x heldX) (older y heldY)
  · exact at_ (P := fun c => ∀ fd x, c.found = some (fd, x) → ∀ y, c.Has y → y.fd = fd → x = y)
      (fun _ _ found => nomatch found) sound.found
  · intro fd x found
    dsimp only at found
    rw [other 0 worker.symm] at found
    exact sound.inTable fd x found
  · dsimp only
    rw [borne, sent]
    exact sound.entitled
  · dsimp only
    rw [sent]
    exact sound.all

/-- A worker that takes a task refers to the session of the task, which the queue referred to
before. -/
theorem sound_spawn {workers t : Nat} {p : Proc Unit} {s : Posted} {shared : Shared}
    (sound : Sound s) (start : Start workers t p s.1 shared) :
    Sound (shared, s.2.take t s.1.server.tasks) := by
  cases start with
  | event e =>
    have same : s.2.take 0 s.1.server.tasks = s.2 := if_pos rfl
    rw [same]
    exact sound
  | task worker inPool queued => exact sound_take sound (Nat.ne_of_gt worker) queued

theorem unheld_boot (db : Database) (x : SessionRef) : ¬ Held (postedBoot db).shared x := by
  rintro (inTable | ⟨task, queued, _⟩ | ⟨t, origin | ⟨name, addressee⟩⟩)
  · cases inTable
  · cases queued
  · cases origin
  · cases addressee

theorem sound_boot (db : Database) : Sound (postedBoot db).shared where
  bore _ named := absurd rfl named
  admitted _ _ origin := nomatch origin
  addressed _ _ _ addressee := nomatch addressee
  listed _ _ member := nomatch member
  apart x _ held := absurd held (unheld_boot db x)
  found _ _ _ found := nomatch found
  inTable _ _ found := nomatch found
  entitled _ member := nomatch member
  all := rfl

/-- By induction over the run. -/
theorem sound_of_run {workers : Nat} {db : Database} {c : Config serverInterface Exn Posted}
    (run : (posted workers).Reaches Closed (postedBoot db) c) : Sound c.shared := by
  have idle : ∀ t, ((postedBoot db).thread t).Meets posts (fun _ _ => True)
      (viewOf (postedBoot db).shared t) := fun _ => trivial
  apply (follows workers).invariant idle (sound_boot db) ?_ ?_ run
  · intro t w action s sound ok closed
    exact sound_step w sound ok closed
  · intro t p s s' sound start
    obtain ⟨shared, post⟩ := s'
    obtain ⟨started, takes⟩ := start
    replace takes : post = s.2.take t s.1.server.tasks := takes
    subst takes
    exact sound_spawn sound started

end LinuxChat.Guarantees.Recipients
