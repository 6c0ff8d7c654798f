import LinuxChat.Guarantees.SerialRuns.Book

/-!
# Runs of one handler at a time

Every turn keeps the book in order, and `orderly_of_run` is the induction over the turns.
-/

namespace LinuxChat.Guarantees.SerialRuns

open LinuxChat.Lib LinuxChat.Source Prog Serial

variable {E : World → Prop}

theorem Orderly.handled {s s' : Server} {x : SessionRef} {msg : Json} {o : Except Exn Unit}
    (orderly : Orderly s) (live : x ∈ s.sessions) (ended : Handled E x msg s o s') :
    Orderly s' := by
  have limits : ∀ attempts, SameBook s { s with loginAttempts := attempts } :=
    fun _ => ⟨rfl, fun _ => rfl, fun _ => rfl, rfl, rfl, rfl, rfl, rfl, rfl⟩
  cases ended with
  | unreadable id => exact orderly
  | ignored => exact orderly
  | refused code content attempts own =>
    exact orderly.same ((limits attempts).trans (sameBook_told _ _))
  | failed username code content attempts free own =>
    exact orderly.same ((limits attempts).trans ((sameBook_reserved _ x username).trans
      ((sameBook_settled _ x username).trans (sameBook_told _ _))))
  | stranded username what free undrawn => exact orderly.same (sameBook_reserved s x username)
  | entered username db attempts rows now now' bare nonempty free entry own =>
    have finish : ∀ s₁, Orderly s₁ → ∀ frames, Orderly (settled (told s₁ frames) x username) :=
      fun s₁ h frames => h.same ((sameBook_told s₁ frames).trans (sameBook_settled _ x username))
    have enter : ∀ {db : Database}, Orderly { s with db := db, loginAttempts := attempts } →
        (∀ y ∈ s.sessions, s.name y ≠ username) → Has db.users (cString username) →
        Orderly (admitted s x username db attempts) := by
      intro db before offline row
      have same := sameBook_reserved { s with db := db, loginAttempts := attempts } x username
      have names : ∀ y, (reserved { s with db := db, loginAttempts := attempts } x username).name y =
          s.name y := fun y => same.username y.id
      refine (before.same same).named live ?_ nonempty ?_ row
      · rw [names]
        exact bare
      · intro y member
        rw [names]
        exact offline y member
    cases entry with
    | login offline row => exact finish _ (enter (orderly.same (limits attempts)) offline row) _
    | register hash free =>
      refine finish _ (enter ((orderly.moreUsers _).same
        ⟨rfl, fun _ => rfl, fun _ => rfl, rfl, rfl, rfl, rfl, rfl, rfl⟩) ?_ ?_) _
      · intro y member bears
        have row := orderly.rows y member (bears ▸ nonempty)
        rw [bears] at row
        exact free row
      · exact ⟨(cString username, hash), by simp, rfl⟩
  | left now now' bears => exact (orderly.unnamed live).same (sameBook_told _ _)
  | spoke content now ok =>
    exact orderly.same ((sameBook_stored s ok _ _ _ _).trans (sameBook_told _ _))
  | whispered target toUser content now ok =>
    exact orderly.same ((sameBook_stored s ok _ _ _ _).trans (sameBook_told _ _))
  | recalled toUser rows => exact orderly.same (sameBook_told _ _)

theorem SameBook.unnamed {s s' : Server} (same : SameBook s s') (x : SessionRef)
    (username : String) : SameBook (unnamed s x username) (Serial.unnamed s' x username) := by
  refine ⟨same.sessions, ?_, ?_, ?_, same.users, same.tasks, same.nextId, same.nextGeneration,
    same.registered⟩
  · intro id
    simp only [Serial.unnamed, modify_heap]
    split
    · rfl
    · exact same.username id
  · intro id
    simp only [Serial.unnamed, modify_heap]
    split
    · exact same.generation id
    · exact same.generation id
  · simp only [Serial.unnamed, same.online]

/-- Taking the name away before or after the session leaves the table is the same. -/
theorem sameBook_unnamed_erased {s : Server} {x : SessionRef}
    (found : s.findByFd x.fd = some x) (username : String) :
    SameBook ((unnamed s x username).eraseSession x.fd).2
      (unnamed (s.eraseSession x.fd).2 x username) := by
  have found' : (unnamed s x username).findByFd x.fd = some x := found
  simp only [Server.eraseSession, found, found']
  refine ⟨rfl, ?_, ?_, rfl, rfl, rfl, rfl, rfl, rfl⟩
  · intro id
    simp only [unnamed, modify_heap]
    split <;> rfl
  · intro id
    simp only [unnamed, modify_heap]
    split <;> rfl

theorem Orderly.disconnected {s s' : Server} {x : SessionRef} (orderly : Orderly s)
    (live : x ∈ s.sessions) (gone : Disconnected (s.eraseSession x.fd).2 x s') : Orderly s' := by
  have found := orderly.findByFd live
  have username : (s.eraseSession x.fd).2.name x = s.name x := by
    simp only [Server.eraseSession, found, Server.name, modify_heap]
    rfl
  cases gone with
  | stranger bare =>
    rw [username] at bare
    exact (orderly.erased live bare).same (sameBook_cleaned _ x)
  | user now now' bears =>
    have bare : (Serial.unnamed s x (s.name x)).name x = "" := by
      rw [unnamed_name, if_pos rfl]
    have out := (orderly.unnamed live).erased live bare
    rw [username]
    exact out.same ((sameBook_unnamed_erased found _).trans
      (((sameBook_cleaned _ x).unnamed x _).trans (sameBook_told _ _)))

theorem Orderly.turn {s s' : Server} (orderly : Orderly s) (ended : TurnEnd E s s') :
    Orderly s' := by
  cases ended with
  | idle => exact orderly
  | accepted fd ip free => exact orderly.stored free
  | pinged => exact orderly.same (sameBook_told _ _)
  | received x live buf failures _ queued =>
    exact (orderly.same (sameBook_buffered s x buf failures)).queued (mem_of_findByFd live) queued
  | removed x live buf failures _ gone =>
    exact (orderly.same (sameBook_buffered s x buf failures)).disconnected
      (mem_of_findByFd live) gone
  | stale task rest queued => exact orderly.dequeued queued
  | handled task rest queued current o _ ended =>
    have live : task.session ∈ s.sessions := by
      apply orderly.current task _ current
      rw [queued]
      exact List.mem_cons_self
    exact (orderly.dequeued queued).handled live ended

theorem orderly_boot (db : Database) : Orderly { db := db } where
  numbered := ⟨by simp, by simp⟩
  fds := List.Pairwise.nil
  distinct := by simp
  online := by simp
  nodup := List.nodup_nil
  rows := by simp
  current := by simp
  dated := by simp
  stamped := by simp
  registered := rfl

/-- Turn by turn. -/
theorem orderly_of_run {db : Database} {s : Server} (run : SerialRun E db s) : Orderly s := by
  induction run with
  | boot => exact orderly_boot db
  | turn run step ih => exact ih.turn (step.ends ih.registered)

end LinuxChat.Guarantees.SerialRuns
