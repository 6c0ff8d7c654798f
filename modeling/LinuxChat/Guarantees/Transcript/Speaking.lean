import LinuxChat.Guarantees.Transcript.Noting

/-!
# A message is stored and its recipients are copied

`Faithful` withstands a reading of the history, an insertion into the messages table and the copy of
the recipients. A row that is inserted is new, so nobody shows it and no other thread has it in
hand.
-/

namespace LinuxChat.Guarantees.Transcript

open LinuxChat.Lib LinuxChat.Lib.ChatRoom LinuxChat.Source Prog ChatService RoomWindow

namespace Faithful

variable {x : SessionRef} {c : Scene} {t : Nat}

/-- The history of the room is read. -/
theorem read (h : Faithful x c) (reading : Reading) (stored : reading.db.messages = c.rows) :
    Faithful x
      { c with
        history := Function.update c.history t (reading.rows.map Database.historyJson)
        notes := { c.notes with reading := Function.update c.notes.reading t reading } } :=
  { h with
    readings := by
      intro u
      by_cases own : u = t
      · subst own
        dsimp only
        rw [Function.update_self, stored]
        exact ⟨h.distinct, fun _ member => member⟩
      · dsimp only
        rw [Function.update_of_ne own]
        exact h.readings u
    texts := by
      intro u
      by_cases own : u = t
      · subst own
        simp only [Function.update_self]
      · simp only [Function.update_of_ne own]
        exact h.texts u }

theorem reaches_of_over {speech : Speech} (ended : speech.Over) (x : SessionRef) :
    ¬ speech.Reaches x := by
  cases speech with
  | silent => exact id
  | stored => exact ended.elim
  | sending sender content timestamp left =>
    have none : left = [] := ended
    subst none
    exact List.not_mem_nil

/-- An addressee is found by name, or nobody is. -/
theorem search (h : Faithful x c) (found : Option String)
    (elsewhere : ∀ name, found = some name → cString name ≠ Database.roomTarget) :
    Faithful x { c with whispers := Function.update c.whispers t found } :=
  { h with
    elsewhere := by
      intro u name whispers
      dsimp only at whispers
      by_cases own : u = t
      · subst own
        rw [Function.update_self] at whispers
        exact elsewhere name whispers
      · rw [Function.update_of_ne own] at whispers
        exact h.elsewhere u name whispers }

/-- A message is stored, or is not, and is the thread's to send on if it is one to the room. -/
theorem store (h : Faithful x c) (ended : (c.speech t).Over) (speech : Speech) (added : Option Row)
    (numbered : ∀ row, added = some row → row.id = c.number)
    (nobody : speech.left = [])
    (text : ∀ row line, added = some row → ¬ speech.Over → speech.shown = some line →
      (remark row).shown = line)
    (room : ∀ row, added = some row → row.toUser = Database.roomTarget → speech.Reaches x) :
    Faithful x
      { c with
        rows := c.rows ++ added.toList
        number := c.number + added.toList.length
        speech := Function.update c.speech t speech
        notes := { c.notes with saying := Function.update c.notes.saying t added } } := by
  have old : ∀ row ∈ c.rows, row ∈ c.rows ++ added.toList :=
    fun row member => List.mem_append_left _ member
  have new : ∀ row ∈ c.rows, added ≠ some row := by
    intro row member same
    have less := h.below row member
    have id := numbered row same
    omega
  have saying : ∀ u row, Function.update c.notes.saying t added u = some row →
      u = t ∧ added = some row ∨ u ≠ t ∧ c.notes.saying u = some row := by
    intro u row said
    by_cases own : u = t
    · subst own
      rw [Function.update_self] at said
      exact Or.inl ⟨rfl, said⟩
    · rw [Function.update_of_ne own] at said
      exact Or.inr ⟨own, said⟩
  exact
    { h with
      distinct := by
        dsimp only
        rw [List.map_append]
        refine List.nodup_append.mpr ⟨h.distinct, ?_, ?_⟩
        · cases added <;> simp
        · intro id earlier id' later same
          obtain ⟨row, member, rfl⟩ := List.mem_map.mp earlier
          obtain ⟨row', added', rfl⟩ := List.mem_map.mp later
          have less := h.below row member
          have number := numbered row' (Option.mem_toList.mp added')
          omega
      below := by
        intro row member
        dsimp only
        rcases List.mem_append.mp member with earlier | later
        · have less := h.below row earlier
          omega
        · have number := numbered row (Option.mem_toList.mp later)
          have one : 0 < added.toList.length := List.length_pos_of_mem later
          omega
      readings := fun u =>
        ⟨(h.readings u).1, fun row member => old row ((h.readings u).2 row member)⟩
      said := by
        intro u row said
        rcases saying u row said with ⟨_, same⟩ | ⟨_, earlier⟩
        · exact List.mem_append_right _ (Option.mem_toList.mpr same)
        · exact old row (h.said u row earlier)
      looks := by
        intro u row line under said shown
        dsimp only at under shown
        rcases saying u row said with ⟨rfl, same⟩ | ⟨other, earlier⟩
        · rw [Function.update_self] at under shown
          exact text row line same under shown
        · rw [Function.update_of_ne other] at under shown
          exact h.looks u row line under earlier shown
      alone := by
        intro u v row first second
        rcases saying u row first with ⟨rfl, same⟩ | ⟨_, earlier⟩
        · rcases saying v row second with ⟨rfl, _⟩ | ⟨_, before⟩
          · rfl
          · exact absurd same (new row (h.said v row before))
        · rcases saying v row second with ⟨rfl, same⟩ | ⟨_, before⟩
          · exact absurd same (new row (h.said u row earlier))
          · exact h.alone u v row earlier before
      left := by
        intro u
        by_cases own : u = t
        · subst own
          simp only [Function.update_self, nobody, List.nodup_nil]
        · simp only [Function.update_of_ne own]
          exact h.left u
      kept := fun row shown => old row (h.kept row shown)
      apart := by
        rintro row shown ⟨u, reaches, said⟩
        rcases saying u row said with ⟨_, same⟩ | ⟨other, earlier⟩
        · exact new row (h.kept row shown) same
        · dsimp only at reaches
          rw [Function.update_of_ne other] at reaches
          exact h.apart row shown ⟨u, reaches, earlier⟩
      whole := by
        intro there k since row member toRoom from_k
        rcases List.mem_append.mp member with earlier | later
        · refine (h.whole there k since row earlier toRoom from_k).imp_right ?_
          rintro ⟨u, reaches, said⟩
          have other : u ≠ t := by
            intro own
            rw [own] at reaches
            exact reaches_of_over ended x reaches
          refine ⟨u, ?_, ?_⟩
          · dsimp only
            rw [Function.update_of_ne other]
            exact reaches
          · dsimp only
            rw [Function.update_of_ne other]
            exact said
        · have same := Option.mem_toList.mp later
          refine Or.inr ⟨t, ?_, ?_⟩
          · dsimp only
            rw [Function.update_self]
            exact room row same toRoom
          · dsimp only
            rw [Function.update_self]
            exact same }

/-- The recipients of the thread's message are copied, if there is one; the client is among them if
it has a name and is there. -/
theorem copy (h : Faithful x c) (targets : List SessionRef) (distinct : targets.Nodup)
    (all : ¬ (c.speech t).Over → x ∈ c.table → ∀ k, c.notes.since x = some k → x ∈ targets) :
    Faithful x { c with speech := Function.update c.speech t ((c.speech t).copy targets) } := by
  have fewer : ∀ u, (Function.update c.speech t ((c.speech t).copy targets) u).Reaches x →
      (c.speech u).Reaches x := by
    intro u reaches
    by_cases own : u = t
    · subst own
      rw [Function.update_self] at reaches
      cases speech : c.speech u <;> rw [speech] at reaches
      · exact reaches
      · trivial
      · exact reaches
    · rw [Function.update_of_ne own] at reaches
      exact reaches
  exact
    { h with
      looks := by
        intro u row line under said shown
        dsimp only at under shown
        by_cases own : u = t
        · subst own
          rw [Function.update_self] at under shown
          have kept : (c.speech u).shown = some line := by
            cases speech : c.speech u <;> rw [speech] at shown <;> exact shown
          exact h.looks u row line (mt (fun ended => over_copy ended targets) under) said kept
        · rw [Function.update_of_ne own] at under shown
          exact h.looks u row line under said shown
      left := by
        intro u
        by_cases own : u = t
        · subst own
          simp only [Function.update_self]
          have before := h.left u
          cases speech : c.speech u <;> rw [speech] at before
          · exact before
          · exact distinct
          · exact before
        · simp only [Function.update_of_ne own]
          exact h.left u
      apart := by
        rintro row shown ⟨u, reaches, said⟩
        exact h.apart row shown ⟨u, fewer u reaches, said⟩
      whole := by
        intro there k since row member toRoom from_k
        refine (h.whole there k since row member toRoom from_k).imp_right ?_
        rintro ⟨u, reaches, said⟩
        refine ⟨u, ?_, said⟩
        dsimp only
        by_cases own : u = t
        · subst own
          rw [Function.update_self]
          cases speech : c.speech u <;> rw [speech] at reaches
          · exact reaches
          · refine all ?_ there k since
            rw [speech]
            exact id
          · exact reaches
        · rw [Function.update_of_ne own]
          exact reaches }

end Faithful

end LinuxChat.Guarantees.Transcript
