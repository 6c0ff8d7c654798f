import LinuxChat.Guarantees.Transcript.Speaking

/-!
# Frames are sent

`Faithful` withstands every frame. A BROADCAST adds its row to what the recipient shows and takes
the recipient off those to come; a history of the room takes the place of what the client shows,
which keeps it whole and without doubles only where no row of it is still to be sent to that client
and each row it lacks is.
-/

namespace LinuxChat.Guarantees.Transcript

open LinuxChat.Lib LinuxChat.Lib.ChatRoom LinuxChat.Source Prog ChatService RoomWindow

namespace Faithful

variable {x : SessionRef} {c : Scene} {t : Nat}

theorem viewOf_sent {d : Line × Int → Line × String} {x y : SessionRef}
    {start : View String (Line × String)} {sent : List (SessionRef × Json)} {frame : Json}
    {told : Notice String String Line} (reads : notice frame = some told) :
    viewOf service d x start (notices (sent ++ [(y, frame)])) =
      if y = x then (viewOf service d x start (notices sent)).see service d told
      else viewOf service d x start (notices sent) := by
  rw [notices_append, viewOf_append, notices_cons reads, viewOf_cons]
  rfl

/-- A frame that is no history leaves the last one as it is. -/
theorem lastHistory_other {frame : Json} (other : historyOf frame = none)
    (sent : List (SessionRef × Json)) (x y : SessionRef) :
    lastHistory (sent ++ [(y, frame)]) x = lastHistory sent x := by
  have silent : ([(y, frame)].filter fun frame => frame.1 = x).filterMap
      (fun frame => historyOf frame.2) = [] := by
    by_cases own : y = x <;> simp [own, other]
  unfold lastHistory
  rw [List.filter_append, List.filterMap_append, silent, List.append_nil]

theorem lastHistory_own {frame : Json} {lines : List (Line × Int)}
    (reads : historyOf frame = some lines) (sent : List (SessionRef × Json)) (x y : SessionRef) :
    lastHistory (sent ++ [(y, frame)]) x = if y = x then some lines else lastHistory sent x := by
  unfold lastHistory
  rw [List.filter_append, List.filterMap_append]
  by_cases own : y = x
  · have told : ([(y, frame)].filter fun frame => frame.1 = x).filterMap
        (fun frame => historyOf frame.2) = [lines] := by
      simp [own, reads]
    rw [told, if_pos own]
    exact List.getLast?_concat
  · have silent : [(y, frame)].filter (fun frame => frame.1 = x) = [] := by
      simp [own]
    rw [silent, if_neg own, List.filterMap_nil, List.append_nil]

theorem historyOf_mute {frame : Json} (mute : Mute frame) : historyOf frame = none := by
  unfold Mute at mute
  unfold historyOf
  cases reads : notice frame with
  | none => rfl
  | some told =>
    rw [reads] at mute
    cases told with
    | window place lines =>
      cases place with
      | none => exact mute.elim
      | some _ => rfl
    | _ => rfl

/-- A frame that tells nothing of the room is sent. -/
theorem tell (h : Faithful x c) (y : SessionRef) {frame : Json} (mute : Mute frame) :
    Faithful x { c with sent := c.sent ++ [(y, frame)] } :=
  { h with
    last := by
      dsimp only
      rw [lastHistory_other (historyOf_mute mute)]
      exact h.last
    items := by
      intro timeText start
      have before := h.items timeText start
      dsimp only
      unfold Mute at mute
      cases reads : notice frame with
      | none =>
        have silent : notices [(y, frame)] = [] := notices_silent (by simp [reads])
        rw [notices_append, silent, List.append_nil]
        exact before
      | some told =>
        rw [viewOf_sent reads]
        split
        · rw [reads] at mute
          cases told with
          | post => exact mute.elim
          | window place lines =>
            cases place with
            | none => exact mute.elim
            | some _ => exact before
          | _ => exact before
        · exact before }

theorem mem_added {shown : SessionRef → List (Option Row)} {x y : SessionRef} {origin : Option Row}
    {row : Row} :
    some row ∈ Function.update shown x (shown x ++ [origin]) y ↔
      some row ∈ shown y ∨ y = x ∧ origin = some row := by
  by_cases own : y = x
  · subst own
    rw [Function.update_self, List.mem_append, List.mem_singleton, eq_comm]
    simp
  · rw [Function.update_of_ne own]
    simp [own]

/-- A message is sent to the next recipient. -/
theorem post (h : Faithful x c) {y : SessionRef} {frame : Json} {sender content : String}
    {timestamp : Int} {rest : List SessionRef}
    (reads : notice frame = some (.post sender content timestamp))
    (speech : c.speech t = .sending sender content timestamp (y :: rest)) :
    Faithful x
      { c with
        sent := c.sent ++ [(y, frame)]
        speech := Function.update c.speech t (.sending sender content timestamp rest)
        notes := { c.notes with
          shown := Function.update c.notes.shown y (c.notes.shown y ++ [c.notes.saying t]) } } := by
  have under : ¬ (c.speech t).Over := by
    rw [speech]
    exact List.cons_ne_nil y rest
  have distinct : (y :: rest).Nodup := by
    have left := h.left t
    rw [speech] at left
    exact left
  have reached : (c.speech t).Reaches y := by
    rw [speech]
    exact List.mem_cons_self
  have fewer : ∀ u,
      (Function.update c.speech t (.sending sender content timestamp rest) u).Reaches x →
        (c.speech u).Reaches x := by
    intro u reaches
    by_cases own : u = t
    · subst own
      rw [Function.update_self] at reaches
      rw [speech]
      exact List.mem_cons_of_mem y reaches
    · rw [Function.update_of_ne own] at reaches
      exact reaches
  -- the recipient does not show the row yet
  have new : x = y → ∀ row, c.notes.saying t = some row → some row ∉ c.notes.shown x := by
    rintro rfl row said shown
    exact h.apart row shown ⟨t, reached, said⟩
  exact
    { h with
      looks := by
        intro u row line under' said shown
        dsimp only at under' shown
        by_cases own : u = t
        · subst own
          rw [Function.update_self] at shown
          refine h.looks u row line under said ?_
          rw [speech]
          exact shown
        · rw [Function.update_of_ne own] at under' shown
          exact h.looks u row line under' said shown
      left := by
        intro u
        by_cases own : u = t
        · subst own
          simp only [Function.update_self]
          exact (List.nodup_cons.mp distinct).2
        · simp only [Function.update_of_ne own]
          exact h.left u
      kept := by
        intro row shown
        rcases mem_added.mp shown with earlier | ⟨_, said⟩
        · exact h.kept row earlier
        · exact h.said t row said
      once := by
        intro row
        by_cases own : x = y
        · subst own
          simp only [Function.update_self]
          rw [List.count_append, List.count_singleton]
          split
          next same =>
            have said := eq_of_beq same
            rw [List.count_eq_zero.mpr (new rfl row said)]
          next => exact h.once row
        · simp only [Function.update_of_ne own]
          exact h.once row
      apart := by
        rintro row shown ⟨u, reaches, said⟩
        rcases mem_added.mp shown with earlier | ⟨rfl, own⟩
        · exact h.apart row earlier ⟨u, fewer u reaches, said⟩
        · have same := h.alone u t row said own
          subst same
          dsimp only at reaches
          rw [Function.update_self] at reaches
          exact (List.nodup_cons.mp distinct).1 reaches
      whole := by
        intro there k since row member toRoom from_k
        rcases h.whole there k since row member toRoom from_k with shown | ⟨u, reaches, said⟩
        · exact Or.inl (mem_added.mpr (Or.inl shown))
        · by_cases own : u = t
          · subst own
            rw [speech] at reaches
            rcases List.mem_cons.mp reaches with here | later
            · exact Or.inl (mem_added.mpr (Or.inr ⟨here, said⟩))
            · refine Or.inr ⟨u, ?_, said⟩
              dsimp only
              rw [Function.update_self]
              exact later
          · refine Or.inr ⟨u, ?_, said⟩
            dsimp only
            rw [Function.update_of_ne own]
            exact reaches
      recalled := fun rows recalled row member =>
        mem_added.mpr (Or.inl (h.recalled rows recalled row member))
      last := by
        have other : historyOf frame = none := by
          unfold historyOf
          rw [reads]
        dsimp only
        rw [lastHistory_other other]
        exact h.last
      items := by
        intro timeText start
        have before := h.items timeText start
        dsimp only
        rw [viewOf_sent reads]
        unfold Notes.items at before ⊢
        dsimp only
        by_cases own : x = y
        · subst own
          rw [if_pos rfl, Function.update_self, ← List.append_assoc]
          refine List.rel_append before ?_
          refine List.Forall₂.cons ?_ List.Forall₂.nil
          intro row said
          have line := h.looks t row ((cString sender, cString content), timestamp) under said
            (by rw [speech]; rfl)
          exact congrArg (display timeText) line.symm
        · rw [if_neg (Ne.symm own), Function.update_of_ne own]
          exact before }

/-- A client is sent the room's history. If it is `x`, it is to be sent none of it again, and all of
what it should show that is not in it. -/
theorem window (h : Faithful x c) {y : SessionRef} {frame : Json} {lines : List (Line × Int)}
    (reads : notice frame = some (.window none lines)) (read : lines = (c.history t).map lineOf)
    (greets : ∀ z, c.greets t = some z → c.found t = some y)
    (settled : x = y → ∀ row ∈ (c.notes.reading t).rows, ¬ c.Ahead row x)
    (complete : x = y → ∀ k, c.notes.since x = some k → ∀ row ∈ c.rows,
      row.toUser = Database.roomTarget → k ≤ row.id →
        row ∈ (c.notes.reading t).rows ∨ c.Ahead row x) :
    Faithful x
      { c with
        sent := c.sent ++ [(y, frame)]
        greets := Function.update c.greets t none
        notes := { c.notes with
          shown := Function.update c.notes.shown y ((c.notes.reading t).rows.map some)
          recalled := Function.update c.notes.recalled y (some (c.notes.reading t).rows) } } := by
  have shown_own : ∀ row, some row ∈ (c.notes.reading t).rows.map some ↔
      row ∈ (c.notes.reading t).rows := by
    intro row
    simp
  exact
    { h with
      kept := by
        intro row shown
        dsimp only at shown
        by_cases own : x = y
        · subst own
          rw [Function.update_self] at shown
          exact (h.readings t).2 row (Reading.mem_db ((shown_own row).mp shown))
        · rw [Function.update_of_ne own] at shown
          exact h.kept row shown
      once := by
        intro row
        dsimp only
        by_cases own : x = y
        · subst own
          rw [Function.update_self]
          have distinct : ((c.notes.reading t).rows.map some).Nodup :=
            (Reading.nodup_rows (h.readings t).1).map (Option.some_injective _)
          exact List.nodup_iff_count_le_one.mp distinct (some row)
        · rw [Function.update_of_ne own]
          exact h.once row
      apart := by
        intro row shown ahead
        dsimp only at shown
        by_cases own : x = y
        · subst own
          rw [Function.update_self] at shown
          exact settled rfl row ((shown_own row).mp shown) ahead
        · rw [Function.update_of_ne own] at shown
          exact h.apart row shown ahead
      whole := by
        intro there k since row member toRoom from_k
        dsimp only
        by_cases own : x = y
        · subst own
          rw [Function.update_self]
          exact (complete rfl k since row member toRoom from_k).imp_left (shown_own row).mpr
        · rw [Function.update_of_ne own]
          exact h.whole there k since row member toRoom from_k
      recalled := by
        intro rows recalled row member
        dsimp only at recalled ⊢
        by_cases own : x = y
        · subst own
          rw [Function.update_self] at recalled ⊢
          cases recalled
          exact (shown_own row).mpr member
        · rw [Function.update_of_ne own] at recalled ⊢
          exact h.recalled rows recalled row member
      last := by
        have told : historyOf frame = some lines := by
          unfold historyOf
          rw [reads]
        dsimp only
        rw [lastHistory_own told]
        by_cases own : x = y
        · subst own
          rw [if_pos rfl, Function.update_self, read, h.texts t, List.map_map]
          simp only [linesOf, Option.map_some, Function.comp_def, lineOf_historyJson]
        · rw [if_neg (Ne.symm own), Function.update_of_ne own]
          exact h.last
      greeted := by
        intro there k since
        dsimp only
        by_cases own : x = y
        · subst own
          rw [Function.update_self]
          exact Or.inl rfl
        · rw [Function.update_of_ne own]
          refine (h.greeted there k since).imp_right ?_
          rintro ⟨u, greeting, found⟩
          have other : u ≠ t := by
            intro same
            subst same
            exact own (found y (greets x greeting)).symm
          refine ⟨u, ?_, found⟩
          dsimp only
          rw [Function.update_of_ne other]
          exact greeting
      items := by
        intro timeText start
        have before := h.items timeText start
        dsimp only
        rw [viewOf_sent reads]
        unfold Notes.items at before ⊢
        dsimp only
        by_cases own : x = y
        · subst own
          rw [if_pos rfl, Function.update_self, Function.update_self, read, h.texts t]
          simp only [View.see, Option.elim_some, List.nil_append, List.map_map]
          refine List.forall₂_map_left_iff.mpr (List.forall₂_map_right_iff.mpr ?_)
          refine List.forall₂_same.mpr fun row _ => ?_
          rintro _ ⟨⟩
          simp only [Function.comp_apply, lineOf_historyJson]
          rfl
        · rw [if_neg (Ne.symm own), Function.update_of_ne own, Function.update_of_ne own]
          exact before }

end Faithful

end LinuxChat.Guarantees.Transcript
