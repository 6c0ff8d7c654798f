import Mathlib.Data.List.Sort
import Mathlib.Data.List.Flatten

/-!
# The latest of a list, by a key with ties

A list in key order is sorted downwards, cut to `k` elements and sorted upwards again,
by sorts that leave the order of ties open. The keys of the result are those of the last
`k` elements; its elements are, as far as `show` tells them apart, exactly when no
element ties with one of the last `k` that looks different. For the other direction a
sort may favour any one element among its ties. Elements put in between are seen unless
enough of the others stand at their key or behind it.
-/

namespace LinuxChat.Lib

variable {α β : Type} (key : α → Int)

/-- The last `k` elements, or all. -/
def latest (k : Nat) (xs : List α) : List α :=
  xs.drop (xs.length - k)

/-- `selected` is a result of sorting `xs` downwards, cutting and sorting upwards. -/
structure Selected (k : Nat) (xs selected : List α) : Prop where
  cut : ∃ down : List α, down.Perm xs ∧ (down.Pairwise fun a b => key b ≤ key a) ∧
    selected.Perm (down.take k)
  up : selected.Pairwise fun a b => key a ≤ key b

variable {key}

theorem map_pairwise_le {xs : List α} (up : xs.Pairwise fun a b => key a ≤ key b) :
    (xs.map key).Pairwise (· ≤ ·) :=
  List.pairwise_map.mpr up

/-- Two lists in key order with the same elements have the same keys. -/
theorem keys_eq_of_perm {xs ys : List α} (perm : xs.Perm ys)
    (up : xs.Pairwise fun a b => key a ≤ key b) (up' : ys.Pairwise fun a b => key a ≤ key b) :
    xs.map key = ys.map key :=
  (perm.map key).eq_of_pairwise (fun _ _ _ _ le ge => Int.le_antisymm le ge) (map_pairwise_le up)
    (map_pairwise_le up')

theorem latest_reverse (k : Nat) (xs : List α) : xs.reverse.take k = (latest k xs).reverse := by
  rw [List.take_reverse, latest]

theorem latest_map (f : α → β) (k : Nat) (xs : List α) :
    latest k (xs.map f) = (latest k xs).map f := by
  rw [latest, latest, List.length_map, List.map_drop]

theorem latest_concat (k : Nat) (xs : List α) (x : α) :
    latest (k + 1) (xs ++ [x]) = latest k xs ++ [x] := by
  have less : xs.length - k ≤ xs.length := Nat.sub_le _ _
  rw [latest, latest, List.length_append, List.length_singleton, Nat.add_sub_add_right,
    List.drop_append_of_le_length less]

theorem latest_subset {k : Nat} {xs : List α} {x : α} (h : x ∈ latest k xs) : x ∈ xs :=
  List.mem_of_mem_drop h

/-- The keys of the first `k` of a downward order. -/
theorem top_keys {k : Nat} {xs down : List α} (perm : down.Perm xs)
    (falls : down.Pairwise fun a b => key b ≤ key a)
    (sorted : xs.Pairwise fun a b => key a ≤ key b) :
    (down.take k).reverse.map key = (latest k xs).map key := by
  have reversed : down.reverse.map key = xs.map key := by
    refine keys_eq_of_perm (down.reverse_perm.trans perm) ?_ sorted
    exact List.pairwise_reverse.mpr falls
  have down_eq : down = down.reverse.reverse := (List.reverse_reverse down).symm
  rw [down_eq, latest_reverse, List.reverse_reverse, ← latest_map, reversed, latest_map]

/-- The keys of the result do not depend on how ties are ordered. -/
theorem Selected.keys {k : Nat} {xs selected : List α} (h : Selected key k xs selected)
    (sorted : xs.Pairwise fun a b => key a ≤ key b) :
    selected.map key = (latest k xs).map key := by
  obtain ⟨down, perm, falls, taken⟩ := h.cut
  rw [← top_keys perm falls sorted]
  refine keys_eq_of_perm (taken.trans (List.reverse_perm _).symm) h.up ?_
  exact List.pairwise_reverse.mpr (falls.sublist (List.take_sublist k down))

/-- Lists with the same keys look the same where equal keys look the same. -/
theorem map_eq_of_keys {f : α → β} {xs ys : List α} (keys : xs.map key = ys.map key)
    (alike : ∀ x ∈ xs, ∀ y ∈ ys, key x = key y → f x = f y) : xs.map f = ys.map f := by
  induction xs generalizing ys with
  | nil =>
    cases ys with
    | nil => rfl
    | cons y ys => cases keys
  | cons x xs ih =>
    cases ys with
    | nil => cases keys
    | cons y ys =>
      rw [List.map_cons, List.map_cons] at keys ⊢
      obtain ⟨head, tail⟩ := List.cons.inj keys
      have first := alike x List.mem_cons_self y List.mem_cons_self head
      have rest := ih tail fun a ha b hb =>
        alike a (List.mem_cons_of_mem x ha) b (List.mem_cons_of_mem y hb)
      rw [first, rest]

/-- No element ties with one of the last `k` and looks different. -/
def Untied (key : α → Int) (f : α → β) (k : Nat) (xs : List α) : Prop :=
  ∀ x ∈ xs, ∀ y ∈ latest k xs, key x = key y → f x = f y

theorem Selected.shown {f : α → β} {k : Nat} {xs selected : List α}
    (h : Selected key k xs selected) (sorted : xs.Pairwise fun a b => key a ≤ key b)
    (untied : Untied key f k xs) : selected.map f = (latest k xs).map f := by
  obtain ⟨down, perm, _, taken⟩ := h.cut
  refine map_eq_of_keys (h.keys sorted) fun x hx y hy same => ?_
  have member := perm.mem_iff.mp (List.mem_of_mem_take (taken.mem_iff.mp hx))
  exact untied x member y hy same

/-- Only the keys and the appearances matter. -/
theorem untied_pairs {f : α → β} {k : Nat} {xs : List α} :
    Untied key f k xs ↔
      Untied (fun pair : Int × β => pair.1) Prod.snd k (xs.map fun x => (key x, f x)) := by
  unfold Untied
  rw [latest_map]
  constructor
  · intro untied p hp q hq same
    obtain ⟨x, hx, rfl⟩ := List.mem_map.mp hp
    obtain ⟨y, hy, rfl⟩ := List.mem_map.mp hq
    exact untied x hx y hy same
  · intro untied x hx y hy same
    exact untied _ (List.mem_map_of_mem hx) _ (List.mem_map_of_mem hy) same

/-! ## Counting from a key on -/

/-- How many elements have this key or a later one. -/
def countFrom (key : α → Int) (first : Int) (xs : List α) : Nat :=
  xs.countP fun x => decide (first ≤ key x)

theorem countFrom_take {k : Nat} {down : List α} (falls : down.Pairwise fun a b => key b ≤ key a)
    (first : Int) : countFrom key first (down.take k) = min k (countFrom key first down) := by
  unfold countFrom
  induction down generalizing k with
  | nil => simp
  | cons x rest ih =>
    obtain ⟨behind, falls⟩ := List.pairwise_cons.mp falls
    cases k with
    | zero => simp
    | succ k =>
      rw [List.take_succ_cons, List.countP_cons, List.countP_cons, ih falls]
      by_cases from_first : first ≤ key x
      · simp only [from_first, decide_true, if_true]
        omega
      · -- nothing behind `x` counts
        have none : rest.countP (fun y => decide (first ≤ key y)) = 0 := by
          refine List.countP_eq_zero.mpr fun y hy => ?_
          have less := behind y hy
          simp only [decide_eq_true_eq]
          omega
        rw [none]
        simp [from_first]

/-- An element is selected if it and those at its key or behind it are no more than `k`. -/
theorem Selected.mem_of_countFrom {k : Nat} {xs selected : List α}
    (h : Selected key k xs selected) {x : α} (member : x ∈ xs)
    (few : countFrom key (key x) xs ≤ k) : x ∈ selected := by
  obtain ⟨down, perm, falls, taken⟩ := h.cut
  refine taken.mem_iff.mpr ?_
  have parts : countFrom key (key x) down =
      countFrom key (key x) (down.take k) + countFrom key (key x) (down.drop k) := by
    unfold countFrom
    rw [← List.countP_append, List.take_append_drop]
  have all : countFrom key (key x) down = countFrom key (key x) xs := perm.countP_eq _
  have cut := countFrom_take (k := k) falls (key x)
  have there : x ∈ down.take k ++ down.drop k := by
    rw [List.take_append_drop]
    exact perm.mem_iff.mpr member
  rcases List.mem_append.mp there with early | late
  · exact early
  · have counted : 0 < countFrom key (key x) (down.drop k) :=
      List.countP_pos_iff.mpr ⟨x, late, by simp⟩
    omega

/-- The latest elements lose none of the late ones to older ones. -/
theorem countFrom_latest {k : Nat} {xs : List α} (sorted : xs.Pairwise fun a b => key a ≤ key b)
    (first : Int) : countFrom key first (latest k xs) = min k (countFrom key first xs) := by
  have falls : xs.reverse.Pairwise fun a b => key b ≤ key a := List.pairwise_reverse.mpr sorted
  have counted := countFrom_take (k := k) falls first
  rw [latest_reverse] at counted
  simpa [countFrom, List.countP_reverse] using counted

/-- Lists in key order have the same keys when they count the same from every key on. -/
theorem keys_eq_of_counts {xs ys : List α} (up : xs.Pairwise fun a b => key a ≤ key b)
    (up' : ys.Pairwise fun a b => key a ≤ key b)
    (counts : ∀ first, countFrom key first xs = countFrom key first ys) :
    xs.map key = ys.map key := by
  have exactly (zs : List α) (value : Int) :
      countFrom key value zs = countFrom key (value + 1) zs + (zs.map key).count value := by
    unfold countFrom
    induction zs with
    | nil => rfl
    | cons z rest ih =>
      rw [List.countP_cons, List.countP_cons, List.map_cons, List.count_cons, ih]
      by_cases same : key z = value
      · have next : ¬ value + 1 ≤ value := by omega
        simp [same, next]
        omega
      · have apart : value ≤ key z ↔ value + 1 ≤ key z := by omega
        simp [same, apart]
        omega
  have perm : (xs.map key).Perm (ys.map key) := by
    refine List.perm_iff_count.mpr fun value => ?_
    have here := exactly xs value
    have there := exactly ys value
    have now := counts value
    have next := counts (value + 1)
    omega
  exact perm.eq_of_pairwise (fun _ _ _ _ le ge => Int.le_antisymm le ge) (map_pairwise_le up)
    (map_pairwise_le up')

theorem latest_pairwise {k : Nat} {xs : List α} (sorted : xs.Pairwise fun a b => key a ≤ key b) :
    (latest k xs).Pairwise fun a b => key a ≤ key b :=
  sorted.sublist (List.drop_sublist _ _)

/-- The latest of two lists have the same keys when the lists count the same from every
key on, as far as `k`. -/
theorem latest_keys_iff {k : Nat} {xs ys : List α} (sorted : xs.Pairwise fun a b => key a ≤ key b)
    (sorted' : ys.Pairwise fun a b => key a ≤ key b) :
    (latest k xs).map key = (latest k ys).map key ↔
      ∀ first, min k (countFrom key first xs) = min k (countFrom key first ys) := by
  constructor
  · intro keys first
    rw [← countFrom_latest sorted, ← countFrom_latest sorted']
    have mapped (zs : List α) :
        countFrom key first zs = (zs.map key).countP fun value => decide (first ≤ value) := by
      rw [countFrom, List.countP_map]
      rfl
    rw [mapped, mapped, keys]
  · intro counts
    refine keys_eq_of_counts (latest_pairwise sorted) (latest_pairwise sorted') fun first => ?_
    rw [countFrom_latest sorted, countFrom_latest sorted', counts]

/-- Elements put in between are not seen when each of them has `k` of the others at its key
or behind it. -/
theorem counts_filter_iff {k : Nat} (q : α → Bool) (xs : List α) :
    (∀ first, min k (countFrom key first xs) = min k (countFrom key first (xs.filter q))) ↔
      ∀ x ∈ xs, q x = false → k ≤ countFrom key (key x) (xs.filter q) := by
  have parts (first : Int) : countFrom key first xs =
      countFrom key first (xs.filter q) + countFrom key first (xs.filter fun x => !q x) := by
    unfold countFrom
    rw [← List.countP_append]
    exact ((List.filter_append_perm q xs).countP_eq _).symm
  constructor
  · intro counts x hx other
    have between : 0 < countFrom key (key x) (xs.filter fun x => !q x) := by
      refine List.countP_pos_iff.mpr ⟨x, List.mem_filter.mpr ⟨hx, by simp [other]⟩, by simp⟩
    have count := counts (key x)
    have sum := parts (key x)
    omega
  · intro behind first
    rw [parts first]
    rcases Nat.eq_zero_or_pos (countFrom key first (xs.filter fun x => !q x)) with none | some
    · rw [none, Nat.add_zero]
    · obtain ⟨x, member, late⟩ := List.countP_pos_iff.mp some
      obtain ⟨hx, other⟩ := List.mem_filter.mp member
      have enough := behind x hx (by simpa using other)
      have late' : first ≤ key x := by simpa using late
      have more : countFrom key (key x) (xs.filter q) ≤ countFrom key first (xs.filter q) := by
        refine List.countP_mono_left fun y _ at_x => ?_
        simp only [decide_eq_true_eq] at at_x ⊢
        omega
      omega

theorem keys_of_shown {f : α → β} (keyed : ∀ x y, f x = f y → key x = key y) {xs ys : List α}
    (same : xs.map f = ys.map f) : xs.map key = ys.map key := by
  induction xs generalizing ys with
  | nil =>
    cases ys with
    | nil => rfl
    | cons y ys => cases same
  | cons x xs ih =>
    cases ys with
    | nil => cases same
    | cons y ys =>
      rw [List.map_cons, List.map_cons] at same
      obtain ⟨head, tail⟩ := List.cons.inj same
      rw [List.map_cons, List.map_cons, keyed x y head, ih tail]

/-- The latest of two lists look the same, whatever ties of the first do, when they count the
same and nothing ties with one of the latest and looks different. -/
theorem latest_shown_iff {f : α → β} {k : Nat} {xs ys : List α}
    (sorted : xs.Pairwise fun a b => key a ≤ key b) (sorted' : ys.Pairwise fun a b => key a ≤ key b)
    (keyed : ∀ x y, f x = f y → key x = key y) :
    (Untied key f k xs ∧ (latest k xs).map f = (latest k ys).map f) ↔
      (∀ first, min k (countFrom key first xs) = min k (countFrom key first ys)) ∧
        ∀ x ∈ xs, ∀ y ∈ latest k ys, key x = key y → f x = f y := by
  constructor
  · rintro ⟨untied, same⟩
    have keys : (latest k xs).map key = (latest k ys).map key := by
      exact keys_of_shown keyed same
    refine ⟨(latest_keys_iff sorted sorted').mp keys, fun x hx y hy tie => ?_⟩
    obtain ⟨z, hz, equal⟩ := List.mem_map.mp (same ▸ List.mem_map_of_mem hy)
    rw [← equal]
    exact untied x hx z hz (tie.trans (keyed z y equal).symm)
  · rintro ⟨counts, alike⟩
    have keys := (latest_keys_iff sorted sorted').mpr counts
    refine ⟨fun x hx z hz tie => ?_, ?_⟩
    · obtain ⟨y, hy, equal⟩ := List.mem_map.mp (keys ▸ List.mem_map_of_mem hz)
      have first := alike x hx y hy (tie.trans equal.symm)
      have second := alike z (latest_subset hz) y hy equal.symm
      exact first.trans second.symm
    · exact map_eq_of_keys keys fun x hx y hy tie => alike x (latest_subset hx) y hy tie

/-! ## Favouring one element -/

/-- In key order, with `x` before everything that ties with it. -/
def Favours (key : α → Int) (x a b : α) : Prop :=
  key a < key b ∨ (key a = key b ∧ (a = x ∨ b ≠ x))

instance [DecidableEq α] (x : α) : DecidableRel (Favours key x) :=
  fun _ _ => inferInstanceAs (Decidable (_ ∨ _))

theorem Favours.le {x a b : α} (h : Favours key x a b) : key a ≤ key b := by
  rcases h with less | ⟨same, _⟩ <;> omega

instance [DecidableEq α] (x : α) : Std.Total (Favours key x) := by
  refine ⟨fun a b => ?_⟩
  unfold Favours
  rcases Int.lt_trichotomy (key a) (key b) with less | same | more
  · exact Or.inl (Or.inl less)
  · by_cases first : a = x
    · exact Or.inl (Or.inr ⟨same, Or.inl first⟩)
    · exact Or.inr (Or.inr ⟨same.symm, Or.inr first⟩)
  · exact Or.inr (Or.inl more)

instance (x : α) : IsTrans α (Favours key x) := by
  refine ⟨fun a b c first second => ?_⟩
  have le := first.le
  have le' := second.le
  by_cases less : key a < key c
  · exact Or.inl less
  · refine Or.inr ⟨by omega, ?_⟩
    rcases first with less' | ⟨_, rfl | other⟩
    · omega
    · exact Or.inl rfl
    · rcases second with less' | ⟨_, same | other'⟩
      · omega
      · exact absurd same other
      · exact Or.inr other'

/-- The favoured element stands behind smaller keys only. -/
theorem favoured_first {x : α} {xs : List α} (sorted : xs.Pairwise (Favours key x))
    (distinct : xs.Nodup) (member : x ∈ xs) :
    ∃ front back, xs = front ++ x :: back ∧ (∀ y ∈ front, key y < key x) ∧
      ∀ y ∈ back, key x ≤ key y := by
  obtain ⟨front, back, rfl⟩ := List.append_of_mem member
  obtain ⟨_, behind, across⟩ := List.pairwise_append.mp sorted
  have apart := (List.nodup_append.mp distinct).2.2
  refine ⟨front, back, rfl, fun y hy => ?_, fun y hy => ?_⟩
  · rcases across y hy x List.mem_cons_self with less | ⟨_, same | other⟩
    · exact less
    · exact absurd same (apart y hy x List.mem_cons_self)
    · exact absurd rfl other
  · exact ((List.pairwise_cons.mp behind).1 y hy).le

/-- A downward order that favours `x` keeps it in the cut, if it ties with one that
belongs there. -/
theorem favoured_taken {x y : α} {k : Nat} {xs down : List α} (perm : down.Perm xs)
    (favours : down.Pairwise (Favours (fun a => -key a) x))
    (sorted : xs.Pairwise fun a b => key a ≤ key b) (member : x ∈ xs) (late : y ∈ latest k xs)
    (tie : key x = key y) : x ∈ down.take k := by
  have falls : down.Pairwise fun a b => key b ≤ key a := by
    refine favours.imp fun h => ?_
    have le := h.le
    omega
  have there : key x ∈ (down.take k).reverse.map key := by
    rw [top_keys perm falls sorted, tie]
    exact List.mem_map_of_mem late
  obtain ⟨z, hz, same⟩ := List.mem_map.mp there
  have inCut := List.mem_reverse.mp hz
  rcases List.mem_append.mp ((List.take_append_drop k down).symm ▸ perm.mem_iff.mpr member) with
    taken | dropped
  · exact taken
  · have parts := List.pairwise_append.mp ((List.take_append_drop k down).symm ▸ favours)
    rcases parts.2.2 z inCut x dropped with less | ⟨_, equal | other⟩
    · have beyond : -key z < -key x := less
      omega
    · exact equal ▸ inCut
    · exact absurd rfl other

/-- The position of the favoured element is told by the keys alone. -/
theorem front_length {x : α} {front back : List α} (less : ∀ y ∈ front, key y < key x)
    (more : ∀ y ∈ back, key x ≤ key y) :
    front.length = ((front ++ x :: back).map key).countP (· < key x) := by
  have ins : front.countP (fun y => key y < key x) = front.length :=
    List.countP_eq_length.mpr fun y hy => by simpa using less y hy
  have outs : back.countP (fun y => key y < key x) = 0 :=
    List.countP_eq_zero.mpr fun y hy => by simpa using more y hy
  rw [List.countP_map, List.countP_append, List.countP_cons]
  simp only [Function.comp_def, ins, outs]
  simp

/-- Two results with the same appearance, one favouring `a`, the other `b`: the two look
the same if they tie. -/
theorem alike_of_favoured {f : α → β} {a b : α} {xs ys : List α} (tie : key a = key b)
    (sorted : xs.Pairwise (Favours key a)) (sorted' : ys.Pairwise (Favours key b))
    (distinct : xs.Nodup) (distinct' : ys.Nodup) (ha : a ∈ xs) (hb : b ∈ ys)
    (keys : xs.map key = ys.map key) (same : xs.map f = ys.map f) : f a = f b := by
  obtain ⟨front, back, rfl, less, more⟩ := favoured_first sorted distinct ha
  obtain ⟨front', back', rfl, less', more'⟩ := favoured_first sorted' distinct' hb
  have size : front.length = front'.length := by
    rw [front_length less more, front_length less' more', keys, tie]
  rw [List.map_append, List.map_append] at same
  have parts := List.append_inj same (by rw [List.length_map, List.length_map, size])
  rw [List.map_cons, List.map_cons] at parts
  exact (List.cons.inj parts.2).1

end LinuxChat.Lib
