import LinuxChat.Guarantees.JsonText

/-!
# Numbers

`scan_number` reads exactly the numerals, up to the first character that does not belong
to one, and its token is the numeral's.
-/

namespace LinuxChat.Guarantees.JsonText

open LinuxChat.Lib
open LinuxChat.Source

/-! ## Digits -/

/-- No digit comes next. -/
def Undigited (input : Bytes) : Prop := ∀ c, input.head? = some c → isDigit c = false

/-- Nothing that continues a numeral comes next. -/
def Stops (input : Bytes) : Prop :=
  ∀ c, input.head? = some c → isDigit c = false ∧ c.toNat ≠ 0x2E ∧ isExponentMark c = false

theorem Stops.undigited {input : Bytes} (stops : Stops input) : Undigited input :=
  fun c h => (stops c h).1

theorem digit_range {c : UInt8} (h : isDigit c = true) : 0x30 ≤ c.toNat ∧ c.toNat ≤ 0x39 := by
  simpa [isDigit] using h

theorem mark_range {c : UInt8} (h : isExponentMark c = true) :
    c.toNat = 0x65 ∨ c.toNat = 0x45 := by
  simpa [isExponentMark] using h

theorem mark_not_digit {c : UInt8} (h : isExponentMark c = true) : isDigit c = false := by
  have range := mark_range h
  by_contra digit
  have := digit_range (Bool.eq_true_of_not_eq_false digit)
  omega

theorem takeWhile_digits {digits tail : Bytes} (decimal : ∀ c ∈ digits, isDigit c = true)
    (stop : Undigited tail) : (digits ++ tail).takeWhile isDigit = digits := by
  rw [List.takeWhile_append_of_pos decimal]
  cases tail with
  | nil => simp
  | cons c rest => simp [stop c rfl]

theorem dropWhile_digits {digits tail : Bytes} (decimal : ∀ c ∈ digits, isDigit c = true)
    (stop : Undigited tail) : (digits ++ tail).dropWhile isDigit = tail := by
  rw [List.dropWhile_append_of_pos decimal]
  cases tail with
  | nil => rfl
  | cons c rest => simp [stop c rfl]

theorem undigited_dropWhile (input : Bytes) : Undigited (input.dropWhile isDigit) := by
  intro c h
  have := List.head?_dropWhile_not isDigit input
  rw [h] at this
  simpa using this

/-- The labels that read digits in a loop. -/
def Loops : NumberState → Prop
  | .any1 | .decimal2 | .any2 => True
  | _ => False

theorem move_digit {state : NumberState} (loops : Loops state) {c : UInt8}
    (digit : isDigit c = true) : state.move c = .goto state := by
  cases state <;> simp_all [Loops, NumberState.move]

theorem assign_loops {state : NumberState} (loops : Loops state) (type : NumberType) :
    state.assign type = type := by
  cases state <;> simp_all [Loops, NumberState.assign]

theorem scanNumberFrom_digits {state : NumberState} (loops : Loops state) {digits : Bytes}
    (decimal : ∀ c ∈ digits, isDigit c = true) (type : NumberType) (buffer tail : Bytes) :
    scanNumberFrom state type buffer (digits ++ tail) =
      scanNumberFrom state type (buffer ++ digits) tail := by
  induction digits generalizing buffer with
  | nil => simp
  | cons c digits ih =>
    have digit := decimal c List.mem_cons_self
    simp only [List.cons_append, scanNumberFrom, move_digit loops digit]
    rw [assign_loops loops, ih fun d hd => decimal d (List.mem_cons_of_mem c hd)]
    simp

/-- A loop takes all the digits there are. -/
theorem scanNumberFrom_loop {state : NumberState} (loops : Loops state) (type : NumberType)
    (buffer input : Bytes) :
    scanNumberFrom state type buffer input =
      scanNumberFrom state type (buffer ++ input.takeWhile isDigit) (input.dropWhile isDigit) := by
  rw [← scanNumberFrom_digits loops (fun c => List.mem_takeWhile_imp),
    List.takeWhile_append_dropWhile]

/-! ## Reading a numeral -/

/-- The labels a numeral may end at. -/
def Ends : NumberState → Prop
  | .zero | .any1 | .decimal2 | .any2 => True
  | _ => False

theorem scanNumberFrom_stop {state : NumberState} (ends : Ends state) {rest : Bytes}
    (stops : Stops rest) (type : NumberType) (buffer : Bytes) :
    scanNumberFrom state type buffer rest = some (type, buffer, rest) := by
  cases rest with
  | nil => cases state <;> simp_all [Ends, scanNumberFrom, NumberState.otherwise]
  | cons c rest =>
    obtain ⟨digit, point, mark⟩ := stops c rfl
    cases state <;>
      simp_all [Ends, scanNumberFrom, NumberState.move, NumberState.otherwise]

theorem goto_digit {state next : NumberState} {c : UInt8} (move : state.move c = .goto next)
    (type : NumberType) (buffer rest : Bytes) :
    scanNumberFrom state type buffer (c :: rest) =
      scanNumberFrom next (next.assign type) (buffer ++ [c]) rest := by
  simp [scanNumberFrom, move]

theorem Digits.split (digits : Digits) :
    ∃ c more, digits.octets = c :: more ∧ isDigit c = true ∧ ∀ d ∈ more, isDigit d = true := by
  have decimal := digits.decimal
  cases octets : digits.octets with
  | nil => exact absurd octets digits.nonempty
  | cons c more =>
    rw [octets] at decimal
    exact ⟨c, more, rfl, decimal c List.mem_cons_self,
      fun d hd => decimal d (List.mem_cons_of_mem c hd)⟩

/-- A digit and then the loop of the next label. -/
theorem scanNumberFrom_number {state next : NumberState} (loops : Loops next)
    (enter : ∀ c, isDigit c = true → state.move c = .goto next) (digits : Digits)
    (type : NumberType) (buffer tail : Bytes) :
    scanNumberFrom state type buffer (digits.octets ++ tail) =
      scanNumberFrom next type (buffer ++ digits.octets) tail := by
  obtain ⟨c, more, octets, digit, decimal⟩ := digits.split
  rw [octets, List.cons_append, goto_digit (enter c digit), assign_loops loops,
    scanNumberFrom_digits loops decimal]
  simp

theorem scanNumberFrom_exponent {state : NumberState}
    (enter : ∀ c, isExponentMark c = true → state.move c = .goto .exponent) (e : Exponent)
    (type : NumberType) (buffer tail : Bytes) :
    scanNumberFrom state type buffer (e.text ++ tail) =
      scanNumberFrom .any2 .float (buffer ++ e.text) tail := by
  have fromExponent (c : UInt8) (digit : isDigit c = true) :
      NumberState.exponent.move c = .goto .any2 := by
    have := digit_range digit
    simp only [NumberState.move]
    rw [if_neg (by omega), if_pos digit]
  have fromSign (c : UInt8) (digit : isDigit c = true) :
      NumberState.sign.move c = .goto .any2 := by
    simp [NumberState.move, digit]
  have loops : Loops .any2 := trivial
  rw [Exponent.text, List.cons_append, goto_digit (enter _ e.isMark), List.append_assoc]
  cases e.sign with
  | none =>
    rw [signText, List.nil_append, scanNumberFrom_number loops fromExponent]
    simp [NumberState.assign]
  | some minus =>
    have step : ∃ c, signText (some minus) = [c] ∧ (c.toNat = 0x2B ∨ c.toNat = 0x2D) := by
      cases minus <;> exact ⟨_, rfl, by decide⟩
    obtain ⟨c, signed, plusMinus⟩ := step
    have move : NumberState.exponent.move c = .goto .sign := by
      simp [NumberState.move, plusMinus]
    rw [signed, List.singleton_append, goto_digit move, scanNumberFrom_number loops fromSign]
    simp [NumberState.assign]

/-- `number_type` behind a numeral. -/
def Numeral.type (n : Numeral) : NumberType :=
  if n.fraction = none ∧ n.exponent = none then
    if n.negative then .integer else .unsigned
  else .float

theorem mark_goto {state : NumberState} (whole : state = .zero ∨ state = .any1 ∨ state = .decimal2)
    {c : UInt8} (mark : isExponentMark c = true) : state.move c = .goto .exponent := by
  have range := mark_range mark
  have notDigit := mark_not_digit mark
  have notPoint : c.toNat ≠ 0x2E := by omega
  rcases whole with rfl | rfl | rfl <;> simp [NumberState.move, mark, notDigit, notPoint]

theorem scanNumberFrom_ending {state : NumberState} (ends : Ends state)
    (whole : state = .zero ∨ state = .any1 ∨ state = .decimal2) (exponent : Option Exponent)
    {rest : Bytes} (stops : Stops rest) (type : NumberType) (buffer : Bytes) :
    scanNumberFrom state type buffer (exponentText exponent ++ rest) =
      some (if exponent = none then type else .float, buffer ++ exponentText exponent, rest) := by
  cases exponent with
  | none => simpa [exponentText] using scanNumberFrom_stop ends stops type buffer
  | some e =>
    have final : Ends .any2 := trivial
    rw [exponentText, scanNumberFrom_exponent (fun c => mark_goto whole) e,
      scanNumberFrom_stop final stops]
    simp

theorem scanNumberFrom_fraction {state : NumberState} (ends : Ends state)
    (whole : state = .zero ∨ state = .any1) (fraction : Option Digits)
    (exponent : Option Exponent) {rest : Bytes} (stops : Stops rest) (type : NumberType)
    (buffer : Bytes) :
    scanNumberFrom state type buffer (fractionText fraction ++ (exponentText exponent ++ rest)) =
      some (if fraction = none ∧ exponent = none then type else .float,
        buffer ++ (fractionText fraction ++ exponentText exponent), rest) := by
  cases fraction with
  | none =>
    rw [fractionText, List.nil_append, scanNumberFrom_ending ends (by tauto) exponent stops]
    simp
  | some digits =>
    have point : state.move 0x2E = .goto .decimal1 := by
      rcases whole with rfl | rfl <;> rfl
    have enter (c : UInt8) (digit : isDigit c = true) :
        NumberState.decimal1.move c = .goto .decimal2 := by
      simp [NumberState.move, digit]
    have loops : Loops .decimal2 := trivial
    have final : Ends .decimal2 := trivial
    rw [fractionText, List.cons_append, goto_digit point, scanNumberFrom_number loops enter,
      scanNumberFrom_ending final (by tauto) exponent stops]
    simp [NumberState.assign]

/-- From the label that the first digit leads to. -/
theorem scanNumberFrom_whole {state : NumberState} (n : Numeral)
    (zero : ∀ c, c.toNat = 0x30 → state.move c = .goto .zero)
    (any : ∀ c, isDigit c = true → c.toNat ≠ 0x30 → state.move c = .goto .any1)
    {rest : Bytes} (stops : Stops rest) (type : NumberType) (buffer : Bytes) :
    scanNumberFrom state type buffer
        (n.whole.octets ++ (fractionText n.fraction ++ (exponentText n.exponent ++ rest))) =
      some (if n.fraction = none ∧ n.exponent = none then type else .float,
        buffer ++ (n.whole.octets ++ (fractionText n.fraction ++ exponentText n.exponent)),
        rest) := by
  obtain ⟨c, more, octets, digit, decimal⟩ := n.whole.split
  have alone := n.noLeadingZero
  rw [octets] at alone ⊢
  by_cases leading : c.toNat = 0x30
  · have c_eq : c = 0x30 := UInt8.toNat_inj.mp leading
    have none : more = [] := by
      have whole := alone (by rw [c_eq]; rfl)
      simpa using congrArg List.tail whole
    have final : Ends .zero := trivial
    rw [none, List.singleton_append, goto_digit (zero c leading), NumberState.assign,
      scanNumberFrom_fraction final (Or.inl rfl) n.fraction n.exponent stops]
    · simp
    all_goals exact NumberState.noConfusion
  · have loops : Loops .any1 := trivial
    have final : Ends .any1 := trivial
    rw [List.cons_append, goto_digit (any c digit leading), assign_loops loops,
      scanNumberFrom_digits loops decimal,
      scanNumberFrom_fraction final (Or.inr rfl) n.fraction n.exponent stops]
    simp

/-! ## Its token -/

theorem undigited_exponent (exponent : Option Exponent) : Undigited (exponentText exponent) := by
  intro c h
  cases exponent with
  | none => cases h
  | some e =>
    injection h with same
    rw [← same]
    exact mark_not_digit e.isMark

theorem undigited_fraction (fraction : Option Digits) (exponent : Option Exponent) :
    Undigited (fractionText fraction ++ exponentText exponent) := by
  cases fraction with
  | none => exact undigited_exponent exponent
  | some digits =>
    intro c h
    injection h with same
    rw [← same]
    decide

theorem exponentValue_text (e : Exponent) : exponentValue e.text.tail = e.value := by
  obtain ⟨c, more, octets, digit, -⟩ := e.digits.split
  have range := digit_range digit
  rw [Exponent.text, List.tail_cons, Exponent.value]
  cases sign : e.sign with
  | none =>
    rw [signText, List.nil_append, octets, exponentValue, if_neg (by omega), if_neg (by omega)]
    simp
  | some minus => cases minus <;> simp [signText, exponentValue]

theorem exponentValue_ending (exponent : Option Exponent) :
    exponentValue (exponentText exponent).tail = (exponent.map Exponent.value).getD 0 := by
  cases exponent with
  | none => rfl
  | some e => exact exponentValue_text e

theorem point_absent {exponent : Option Exponent} :
    (exponentText exponent).head? ≠ some 0x2E := by
  cases exponent with
  | none => simp [exponentText]
  | some e =>
    intro h
    injection h with same
    have mark := mark_range e.isMark
    rw [same] at mark
    revert mark
    decide

/-- The sign, the digits and the exponent that `strtof` finds in a numeral. -/
theorem strtof_text (n : Numeral) : strtof n.text = .valueFloat n.mantissa n.power := by
  obtain ⟨c, more, octets, digit, -⟩ := n.whole.split
  have range := digit_range digit
  have notMinus : c ≠ 0x2D := by
    rintro rfl
    revert digit
    decide
  have minus : n.text.head? = some 0x2D ↔ n.negative = true := by
    rw [Numeral.text, Numeral.minusText]
    cases n.negative with
    | true => simp
    | false => simp [octets, notMinus]
  have unsigned : (if n.negative = true then n.text.tail else n.text) =
      n.whole.octets ++ (fractionText n.fraction ++ exponentText n.exponent) := by
    rw [Numeral.text, Numeral.minusText]
    cases n.negative with
    | true => simp
    | false => simp
  have stop := undigited_fraction n.fraction n.exponent
  have exponents := undigited_exponent n.exponent
  simp only [strtof, minus, unsigned, takeWhile_digits n.whole.decimal stop,
    dropWhile_digits n.whole.decimal stop]
  rw [Numeral.mantissa, Numeral.power, Numeral.fractionDigits, ← exponentValue_ending]
  cases fraction : n.fraction with
  | none => simp [fractionText, point_absent]
  | some digits =>
    simp [fractionText, takeWhile_digits digits.decimal exponents,
      dropWhile_digits digits.decimal exponents]

theorem numberToken_text (n : Numeral) : numberToken n.type n.text = n.token := by
  rw [Numeral.type, Numeral.token]
  by_cases integral : n.fraction = none ∧ n.exponent = none
  · obtain ⟨noFraction, noExponent⟩ := integral
    have digits : n.fractionDigits = [] := by
      rw [Numeral.fractionDigits, noFraction]
      rfl
    have text : n.text = n.minusText ++ n.whole.octets := by
      rw [Numeral.text, noFraction, noExponent]
      simp [fractionText, exponentText]
    have fallback := strtof_text n
    rw [text] at fallback ⊢
    rw [if_pos ⟨noFraction, noExponent⟩]
    have value := Numeral.mantissa.eq_def n
    rw [digits, List.append_nil] at value
    cases negative : n.negative with
    | true =>
      have minus : n.minusText = [0x2D] := by
        rw [Numeral.minusText, negative]
        rfl
      rw [negative, if_pos rfl] at value
      rw [minus, List.singleton_append] at fallback ⊢
      rw [if_pos rfl, numberToken, List.tail_cons]
      by_cases fits : digitsValue n.whole.octets ≤ 2 ^ 63
      · rw [if_pos fits, if_pos ⟨noFraction, noExponent, by omega, by omega⟩, value]
      · rw [if_neg fits, if_neg (by omega)]
        exact fallback
    | false =>
      have minus : n.minusText = [] := by
        rw [Numeral.minusText, negative]
        rfl
      rw [negative, if_neg Bool.false_ne_true] at value
      rw [minus, List.nil_append] at fallback ⊢
      rw [if_neg Bool.false_ne_true, numberToken]
      by_cases fits : digitsValue n.whole.octets < 2 ^ 64
      · rw [if_pos fits, if_pos ⟨noFraction, noExponent, by omega, by omega⟩, value]
      · rw [if_neg fits, if_neg (by omega)]
        exact fallback
  · rw [if_neg integral, if_neg (by tauto), numberToken, strtof_text]

theorem minus_goto_zero (c : UInt8) (leading : c.toNat = 0x30) :
    NumberState.minus.move c = .goto .zero := by
  simp [NumberState.move, leading]

theorem minus_goto_any (c : UInt8) (digit : isDigit c = true) (leading : c.toNat ≠ 0x30) :
    NumberState.minus.move c = .goto .any1 := by
  simp [NumberState.move, leading, digit]

/-- The token of what `scan_number` has accepted. -/
def toToken (scanned : NumberType × Bytes × Bytes) : Token × Bytes :=
  (numberToken scanned.1 scanned.2.1, scanned.2.2)

theorem scanNumber_from {state : NumberState} {c : UInt8} (rest : Bytes)
    (first : (if c.toNat = 0x2D then .minus else if c.toNat = 0x30 then .zero else .any1) = state) :
    scanNumber c rest =
      (scanNumberFrom state (state.assign .unsigned) [c] rest).map toToken := by
  simp only [scanNumber, first]
  cases scanNumberFrom state (state.assign .unsigned) [c] rest <;> rfl

/-- The first digit is read as behind a minus sign. -/
theorem scanNumber_digit {c : UInt8} (digit : isDigit c = true) (rest : Bytes) :
    scanNumber c rest = (scanNumberFrom .minus .unsigned [] (c :: rest)).map toToken := by
  have range := digit_range digit
  by_cases leading : c.toNat = 0x30
  · rw [goto_digit (minus_goto_zero c leading)]
    apply scanNumber_from
    rw [if_neg (by omega), if_pos leading]
  · rw [goto_digit (minus_goto_any c digit leading)]
    apply scanNumber_from
    rw [if_neg (by omega), if_neg leading]

theorem scanNumber_minus (rest : Bytes) :
    scanNumber 0x2D rest = (scanNumberFrom .minus .integer [0x2D] rest).map toToken :=
  scanNumber_from rest rfl

/-- A numeral that nothing continues is read to its end. -/
theorem scanNumber_text (n : Numeral) {rest : Bytes} (stops : Stops rest) :
    ∃ c tail, n.text = c :: tail ∧ (c.toNat = 0x2D ∨ isDigit c = true) ∧
      scanNumber c (tail ++ rest) = some (n.token, rest) := by
  have token := numberToken_text n
  rw [Numeral.type] at token
  have read := scanNumberFrom_whole n minus_goto_zero minus_goto_any stops
  cases negative : n.negative with
  | true =>
    have text : n.text =
        0x2D :: (n.whole.octets ++ (fractionText n.fraction ++ exponentText n.exponent)) := by
      rw [Numeral.text, Numeral.minusText, negative]
      rfl
    refine ⟨_, _, text, Or.inl rfl, ?_⟩
    rw [List.append_assoc, List.append_assoc, scanNumber_minus, read, List.singleton_append,
      ← text, Option.map_some, toToken]
    rw [negative] at token
    rw [← token]
    rfl
  | false =>
    obtain ⟨c, more, octets, digit, -⟩ := n.whole.split
    have text : n.text =
        n.whole.octets ++ (fractionText n.fraction ++ exponentText n.exponent) := by
      rw [Numeral.text, Numeral.minusText, negative]
      rfl
    have first := text
    rw [octets, List.cons_append] at first
    refine ⟨_, _, first, Or.inr digit, ?_⟩
    rw [scanNumber_digit digit, ← List.cons_append, ← List.cons_append, ← octets,
      List.append_assoc, List.append_assoc, read, List.nil_append, ← text, Option.map_some,
      toToken]
    rw [negative] at token
    rw [← token]
    rfl

/-! ## Nothing but numerals -/

theorem digits_of_scan {state next : NumberState} (loops : Loops next) {input : Bytes}
    (enter : ∀ c, input.head? = some c → isDigit c = true → state.move c = .goto next)
    (refuse : ∀ c, input.head? = some c → isDigit c = false → state.move c = .failed)
    (fails : state.otherwise = .failed) {type : NumberType} {buffer : Bytes}
    {scanned : NumberType × Bytes × Bytes}
    (h : scanNumberFrom state type buffer input = some scanned) :
    ∃ (digits : Digits) (tail : Bytes), input = digits.octets ++ tail ∧ Undigited tail ∧
      scanNumberFrom next type (buffer ++ digits.octets) tail = some scanned := by
  cases input with
  | nil => simp [scanNumberFrom, fails] at h
  | cons c rest =>
    cases digit : isDigit c with
    | false => simp [scanNumberFrom, refuse c rfl digit] at h
    | true =>
      rw [goto_digit (enter c rfl digit), assign_loops loops, scanNumberFrom_loop loops] at h
      refine ⟨⟨c :: rest.takeWhile isDigit, List.cons_ne_nil _ _, ?_⟩, rest.dropWhile isDigit,
        ?_, undigited_dropWhile rest, ?_⟩
      · intro d hd
        rcases List.mem_cons.mp hd with rfl | hd
        · exact digit
        · exact List.mem_takeWhile_imp hd
      · simp
      · simpa using h

theorem any2_stops {input : Bytes} (undigited : Undigited input) (type : NumberType)
    (buffer : Bytes) : scanNumberFrom .any2 type buffer input = some (type, buffer, input) := by
  cases input with
  | nil => rfl
  | cons c rest =>
    simp [scanNumberFrom, NumberState.move, undigited c rfl, NumberState.otherwise]

theorem exponent_of_scan {mark : UInt8} (isMark : isExponentMark mark = true) {type : NumberType}
    {buffer input : Bytes} {scanned : NumberType × Bytes × Bytes}
    (h : scanNumberFrom .exponent type (buffer ++ [mark]) input = some scanned) :
    ∃ (e : Exponent) (rest : Bytes), mark :: input = e.text ++ rest ∧
      scanned = (type, buffer ++ e.text, rest) := by
  have loops : Loops .any2 := trivial
  by_cases signed : ∃ c rest, input = c :: rest ∧ (c.toNat = 0x2B ∨ c.toNat = 0x2D)
  · obtain ⟨c, rest, rfl, plusMinus⟩ := signed
    have move : NumberState.exponent.move c = .goto .sign := by
      simp [NumberState.move, plusMinus]
    rw [goto_digit move, NumberState.assign] at h
    · obtain ⟨digits, tail, rfl, stop, h⟩ := digits_of_scan loops
        (fun c _ digit => by simp [NumberState.move, digit])
        (fun c _ other => by simp [NumberState.move, other, NumberState.otherwise]) rfl h
      rw [any2_stops stop] at h
      injection h with h
      have sign : ∃ s, signText (some s) = [c] := by
        rcases plusMinus with plus | minus
        · exact ⟨false, by rw [signText, show c = 0x2B from UInt8.toNat_inj.mp plus]⟩
        · exact ⟨true, by rw [signText, show c = 0x2D from UInt8.toNat_inj.mp minus]⟩
      obtain ⟨s, text⟩ := sign
      refine ⟨⟨mark, isMark, some s, digits⟩, tail, ?_, ?_⟩
      · simp [Exponent.text, text]
      · rw [← h]
        simp [Exponent.text, text]
    all_goals exact NumberState.noConfusion
  · have unsigned (c : UInt8) (first : input.head? = some c) :
        ¬ (c.toNat = 0x2B ∨ c.toNat = 0x2D) := by
      intro sign
      obtain ⟨rest, same⟩ := List.head?_eq_some_iff.mp first
      exact signed ⟨c, rest, same, sign⟩
    obtain ⟨digits, tail, rfl, stop, h⟩ := digits_of_scan loops
      (fun c first digit => by simp [NumberState.move, unsigned c first, digit])
      (fun c first other => by
        simp [NumberState.move, unsigned c first, other, NumberState.otherwise]) rfl h
    rw [any2_stops stop] at h
    injection h with h
    refine ⟨⟨mark, isMark, none, digits⟩, tail, ?_, ?_⟩
    · simp [Exponent.text, signText]
    · rw [← h]
      simp [Exponent.text, signText]

/-- The label is left where neither its loop nor a point goes on. -/
theorem ending_of_scan {state : NumberState} (ends : Ends state)
    (whole : state = .zero ∨ state = .any1 ∨ state = .decimal2) {type : NumberType}
    {buffer input : Bytes} {scanned : NumberType × Bytes × Bytes}
    (other : ∀ c, input.head? = some c → isExponentMark c = false → state.move c = .done)
    (h : scanNumberFrom state type buffer input = some scanned) :
    ∃ (exponent : Option Exponent) (rest : Bytes), input = exponentText exponent ++ rest ∧
      scanned = (if exponent = none then type else .float,
        buffer ++ exponentText exponent, rest) := by
  cases input with
  | nil =>
    have final : state.otherwise = .done := by
      cases state <;> simp_all [Ends, NumberState.otherwise]
    simp only [scanNumberFrom, final, Option.some.injEq] at h
    refine ⟨none, [], rfl, ?_⟩
    rw [← h]
    simp [exponentText]
  | cons c tail =>
    cases mark : isExponentMark c with
    | true =>
      rw [goto_digit (mark_goto whole mark)] at h
      obtain ⟨e, rest, split, same⟩ := exponent_of_scan mark h
      exact ⟨some e, rest, split, same⟩
    | false =>
      simp only [scanNumberFrom, other c rfl mark, Option.some.injEq] at h
      refine ⟨none, c :: tail, rfl, ?_⟩
      rw [← h]
      simp [exponentText]

theorem fraction_of_scan {state : NumberState} (ends : Ends state)
    (whole : state = .zero ∨ state = .any1) {type : NumberType} {buffer input : Bytes}
    {scanned : NumberType × Bytes × Bytes} (stop : state = .zero ∨ Undigited input)
    (h : scanNumberFrom state type buffer input = some scanned) :
    ∃ (fraction : Option Digits) (exponent : Option Exponent) (rest : Bytes),
      input = fractionText fraction ++ (exponentText exponent ++ rest) ∧
      scanned = (if fraction = none ∧ exponent = none then type else .float,
        buffer ++ (fractionText fraction ++ exponentText exponent), rest) := by
  by_cases point : ∃ tail, input = 0x2E :: tail
  · obtain ⟨tail, rfl⟩ := point
    have move : state.move 0x2E = .goto .decimal1 := by
      rcases whole with rfl | rfl <;> rfl
    have loops : Loops .decimal2 := trivial
    have final : Ends .decimal2 := trivial
    rw [goto_digit move] at h
    obtain ⟨digits, more, rfl, undigited, h⟩ := digits_of_scan loops
      (fun c _ digit => by simp [NumberState.move, digit])
      (fun c _ other => by simp [NumberState.move, other, NumberState.otherwise]) rfl h
    obtain ⟨exponent, rest, rfl, same⟩ := ending_of_scan final (by tauto) (fun c first mark => by
      simp [NumberState.move, undigited c first, mark, NumberState.otherwise]) h
    refine ⟨some digits, exponent, rest, by simp [fractionText], ?_⟩
    rw [same]
    simp [NumberState.assign, fractionText]
  · obtain ⟨exponent, rest, rfl, same⟩ := ending_of_scan ends (by tauto) (fun c first mark => by
      have noPoint : c.toNat ≠ 0x2E := by
        intro same
        obtain ⟨tail, split⟩ := List.head?_eq_some_iff.mp first
        rw [show c = 0x2E from UInt8.toNat_inj.mp same] at split
        exact point ⟨tail, split⟩
      rcases whole with rfl | rfl
      · simp [NumberState.move, noPoint, mark, NumberState.otherwise]
      · rcases stop with wrong | undigited
        · cases wrong
        · simp [NumberState.move, undigited c first, noPoint, mark, NumberState.otherwise]) h
    refine ⟨none, exponent, rest, rfl, ?_⟩
    rw [same]
    simp [fractionText]

theorem whole_of_scan {type : NumberType} {buffer input : Bytes}
    {scanned : NumberType × Bytes × Bytes}
    (h : scanNumberFrom .minus type buffer input = some scanned) :
    ∃ (whole : Digits) (fraction : Option Digits) (exponent : Option Exponent) (rest : Bytes),
      (whole.octets.head? = some 0x30 → whole.octets = [0x30]) ∧
      input = whole.octets ++ (fractionText fraction ++ (exponentText exponent ++ rest)) ∧
      scanned = (if fraction = none ∧ exponent = none then type else .float,
        buffer ++ (whole.octets ++ (fractionText fraction ++ exponentText exponent)), rest) := by
  cases input with
  | nil => simp [scanNumberFrom, NumberState.otherwise] at h
  | cons c tail =>
    cases digit : isDigit c with
    | false =>
      have notZero : c.toNat ≠ 0x30 := by
        intro same
        rw [show c = 0x30 from UInt8.toNat_inj.mp same] at digit
        revert digit
        decide
      simp [scanNumberFrom, NumberState.move, digit, notZero, NumberState.otherwise] at h
    | true =>
      by_cases leading : c.toNat = 0x30
      · have c_eq : c = 0x30 := UInt8.toNat_inj.mp leading
        have final : Ends .zero := trivial
        have keep : NumberState.zero.assign type = type := rfl
        rw [goto_digit (minus_goto_zero c leading), keep] at h
        obtain ⟨fraction, exponent, rest, rfl, same⟩ :=
          fraction_of_scan final (Or.inl rfl) (Or.inl rfl) h
        refine ⟨⟨[c], List.cons_ne_nil _ _, by simp [digit]⟩, fraction, exponent, rest, ?_, rfl, ?_⟩
        · intro _
          exact congrArg (fun d => [d]) c_eq
        · rw [same]
          simp
      · have loops : Loops .any1 := trivial
        have final : Ends .any1 := trivial
        rw [goto_digit (minus_goto_any c digit leading), assign_loops loops,
          scanNumberFrom_loop loops] at h
        obtain ⟨fraction, exponent, rest, split, same⟩ :=
          fraction_of_scan final (Or.inr rfl) (Or.inr (undigited_dropWhile tail)) h
        have decimal : ∀ d ∈ c :: tail.takeWhile isDigit, isDigit d = true := by
          intro d hd
          rcases List.mem_cons.mp hd with rfl | hd
          · exact digit
          · exact List.mem_takeWhile_imp hd
        refine ⟨⟨_, List.cons_ne_nil _ _, decimal⟩, fraction, exponent, rest, ?_, ?_, ?_⟩
        · intro first
          injection first with zero
          rw [zero] at leading
          exact absurd rfl leading
        · rw [← split]
          simp
        · rw [same]
          simp

/-- What `scan_number` accepts is a numeral, and its token is the numeral's. -/
theorem numeral_of_scanNumber {c : UInt8} {input rest : Bytes} {token : Token}
    (start : c.toNat = 0x2D ∨ isDigit c = true)
    (h : scanNumber c input = some (token, rest)) :
    ∃ n : Numeral, token = n.token ∧ c :: input = n.text ++ rest := by
  by_cases minus : c.toNat = 0x2D
  · rw [show c = 0x2D from UInt8.toNat_inj.mp minus] at h ⊢
    rw [scanNumber_minus, Option.map_eq_some_iff] at h
    obtain ⟨scanned, read, same⟩ := h
    obtain ⟨whole, fraction, exponent, tail, noLeadingZero, rfl, rfl⟩ := whole_of_scan read
    injection same with token_eq rest_eq
    subst rest_eq
    refine ⟨⟨true, whole, noLeadingZero, fraction, exponent⟩, ?_, ?_⟩
    · rw [← token_eq, ← numberToken_text]
      rfl
    · simp [Numeral.text, Numeral.minusText]
  · have digit := start.resolve_left minus
    rw [scanNumber_digit digit, Option.map_eq_some_iff] at h
    obtain ⟨scanned, read, same⟩ := h
    obtain ⟨whole, fraction, exponent, tail, noLeadingZero, split, rfl⟩ := whole_of_scan read
    injection same with token_eq rest_eq
    subst rest_eq
    refine ⟨⟨false, whole, noLeadingZero, fraction, exponent⟩, ?_, ?_⟩
    · rw [← token_eq, ← numberToken_text]
      rfl
    · rw [split]
      simp [Numeral.text, Numeral.minusText]

end LinuxChat.Guarantees.JsonText
