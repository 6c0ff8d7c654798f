import LinuxChat.Guarantees.JsonParsing.Tokens

/-!
# The parser

On the tokens of a value the parser returns that value, whatever it is in the middle of; and it
returns a value for nothing else.
-/

namespace LinuxChat.Guarantees.JsonText

open LinuxChat.Lib
open LinuxChat.Source

/-! ## The parser on the tokens of a value -/

@[simp] theorem textOfBytes_textBytes (text : String) : textOfBytes (textBytes text) = text := by
  simp [textOfBytes, textBytes]

theorem textBytes_textOfBytes (chars : List Char) :
    textBytes (textOfBytes (Utf8.encode chars)) = Utf8.encode chars := by
  simp [textOfBytes, textBytes]

theorem handleValue_item (json : Json) (items : List Json) (stack : List Frame) :
    handleValue json (.array items :: stack) = .evaluation (.array (items ++ [json])) stack := rfl

theorem handleValue_field (json : Json) (fields : List (String × Json)) (key : String)
    (stack : List Frame) :
    handleValue json (.object fields key :: stack) =
      .evaluation (.object (setField key json fields) key) stack := rfl

theorem parse_cons {state next : ParserState} {token : Token} (h : state.advance token = .next next)
    (rest : List Token) : state.parse (token :: rest) = next.parse rest := by
  simp [ParserState.parse, h]

/-- An item may come where the closing bracket may. -/
theorem parse_arrayStart {token : Token} (item : token ≠ .endArray) (stack : List Frame)
    (rest : List Token) :
    (ParserState.arrayStart stack).parse (token :: rest) =
      (ParserState.value (.array [] :: stack)).parse (token :: rest) := by
  have same : (ParserState.arrayStart stack).advance token =
      (ParserState.value (.array [] :: stack)).advance token := by
    cases token <;> first | exact absurd rfl item | simp only [ParserState.advance]
  rw [ParserState.parse, ParserState.parse, same]

theorem first_token (json : Json) : ∃ token rest, tokensOf json = token :: rest ∧
    token ≠ .endArray := by
  cases json with
  | boolean value =>
    cases value with
    | true => exact ⟨_, _, rfl, Token.noConfusion⟩
    | false => exact ⟨_, _, rfl, Token.noConfusion⟩
  | _ => exact ⟨_, _, rfl, Token.noConfusion⟩

theorem if_and {α : Type} (a b : Bool) (x y : α) :
    (if a = true then if b = true then x else y else y) = if (a && b) = true then x else y := by
  cases a <;> simp

mutual

theorem parse_tokensOf (json : Json) (stack : List Frame) (rest : List Token) :
    (ParserState.value stack).parse (tokensOf json ++ rest) =
      if finite json then (handleValue (mapped json) stack).parse rest else .outOfRange := by
  match json with
  | .null => rfl
  | .boolean true => rfl
  | .boolean false => rfl
  | .number _ => rfl
  | .float mantissa exponent =>
    rw [tokensOf, List.singleton_append, finite]
    by_cases fits : isFinite mantissa exponent = true
    · have next : (ParserState.value stack).advance (.valueFloat mantissa exponent) =
          .next (handleValue (mapped (.float mantissa exponent)) stack) := by
        rw [ParserState.advance, startValue, if_pos fits]
        rfl
      rw [parse_cons next, if_pos fits]
    · have stop : (ParserState.value stack).advance (.valueFloat mantissa exponent) =
          .stop .outOfRange := by
        rw [ParserState.advance, startValue, if_neg fits]
      rw [ParserState.parse, stop, if_neg fits]
  | .string text =>
    have next : (ParserState.value stack).advance (.valueString (textBytes text)) =
        .next (handleValue (.string text) stack) := by
      simp [ParserState.advance, startValue]
    rw [tokensOf, List.singleton_append, parse_cons next]
    rfl
  | .array items =>
    have next : (ParserState.value stack).advance .beginArray = .next (.arrayStart stack) := rfl
    rw [tokensOf, List.cons_append, parse_cons next, parse_itemTokens, finite, mapped]
  | .object fields =>
    have next : (ParserState.value stack).advance .beginObject = .next (.objectStart stack) := rfl
    rw [tokensOf, List.cons_append, parse_cons next, parse_fieldTokens, finite, mapped]

theorem parse_itemTokens (items : List Json) (stack : List Frame) (rest : List Token) :
    (ParserState.arrayStart stack).parse (itemTokens items ++ rest) =
      if finiteItems items then (handleValue (.array (mappedItems items)) stack).parse rest
      else .outOfRange := by
  match items with
  | [] => rfl
  | item :: others =>
    obtain ⟨token, tail, first, opens⟩ := first_token item
    rw [itemTokens, List.append_assoc, first, List.cons_append, parse_arrayStart opens,
      ← List.cons_append, ← first, parse_tokensOf]
    rw [handleValue_item, parse_moreItems others, if_and]
    rfl

theorem parse_moreItems (items found : List Json) (stack : List Frame) (rest : List Token) :
    (ParserState.evaluation (.array found) stack).parse (moreItems items ++ rest) =
      if finiteItems items then
        (handleValue (.array (found ++ mappedItems items)) stack).parse rest
      else .outOfRange := by
  match items with
  | [] =>
    rw [mappedItems, List.append_nil]
    rfl
  | item :: others =>
    have next : (ParserState.evaluation (.array found) stack).advance .valueSeparator =
        .next (.value (.array found :: stack)) := rfl
    rw [moreItems, List.cons_append, parse_cons next, List.append_assoc, parse_tokensOf]
    rw [handleValue_item, parse_moreItems others, if_and, List.append_assoc]
    rfl

theorem parse_fieldTokens (fields : List (String × Json)) (stack : List Frame)
    (rest : List Token) :
    (ParserState.objectStart stack).parse (fieldTokens fields ++ rest) =
      if finiteFields fields then (handleValue (.object (mappedFields [] fields)) stack).parse rest
      else .outOfRange := by
  match fields with
  | [] => rfl
  | (key, value) :: others =>
    have name : (ParserState.objectStart stack).advance (.valueString (textBytes key)) =
        .next (.separator [] key stack) := by
      simp [ParserState.advance]
    have next : (ParserState.separator [] key stack).advance .nameSeparator =
        .next (.value (.object [] key :: stack)) := rfl
    rw [fieldTokens, List.cons_append, parse_cons name, List.cons_append, parse_cons next,
      List.append_assoc, parse_tokensOf]
    rw [handleValue_field, parse_moreFields others, if_and]
    rfl

theorem parse_moreFields (fields found : List (String × Json)) (last : String)
    (stack : List Frame) (rest : List Token) :
    (ParserState.evaluation (.object found last) stack).parse (moreFields fields ++ rest) =
      if finiteFields fields then
        (handleValue (.object (mappedFields found fields)) stack).parse rest
      else .outOfRange := by
  match fields with
  | [] => rfl
  | (key, value) :: others =>
    have next : (ParserState.evaluation (.object found last) stack).advance .valueSeparator =
        .next (.objectKey found stack) := rfl
    have name : (ParserState.objectKey found stack).advance (.valueString (textBytes key)) =
        .next (.separator found key stack) := by
      simp [ParserState.advance]
    have colon : (ParserState.separator found key stack).advance .nameSeparator =
        .next (.value (.object found key :: stack)) := rfl
    rw [moreFields, List.cons_append, parse_cons next, List.cons_append, parse_cons name,
      List.cons_append, parse_cons colon, List.append_assoc, parse_tokensOf]
    rw [handleValue_field, parse_moreFields others, if_and]
    rfl

end

/-! ## Nothing but the tokens of a value -/

/-- Every string comes out of UTF-8. -/
def Textual (toks : List Token) : Prop :=
  ∀ buffer, .valueString buffer ∈ toks → textBytes (textOfBytes buffer) = buffer

theorem Textual.tail {token : Token} {toks : List Token} (h : Textual (token :: toks)) :
    Textual toks := fun buffer mem => h buffer (List.mem_cons_of_mem token mem)

theorem Textual.right {first rest : List Token} (h : Textual (first ++ rest)) : Textual rest :=
  fun buffer mem => h buffer (List.mem_append_right first mem)

/-- What an accepted list of tokens starts with, at each place of the parser. -/
def Begins (parsed : Json) (toks : List Token) : ParserState → Prop
  | .value stack =>
    ∃ json rest, toks = tokensOf json ++ rest ∧ finite json = true ∧
      (handleValue (mapped json) stack).parse rest = .value parsed
  | .arrayStart stack =>
    ∃ items rest, toks = itemTokens items ++ rest ∧ finiteItems items = true ∧
      (handleValue (.array (mappedItems items)) stack).parse rest = .value parsed
  | .evaluation (.array found) stack =>
    ∃ items rest, toks = moreItems items ++ rest ∧ finiteItems items = true ∧
      (handleValue (.array (found ++ mappedItems items)) stack).parse rest = .value parsed
  | .objectStart stack =>
    ∃ fields rest, toks = fieldTokens fields ++ rest ∧ finiteFields fields = true ∧
      (handleValue (.object (mappedFields [] fields)) stack).parse rest = .value parsed
  | .evaluation (.object found _) stack =>
    ∃ fields rest, toks = moreFields fields ++ rest ∧ finiteFields fields = true ∧
      (handleValue (.object (mappedFields found fields)) stack).parse rest = .value parsed
  | .objectKey found stack =>
    ∃ key value fields rest,
      toks = .valueString (textBytes key) :: .nameSeparator ::
        (tokensOf value ++ (moreFields fields ++ rest)) ∧
      (finite value && finiteFields fields) = true ∧
      (handleValue (.object (mappedFields (setField key (mapped value) found) fields)) stack).parse
        rest = .value parsed
  | .separator found key stack =>
    ∃ value fields rest,
      toks = .nameSeparator :: (tokensOf value ++ (moreFields fields ++ rest)) ∧
      (finite value && finiteFields fields) = true ∧
      (handleValue (.object (mappedFields (setField key (mapped value) found) fields)) stack).parse
        rest = .value parsed
  | .finished json => ∃ rest, toks = .endOfInput :: rest ∧ json = parsed

theorem tokensOf_length (json : Json) : 0 < (tokensOf json).length := by
  obtain ⟨token, rest, first, -⟩ := first_token json
  simp [first]

theorem shorter_right {first rest : List Token} {n : Nat} (h : (first ++ rest).length < n) :
    rest.length < n := by
  rw [List.length_append] at h
  omega

theorem begins_value {parsed : Json} {n : Nat}
    (ih : ∀ toks : List Token, toks.length < n → Textual toks → ∀ state : ParserState,
      state.parse toks = .value parsed → Begins parsed toks state)
    {toks : List Token} (size : toks.length ≤ n) (textual : Textual toks) (stack : List Frame)
    (h : (ParserState.value stack).parse toks = .value parsed) :
    Begins parsed toks (.value stack) := by
  cases toks with
  | nil => cases h
  | cons token toks =>
    have shorter : toks.length < n := size
    cases token with
    | literalTrue => exact ⟨.boolean true, toks, rfl, rfl, h⟩
    | literalFalse => exact ⟨.boolean false, toks, rfl, rfl, h⟩
    | literalNull => exact ⟨.null, toks, rfl, rfl, h⟩
    | valueInteger value => exact ⟨.number value, toks, rfl, rfl, h⟩
    | valueString buffer =>
      refine ⟨.string (textOfBytes buffer), toks, ?_, rfl, h⟩
      rw [tokensOf, textual buffer List.mem_cons_self, List.singleton_append]
    | valueFloat mantissa exponent =>
      rw [ParserState.parse, ParserState.advance, startValue] at h
      by_cases fits : isFinite mantissa exponent = true
      · rw [if_pos fits] at h
        exact ⟨.float mantissa exponent, toks, rfl, by rw [finite, fits], h⟩
      · rw [if_neg fits] at h
        cases h
    | beginArray =>
      obtain ⟨items, rest, rfl, fits, later⟩ := ih toks shorter textual.tail (.arrayStart stack) h
      exact ⟨.array items, rest, rfl, fits, later⟩
    | beginObject =>
      obtain ⟨fields, rest, rfl, fits, later⟩ :=
        ih toks shorter textual.tail (.objectStart stack) h
      exact ⟨.object fields, rest, rfl, fits, later⟩
    | _ => cases h

theorem begins (parsed : Json) (n : Nat) :
    ∀ toks : List Token, toks.length < n → Textual toks → ∀ state : ParserState,
      state.parse toks = .value parsed → Begins parsed toks state := by
  induction n with
  | zero => intro toks size; omega
  | succ n ih =>
    intro toks size textual state h
    have whole := Nat.le_of_lt_succ size
    cases state with
    | value stack => exact begins_value ih whole textual stack h
    | arrayStart stack =>
      cases toks with
      | nil => cases h
      | cons token toks =>
        by_cases closed : token = .endArray
        · rw [closed] at h ⊢
          exact ⟨[], toks, rfl, rfl, h⟩
        · rw [parse_arrayStart closed] at h
          obtain ⟨item, rest, split, fits, later⟩ := begins_value ih whole textual _ h
          rw [split] at whole textual
          have less : rest.length < n := by
            have := tokensOf_length item
            rw [List.length_append] at whole
            omega
          obtain ⟨items, rest, rfl, others, later⟩ := ih rest less textual.right _ later
          exact ⟨item :: items, rest, by rw [split, itemTokens, List.append_assoc],
            by rw [finiteItems, fits, others]; rfl, later⟩
    | evaluation frame stack =>
      cases toks with
      | nil => cases h
      | cons token toks =>
        have shorter : toks.length < n := whole
        cases frame with
        | array found =>
          cases token with
          | endArray => exact ⟨[], toks, rfl, rfl, by rw [mappedItems, List.append_nil]; exact h⟩
          | valueSeparator =>
            obtain ⟨item, rest, rfl, fits, later⟩ :=
              ih toks shorter textual.tail (.value (.array found :: stack)) h
            obtain ⟨items, rest, rfl, others, later⟩ :=
              ih rest (shorter_right shorter) textual.tail.right _ later
            refine ⟨item :: items, rest, ?_, by rw [finiteItems, fits, others]; rfl, ?_⟩
            · rw [moreItems, List.cons_append, List.append_assoc]
            · rw [List.append_assoc] at later
              exact later
          | _ => cases h
        | object found last =>
          cases token with
          | endObject => exact ⟨[], toks, rfl, rfl, h⟩
          | valueSeparator =>
            obtain ⟨key, value, fields, rest, rfl, fits, later⟩ :=
              ih toks shorter textual.tail (.objectKey found stack) h
            refine ⟨(key, value) :: fields, rest, ?_, fits, later⟩
            rw [moreFields, List.cons_append, List.cons_append, List.cons_append,
              List.append_assoc]
          | _ => cases h
    | objectStart stack =>
      cases toks with
      | nil => cases h
      | cons token toks =>
        have shorter : toks.length < n := whole
        cases token with
        | endObject => exact ⟨[], toks, rfl, rfl, h⟩
        | valueString buffer =>
          obtain ⟨value, fields, rest, rfl, fits, later⟩ :=
            ih toks shorter textual.tail (.separator [] (textOfBytes buffer) stack) h
          refine ⟨(textOfBytes buffer, value) :: fields, rest, ?_, fits, later⟩
          rw [fieldTokens, textual buffer List.mem_cons_self, List.cons_append, List.cons_append,
            List.append_assoc]
        | _ => cases h
    | objectKey found stack =>
      cases toks with
      | nil => cases h
      | cons token toks =>
        have shorter : toks.length < n := whole
        cases token with
        | valueString buffer =>
          obtain ⟨value, fields, rest, rfl, fits, later⟩ :=
            ih toks shorter textual.tail (.separator found (textOfBytes buffer) stack) h
          refine ⟨textOfBytes buffer, value, fields, rest, ?_, fits, later⟩
          rw [textual buffer List.mem_cons_self]
        | _ => cases h
    | separator found key stack =>
      cases toks with
      | nil => cases h
      | cons token toks =>
        have shorter : toks.length < n := whole
        cases token with
        | nameSeparator =>
          obtain ⟨value, rest, rfl, fits, later⟩ :=
            ih toks shorter textual.tail (.value (.object found key :: stack)) h
          obtain ⟨fields, rest, rfl, others, later⟩ :=
            ih rest (shorter_right shorter) textual.tail.right _ later
          exact ⟨value, fields, rest, rfl, by rw [fits, others]; rfl, later⟩
        | _ => cases h
    | finished json =>
      cases toks with
      | nil => cases h
      | cons token toks =>
        cases token with
        | endOfInput =>
          injection h with same
          exact ⟨toks, rfl, same⟩
        | _ => cases h

end LinuxChat.Guarantees.JsonText
