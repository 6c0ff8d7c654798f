import LinuxChat.Source.JsonLexer
import LinuxChat.Source.Protocol

/-!
# The JSON parser

`parser::parse` with `json_sax_dom_parser`, server/third_party/nlohmann/json.hpp:9183-9400
and :13290-13700, as `nlohmann::json::parse` in server/src/protocol.cpp:162 uses them: no
callback, strict, exceptions allowed, no trailing commas. The parser's stack of states
and the builder's stack of open containers are one stack of frames; a container joins
the one around it when it is closed. Only the class of an exception is kept.
-/

namespace LinuxChat.Source

open LinuxChat.Lib

/-- `operator[]` of the `std::map` and the assignment to it: fields in the order of
their keys, the last value for each. -/
def setField (key : String) (value : Json) : List (String × Json) → List (String × Json)
  | [] => [(key, value)]
  | field :: rest =>
    if key = field.1 then (key, value) :: rest
    else if key < field.1 then (key, value) :: field :: rest
    else field :: setField key value rest

/-- The text that a `std::string` in UTF-8 holds. -/
def textOfBytes (bytes : Bytes) : String := String.ofList (Utf8.decode bytes)

/-- `std::isfinite` of the double nearest to a decimal number: the numbers that round
to infinity start half a unit above the greatest double. -/
def isFinite (mantissa exponent : Int) : Bool :=
  mantissa.natAbs * 10 ^ exponent.toNat < (2 ^ 1024 - 2 ^ 970) * 10 ^ (-exponent).toNat

/-- An open container: an array's items, or an object's fields with the key read last. -/
inductive Frame where
  | array (items : List Json)
  | object (fields : List (String × Json)) (key : String)

/-- Where `sax_parse_internal` asks for the next token. -/
inductive ParserState where
  | value (stack : List Frame)
  | arrayStart (stack : List Frame)
  | objectStart (stack : List Frame)
  | objectKey (fields : List (String × Json)) (stack : List Frame)
  | separator (fields : List (String × Json)) (key : String) (stack : List Frame)
  | evaluation (frame : Frame) (stack : List Frame)
  | finished (json : Json)

/-- How the parser goes on with a token: in another state, or to the end. -/
inductive Advance where
  | next (state : ParserState)
  | stop (parsed : Parsed)

/-- `handle_value`, and the choice the state evaluation begins with. -/
def handleValue (json : Json) : List Frame → ParserState
  | [] => .finished json
  | .array items :: stack => .evaluation (.array (items ++ [json])) stack
  | .object fields key :: stack => .evaluation (.object (setField key json fields) key) stack

/-- The switch on the token that a value starts with. -/
def startValue (stack : List Frame) : Token → Advance
  | .beginObject => .next (.objectStart stack)
  | .beginArray => .next (.arrayStart stack)
  | .valueFloat mantissa exponent =>
    if isFinite mantissa exponent then .next (handleValue (.float mantissa exponent) stack)
    else .stop .outOfRange
  | .literalFalse => .next (handleValue (.boolean false) stack)
  | .literalNull => .next (handleValue .null stack)
  | .literalTrue => .next (handleValue (.boolean true) stack)
  | .valueInteger value => .next (handleValue (.number value) stack)
  | .valueString buffer => .next (handleValue (.string (textOfBytes buffer)) stack)
  | _ => .stop .parseError

/-- One round of `sax_parse_internal`: what the token is, where the parser stands. -/
def ParserState.advance : ParserState → Token → Advance
  | value stack, token => startValue stack token
  | arrayStart stack, .endArray => .next (handleValue (.array []) stack)
  | arrayStart stack, token => startValue (.array [] :: stack) token
  | objectStart stack, .endObject => .next (handleValue (.object []) stack)
  | objectStart stack, .valueString buffer => .next (separator [] (textOfBytes buffer) stack)
  | objectKey fields stack, .valueString buffer => .next (separator fields (textOfBytes buffer) stack)
  | separator fields key stack, .nameSeparator => .next (value (.object fields key :: stack))
  | evaluation (.array items) stack, .valueSeparator => .next (value (.array items :: stack))
  | evaluation (.array items) stack, .endArray => .next (handleValue (.array items) stack)
  | evaluation (.object fields _) stack, .valueSeparator => .next (objectKey fields stack)
  | evaluation (.object fields _) stack, .endObject => .next (handleValue (.object fields) stack)
  -- strict mode: the token behind the value
  | finished json, .endOfInput => .stop (.value json)
  | _, _ => .stop .parseError

/-- `parse` on the tokens; it stops before there are none left. -/
def ParserState.parse : ParserState → List Token → Parsed
  | _, [] => .parseError
  | state, token :: rest =>
    match state.advance token with
    | .next state => state.parse rest
    | .stop parsed => parsed

/-- `nlohmann::json::parse`. -/
def jsonParse (input : Bytes) : Parsed :=
  match skipBom input with
  | some input => (ParserState.value []).parse (tokens (input.length + 1) input)
  | none => .parseError

end LinuxChat.Source
