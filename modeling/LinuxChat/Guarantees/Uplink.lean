import LinuxChat.Guarantees.FrameDecoder
import LinuxChat.Guarantees.FrameSizes
import LinuxChat.Guarantees.JsonParsing
import Mathlib.Data.String.Basic

/-!
# From the client's requests to the server's messages

Both JSON libraries between the two ends of a connection: Qt writes a JSON text of the
members that a request has, the server's parser returns these members, and `recv_msgs`
hands over one message for each request, whatever the socket makes of the stream.
-/

namespace LinuxChat.Guarantees.JsonText

open LinuxChat.Lib
open LinuxChat.Source

/-! ## The value of a request -/

/-- The members as JSON. -/
def fieldsOf (msg : TextObject) : List (String × Json) :=
  msg.map fun member => (member.1, .string member.2)

/-- A request's members as the object that the server is to find. -/
def textJson (msg : TextObject) : Json := .object (fieldsOf msg)

/-- The members in the order of their names, as Qt keeps them. -/
abbrev Sorted (msg : TextObject) : Prop := msg.Pairwise fun member next => member.1 < next.1

theorem mem_set {key value : String} {msg : TextObject} {member : String × String}
    (h : member ∈ msg.set key value) : member = (key, value) ∨ member ∈ msg := by
  induction msg with
  | nil => exact Or.inl (List.mem_singleton.mp h)
  | cons first rest ih =>
    rw [TextObject.set] at h
    split at h
    next =>
      exact (List.mem_cons.mp h).imp_right (List.mem_cons_of_mem first)
    next =>
      split at h
      next => exact List.mem_cons.mp h
      next =>
        rcases List.mem_cons.mp h with rfl | later
        · exact Or.inr List.mem_cons_self
        · exact (ih later).imp_right (List.mem_cons_of_mem first)

theorem sorted_set (key value : String) {msg : TextObject} (sorted : Sorted msg) :
    Sorted (msg.set key value) := by
  induction msg with
  | nil => exact List.pairwise_singleton _ _
  | cons first rest ih =>
    obtain ⟨before, others⟩ := List.pairwise_cons.mp sorted
    rw [TextObject.set]
    by_cases same : key = first.1
    · rw [if_pos same]
      exact List.pairwise_cons.mpr ⟨fun member h => lt_of_eq_of_lt same (before member h), others⟩
    rw [if_neg same]
    by_cases less : key < first.1
    · rw [if_pos less]
      refine List.pairwise_cons.mpr ⟨fun member h => ?_, sorted⟩
      rcases List.mem_cons.mp h with rfl | later
      · exact less
      · exact lt_trans less (before member later)
    · rw [if_neg less]
      refine List.pairwise_cons.mpr ⟨fun member h => ?_, ih others⟩
      rcases mem_set h with rfl | later
      · exact lt_of_le_of_ne (le_of_not_gt less) fun equal => same equal.symm
      · exact before member later

theorem request_sorted (request : Request) : Sorted request.msg := by
  cases request <;> repeat apply sorted_set
  all_goals exact List.Pairwise.nil

theorem setField_last (key : String) (value : Json) (found : List (String × Json))
    (below : ∀ field ∈ found, field.1 < key) :
    setField key value found = found ++ [(key, value)] := by
  induction found with
  | nil => rfl
  | cons field rest ih =>
    have first := below field List.mem_cons_self
    rw [setField, if_neg (ne_of_gt first), if_neg (not_lt_of_gt first),
      ih fun other h => below other (List.mem_cons_of_mem field h)]
    rfl

theorem mappedFields_sorted {msg : TextObject} (sorted : Sorted msg)
    (found : List (String × Json))
    (below : ∀ member ∈ msg, ∀ field ∈ found, field.1 < member.1) :
    mappedFields found (fieldsOf msg) = found ++ fieldsOf msg := by
  induction msg generalizing found with
  | nil => exact (List.append_nil found).symm
  | cons first rest ih =>
    obtain ⟨before, others⟩ := List.pairwise_cons.mp sorted
    have last := setField_last first.1 (.string first.2) found (below first List.mem_cons_self)
    change mappedFields (setField first.1 (.string first.2) found) (fieldsOf rest) = _
    rw [last, ih others]
    · rw [List.append_assoc]
      rfl
    · intro member h field mem
      rcases List.mem_append.mp mem with old | new
      · exact below member (List.mem_cons_of_mem first h) field old
      · rw [List.mem_singleton.mp new]
        exact before member h

theorem finite_fieldsOf (msg : TextObject) : finiteFields (fieldsOf msg) = true := by
  induction msg with
  | nil => rfl
  | cons first rest ih => exact ih

/-- The server's parser returns what the text of a request stands for. -/
theorem jsonParse_request {msg : TextObject} (sorted : Sorted msg) {bytes : Bytes}
    (text : Text (textJson msg) bytes) : jsonParse bytes = .value (textJson msg) := by
  have value : mapped (textJson msg) = textJson msg := by
    rw [textJson, mapped, mappedFields_sorted sorted [] fun _ _ _ h => nomatch h]
    rfl
  have small : finite (textJson msg) = true := finite_fieldsOf msg
  rw [parse_text text, if_pos small, value]

theorem lookup_fieldsOf (msg : TextObject) (key : String) :
    (fieldsOf msg).lookup key = (msg.lookup key).map Json.string := by
  induction msg with
  | nil => rfl
  | cons first rest ih =>
    have fields : fieldsOf (first :: rest) = (first.1, .string first.2) :: fieldsOf rest := rfl
    rw [fields, List.lookup_cons, List.lookup_cons, ih]
    cases key == first.1 <;> rfl

/-- A field that the server reads is the member of that name, or the default. -/
theorem value_textJson (msg : TextObject) (key default : String) :
    (textJson msg).value key default = .ok ((msg.lookup key).getD default) := by
  rw [textJson, Json.value, lookup_fieldsOf]
  cases msg.lookup key <;> rfl

/-! ## The stream -/

theorem text_nonempty {json : Json} {bytes : Bytes} (text : Text json bytes) :
    1 ≤ bytes.length := by
  obtain ⟨mark, body, blank, tail, rfl, _, spells, _⟩ := text
  obtain ⟨token, rest, first, _⟩ := first_token json
  rw [first] at spells
  cases spells with
  | cons _ lexeme _ =>
    have size := (lexeme_token lexeme).2.2
    simp only [List.length_append]
    omega

section
variable {toJson : TextObject → Bytes}

/-- One request is one frame to the server, and an item of its decoder. -/
theorem scan_request {request : Request}
    (writes : Text (textJson request.msg) (toJson request.msg)) (failures : UInt32)
    (fits : (toJson request.msg).length ≤ maxBodyLen) (later : Bytes) :
    (frameDecoder jsonParse).scan failures (frame (toJson request.msg) ++ later) =
      .item [textJson request.msg] 0 (4 + (toJson request.msg).length) := by
  have whole : split maxBodyLen (frame (toJson request.msg) ++ later) =
      .body (toJson request.msg) := split_frame (by decide) (text_nonempty writes) fits later
  have parsed := jsonParse_request (request_sorted request) writes
  simp [frameDecoder, scanFrame, whole, parsed]

theorem run_requests
    (writes : ∀ request : Request, Text (textJson request.msg) (toJson request.msg))
    (requests : List Request) (failures : UInt32)
    (fits : ∀ request ∈ requests, (toJson request.msg).length ≤ maxBodyLen) :
    ∃ after, (frameDecoder jsonParse).run failures
        (requests.flatMap fun request => sendJson toJson request.msg) =
      .idle (requests.map fun request => textJson request.msg) after [] := by
  induction requests generalizing failures with
  | nil =>
    have wait : (frameDecoder jsonParse).scan failures [] = .wait := rfl
    exact ⟨failures, Decoder.run_wait wait⟩
  | cons request rest ih =>
    have limit : maxBodyLen = 16777216 := rfl
    have bounded := fits request List.mem_cons_self
    have framed : sendJson toJson request.msg = frame (toJson request.msg) :=
      FrameSizes.sendJson_eq_frame (by omega)
    obtain ⟨after, tail⟩ := ih 0 fun other h => fits other (List.mem_cons_of_mem request h)
    have used (later : Bytes) :
        (frame (toJson request.msg) ++ later).drop (4 + (toJson request.msg).length) = later :=
      List.drop_left' (frame_length _)
    refine ⟨after, ?_⟩
    rw [List.flatMap_cons, framed,
      Decoder.run_item (scan_request (writes request) failures bounded _), used, tail]
    rfl

end

/-- Qt's writer gives a JSON text of the object. Whatever the segmentation of the octets that
the client wrote, the calls of `recv_msgs` then hand over one message for each request, in
order; in each the server finds the members that the client put in. -/
theorem requests_arrive (toJson : TextObject → Bytes)
    (writes : ∀ request : Request, Text (textJson request.msg) (toJson request.msg))
    (requests : List Request)
    (fits : ∀ request ∈ requests, (toJson request.msg).length ≤ maxBodyLen)
    (session : ClientSession) (unread : session.recvBuf = []) (batches : List (List Chunk))
    (cut : (batches.map batchBytes).flatten =
      requests.flatMap fun request => sendJson toJson request.msg)
    (below : BelowCap jsonParse session batches) :
    ∃ lists : List (List Json),
      (recvAll jsonParse session (batches.map script)).1 =
        lists.map (fun list => .ok (some list)) ∧
      List.Forall₂ (fun request msg => ∀ key default : String,
        msg.value key default = .ok ((request.msg.lookup key).getD default))
        requests lists.flatten ∧
      (recvAll jsonParse session (batches.map script)).2.recvBuf = [] := by
  have waiting : (frameDecoder jsonParse).scan session.consecutiveParseFailures session.recvBuf =
      .wait := by
    rw [unread]
    rfl
  obtain ⟨after, run⟩ := run_requests writes requests session.consecutiveParseFailures fits
  have decoded : (frameDecoder jsonParse).run session.consecutiveParseFailures
      (session.recvBuf ++ (batches.map batchBytes).flatten) =
        .idle (requests.map fun request => textJson request.msg) after [] := by
    rw [unread, List.nil_append, cut, run]
  obtain ⟨lists, calls, joined, final⟩ := recvAll_batches batches session waiting below decoded
  refine ⟨lists, calls, ?_, ?_⟩
  · rw [joined, List.forall₂_map_right_iff]
    exact List.forall₂_same.mpr fun request _ => value_textJson request.msg
  · rw [final]

/-! ## A compact writer -/

open CompactJson

theorem spells_lexeme {token : Token} {octets tail : Bytes} {rest : List Token}
    (lexeme : Lexeme token octets) (more : Spells rest tail) :
    Spells (token :: rest) (octets ++ tail) := by
  have space : ∀ c ∈ ([] : Bytes), isWhitespace c = true := by simp
  exact Spells.cons space lexeme more

theorem spells_members (member : String × String) (rest : TextObject) :
    Spells (.valueString (textBytes member.1) :: .nameSeparator ::
        (.valueString (textBytes member.2) :: moreFields (fieldsOf rest)))
      (compactMembers (member :: rest) ++ [0x7D]) := by
  have value := lexeme_string member.2
  have name := lexeme_string member.1
  induction rest generalizing member with
  | nil =>
    have closed := spells_lexeme value (spells_lexeme Lexeme.endObject Spells.nil)
    have whole := spells_lexeme name (spells_lexeme Lexeme.nameSeparator closed)
    simpa [compactMembers, compactMember, asciiBytes, fieldsOf, moreFields] using whole
  | cons next rest ih =>
    have later := ih next (lexeme_string next.2) (lexeme_string next.1)
    have closed := spells_lexeme value (spells_lexeme Lexeme.valueSeparator later)
    have whole := spells_lexeme name (spells_lexeme Lexeme.nameSeparator closed)
    simpa [compactMembers, compactMember, asciiBytes, fieldsOf, moreFields, tokensOf] using whole

/-- The compact writer gives a JSON text of the object. -/
theorem text_compactJson (msg : TextObject) : Text (textJson msg) (compactJson msg) := by
  have spelled : Spells (tokensOf (textJson msg)) (compactJson msg) := by
    cases msg with
    | nil =>
      have closed := spells_lexeme Lexeme.endObject Spells.nil
      exact spells_lexeme Lexeme.beginObject closed
    | cons member rest =>
      have whole := spells_lexeme Lexeme.beginObject (spells_members member rest)
      simpa [compactJson, asciiBytes, textJson, fieldsOf, tokensOf, fieldTokens] using whole
  exact ⟨[], compactJson msg, [], [], by simp, Or.inl rfl, spelled, by simp, Or.inl rfl⟩

/-- A quotation mark, a letter outside ASCII and a control, and then a logout. -/
def spoken : List Request := [.broadcast "\"é\n", .logout]

/-- All that the client writes. -/
def spokenOctets : Bytes := spoken.flatMap fun request => sendJson compactJson request.msg

/-- The first call finds part of the first frame. -/
def spokenBatches : List (List Chunk) :=
  [[⟨spokenOctets.take 7, by decide +kernel, by decide +kernel⟩],
    [⟨spokenOctets.drop 7, by decide +kernel, by decide +kernel⟩]]

/-- A broadcast with characters that are escaped and a LOGOUT, in batches that cut the first
frame. -/
theorem requests_arrive_spoken :
    ∃ lists : List (List Json),
      (recvAll jsonParse {} (spokenBatches.map script)).1 =
        lists.map (fun list => .ok (some list)) ∧
      List.Forall₂ (fun request msg => ∀ key default : String,
        msg.value key default = .ok ((request.msg.lookup key).getD default))
        spoken lists.flatten ∧
      (recvAll jsonParse {} (spokenBatches.map script)).2.recvBuf = [] :=
  requests_arrive compactJson (fun request => text_compactJson request.msg) spoken
    (by decide +kernel) {} rfl spokenBatches (by decide +kernel)
    ⟨by decide +kernel, by decide +kernel, trivial⟩

end LinuxChat.Guarantees.JsonText
