import LinuxChat.Guarantees.ClientDecoder
import LinuxChat.Guarantees.CompactJson

/-!
# The size rule on both ends

Who may send which frame: `send_json` (client/src/chat_client.cpp:190-210) against
`recv_msgs` (server/src/protocol.cpp:130-155), and `send_msg`
(server/src/protocol.cpp:51-72) against `process_frames`
(client/src/chat_client.cpp:255-282). Three of the four check 16 MiB before they go
on; `send_json` casts the size and writes.
-/

namespace LinuxChat.Guarantees.FrameSizes

open LinuxChat.Lib LinuxChat.Source LinuxChat.Guarantees LinuxChat.Guarantees.ClientDecoder
open CompactJson

/-! ## Frames -/

/-- The server takes the octets off its buffer as one frame with this body,
whatever follows: the next round starts right behind them. -/
def TakenByServer (bytes body : Bytes) : Prop :=
  ∀ (parse : Bytes → Parsed) (json : Json), parse body = .value json →
    ∀ (rest : Bytes) (fuel : Nat) (failures : UInt32) (messages : List Json),
      extract parse (fuel + 1) (bytes ++ rest) failures messages =
        extract parse fuel rest 0 (messages ++ [json])

/-- The client takes the octets off its buffer as one frame with this body. -/
def TakenByClient (bytes body : Bytes) : Prop :=
  ∀ (fromJson : Bytes → Option Json) (rest : Bytes) (fuel : Nat) (calls : List ClientCall),
    ChatClient.processFrames fromJson (fuel + 1) ⟨bytes ++ rest, true, calls⟩ =
      ChatClient.processFrames fromJson fuel
        ⟨rest, true, calls ++ (dispatchOf fromJson body).toList⟩

/-- The frame of `send_json` has its body's length in its length field, lies in
the range of `recv_msgs`, and is taken as one frame there. -/
structure RequestFits (toJson : TextObject → Bytes) (msg : TextObject) : Prop where
  field : ofBe32 ((sendJson toJson msg).take 4) = (toJson msg).length
  least : 1 ≤ (toJson msg).length
  most : (toJson msg).length ≤ 16 * 1024 * 1024
  taken : TakenByServer (sendJson toJson msg) (toJson msg)

/-- Every frame that `send_msg` writes is taken as one frame by `process_frames`. -/
def AnswersFit (dump : Json → Option Bytes) : Prop :=
  ∀ msg header body, sendBuffers dump msg = some (header, body) →
    TakenByClient (header ++ body) body

theorem takenByServer_frame {body : Bytes} (nonempty : 1 ≤ body.length)
    (bounded : body.length ≤ maxBodyLen) : TakenByServer (frame body) body := by
  intro parse json parsed rest fuel failures messages
  have first := split_frame (by decide : maxBodyLen < 2 ^ 32) nonempty bounded rest
  have used : (frame body ++ rest).drop (4 + body.length) = rest :=
    List.drop_left' (frame_length body)
  rw [extract_succ, first]
  simp only [parsed, used]

theorem takenByClient_frame {body : Bytes} (nonempty : 1 ≤ body.length)
    (bounded : body.length ≤ maxBodyLen) : TakenByClient (frame body) body := by
  intro fromJson rest fuel calls
  have first := split_frame (by decide : maxBodyLen < 2 ^ 32) nonempty bounded rest
  have used : (frame body ++ rest).drop (4 + body.length) = rest :=
    List.drop_left' (frame_length body)
  rw [processFrames_succ, first]
  simp only [used]

theorem sendJson_eq_frame {toJson : TextObject → Bytes} {msg : TextObject}
    (small : (toJson msg).length < 2 ^ 32) : sendJson toJson msg = frame (toJson msg) := by
  rw [sendJson, frame, Nat.mod_eq_of_lt small]

theorem requestFits_iff {toJson : TextObject → Bytes} {msg : TextObject}
    (nonempty : 1 ≤ (toJson msg).length) :
    RequestFits toJson msg ↔ (toJson msg).length ≤ 16 * 1024 * 1024 := by
  constructor
  · intro fits
    exact fits.most
  · intro bounded
    have whole : sendJson toJson msg = frame (toJson msg) := sendJson_eq_frame (by omega)
    have head : (frame (toJson msg)).take 4 = be32 (toJson msg).length :=
      List.take_left' (be32_length _)
    refine ⟨?_, by omega, bounded, ?_⟩
    · rw [whole, head, ofBe32_be32, Nat.mod_eq_of_lt (by omega)]
    · rw [whole]
      exact takenByServer_frame (by omega) bounded

theorem answersFit {dump : Json → Option Bytes}
    (nonempty : ∀ msg body, dump msg = some body → 1 ≤ body.length) : AnswersFit dump := by
  intro msg header body sent
  have limit : maxBodyLen = 16777216 := rfl
  unfold sendBuffers at sent
  cases hd : dump msg with
  | none => simp [hd] at sent
  | some text =>
    by_cases long : text.length > maxBodyLen
    · simp [hd, long] at sent
    · simp only [hd, long, if_false, Option.some.injEq, Prod.mk.injEq] at sent
      obtain ⟨rfl, rfl⟩ := sent
      have word : text.length % 2 ^ 32 = text.length := Nat.mod_eq_of_lt (by omega)
      rw [word]
      exact takenByClient_frame (nonempty msg text hd) (by omega)

/-- Both ends agree on what may be sent exactly for the requests whose compact text
has at most 16 MiB; what the server sends is always accepted. -/
theorem sizes_agree_iff (toJson : TextObject → Bytes) (dump : Json → Option Bytes)
    (written : ∀ msg, 1 ≤ (toJson msg).length)
    (nonempty : ∀ msg body, dump msg = some body → 1 ≤ body.length) (request : Request) :
    RequestFits toJson request.msg ∧ AnswersFit dump ↔
      (toJson request.msg).length ≤ 16 * 1024 * 1024 := by
  rw [requestFits_iff (written request.msg)]
  exact and_iff_left (answersFit nonempty)

theorem literalDump_nonempty (msg : Json) (body : Bytes) (h : literalDump msg = some body) :
    1 ≤ body.length := by
  unfold literalDump at h
  split at h <;> cases h <;> decide

/-! ## Long broadcasts -/

/-- The longest broadcast of letters that fits. -/
theorem sizes_agree_longest :
    RequestFits compactJson (Request.broadcast (letters (16 * 1024 * 1024 - 33))).msg ∧
      AnswersFit literalDump :=
  (sizes_agree_iff compactJson literalDump compactJson_length literalDump_nonempty
    (.broadcast (letters (16 * 1024 * 1024 - 33)))).mpr (by rw [broadcast_length])

/-- The server takes a frame with a longer text for a protocol violation. -/
theorem oversized_dropped {toJson : TextObject → Bytes} {msg : TextObject}
    (long : 16 * 1024 * 1024 < (toJson msg).length) (word : (toJson msg).length < 2 ^ 32) :
    ¬ RequestFits toJson msg ∧ ∀ (parse : Bytes → Parsed) (fuel : Nat),
      extract parse (fuel + 1) (sendJson toJson msg) 0 [] = ⟨.ok none, [], 0⟩ := by
  refine ⟨fun fits => Nat.not_lt_of_le fits.most long, fun parse fuel => ?_⟩
  have limit : maxBodyLen = 16777216 := rfl
  have whole : sendJson toJson msg = frame (toJson msg) := sendJson_eq_frame word
  have head : (sendJson toJson msg).take 4 = be32 (toJson msg).length := by
    rw [whole]
    exact List.take_left' (be32_length _)
  have enough : 4 ≤ (sendJson toJson msg).length := by
    rw [whole, frame_length]
    omega
  have illegal : split maxBodyLen (sendJson toJson msg) = .illegal := by
    apply split_illegal_iff.mpr
    refine ⟨enough, Or.inr ?_⟩
    rw [head, ofBe32_be32, Nat.mod_eq_of_lt word]
    omega
  rw [extract_succ, illegal]

/-- A BROADCAST of 16 MiB of letters: `send_json` writes it, and the server drops the
connection. -/
theorem long_broadcast_dropped :
    ¬ RequestFits compactJson (Request.broadcast (letters (16 * 1024 * 1024))).msg ∧
      ∀ (parse : Bytes → Parsed) (fuel : Nat), extract parse (fuel + 1)
        (sendJson compactJson (Request.broadcast (letters (16 * 1024 * 1024))).msg) 0 [] =
          ⟨.ok none, [], 0⟩ := by
  have size := broadcast_length (16 * 1024 * 1024)
  exact oversized_dropped (by omega) (by omega)

end LinuxChat.Guarantees.FrameSizes
