import AppPilotKit.Control.Results

/-! # Every legal result can be written

What the encoder writes for a legal result is within the cap of its kind and decodes to the
result. The largest exchange fills its packet to the last byte, in either direction.
-/

namespace AppPilotKit.Control

open Wire Transport Cbor
open Broker (ControlFailure ErrorKind ErrorStage Digest)
open Raw (Text)

/-! ## Successes -/

namespace ControlSuccess

variable {sha256 : Bytes → Digest} {success : ControlSuccess}

/-- How long the body of a complete exchange is. -/
theorem exchangeComplete_size (exchange : ExchangeComplete) :
    (encodeAll ((exchangeComplete exchange).tokens (exchangeComplete exchange).entries)).length =
      79 + (headLength exchange.sessionId.bytes.length + exchange.sessionId.bytes.length) + headLength exchange.processGeneration
        + headLength exchange.listenerEpoch + (headLength exchange.message.length + exchange.message.length) := by
  have code : headLength exchange.handoff.toWire = 1 := if_pos (by have := exchange.handoff.toWire_le; omega)
  rw [encodeAll_length]
  simp only [tokens, fields, entries, kind, List.map_cons, List.map_nil, List.sum_cons, List.sum_nil, Token.size, Token.headArgument,
    Token.payload, FixedBytes.size, code, List.length_nil, show headLength 8 = 1 from rfl, show headLength 7 = 1 from rfl,
    show headLength 0 = 1 from rfl, show headLength 1 = 1 from rfl, show headLength 32 = 2 from rfl, show headLength 2 = 1 from rfl,
    show headLength 3 = 1 from rfl, show headLength 4 = 1 from rfl, show headLength 5 = 1 from rfl, show headLength 6 = 1 from rfl]
  omega

/-- Besides the start of the result, which has 24 bytes, this is the cap. -/
theorem tokens_length (legal : success.Legal sha256) :
    24 + (encodeAll (success.tokens success.entries)).length ≤ successCap success := by
  cases success with
  | targetReady ready =>
      have short := encodeAll_length_le ((targetReady ready).tokens (targetReady ready).entries)
      simp only [tokens, fields, entries, kind, List.length_cons, List.length_nil, payloads_cons, payloads_nil, Token.payload,
        FixedBytes.size] at short ⊢
      simp only [successCap, nonExchangeCborCap]
      omega
  | sessionOpened opened =>
      obtain ⟨⟨-, size⟩, -⟩ := legal
      have short := encodeAll_length_le ((sessionOpened opened).tokens (sessionOpened opened).entries)
      simp only [tokens, fields, entries, kind, List.length_cons, List.length_nil, payloads_cons, payloads_nil, Token.payload,
        FixedBytes.size] at short ⊢
      simp only [successCap, openSessionCborCap]
      omega
  | exchangeComplete exchange =>
      obtain ⟨⟨session, -⟩, ⟨-, size⟩, -⟩ := legal
      have length := validSessionId_length session
      have headed : headLength exchange.sessionId.bytes.length ≤ 2 := headLength_le length
      have headed' : headLength exchange.message.length ≤ 5 := headLength_le size
      have generation := headLength_le_nine exchange.processGeneration
      have epoch := headLength_le_nine exchange.listenerEpoch
      rw [exchangeComplete_size]
      simp only [successCap, globalCborCap]
      omega
  | closed value =>
      have short := encodeAll_length_le ((closed value).tokens (closed value).entries)
      simp only [tokens, fields, List.length_cons, List.length_nil, List.length_append, payloads_cons, payloads_nil, payloads_append,
        Token.payload, FixedBytes.size] at short ⊢
      simp only [successCap, nonExchangeCborCap]
      cases named : value.sessionId with
      | none =>
          rw [named] at short
          simp only [sessionTokens, List.length_nil, payloads_nil] at short ⊢
          omega
      | some sessionId =>
          have length := validSessionId_length (legal sessionId named)
          rw [named] at short
          simp only [sessionTokens, List.length_cons, List.length_nil, payloads_cons, payloads_nil, Token.payload] at short ⊢
          omega

theorem entries_small (success : ControlSuccess) : success.entries < 2 ^ 64 := by
  unfold entries
  split
  · decide
  · decide
  · decide
  · split_ifs <;> decide

theorem kind_small (success : ControlSuccess) : success.kind < 2 ^ 8 := by
  cases success <;> simp [kind]

theorem closed_known (value : Closed) : (closed value).entries = 3 ∨ (closed value).entries = 4 := by
  unfold entries
  dsimp only
  split_ifs
  · exact .inr rfl
  · exact .inl rfl

section
variable {left : List Token}

theorem decodeTargetReady_fields {ready : ReadyTarget} (legal : (targetReady ready).Legal sha256) :
    decodeTargetReady (encodeAll ((targetReady ready).fields ++ left)) = .ok (targetReady ready, encodeAll left) := by
  obtain ⟨⟨generation, epoch, issued, expires⟩, ttl⟩ := legal
  unfold decodeTargetReady fields requireSafeInteger
  simp only [List.cons_append, List.nil_append]
  rw [key_then (by decide), bytes_then (by rw [FixedBytes.size]; decide), fixed_then, key_then (by decide),
    u64_then (safeInteger_small generation), require_then generation, key_then (by decide), u64_then (safeInteger_small epoch),
    require_then epoch, key_then (by decide), u64_then (safeInteger_small issued), require_then issued, key_then (by decide),
    u64_then (safeInteger_small expires), require_then expires, require_then ttl]
  rfl

theorem decodeSessionOpened_fields {opened : SessionOpened} (legal : (sessionOpened opened).Legal sha256) :
    decodeSessionOpened sha256 (encodeAll ((sessionOpened opened).fields ++ left)) = .ok (sessionOpened opened, encodeAll left) := by
  obtain ⟨size, sealed, generation, epoch⟩ := legal
  unfold decodeSessionOpened fields requireSafeInteger
  simp only [List.cons_append, List.nil_append]
  rw [key_then (by decide), bytes_then (by rw [FixedBytes.size]; decide), fixed_then, key_then (by decide),
    bytes_then (by omega), require_then size, key_then (by decide), bytes_then (by rw [FixedBytes.size]; decide), fixed_then,
    require_then sealed, key_then (by decide), u64_then (safeInteger_small generation), require_then generation,
    key_then (by decide), u64_then (safeInteger_small epoch), require_then epoch, key_then (by decide),
    u8_then (handoff_small _), named_then (handoffOf_eq.mpr rfl)]
  rfl

theorem decodeExchangeComplete_fields {exchange : ExchangeComplete} (legal : (exchangeComplete exchange).Legal sha256) :
    decodeExchangeComplete sha256 (encodeAll ((exchangeComplete exchange).fields ++ left)) =
      .ok (exchangeComplete exchange, encodeAll left) := by
  obtain ⟨⟨session, generation, epoch⟩, size, sealed⟩ := legal
  have length := validSessionId_length session
  unfold decodeExchangeComplete fields requireSafeInteger requireSessionId
  simp only [List.cons_append, List.nil_append]
  rw [key_then (by decide), bytes_then (by rw [FixedBytes.size]; decide), fixed_then, key_then (by decide),
    text_then (by omega), require_then session, key_then (by decide), u64_then (safeInteger_small generation),
    require_then generation, key_then (by decide), u64_then (safeInteger_small epoch), require_then epoch, key_then (by decide),
    bytes_then (by omega), require_then size, key_then (by decide), bytes_then (by rw [FixedBytes.size]; decide), fixed_then,
    require_then sealed, key_then (by decide), u8_then (handoff_small _), named_then (handoffOf_eq.mpr rfl)]
  rfl

theorem decodeClosed_fields {value : Closed} (legal : (closed value).Legal sha256) :
    decodeClosed (encodeAll ((closed value).fields ++ left)) = .ok (closed value, encodeAll left) := by
  obtain ⟨targetToken, sessionId, handoff⟩ := value
  unfold decodeClosed fields
  cases sessionId with
  | none =>
      simp only [sessionTokens, List.cons_append, List.nil_append]
      rw [key_then (by decide), bytes_then (by rw [FixedBytes.size]; decide), fixed_then, u8_then (by decide),
        bind_run (sessionEntry_none (by decide))]
      dsimp only
      rw [require_then rfl, u8_then (handoff_small _), named_then (handoffOf_eq.mpr rfl)]
      rfl
  | some sessionId =>
      simp only [sessionTokens, List.cons_append, List.nil_append]
      rw [key_then (by decide), bytes_then (by rw [FixedBytes.size]; decide), fixed_then, u8_then (by decide),
        bind_run (sessionEntry_some (legal sessionId rfl) (by decide))]
      dsimp only
      rw [require_then rfl, u8_then (handoff_small _), named_then (handoffOf_eq.mpr rfl)]
      rfl

end

theorem decode_tokens (legal : success.Legal sha256) (left : List Token) :
    decodeSuccessBody sha256 (encodeAll (success.tokens success.entries ++ left)) = .ok (success, encodeAll left) := by
  unfold decodeSuccessBody tokens
  simp only [List.cons_append]
  rw [map_then success.entries_small]
  dsimp only
  rw [key_then (by decide), u8_then success.kind_small]
  cases success with
  | targetReady ready =>
      rw [if_pos ⟨rfl, rfl⟩]
      exact decodeTargetReady_fields legal
  | sessionOpened opened =>
      rw [if_neg (by simp [kind]), if_pos ⟨rfl, rfl⟩]
      exact decodeSessionOpened_fields legal
  | exchangeComplete exchange =>
      rw [if_neg (by simp [kind]), if_neg (by simp [kind]), if_pos ⟨rfl, rfl⟩]
      exact decodeExchangeComplete_fields legal
  | closed value =>
      rw [if_neg (by simp [kind]), if_neg (by simp [kind]), if_neg (by simp [kind]), if_pos ⟨rfl, closed_known value⟩]
      exact decodeClosed_fields legal

end ControlSuccess

/-! ## Results -/

section
variable {sha256 : Bytes → Digest}

theorem resultTokens_item {requestId : FixedBytes 16} {succeeded : Bool} {body : List Token} (item : IsItem 63 body) :
    IsItem 64 (resultTokens requestId succeeded body) := by
  have last : Entries (IsItem 63) 1 (some 2) (.uint 3 :: (body ++ [])) := .cons rfl item .nil
  rw [List.append_nil] at last
  exact .leaf rfl rfl <| .leaf rfl rfl <| .leaf rfl rfl last

theorem resultTokens_fits {requestId : FixedBytes 16} {succeeded : Bool} {body : List Token} (fits : ∀ t ∈ body, t.Fits) :
    ∀ t ∈ resultTokens requestId succeeded body, t.Fits := by
  refine List.forall_mem_append.mpr ⟨?_, fits⟩
  simp [Token.Fits, FixedBytes.size]

theorem resultTokens_length (requestId : FixedBytes 16) (succeeded : Bool) (body : List Token) :
    (encodeAll (resultTokens requestId succeeded body)).length = 24 + (encodeAll body).length := by
  have flag : headLength (Token.bool succeeded).headArgument = 1 := by
    cases succeeded <;> rfl
  rw [resultTokens, encodeAll_append, List.length_append, encodeAll_length]
  simp only [List.map_cons, List.map_nil, List.sum_cons, List.sum_nil, Token.size, flag]
  simp only [Token.headArgument, Token.payload, FixedBytes.size, List.length_nil, show headLength 4 = 1 from rfl,
    show headLength 0 = 1 from rfl, show headLength 1 = 1 from rfl, show headLength 16 = 1 from rfl, show headLength 2 = 1 from rfl,
    show headLength 3 = 1 from rfl]
  omega

/-- The packet of a result. -/
def resultPacket (requestId : FixedBytes 16) (succeeded : Bool) (body : List Token) : Bytes :=
  be 4 (encodeAll (resultTokens requestId succeeded body)).length ++ encodeAll (resultTokens requestId succeeded body)

/-- A packet that a decoder of the body accepts. -/
theorem decodeResultPacket_of {requestId : FixedBytes 16} {succeeded : Bool} {body : List Token} {result : ControlResult}
    (item : IsItem 63 body) (fits : ∀ t ∈ body, t.Fits) (small : 24 + (encodeAll body).length ≤ globalCborCap)
    (decodes : decodeResult sha256 succeeded requestId (encodeAll body) = .ok (result, [])) :
    decodeResultPacket sha256 (resultPacket requestId succeeded body) = .ok result := by
  have length := resultTokens_length requestId succeeded body
  refine decodeResultPacket_ok.mpr ⟨_, unframe_ok.mpr ⟨rfl, ?_, length.trans_le small⟩, ?_, run'_ok.mpr ⟨[], ?_⟩⟩
  · exact mt encodeAll_eq_nil.mp (by simp [resultTokens])
  · exact (validateDeterministicCbor_ok (by unfold globalCborCap at small; omega)).mpr
      ⟨_, resultTokens_item item, resultTokens_fits fits, rfl⟩
  · unfold decodeResultItem resultTokens
    simp only [List.cons_append, List.nil_append]
    rw [entries_then (by decide), key_then (by decide), key_then (by decide), key_then (by decide),
      bytes_then (by rw [FixedBytes.size]; decide), fixed_then, key_then (by decide), bool_then, key_then (by decide),
      bind_run decodes]
    rfl

theorem successCap_le (success : ControlSuccess) : successCap success ≤ globalCborCap := by
  cases success <;> simp [successCap, openSessionCborCap, globalCborCap, nonExchangeCborCap]

theorem decode_success {requestId : FixedBytes 16} {success : ControlSuccess} (legal : success.Legal sha256) :
    decodeResultPacket sha256 (resultPacket requestId true (success.tokens success.entries)) = .ok (.success requestId success) := by
  refine decodeResultPacket_of (ControlSuccess.tokens_item 61 success) (ControlSuccess.tokens_fits legal)
    ((ControlSuccess.tokens_length legal).trans (successCap_le success)) ?_
  have decodes := ControlSuccess.decode_tokens legal []
  rw [List.append_nil] at decodes
  exact bind_run decodes

theorem encode_success {requestId : FixedBytes 16} {success : ControlSuccess} (legal : success.Legal sha256) :
    encodeSuccessPacket sha256 requestId success = .ok (resultPacket requestId true (success.tokens success.entries)) := by
  have small := ControlSuccess.tokens_length legal
  rw [← resultTokens_length requestId true] at small
  have framed : frame (encodeAll (resultTokens requestId true (success.tokens success.entries))) (successCap success) =
      .ok (resultPacket requestId true (success.tokens success.entries)) :=
    frame_of (by simp [resultTokens]) small (small.trans (successCap_le success))
  have start : Cbor.map 4 ++ Cbor.uint 0 ++ Cbor.uint 1 ++ Cbor.uint 1 ++ Cbor.bytes requestId.bytes ++ Cbor.uint 2 ++ Cbor.bool true
      ++ Cbor.uint 3 ++ encodeSuccessBody success = encodeAll (resultTokens requestId true (success.tokens success.entries)) := by
    rw [encodeSuccessBody_eq]
    simp [resultTokens, Token.encode]
  unfold encodeSuccessPacket
  refine Checks.bind_ok.mpr ⟨(), validateSuccess_ok.mpr legal,
    Checks.bind_ok.mpr ⟨resultPacket requestId true (success.tokens success.entries), ?_, ?_⟩⟩
  · rw [start, framed]
  · exact Checks.bind_ok.mpr ⟨_, decode_success legal, if_neg (not_not.mpr rfl)⟩

/-! ## Failures -/

theorem plainMessage_length {message : Bytes} (plain : plainMessage message) : message.length ≤ 256 := by
  simp only [plainMessage, Bool.and_eq_true, decide_eq_true_eq] at plain
  exact plain.1.2

section
variable {failure : ControlFailure} {message : Bytes}

theorem failureTokens_item (failure : ControlFailure) (message : Bytes) : IsItem 63 (failureTokens failure message) :=
  .leaf rfl rfl <| .leaf rfl rfl <| .leaf rfl rfl <| .leaf rfl rfl <|
    .leaf rfl rfl <| .leaf rfl rfl .nil

theorem failureTokens_fits (valid : validUtf8 message) (plain : plainMessage message) : ∀ t ∈ failureTokens failure message, t.Fits := by
  have length := plainMessage_length plain
  have small := (⟨errorKindCode_le failure.kind, errorStageCode_le failure.stage, failure.handoff.toWire_le,
    failure.closeReason.toWire_le⟩ : _ ∧ _ ∧ _ ∧ _)
  simp [failureTokens, Token.Fits, valid]
  omega

theorem failureTokens_length (plain : plainMessage message) : (encodeAll (failureTokens failure message)).length ≤ 373 := by
  have length := plainMessage_length plain
  refine (encodeAll_length_le _).trans ?_
  simp only [failureTokens, List.length_cons, List.length_nil, payloads_cons, payloads_nil, Token.payload]
  omega

theorem decode_failure {requestId : FixedBytes 16} {stock : String} (valid : validUtf8 message)
    (known : stockMessage message = some stock) :
    decodeResultPacket sha256 (resultPacket requestId false (failureTokens failure message)) =
      .ok (.failure requestId { failure with message := stock }) := by
  have plain := stockMessage_some known
  have length := plainMessage_length plain
  have short : (encodeAll (failureTokens failure message)).length ≤ 373 := failureTokens_length plain
  refine decodeResultPacket_of (failureTokens_item failure message) (failureTokens_fits valid plain)
    (by unfold globalCborCap; omega) ?_
  have kind := errorKindCode_le failure.kind
  have stage := errorStageCode_le failure.stage
  have handoff := failure.handoff.toWire_le
  have reason := failure.closeReason.toWire_le
  have body : decodeFailureBody (encodeAll (failureTokens failure message)) = .ok ({ failure with message := stock }, []) := by
    unfold decodeFailureBody failureTokens
    rw [entries_then (by decide), key_then (by decide), u8_then (by omega), named_then (errorKindOf_eq.mpr rfl), key_then (by decide),
      show message = (⟨message, valid⟩ : Text).bytes from rfl,
      text_then (show message.length < 2 ^ 64 by omega), bind_run (replaced_ok.mpr ⟨known, rfl⟩),
      key_then (by decide), bool_then, key_then (by decide), u8_then (by omega), named_then (errorStageOf_eq.mpr rfl),
      key_then (by decide), u8_then (handoff_small _), named_then (handoffOf_eq.mpr rfl), key_then (by decide), u8_then (by omega),
      named_then (closeReasonOf_eq.mpr rfl)]
    rfl
  exact bind_run body

theorem encode_failure {requestId : FixedBytes 16} (plain : plainMessage (utf8 failure.message)) :
    encodeFailurePacket requestId failure = .ok (resultPacket requestId false (failureTokens failure (utf8 failure.message))) := by
  have short : (encodeAll (failureTokens failure (utf8 failure.message))).length ≤ 373 := failureTokens_length plain
  have length := resultTokens_length requestId false (failureTokens failure (utf8 failure.message))
  have framed : frame (encodeAll (resultTokens requestId false (failureTokens failure (utf8 failure.message)))) nonExchangeCborCap =
      .ok (resultPacket requestId false (failureTokens failure (utf8 failure.message))) :=
    frame_of (by simp [resultTokens]) (by unfold nonExchangeCborCap; omega) (by unfold globalCborCap; omega)
  have start : Cbor.map 4 ++ Cbor.uint 0 ++ Cbor.uint 1 ++ Cbor.uint 1 ++ Cbor.bytes requestId.bytes
      ++ Cbor.uint 2 ++ Cbor.bool false ++ Cbor.uint 3
      ++ Cbor.map 6 ++ Cbor.uint 0 ++ Cbor.uint (errorKindCode failure.kind) ++ Cbor.uint 1
      ++ Cbor.head 3 (utf8 failure.message).length ++ utf8 failure.message
      ++ Cbor.uint 2 ++ Cbor.bool failure.retryable ++ Cbor.uint 3 ++ Cbor.uint (errorStageCode failure.stage)
      ++ Cbor.uint 4 ++ Cbor.uint failure.handoff.toWire ++ Cbor.uint 5 ++ Cbor.uint failure.closeReason.toWire =
        encodeAll (resultTokens requestId false (failureTokens failure (utf8 failure.message))) := by
    simp [resultTokens, failureTokens, Token.encode]
  unfold encodeFailurePacket
  rw [if_neg (not_not.mpr plain), start]
  exact framed

end

end

/-- A success has one accepted encoding, and a failure has one for each message that travels. -/
theorem decodeResultPacket_item {sha256 : Bytes → Digest} {packet : Bytes} {result : ControlResult}
    (accepted : decodeResultPacket sha256 packet = .ok result) :
    (∃ requestId success, result = .success requestId success ∧ success.Legal sha256 ∧
        packet = resultPacket requestId true (success.tokens success.entries)) ∨
      ∃ requestId failure message, result = .failure requestId failure ∧ stockMessage message.bytes = some failure.message ∧
        packet = resultPacket requestId false (failureTokens failure (Raw.Text.bytes message)) := by
  obtain ⟨cbor, framed, checked, decoded⟩ := decodeResultPacket_ok.mp accepted
  obtain ⟨split, -, small⟩ := unframe_ok.mp framed
  obtain ⟨tokens, item, fits, rfl⟩ := (validateDeterministicCbor_ok (by unfold globalCborCap at small; omega)).mp checked
  rcases decodeResultItem_ok fits item decoded with ⟨requestId, success, rfl, legal, rfl⟩ | ⟨requestId, failure, message, rfl, stock, rfl⟩
  · exact .inl ⟨requestId, success, rfl, legal, split⟩
  · exact .inr ⟨requestId, failure, message, rfl, stock, split⟩

/-- What travels as the message of a failure is text. -/
theorem exists_message {message : Text} {stock : String} (known : stockMessage message.bytes = some stock) :
    ∃ spoken, message.bytes = utf8 spoken ∧ plainMessage (utf8 spoken) ∧ receivedMessage spoken = stock := by
  obtain ⟨characters, same⟩ := exists_utf8 message.valid
  have spoken : message.bytes = utf8 (String.ofList characters) := by
    rw [utf8, String.toList_ofList, same]
  rw [spoken] at known
  have plain := stockMessage_some known
  exact ⟨_, spoken, plain, Option.some.inj ((stockMessage_utf8 plain).symm.trans known)⟩

/-! ## The largest messages -/

def longestSessionId : Text := ⟨List.replicate 128 0x61, by decide⟩

theorem longestSessionId_valid : validSessionId longestSessionId.bytes := by
  rw [validSessionId, longestSessionId, List.all_replicate, List.length_replicate]
  decide

theorem maxSafeInteger_safe : safeInteger maxSafeInteger := by
  decide

/-- An exchange whose other fields are the largest there are. -/
def fullExchange (targetToken : Broker.Token) (message : Bytes) (messageSha256 : Digest) : ControlRequest :=
  .exchange
    { requestId := ⟨List.replicate 16 0, rfl⟩
      deadlineUnixMs := maxSafeInteger
      body :=
        { targetToken, sessionId := longestSessionId, processGeneration := maxSafeInteger, listenerEpoch := maxSafeInteger
          message, messageSha256, sideEffect := .deviceMutation } }

def fullExchangeComplete (targetToken : Broker.Token) (message : Bytes) (messageSha256 : Digest) : ExchangeComplete :=
  { targetToken, sessionId := longestSessionId, processGeneration := maxSafeInteger, listenerEpoch := maxSafeInteger
    message, messageSha256, handoff := .handoffPossibleOrConfirmed }

section
variable {targetToken : Broker.Token} {message : Bytes} {messageSha256 : Digest}

theorem fullExchange_legal (size : message ≠ [] ∧ message.length ≤ 16777216) :
    (fullExchange targetToken message messageSha256).Legal where
  deadline := maxSafeInteger_safe
  body :=
    { sessionId := longestSessionId_valid
      processGeneration := maxSafeInteger_safe
      listenerEpoch := maxSafeInteger_safe
      message := size }

theorem fullExchange_length (size : message.length = 16777216) :
    (fullExchange targetToken message messageSha256).packet.length = 4 + exchangeRequestCborCap := by
  have start : (encodeAll (envelope (List.replicate 16 0) maxSafeInteger 2)).length = 24 + headLength maxSafeInteger :=
    envelope_length rfl (by decide)
  have key : (Token.uint 4).encode.length = 1 := rfl
  rw [ControlRequest.packet, List.length_append, be_length]
  congr 1
  show (encodeAll (envelope (List.replicate 16 0) maxSafeInteger 2 ++ .uint 4 :: exchangeTokens _)).length = _
  rw [encodeAll_append, encodeAll_cons, List.length_append, List.length_append, start, key, exchangeTokens_size]
  simp only [size, show longestSessionId.bytes.length = 128 from rfl, show headLength maxSafeInteger = 9 from rfl,
    show headLength 128 = 2 from rfl, show headLength 16777216 = 5 from rfl]
  rfl

theorem fullExchangeComplete_length {requestId : FixedBytes 16} (size : message.length = 67108864) :
    (resultPacket requestId true ((ControlSuccess.exchangeComplete (fullExchangeComplete targetToken message messageSha256)).tokens
      (ControlSuccess.exchangeComplete (fullExchangeComplete targetToken message messageSha256)).entries)).length = 4 + globalCborCap := by
  rw [resultPacket, List.length_append, be_length, resultTokens_length, ControlSuccess.exchangeComplete_size]
  congr 1
  simp only [fullExchangeComplete, size, show longestSessionId.bytes.length = 128 from rfl]
  rfl

end

/-! ## The codec -/

/-- A packet is accepted only as its encoder writes it, and whatever is within the limits of
    the decoder can be written, up to the last byte of the largest caps. -/
theorem packet_codec (sha256 : Bytes → Digest) :
    (∀ packet request, decodeRequestPacket packet = .ok request → encodeRequestPacket request = .ok packet ∧ request.Legal ∧
        ∀ other, decodeRequestPacket other = .ok request → other = packet) ∧
      (∀ request : ControlRequest, request.Legal →
        ∃ packet, encodeRequestPacket request = .ok packet ∧ decodeRequestPacket packet = .ok request) ∧
      (∀ packet requestId success, decodeResultPacket sha256 packet = .ok (.success requestId success) →
        encodeSuccessPacket sha256 requestId success = .ok packet ∧ success.Legal sha256 ∧
          ∀ other, decodeResultPacket sha256 other = .ok (.success requestId success) → other = packet) ∧
      (∀ requestId (success : ControlSuccess), success.Legal sha256 →
        ∃ packet, encodeSuccessPacket sha256 requestId success = .ok packet ∧
          decodeResultPacket sha256 packet = .ok (.success requestId success)) ∧
      (∀ packet requestId failure, decodeResultPacket sha256 packet = .ok (.failure requestId failure) →
        ∃ message, receivedMessage message = failure.message ∧
          encodeFailurePacket requestId { failure with message } = .ok packet) ∧
      (∀ requestId failure, plainMessage (utf8 failure.message) →
        ∃ packet, encodeFailurePacket requestId failure = .ok packet ∧
          decodeResultPacket sha256 packet = .ok (.failure requestId { failure with message := receivedMessage failure.message })) ∧
      (∃ exchange packet, encodeRequestPacket (.exchange exchange) = .ok packet ∧
        packet.length = 4 + exchangeRequestCborCap) ∧
      ∃ requestId exchange packet, encodeSuccessPacket sha256 requestId (.exchangeComplete exchange) = .ok packet ∧
        packet.length = 4 + globalCborCap := by
  have writes {request : ControlRequest} (legal : request.Legal) : encodeRequestPacket request = .ok request.packet :=
    request.encode_of_decode legal (ControlRequest.tokens_length legal) (ControlRequest.decode_packet legal)
  refine ⟨?_, ?_, ?_, ?_, ?_, ?_, ?_, ?_⟩
  · intro packet request accepted
    obtain ⟨written, legal⟩ := decodeRequestPacket_encode accepted
    refine ⟨written, legal, fun other accepted' => ?_⟩
    have written' := (decodeRequestPacket_encode accepted').1
    exact Except.ok.inj (written'.symm.trans written)
  · intro request legal
    exact ⟨request.packet, writes legal, ControlRequest.decode_packet legal⟩
  · intro packet requestId success accepted
    have comes {packet : Bytes} (accepted : decodeResultPacket sha256 packet = .ok (.success requestId success)) :
        success.Legal sha256 ∧ packet = resultPacket requestId true (success.tokens success.entries) := by
      rcases decodeResultPacket_item accepted with ⟨_, _, same, legal, split⟩ | ⟨_, _, _, other, -, -⟩
      · cases same
        exact ⟨legal, split⟩
      · cases other
    obtain ⟨legal, rfl⟩ := comes accepted
    exact ⟨encode_success legal, legal, fun other accepted' => (comes accepted').2⟩
  · intro requestId success legal
    exact ⟨_, encode_success legal, decode_success legal⟩
  · intro packet requestId failure accepted
    rcases decodeResultPacket_item accepted with ⟨_, _, other, -, -⟩ | ⟨_, _, message, same, known, split⟩
    · cases other
    · cases same
      obtain ⟨spoken, bytes, plain, received⟩ := exists_message known
      rw [bytes] at split
      have written : encodeFailurePacket requestId { failure with message := spoken } = .ok _ := encode_failure plain
      exact ⟨spoken, received, written.trans (congrArg Except.ok split.symm)⟩
  · intro requestId failure plain
    exact ⟨_, encode_failure plain, decode_failure (validUtf8_utf8 _) (stockMessage_utf8 plain)⟩
  · have size : (List.replicate 16777216 (0 : UInt8)).length = 16777216 := List.length_replicate
    have some : List.replicate 16777216 (0 : UInt8) ≠ [] := List.ne_nil_of_length_pos (by omega)
    have legal : (fullExchange ⟨List.replicate 32 0, rfl⟩ (List.replicate 16777216 0) ⟨List.replicate 32 0, rfl⟩).Legal :=
      fullExchange_legal ⟨some, size.le⟩
    exact ⟨_, _, writes legal, fullExchange_length size⟩
  · have size : (List.replicate 67108864 (0 : UInt8)).length = 67108864 := List.length_replicate
    have some : List.replicate 67108864 (0 : UInt8) ≠ [] := List.ne_nil_of_length_pos (by omega)
    have legal : (ControlSuccess.exchangeComplete (fullExchangeComplete ⟨List.replicate 32 0, rfl⟩ (List.replicate 67108864 0)
        (sha256 (List.replicate 67108864 0)))).Legal sha256 :=
      ⟨⟨longestSessionId_valid, maxSafeInteger_safe, maxSafeInteger_safe⟩, ⟨some, size.le⟩, rfl⟩
    exact ⟨⟨List.replicate 16 0, rfl⟩, _, _, encode_success legal, fullExchangeComplete_length size⟩

end AppPilotKit.Control
