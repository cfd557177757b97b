import AppPilotKit.Control.RoundTrip

/-! # Every legal request can be written

The fields of a legal request are within the limits that the decoder enforces. Then the cap of
its operation is never exceeded, and what the encoder writes decodes to the request.
-/

namespace AppPilotKit.Control

open Wire Transport Cbor
open Broker (ControlFailure ErrorKind ErrorStage Platform Digest)
open Raw (Text)

/-! ## Sizes of the fields -/

theorem validSessionId_length {value : Bytes} (valid : validSessionId value) : value.length ≤ 128 := by
  simp only [validSessionId, Bool.and_eq_true, decide_eq_true_eq] at valid
  exact valid.1.2

theorem validDeviceSelector_length {value : Bytes} (valid : validDeviceSelector value) : value.length ≤ 256 := by
  simp only [validDeviceSelector, Bool.and_eq_true, decide_eq_true_eq] at valid
  exact valid.1.2

theorem validAppId_length {value : Bytes} (valid : validAppId value) : value.length ≤ 255 := by
  simp only [validAppId, Bool.and_eq_true, decide_eq_true_eq] at valid
  exact valid.1.1.1.2

theorem validAppArtifact_length {value : Bytes} (valid : validAppArtifact value) : value.length ≤ 4096 := by
  simp only [validAppArtifact, Bool.not_eq_true', Bool.or_eq_false_iff, decide_eq_false_iff_not] at valid
  omega

theorem validCapability_length {value : Bytes} (valid : validCapability value) : value.length ≤ 128 := by
  simp only [validCapability, Bool.and_eq_true, decide_eq_true_eq] at valid
  exact valid.1.1.2

theorem platformCode_le (platform : Platform) : platformCode platform ≤ 1 := by
  cases platform <;> decide

theorem SideEffect.code_le (effect : SideEffect) : effect.code ≤ 3 := by
  cases effect <;> decide

/-! ## The streams of the bodies -/

section
variable {body : PrepareBody} (legal : body.Legal)

theorem prepareTokens_item (levels : Nat) (body : PrepareBody) : IsItem (levels + 2) (prepareTokens body) :=
  .leaf rfl rfl <| .leaf rfl rfl <| .leaf rfl rfl <| .leaf rfl rfl <|
    .leaf rfl rfl .nil

include legal

theorem prepareTokens_fits : ∀ t ∈ prepareTokens body, t.Fits := by
  have platform := platformCode_le body.platform
  have selector := validDeviceSelector_length legal.deviceSelector
  have app := validAppId_length legal.appId
  have artifact := validAppArtifact_length legal.appArtifact
  simp [prepareTokens, Token.Fits, Text.valid, FixedBytes.size]
  omega

theorem prepareTokens_length : (encodeAll (prepareTokens body)).length ≤ 4738 := by
  have selector := validDeviceSelector_length legal.deviceSelector
  have app := validAppId_length legal.appId
  have artifact := validAppArtifact_length legal.appArtifact
  refine (encodeAll_length_le _).trans ?_
  simp only [prepareTokens, List.length_cons, List.length_nil, payloads_cons, payloads_nil, Token.payload, FixedBytes.size]
  omega

theorem decodePrepare_tokens (left : List Token) :
    decodePrepare (encodeAll (prepareTokens body ++ left)) = .ok (body, encodeAll left) := by
  have platform := platformCode_le body.platform
  have selector := validDeviceSelector_length legal.deviceSelector
  have app := validAppId_length legal.appId
  have artifact := validAppArtifact_length legal.appArtifact
  unfold decodePrepare prepareTokens
  simp only [List.cons_append, List.nil_append]
  rw [entries_then (by decide), key_then (by decide), u8_then (by omega), named_then (platformOf_eq.mpr rfl),
    key_then (by decide), text_then (by omega), require_then legal.deviceSelector, key_then (by decide), text_then (by omega),
    require_then legal.appId, key_then (by decide), text_then (by omega), require_then legal.appArtifact, key_then (by decide),
    bytes_then (by rw [FixedBytes.size]; decide), fixed_then]
  rfl

end

section
variable {body : CloseSessionBody} (legal : body.Legal)

theorem closeSessionTokens_item (levels : Nat) (body : CloseSessionBody) : IsItem (levels + 2) (closeSessionTokens body) :=
  .leaf rfl rfl <| .leaf rfl rfl <| .leaf rfl rfl <| .leaf rfl rfl <|
    .leaf rfl rfl .nil

include legal

theorem closeSessionTokens_fits : ∀ t ∈ closeSessionTokens body, t.Fits := by
  have session := validSessionId_length legal.sessionId
  have generation := safeInteger_small legal.processGeneration
  have epoch := safeInteger_small legal.listenerEpoch
  have reason := body.reason.toWire_le
  simp [closeSessionTokens, Token.Fits, Text.valid, FixedBytes.size]
  omega

theorem closeSessionTokens_length : (encodeAll (closeSessionTokens body)).length ≤ 259 := by
  have session := validSessionId_length legal.sessionId
  refine (encodeAll_length_le _).trans ?_
  simp only [closeSessionTokens, List.length_cons, List.length_nil, payloads_cons, payloads_nil, Token.payload, FixedBytes.size]
  omega

theorem decodeCloseSession_tokens (left : List Token) :
    decodeCloseSession (encodeAll (closeSessionTokens body ++ left)) = .ok (body, encodeAll left) := by
  have session := validSessionId_length legal.sessionId
  have generation := safeInteger_small legal.processGeneration
  have epoch := safeInteger_small legal.listenerEpoch
  have reason := body.reason.toWire_le
  unfold decodeCloseSession closeSessionTokens requireSessionId requireSafeInteger
  simp only [List.cons_append, List.nil_append]
  rw [entries_then (by decide), key_then (by decide), bytes_then (by rw [FixedBytes.size]; decide), fixed_then,
    key_then (by decide), text_then (by omega), require_then legal.sessionId, key_then (by decide), u64_then generation,
    require_then legal.processGeneration, key_then (by decide), u64_then epoch, require_then legal.listenerEpoch,
    key_then (by decide), u8_then (by omega), named_then (closeReasonOf_eq.mpr rfl)]
  rfl

end

section
variable (body : CloseLeaseBody)

theorem closeLeaseTokens_item (levels : Nat) : IsItem (levels + 2) (closeLeaseTokens body) :=
  .leaf rfl rfl <| .leaf rfl rfl .nil

theorem closeLeaseTokens_fits : ∀ t ∈ closeLeaseTokens body, t.Fits := by
  have reason := body.reason.toWire_le
  simp [closeLeaseTokens, Token.Fits, FixedBytes.size]
  omega

theorem closeLeaseTokens_length : (encodeAll (closeLeaseTokens body)).length ≤ 77 := by
  refine (encodeAll_length_le _).trans ?_
  simp only [closeLeaseTokens, List.length_cons, List.length_nil, payloads_cons, payloads_nil, Token.payload, FixedBytes.size]
  omega

theorem decodeCloseLease_tokens (left : List Token) :
    decodeCloseLease (encodeAll (closeLeaseTokens body ++ left)) = .ok (body, encodeAll left) := by
  have reason := body.reason.toWire_le
  unfold decodeCloseLease closeLeaseTokens
  simp only [List.cons_append, List.nil_append]
  rw [entries_then (by decide), key_then (by decide), bytes_then (by rw [FixedBytes.size]; decide), fixed_then,
    key_then (by decide), u8_then (by omega), named_then (closeReasonOf_eq.mpr rfl)]
  rfl

end

section
variable {body : ExchangeBody} (legal : body.Legal)

theorem exchangeTokens_item (levels : Nat) (body : ExchangeBody) : IsItem (levels + 2) (exchangeTokens body) :=
  .leaf rfl rfl <| .leaf rfl rfl <| .leaf rfl rfl <| .leaf rfl rfl <|
    .leaf rfl rfl <| .leaf rfl rfl <| .leaf rfl rfl .nil

include legal

theorem exchangeTokens_fits : ∀ t ∈ exchangeTokens body, t.Fits := by
  have session := validSessionId_length legal.sessionId
  have generation := safeInteger_small legal.processGeneration
  have epoch := safeInteger_small legal.listenerEpoch
  have message := legal.message.2
  have effect := body.sideEffect.code_le
  simp [exchangeTokens, Token.Fits, Text.valid, FixedBytes.size]
  omega

omit legal in
/-- How long the body of an exchange is. -/
theorem exchangeTokens_size (body : ExchangeBody) : (encodeAll (exchangeTokens body)).length =
    77 + (headLength body.sessionId.bytes.length + body.sessionId.bytes.length) + headLength body.processGeneration
      + headLength body.listenerEpoch + (headLength body.message.length + body.message.length) := by
  have code : headLength body.sideEffect.code = 1 := if_pos (by have := body.sideEffect.code_le; omega)
  rw [encodeAll_length]
  simp only [exchangeTokens, List.map_cons, List.map_nil, List.sum_cons, List.sum_nil, Token.size, Token.headArgument, Token.payload,
    FixedBytes.size, code, List.length_nil, show headLength 7 = 1 from rfl, show headLength 0 = 1 from rfl,
    show headLength 1 = 1 from rfl, show headLength 32 = 2 from rfl, show headLength 2 = 1 from rfl, show headLength 3 = 1 from rfl,
    show headLength 4 = 1 from rfl, show headLength 5 = 1 from rfl, show headLength 6 = 1 from rfl]
  omega

/-- With the longest envelope this is the cap. -/
theorem exchangeTokens_length : (encodeAll (exchangeTokens body)).length ≤ 16777446 := by
  have session := validSessionId_length legal.sessionId
  have message := legal.message.2
  have headed : headLength body.sessionId.bytes.length ≤ 2 := headLength_le session
  have headed' : headLength body.message.length ≤ 5 := headLength_le message
  have generation := headLength_le_nine body.processGeneration
  have epoch := headLength_le_nine body.listenerEpoch
  rw [exchangeTokens_size]
  omega

theorem decodeExchange_tokens (left : List Token) :
    decodeExchange (encodeAll (exchangeTokens body ++ left)) = .ok (body, encodeAll left) := by
  have session := validSessionId_length legal.sessionId
  have generation := safeInteger_small legal.processGeneration
  have epoch := safeInteger_small legal.listenerEpoch
  have message := legal.message.2
  have effect := body.sideEffect.code_le
  unfold decodeExchange exchangeTokens requireSessionId requireSafeInteger
  simp only [List.cons_append, List.nil_append]
  rw [entries_then (by decide), key_then (by decide), bytes_then (by rw [FixedBytes.size]; decide), fixed_then,
    key_then (by decide), text_then (by omega), require_then legal.sessionId, key_then (by decide), u64_then generation,
    require_then legal.processGeneration, key_then (by decide), u64_then epoch, require_then legal.listenerEpoch,
    key_then (by decide), bytes_then (by omega), require_then legal.message, key_then (by decide),
    bytes_then (by rw [FixedBytes.size]; decide), fixed_then, key_then (by decide), u8_then (by omega),
    named_then (sideEffectOf_eq.mpr rfl)]
  rfl

end

/-! ## The stream of an opening -/

theorem texts_elements (levels : Nat) (texts : List Text) :
    Elements (IsItem (levels + 1)) texts.length (texts.map fun value => .text value.bytes) := by
  induction texts with
  | nil => exact .nil
  | cons value texts ih => exact .leaf rfl ih

theorem payloads_texts {texts : List Text} {bound : Nat} (small : ∀ value ∈ texts, value.bytes.length ≤ bound) :
    payloads (texts.map fun value => .text value.bytes) ≤ bound * texts.length := by
  induction texts with
  | nil => simp
  | cons value texts ih =>
      obtain ⟨first, others⟩ := List.forall_mem_cons.mp small
      have rest := ih others
      rw [List.map_cons, payloads_cons, Token.payload, List.length_cons, Nat.mul_succ]
      omega

theorem readCapabilities_tokens {previous : Option Text} {capabilities : List Text}
    (valid : ∀ capability ∈ capabilities, validCapability capability.bytes)
    (increasing : (previous.toList ++ capabilities).IsChain fun before after => bytesLt before.bytes after.bytes) (left : List Token) :
    readCapabilities capabilities.length previous (encodeAll (capabilities.map (fun capability => .text capability.bytes) ++ left)) =
      .ok (capabilities, encodeAll left) := by
  induction capabilities generalizing previous with
  | nil => rfl
  | cons capability capabilities ih =>
      obtain ⟨first, others⟩ := List.forall_mem_cons.mp valid
      have length := validCapability_length first
      have next : previous.all (fun before => bytesLt before.bytes capability.bytes) ∧
          ((some capability).toList ++ capabilities).IsChain fun before after => bytesLt before.bytes after.bytes := by
        cases previous with
        | none => exact ⟨rfl, increasing⟩
        | some before => exact List.isChain_cons_cons.mp increasing
      rw [List.length_cons, readCapabilities, List.map_cons, List.cons_append, text_then (by omega), require_then ⟨first, next.1⟩,
        bind_run (ih others next.2)]
      rfl

section
variable {entry key : Nat} {left : List Token}

theorem sessionEntry_some {sessionId : Text} (valid : validSessionId sessionId.bytes) (small : key < 2 ^ 8) :
    sessionEntry entry entry (encodeAll (.text sessionId.bytes :: .uint key :: left)) = .ok ((some sessionId, key), encodeAll left) := by
  have length := validSessionId_length valid
  unfold sessionEntry requireSessionId
  rw [if_pos rfl, text_then (by omega), require_then valid, u8_then small]
  rfl

theorem sessionEntry_none (other : key ≠ entry) {s : Bytes} : sessionEntry entry key s = .ok ((none, key), s) := by
  unfold sessionEntry
  rw [if_neg other]
  rfl

theorem openingEntries_none {request : Bytes} {digest : Digest} (size : request ≠ [] ∧ request.length ≤ 65536) :
    openingEntries none (encodeAll (openingTokens (some request) (some digest) ++ left)) =
      .ok ((some request, some digest), encodeAll left) := by
  unfold openingEntries openingTokens
  simp only [List.cons_append, List.nil_append]
  rw [Option.isNone_none, if_pos rfl, key_then (by decide), bytes_then (by omega), require_then size, key_then (by decide),
    bytes_then (by rw [FixedBytes.size]; decide), fixed_then]
  rfl

end

section
variable {body : OpenSessionBody} (legal : body.Legal)
include legal

theorem openTokens_item (levels : Nat) : IsItem (levels + 3) (openTokens (openEntries body) body) := by
  have capabilities := texts_elements levels body.requiredCapabilities
  unfold openTokens openEntries
  rcases legal.optional with ⟨sessionId, named, absent, absent'⟩ | ⟨unnamed, request, digest, opening, sealed⟩
  · rw [named, absent, absent']
    simp only [sessionTokens, openingTokens, List.cons_append, List.nil_append, Option.isSome_some, if_true]
    exact .leaf rfl rfl <| .leaf rfl rfl <| .nested rfl capabilities .nil
  · rw [unnamed, opening, sealed]
    simp only [sessionTokens, openingTokens, List.cons_append, List.nil_append, Option.isSome_none, Bool.false_eq_true, if_false]
    exact .leaf rfl rfl <| .nested rfl capabilities <| .leaf rfl rfl <|
      .leaf rfl rfl .nil

theorem openTokens_fits : ∀ t ∈ openTokens (openEntries body) body, t.Fits := by
  have entries : openEntries body ≤ 4 := by
    unfold openEntries
    split_ifs <;> decide
  have count := legal.count.2
  have capabilities : ∀ t ∈ body.requiredCapabilities.map (fun capability => Token.text capability.bytes), t.Fits := by
    intro t member
    obtain ⟨capability, listed, rfl⟩ := List.mem_map.mp member
    have length := validCapability_length (legal.capabilities capability listed)
    exact ⟨capability.valid, by omega⟩
  have start : ∀ t ∈ [Token.map (openEntries body), .uint 0, .bytes body.targetToken.bytes], t.Fits := by
    simp [Token.Fits, FixedBytes.size]
    omega
  have middle : ∀ t ∈ [Token.uint 2, .array body.requiredCapabilities.length], t.Fits := by
    simp [Token.Fits]
    omega
  simp only [openTokens, List.forall_mem_append]
  rcases legal.optional with ⟨sessionId, named, absent, absent'⟩ | ⟨unnamed, request, digest, opening, sealed⟩
  · have length := validSessionId_length (legal.sessionId sessionId named)
    rw [named, absent, absent']
    refine ⟨⟨⟨⟨start, ?_⟩, middle⟩, capabilities⟩, by simp [openingTokens]⟩
    simp [sessionTokens, Token.Fits, Text.valid]
    omega
  · have size := (legal.size request opening).2
    rw [unnamed, opening, sealed]
    refine ⟨⟨⟨⟨start, by simp [sessionTokens]⟩, middle⟩, capabilities⟩, ?_⟩
    simp [openingTokens, Token.Fits, FixedBytes.size]
    omega

theorem openTokens_length : (encodeAll (openTokens (openEntries body) body)).length ≤ 70281 := by
  have count := legal.count.2
  have capabilities : payloads (body.requiredCapabilities.map fun capability => .text capability.bytes) ≤
      128 * body.requiredCapabilities.length :=
    payloads_texts fun capability listed => validCapability_length (legal.capabilities capability listed)
  refine (encodeAll_length_le _).trans ?_
  simp only [openTokens, List.length_append, List.length_cons, List.length_nil, List.length_map, payloads_append, payloads_cons,
    payloads_nil, Token.payload, FixedBytes.size]
  rcases legal.optional with ⟨sessionId, named, absent, absent'⟩ | ⟨unnamed, request, digest, opening, sealed⟩
  · have length := validSessionId_length (legal.sessionId sessionId named)
    simp only [named, absent, absent', sessionTokens, openingTokens, List.length_cons, List.length_nil, payloads_cons, payloads_nil,
      Token.payload]
    omega
  · have size := (legal.size request opening).2
    simp only [unnamed, opening, sealed, sessionTokens, openingTokens, List.length_cons, List.length_nil, payloads_cons, payloads_nil,
      Token.payload, FixedBytes.size]
    omega

theorem decodeCapabilities_tokens (left : List Token) :
    decodeCapabilities (encodeAll (.array body.requiredCapabilities.length ::
        (body.requiredCapabilities.map (fun capability => .text capability.bytes) ++ left))) =
      .ok (body.requiredCapabilities, encodeAll left) := by
  have count := legal.count.2
  unfold decodeCapabilities
  rw [array_then (by omega)]
  dsimp only
  rw [require_then legal.count]
  have increasing : ((none : Option Text).toList ++ body.requiredCapabilities).IsChain _ := legal.increasing
  exact readCapabilities_tokens legal.capabilities increasing left

theorem decodeOpen_tokens (left : List Token) :
    decodeOpen (encodeAll (openTokens (openEntries body) body ++ left)) = .ok (body, encodeAll left) := by
  have entries : openEntries body < 2 ^ 64 ∧ (some (openEntries body) = some 3 ∨ some (openEntries body) = some 4) := by
    unfold openEntries
    split_ifs <;> decide
  have listed := decodeCapabilities_tokens legal
  unfold decodeOpen openTokens
  simp only [List.cons_append, List.nil_append, List.append_assoc]
  rw [map_then entries.1, require_then entries.2, key_then (by decide), bytes_then (by rw [FixedBytes.size]; decide), fixed_then]
  rcases legal.optional with ⟨sessionId, named, absent, absent'⟩ | ⟨unnamed, request, digest, opening, sealed⟩
  · rw [named, absent, absent']
    simp only [sessionTokens, openingTokens, List.cons_append, List.nil_append]
    rw [u8_then (by decide), bind_run (sessionEntry_some (legal.sessionId sessionId named) (by decide))]
    dsimp only
    rw [require_then rfl, bind_run (listed left)]
    obtain ⟨token, session, capabilities, request, digest⟩ := body
    cases named
    cases absent
    cases absent'
    rfl
  · rw [unnamed, opening, sealed]
    simp only [sessionTokens, List.nil_append]
    rw [u8_then (by decide), bind_run (sessionEntry_none (by decide))]
    dsimp only
    rw [require_then rfl, bind_run (listed _), bind_run (openingEntries_none (legal.size request opening))]
    obtain ⟨token, session, capabilities, request', digest'⟩ := body
    cases unnamed
    cases opening
    cases sealed
    rfl

end

/-! ## Whole requests -/

namespace ControlRequest

theorem operation_le (request : ControlRequest) : request.operation ≤ 4 := by
  cases request <;> simp [operation]

variable {request : ControlRequest} (legal : request.Legal)
include legal

theorem bodyTokens_item : IsItem 63 request.bodyTokens := by
  cases request with
  | prepare request => exact prepareTokens_item 61 _
  | openSession request => exact openTokens_item legal.body 60
  | exchange request => exact exchangeTokens_item 61 _
  | closeSession request => exact closeSessionTokens_item 61 _
  | closeLease request => exact closeLeaseTokens_item _ 61

theorem tokens_item : IsItem 64 request.tokens := by
  have last : Entries (IsItem 63) 1 (some 3) (.uint 4 :: (request.bodyTokens ++ [])) :=
    .cons rfl (bodyTokens_item legal) .nil
  rw [List.append_nil] at last
  exact .leaf rfl rfl <| .leaf rfl rfl <| .leaf rfl rfl <| .leaf rfl rfl last

theorem bodyTokens_fits : ∀ t ∈ request.bodyTokens, t.Fits := by
  cases request with
  | prepare request => exact prepareTokens_fits legal.body
  | openSession request => exact openTokens_fits legal.body
  | exchange request => exact exchangeTokens_fits legal.body
  | closeSession request => exact closeSessionTokens_fits legal.body
  | closeLease request => exact closeLeaseTokens_fits _

theorem tokens_fits : ∀ t ∈ request.tokens, t.Fits := by
  have deadline := safeInteger_small legal.deadline
  have operation := request.operation_le
  refine List.forall_mem_append.mpr ⟨?_, List.forall_mem_cons.mpr ⟨show 4 < 2 ^ 64 by decide, bodyTokens_fits legal⟩⟩
  simp [envelope, Token.Fits, FixedBytes.size]
  omega

/-- No cap of an operation is in the way of a legal request. -/
theorem tokens_length : (encodeAll request.tokens).length ≤ requestCap request.operation := by
  have start : (encodeAll (envelope request.requestId.bytes request.deadlineUnixMs request.operation)).length =
      24 + headLength request.deadlineUnixMs := envelope_length request.requestId.size request.operation_le
  have deadline := headLength_le_nine request.deadlineUnixMs
  have key : (Token.uint 4).encode.length = 1 := rfl
  rw [tokens, encodeAll_append, encodeAll_cons, List.length_append, List.length_append, start, key]
  cases request with
  | prepare request =>
      have := prepareTokens_length legal.body
      simp only [bodyTokens, operation, requestCap, nonExchangeCborCap]
      omega
  | openSession request =>
      have := openTokens_length legal.body
      simp only [bodyTokens, operation, requestCap, openSessionCborCap]
      omega
  | exchange request =>
      have := exchangeTokens_length legal.body
      simp only [bodyTokens, operation, requestCap, exchangeRequestCborCap]
      omega
  | closeSession request =>
      have := closeSessionTokens_length legal.body
      simp only [bodyTokens, operation, requestCap, nonExchangeCborCap]
      omega
  | closeLease request =>
      have := closeLeaseTokens_length request.body
      simp only [bodyTokens, operation, requestCap, nonExchangeCborCap]
      omega

theorem requestOperation_tokens : requestOperation (encodeAll request.tokens) = .ok request.operation := by
  have deadline := safeInteger_small legal.deadline
  have operation := request.operation_le
  refine run'_ok.mpr ⟨encodeAll (.uint 4 :: request.bodyTokens), ?_⟩
  unfold tokens envelope requireSafeInteger
  simp only [List.cons_append, List.nil_append]
  rw [entries_then (by decide), key_then (by decide), key_then (by decide), key_then (by decide),
    bytes_then (by rw [FixedBytes.size]; decide), require_then request.requestId.size, key_then (by decide), u64_then deadline,
    require_then legal.deadline, key_then (by decide), u8_then (by omega), require_then operation]
  rfl

theorem decodeBody_tokens :
    decodeBody request.operation request.requestId request.deadlineUnixMs (encodeAll request.bodyTokens) = .ok (request, []) := by
  have whole : request.bodyTokens = request.bodyTokens ++ [] := (List.append_nil _).symm
  rw [whole]
  cases request with
  | prepare request => exact bind_run (decodePrepare_tokens legal.body [])
  | openSession request => exact bind_run (decodeOpen_tokens legal.body [])
  | exchange request => exact bind_run (decodeExchange_tokens legal.body [])
  | closeSession request => exact bind_run (decodeCloseSession_tokens legal.body [])
  | closeLease request => exact bind_run (decodeCloseLease_tokens request.body [])

theorem decodeRequest_tokens : decodeRequest (encodeAll request.tokens) request.operation = .ok request := by
  have deadline := safeInteger_small legal.deadline
  have operation := request.operation_le
  refine run'_ok.mpr ⟨[], ?_⟩
  unfold tokens envelope requireSafeInteger
  simp only [List.cons_append, List.nil_append]
  rw [entries_then (by decide), key_then (by decide), key_then (by decide), key_then (by decide),
    bytes_then (by rw [FixedBytes.size]; decide), fixed_then, key_then (by decide), u64_then deadline,
    require_then legal.deadline, key_then (by decide), key_then (by omega), key_then (by decide), bind_run (decodeBody_tokens legal)]
  rfl

theorem decode_packet : decodeRequestPacket request.packet = .ok request := by
  have small := tokens_length legal
  have known := small.trans (requestCap_le_global request.operation)
  refine decodeRequestPacket_ok.mpr ⟨_, _, unframe_ok.mpr ⟨rfl, ?_, known⟩, ?_, requestOperation_tokens legal, small,
    decodeRequest_tokens legal⟩
  · exact mt encodeAll_eq_nil.mp (by simp [tokens, envelope])
  · exact (validateDeterministicCbor_ok (by unfold globalCborCap at known; omega)).mpr
      ⟨_, tokens_item legal, tokens_fits legal, rfl⟩

end ControlRequest

end AppPilotKit.Control
