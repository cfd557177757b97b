import AppPilotKit.Control.LegalRequests

/-! # Results have one encoding

A success is written and read under the same limits, and its digest is compared on both sides.
A failure keeps everything but a message that is not in stock.
-/

namespace AppPilotKit.Control

open Wire Transport Cbor
open Broker (ControlFailure ErrorKind ErrorStage Digest)
open Raw (Text)

/-! ## Codes -/

theorem handoffOf_eq {code : Nat} {handoff : HandoffState} : handoffOf code = some handoff ↔ code = handoff.toWire := by
  constructor
  · unfold handoffOf
    split <;> rintro ⟨⟩ <;> rfl
  · rintro rfl
    cases handoff <;> rfl

theorem errorKindOf_eq {code : Nat} {kind : ErrorKind} : errorKindOf code = some kind ↔ code = errorKindCode kind := by
  constructor
  · unfold errorKindOf
    split <;> rintro ⟨⟩ <;> rfl
  · rintro rfl
    cases kind <;> rfl

theorem errorStageOf_eq {code : Nat} {stage : ErrorStage} : errorStageOf code = some stage ↔ code = errorStageCode stage := by
  constructor
  · unfold errorStageOf
    split <;> rintro ⟨⟩ <;> rfl
  · rintro rfl
    cases stage <;> rfl

theorem errorKindCode_le (kind : ErrorKind) : errorKindCode kind ≤ 4 := by
  cases kind <;> decide

theorem errorStageCode_le (stage : ErrorStage) : errorStageCode stage ≤ 7 := by
  cases stage <;> decide

/-! ## Streams of the results -/

namespace ControlSuccess

def kind : ControlSuccess → Nat
  | targetReady _ => 0
  | sessionOpened _ => 1
  | exchangeComplete _ => 2
  | closed _ => 3

def entries : ControlSuccess → Nat
  | targetReady _ => 6
  | sessionOpened _ => 7
  | exchangeComplete _ => 8
  | closed value => if value.sessionId.isSome then 4 else 3

/-- What follows the kind. -/
def fields : ControlSuccess → List Token
  | targetReady ready =>
      [.uint 1, .bytes ready.targetToken.bytes, .uint 3, .uint ready.processGeneration, .uint 4, .uint ready.listenerEpoch,
        .uint 5, .uint ready.issuedAtUnixMs, .uint 6, .uint ready.expiresAtUnixMs]
  | sessionOpened opened =>
      [.uint 1, .bytes opened.targetToken.bytes, .uint 2, .bytes opened.response, .uint 3, .bytes opened.responseSha256.bytes,
        .uint 4, .uint opened.processGeneration, .uint 5, .uint opened.listenerEpoch, .uint 6, .uint opened.handoff.toWire]
  | exchangeComplete exchange =>
      [.uint 1, .bytes exchange.targetToken.bytes, .uint 2, .text exchange.sessionId.bytes, .uint 3, .uint exchange.processGeneration,
        .uint 4, .uint exchange.listenerEpoch, .uint 5, .bytes exchange.message, .uint 6, .bytes exchange.messageSha256.bytes,
        .uint 7, .uint exchange.handoff.toWire]
  | closed value =>
      [.uint 1, .bytes value.targetToken.bytes] ++ sessionTokens 2 value.sessionId ++ [.uint 7, .uint value.handoff.toWire]

/-- The stream of a success, with the number of entries that it announces. -/
def tokens (count : Nat) (success : ControlSuccess) : List Token :=
  .map count :: .uint 0 :: .uint success.kind :: success.fields

/-- A success whose fields are within the limits. -/
def Legal (sha256 : Bytes → Digest) : ControlSuccess → Prop
  | targetReady ready =>
      (safeInteger ready.processGeneration ∧ safeInteger ready.listenerEpoch ∧ safeInteger ready.issuedAtUnixMs ∧
        safeInteger ready.expiresAtUnixMs) ∧ expiresAfterTtl ready.issuedAtUnixMs ready.expiresAtUnixMs
  | sessionOpened opened =>
      (opened.response ≠ [] ∧ opened.response.length ≤ 65536) ∧ opened.responseSha256 = sha256 opened.response ∧
        safeInteger opened.processGeneration ∧ safeInteger opened.listenerEpoch
  | exchangeComplete exchange =>
      (validSessionId exchange.sessionId.bytes ∧ safeInteger exchange.processGeneration ∧ safeInteger exchange.listenerEpoch) ∧
        (exchange.message ≠ [] ∧ exchange.message.length ≤ 67108864) ∧ exchange.messageSha256 = sha256 exchange.message
  | closed value => ∀ sessionId ∈ value.sessionId, validSessionId sessionId.bytes

end ControlSuccess

theorem refused_ok {bad : Prop} [Decidable bad] {failure : ControlFailure} {next : Except ControlFailure Unit} :
    (if bad then .error failure else next) = .ok () ↔ ¬ bad ∧ next = .ok () := by
  split
  · rename_i held
    exact ⟨nofun, fun h => absurd held h.1⟩
  · rename_i fine
    exact ⟨fun h => ⟨fine, h⟩, fun h => h.2⟩

/-- The check before writing is the one after reading. -/
theorem validateSuccess_ok {sha256 : Bytes → Digest} {success : ControlSuccess} :
    validateSuccess sha256 success = .ok () ↔ success.Legal sha256 := by
  cases success with
  | targetReady ready =>
      dsimp only [validateSuccess, ControlSuccess.Legal]
      rw [refused_ok, refused_ok]
      simp only [not_or, not_not, and_true]
  | sessionOpened opened =>
      dsimp only [validateSuccess, ControlSuccess.Legal]
      rw [refused_ok, refused_ok, refused_ok]
      simp only [not_or, not_not, not_lt, and_true, ne_eq]
  | exchangeComplete exchange =>
      dsimp only [validateSuccess, ControlSuccess.Legal]
      rw [refused_ok, refused_ok, refused_ok]
      simp only [not_or, not_not, not_lt, and_true, ne_eq]
  | closed value =>
      dsimp only [validateSuccess, ControlSuccess.Legal]
      cases value.sessionId with
      | none => simp
      | some sessionId => simp

/-- The stream of a failure with the message that travels. -/
def failureTokens (failure : ControlFailure) (message : Bytes) : List Token :=
  [.map 6, .uint 0, .uint (errorKindCode failure.kind), .uint 1, .text message, .uint 2, .bool failure.retryable,
    .uint 3, .uint (errorStageCode failure.stage), .uint 4, .uint failure.handoff.toWire, .uint 5, .uint failure.closeReason.toWire]

def resultTokens (requestId : FixedBytes 16) (succeeded : Bool) (body : List Token) : List Token :=
  [.map 4, .uint 0, .uint 1, .uint 1, .bytes requestId.bytes, .uint 2, .bool succeeded, .uint 3] ++ body

/-! ## What a decoder accepts -/

theorem replaced_ok {message s s' : Bytes} {stock : String} :
    replaced message s = .ok (stock, s') ↔ stockMessage message = some stock ∧ s' = s := by
  unfold replaced
  cases found : stockMessage message with
  | none =>
      refine ⟨fun h => absurd h reject_ok, ?_⟩
      rintro ⟨h, -⟩
      cases h
  | some other =>
      refine pure_ok.trans ⟨?_, ?_⟩
      · rintro ⟨rfl, rfl⟩
        exact ⟨rfl, rfl⟩
      · rintro ⟨h, rfl⟩
        cases h
        exact ⟨rfl, rfl⟩

section
variable {sha256 : Bytes → Digest} {tokens : List Token} {rest : Bytes} {success : ControlSuccess} (fits : ∀ t ∈ tokens, t.Fits)
include fits

theorem decodeTargetReady_ok (h : decodeTargetReady (encodeAll tokens) = .ok (success, rest)) :
    success.kind = 0 ∧ success.entries = 6 ∧ success.Legal sha256 ∧ ∃ left, tokens = success.fields ++ left ∧ rest = encodeAll left := by
  obtain ⟨t₁, rfl, fits₁, h₁⟩ := key_step fits h
  obtain ⟨_, t₂, rfl, fits₂, h₂⟩ := bytes_step fits₁ h₁
  obtain ⟨targetToken, rfl, h₃⟩ := fixed_step h₂
  obtain ⟨t₃, rfl, fits₃, h₄⟩ := key_step fits₂ h₃
  obtain ⟨generation, t₄, rfl, fits₄, h₅⟩ := u64_step fits₃ h₄
  obtain ⟨safe, h₆⟩ := require_step h₅
  obtain ⟨t₅, rfl, fits₅, h₇⟩ := key_step fits₄ h₆
  obtain ⟨epoch, t₆, rfl, fits₆, h₈⟩ := u64_step fits₅ h₇
  obtain ⟨epochSafe, h₉⟩ := require_step h₈
  obtain ⟨t₇, rfl, fits₇, h₁₀⟩ := key_step fits₆ h₉
  obtain ⟨issued, t₈, rfl, fits₈, h₁₁⟩ := u64_step fits₇ h₁₀
  obtain ⟨issuedSafe, h₁₂⟩ := require_step h₁₁
  obtain ⟨t₉, rfl, fits₉, h₁₃⟩ := key_step fits₈ h₁₂
  obtain ⟨expires, t₁₀, rfl, fits₁₀, h₁₄⟩ := u64_step fits₉ h₁₃
  obtain ⟨expiresSafe, h₁₅⟩ := require_step h₁₄
  obtain ⟨ttl, h₁₆⟩ := require_step h₁₅
  obtain ⟨rfl, rfl⟩ := pure_ok.mp h₁₆
  exact ⟨rfl, rfl, ⟨⟨safe, epochSafe, issuedSafe, expiresSafe⟩, ttl⟩, t₁₀, rfl, rfl⟩

theorem decodeSessionOpened_ok (h : decodeSessionOpened sha256 (encodeAll tokens) = .ok (success, rest)) :
    success.kind = 1 ∧ success.entries = 7 ∧ success.Legal sha256 ∧ ∃ left, tokens = success.fields ++ left ∧ rest = encodeAll left := by
  obtain ⟨t₁, rfl, fits₁, h₁⟩ := key_step fits h
  obtain ⟨_, t₂, rfl, fits₂, h₂⟩ := bytes_step fits₁ h₁
  obtain ⟨targetToken, rfl, h₃⟩ := fixed_step h₂
  obtain ⟨t₃, rfl, fits₃, h₄⟩ := key_step fits₂ h₃
  obtain ⟨response, t₄, rfl, fits₄, h₅⟩ := bytes_step fits₃ h₄
  obtain ⟨size, h₆⟩ := require_step h₅
  obtain ⟨t₅, rfl, fits₅, h₇⟩ := key_step fits₄ h₆
  obtain ⟨_, t₆, rfl, fits₆, h₈⟩ := bytes_step fits₅ h₇
  obtain ⟨digest, rfl, h₉⟩ := fixed_step h₈
  obtain ⟨sealed, h₁₀⟩ := require_step h₉
  obtain ⟨t₇, rfl, fits₇, h₁₁⟩ := key_step fits₆ h₁₀
  obtain ⟨generation, t₈, rfl, fits₈, h₁₂⟩ := u64_step fits₇ h₁₁
  obtain ⟨safe, h₁₃⟩ := require_step h₁₂
  obtain ⟨t₉, rfl, fits₉, h₁₄⟩ := key_step fits₈ h₁₃
  obtain ⟨epoch, t₁₀, rfl, fits₁₀, h₁₅⟩ := u64_step fits₉ h₁₄
  obtain ⟨safe', h₁₆⟩ := require_step h₁₅
  obtain ⟨t₁₁, rfl, fits₁₁, h₁₇⟩ := key_step fits₁₀ h₁₆
  obtain ⟨code, t₁₂, -, rfl, fits₁₂, h₁₈⟩ := u8_step fits₁₁ h₁₇
  obtain ⟨handoff, known, h₁₉⟩ := named_step h₁₈
  obtain ⟨rfl, rfl⟩ := pure_ok.mp h₁₉
  obtain rfl := handoffOf_eq.mp known
  exact ⟨rfl, rfl, ⟨size, sealed, safe, safe'⟩, t₁₂, rfl, rfl⟩

theorem decodeExchangeComplete_ok (h : decodeExchangeComplete sha256 (encodeAll tokens) = .ok (success, rest)) :
    success.kind = 2 ∧ success.entries = 8 ∧ success.Legal sha256 ∧ ∃ left, tokens = success.fields ++ left ∧ rest = encodeAll left := by
  obtain ⟨t₁, rfl, fits₁, h₁⟩ := key_step fits h
  obtain ⟨_, t₂, rfl, fits₂, h₂⟩ := bytes_step fits₁ h₁
  obtain ⟨targetToken, rfl, h₃⟩ := fixed_step h₂
  obtain ⟨t₃, rfl, fits₃, h₄⟩ := key_step fits₂ h₃
  obtain ⟨sessionId, t₄, rfl, fits₄, h₅⟩ := text_step fits₃ h₄
  obtain ⟨session, h₆⟩ := require_step h₅
  obtain ⟨t₅, rfl, fits₅, h₇⟩ := key_step fits₄ h₆
  obtain ⟨generation, t₆, rfl, fits₆, h₈⟩ := u64_step fits₅ h₇
  obtain ⟨safe, h₉⟩ := require_step h₈
  obtain ⟨t₇, rfl, fits₇, h₁₀⟩ := key_step fits₆ h₉
  obtain ⟨epoch, t₈, rfl, fits₈, h₁₁⟩ := u64_step fits₇ h₁₀
  obtain ⟨safe', h₁₂⟩ := require_step h₁₁
  obtain ⟨t₉, rfl, fits₉, h₁₃⟩ := key_step fits₈ h₁₂
  obtain ⟨message, t₁₀, rfl, fits₁₀, h₁₄⟩ := bytes_step fits₉ h₁₃
  obtain ⟨size, h₁₅⟩ := require_step h₁₄
  obtain ⟨t₁₁, rfl, fits₁₁, h₁₆⟩ := key_step fits₁₀ h₁₅
  obtain ⟨_, t₁₂, rfl, fits₁₂, h₁₇⟩ := bytes_step fits₁₁ h₁₆
  obtain ⟨digest, rfl, h₁₈⟩ := fixed_step h₁₇
  obtain ⟨sealed, h₁₉⟩ := require_step h₁₈
  obtain ⟨t₁₃, rfl, fits₁₃, h₂₀⟩ := key_step fits₁₂ h₁₉
  obtain ⟨code, t₁₄, -, rfl, fits₁₄, h₂₁⟩ := u8_step fits₁₃ h₂₀
  obtain ⟨handoff, known, h₂₂⟩ := named_step h₂₁
  obtain ⟨rfl, rfl⟩ := pure_ok.mp h₂₂
  obtain rfl := handoffOf_eq.mp known
  exact ⟨rfl, rfl, ⟨⟨session, safe, safe'⟩, size, sealed⟩, t₁₄, rfl, rfl⟩

theorem decodeClosed_ok (h : decodeClosed (encodeAll tokens) = .ok (success, rest)) :
    (∃ closed, success = .closed closed) ∧ success.Legal sha256 ∧ ∃ left, tokens = success.fields ++ left ∧ rest = encodeAll left := by
  obtain ⟨t₁, rfl, fits₁, h₁⟩ := key_step fits h
  obtain ⟨_, t₂, rfl, fits₂, h₂⟩ := bytes_step fits₁ h₁
  obtain ⟨targetToken, rfl, h₃⟩ := fixed_step h₂
  obtain ⟨key, t₃, -, rfl, fits₃, h₄⟩ := u8_step fits₂ h₃
  obtain ⟨⟨sessionId, nextKey⟩, m, session, h₅⟩ := bind_ok.mp h₄
  obtain ⟨t₄, split, fits₄, rfl, valid⟩ := sessionEntry_ok fits₃ session
  obtain ⟨seven, h₆⟩ := require_step h₅
  obtain ⟨code, t₅, -, rfl, fits₅, h₇⟩ := u8_step fits₄ h₆
  obtain ⟨handoff, known, h₈⟩ := named_step h₇
  obtain ⟨rfl, rfl⟩ := pure_ok.mp h₈
  obtain rfl := handoffOf_eq.mp known
  cases seven
  rw [split]
  exact ⟨⟨_, rfl⟩, valid, t₅, by simp [ControlSuccess.fields], rfl⟩

theorem decodeSuccessBody_ok (h : decodeSuccessBody sha256 (encodeAll tokens) = .ok (success, rest)) :
    success.Legal sha256 ∧ ∃ count left, tokens = success.tokens count ++ left ∧ rest = encodeAll left ∧
      (count = success.entries ∨ ∃ closed, success = .closed closed) := by
  obtain ⟨count, t₁, rfl, fits₁, h₁⟩ := map_step fits h
  obtain ⟨t₂, rfl, fits₂, h₂⟩ := key_step fits₁ h₁
  obtain ⟨kind, t₃, -, rfl, fits₃, h₃⟩ := u8_step fits₂ h₂
  split_ifs at h₃ with ready opened complete closed
  · obtain ⟨same, entries, legal, left, rfl, rfl⟩ := decodeTargetReady_ok fits₃ h₃
    exact ⟨legal, count, left, by rw [ControlSuccess.tokens, same, ready.1]; rfl, rfl, .inl (ready.2.trans entries.symm)⟩
  · obtain ⟨same, entries, legal, left, rfl, rfl⟩ := decodeSessionOpened_ok fits₃ h₃
    exact ⟨legal, count, left, by rw [ControlSuccess.tokens, same, opened.1]; rfl, rfl, .inl (opened.2.trans entries.symm)⟩
  · obtain ⟨same, entries, legal, left, rfl, rfl⟩ := decodeExchangeComplete_ok fits₃ h₃
    exact ⟨legal, count, left, by rw [ControlSuccess.tokens, same, complete.1]; rfl, rfl, .inl (complete.2.trans entries.symm)⟩
  · obtain ⟨⟨value, rfl⟩, legal, left, rfl, rfl⟩ := decodeClosed_ok fits₃ h₃
    exact ⟨legal, count, left, by rw [ControlSuccess.tokens, closed.1]; rfl, rfl, .inr ⟨value, rfl⟩⟩
  · exact absurd h₃ reject_ok

theorem decodeFailureBody_ok {failure : ControlFailure} (h : decodeFailureBody (encodeAll tokens) = .ok (failure, rest)) :
    ∃ (message : Text) (left : List Token), tokens = failureTokens failure message.bytes ++ left ∧ rest = encodeAll left ∧
      stockMessage message.bytes = some failure.message := by
  obtain ⟨t₁, rfl, fits₁, h₁⟩ := entries_step fits h
  obtain ⟨t₂, rfl, fits₂, h₂⟩ := key_step fits₁ h₁
  obtain ⟨code, t₃, -, rfl, fits₃, h₃⟩ := u8_step fits₂ h₂
  obtain ⟨kind, knownKind, h₄⟩ := named_step h₃
  obtain ⟨t₄, rfl, fits₄, h₅⟩ := key_step fits₃ h₄
  obtain ⟨found, t₅, rfl, fits₅, h₆⟩ := text_step fits₄ h₅
  obtain ⟨message, m, replacing, h₇⟩ := bind_ok.mp h₆
  obtain ⟨stock, rfl⟩ := replaced_ok.mp replacing
  obtain ⟨t₆, rfl, fits₆, h₈⟩ := key_step fits₅ h₇
  obtain ⟨retryable, t₇, rfl, fits₇, h₉⟩ := bool_step fits₆ h₈
  obtain ⟨t₈, rfl, fits₈, h₁₀⟩ := key_step fits₇ h₉
  obtain ⟨code', t₉, -, rfl, fits₉, h₁₁⟩ := u8_step fits₈ h₁₀
  obtain ⟨stage, knownStage, h₁₂⟩ := named_step h₁₁
  obtain ⟨t₁₀, rfl, fits₁₀, h₁₃⟩ := key_step fits₉ h₁₂
  obtain ⟨handoffCode, t₁₁, -, rfl, fits₁₁, h₁₄⟩ := u8_step fits₁₀ h₁₃
  obtain ⟨handoff, knownHandoff, h₁₅⟩ := named_step h₁₄
  obtain ⟨t₁₂, rfl, fits₁₂, h₁₆⟩ := key_step fits₁₁ h₁₅
  obtain ⟨reasonCode, t₁₃, -, rfl, fits₁₃, h₁₇⟩ := u8_step fits₁₂ h₁₆
  obtain ⟨reason, knownReason, h₁₈⟩ := named_step h₁₇
  obtain ⟨rfl, rfl⟩ := pure_ok.mp h₁₈
  obtain rfl := errorKindOf_eq.mp knownKind
  obtain rfl := errorStageOf_eq.mp knownStage
  obtain rfl := handoffOf_eq.mp knownHandoff
  obtain rfl := closeReasonOf_eq.mp knownReason
  exact ⟨found, t₁₃, rfl, rfl, stock⟩

end

/-- A closing has as many entries as it announces. -/
theorem closed_entries {requestId : FixedBytes 16} {count : Nat} {value : Closed}
    (balance : (resultTokens requestId true ((ControlSuccess.closed value).tokens count)).length =
      1 + announced (resultTokens requestId true ((ControlSuccess.closed value).tokens count))) :
    count = (ControlSuccess.closed value).entries := by
  cases named : value.sessionId with
  | none =>
      simp only [resultTokens, ControlSuccess.tokens, ControlSuccess.fields, named, sessionTokens, List.length_append,
        List.length_cons, List.length_nil, announced_append, announced_cons, announced_nil, Token.children] at balance
      rw [ControlSuccess.entries, named, Option.isSome_none, if_neg (by decide)]
      omega
  | some sessionId =>
      simp only [resultTokens, ControlSuccess.tokens, ControlSuccess.fields, named, sessionTokens, List.length_append,
        List.length_cons, List.length_nil, announced_append, announced_cons, announced_nil, Token.children] at balance
      rw [ControlSuccess.entries, named, Option.isSome_some, if_pos rfl]
      omega

/-- What the message of a failure becomes on the way. -/
def receivedMessage (message : String) : String := if message ∈ stockMessages then message else safeFailureMessage

theorem stock_plain : ∀ message ∈ stockMessages, plainMessage (utf8 message) := by
  decide

theorem stockMessage_utf8 {message : String} (plain : plainMessage (utf8 message)) :
    stockMessage (utf8 message) = some (receivedMessage message) := by
  have same {stock : String} : (utf8 stock == utf8 message) = true ↔ stock = message := by
    rw [beq_iff_eq]
    exact ⟨fun h => String.toList_inj.mp (utf8_inj h), fun h => h ▸ rfl⟩
  unfold stockMessage receivedMessage
  by_cases known : message ∈ stockMessages
  · rw [if_pos known]
    cases found : stockMessages.find? fun stock => utf8 stock == utf8 message with
    | none => exact absurd (same.mpr rfl) (by simpa using List.find?_eq_none.mp found message known)
    | some stock =>
        have hit := List.find?_some found
        rw [same.mp hit]
  · rw [if_neg known]
    cases found : stockMessages.find? fun stock => utf8 stock == utf8 message with
    | none => exact if_pos plain
    | some stock =>
        have listed := List.mem_of_find?_eq_some found
        have hit := List.find?_some found
        rw [same.mp hit] at listed
        exact absurd listed known

theorem stockMessage_some {bytes : Bytes} {stock : String} (known : stockMessage bytes = some stock) : plainMessage bytes := by
  unfold stockMessage at known
  split at known
  · rename_i message found
    have listed := stock_plain message (List.mem_of_find?_eq_some found)
    have hit := List.find?_some found
    rwa [show utf8 message = bytes from beq_iff_eq.mp hit] at listed
  · split at known
    · assumption
    · cases known

/-- Which item a result comes from. -/
theorem decodeResultPacket_ok {sha256 : Bytes → Digest} {packet : Bytes} {result : ControlResult} :
    decodeResultPacket sha256 packet = .ok result ↔
      ∃ cbor, unframe packet = .ok cbor ∧ validateDeterministicCbor cbor = .ok () ∧ (decodeResultItem sha256).run' cbor = .ok result := by
  unfold decodeResultPacket
  constructor
  · intro h
    obtain ⟨cbor, framed, h₁⟩ := Checks.bind_ok.mp h
    obtain ⟨⟨⟩, checked, h₂⟩ := Checks.bind_ok.mp h₁
    exact ⟨cbor, framed, checked, h₂⟩
  · rintro ⟨cbor, framed, checked, h⟩
    exact Checks.bind_ok.mpr ⟨cbor, framed, Checks.bind_ok.mpr ⟨(), checked, h⟩⟩

theorem decodeResultItem_ok {sha256 : Bytes → Digest} {tokens : List Token} {result : ControlResult} (fits : ∀ t ∈ tokens, t.Fits)
    (item : IsItem 64 tokens) (h : (decodeResultItem sha256).run' (encodeAll tokens) = .ok result) :
    (∃ requestId success, result = .success requestId success ∧ success.Legal sha256 ∧
        tokens = resultTokens requestId true (success.tokens success.entries)) ∨
      ∃ requestId failure message, result = .failure requestId failure ∧ stockMessage message.bytes = some failure.message ∧
        tokens = resultTokens requestId false (failureTokens failure (Raw.Text.bytes message)) := by
  obtain ⟨rest, read⟩ := run'_ok.mp h
  have balance := item.balance
  obtain ⟨t₁, rfl, fits₁, h₁⟩ := entries_step fits read
  obtain ⟨t₂, rfl, fits₂, h₂⟩ := key_step fits₁ h₁
  obtain ⟨t₃, rfl, fits₃, h₃⟩ := key_step fits₂ h₂
  obtain ⟨t₄, rfl, fits₄, h₄⟩ := key_step fits₃ h₃
  obtain ⟨_, t₅, rfl, fits₅, h₅⟩ := bytes_step fits₄ h₄
  obtain ⟨requestId, rfl, h₆⟩ := fixed_step h₅
  obtain ⟨t₆, rfl, fits₆, h₇⟩ := key_step fits₅ h₆
  obtain ⟨succeeded, t₇, rfl, fits₇, h₈⟩ := bool_step fits₆ h₇
  obtain ⟨t₈, rfl, fits₈, h₉⟩ := key_step fits₇ h₈
  obtain ⟨found, m, decoded, h₁₀⟩ := bind_ok.mp h₉
  cases succeeded with
  | true =>
      obtain ⟨success, m', body, done⟩ := bind_ok.mp decoded
      obtain ⟨rfl, rfl⟩ := pure_ok.mp done
      obtain ⟨legal, count, left, rfl, rfl, entries⟩ := decodeSuccessBody_ok fits₈ body
      obtain ⟨rfl, rfl⟩ := end_step h₁₀
      rw [List.append_nil] at balance ⊢
      refine .inl ⟨requestId, success, rfl, legal, ?_⟩
      rcases entries with rfl | ⟨value, rfl⟩
      · rfl
      · rw [closed_entries balance]
        rfl
  | false =>
      obtain ⟨failure, m', body, done⟩ := bind_ok.mp decoded
      obtain ⟨rfl, rfl⟩ := pure_ok.mp done
      obtain ⟨message, left, rfl, rfl, stock⟩ := decodeFailureBody_ok fits₈ body
      obtain ⟨rfl, rfl⟩ := end_step h₁₀
      exact .inr ⟨requestId, failure, message, rfl, stock, by rw [List.append_nil]; rfl⟩

/-! ## Every legal success can be written -/

theorem encodeSuccessBody_eq (success : ControlSuccess) : encodeSuccessBody success = encodeAll (success.tokens success.entries) := by
  cases success with
  | targetReady ready =>
      simp [encodeSuccessBody, ControlSuccess.tokens, ControlSuccess.fields, ControlSuccess.entries, ControlSuccess.kind, Token.encode]
  | sessionOpened opened =>
      simp [encodeSuccessBody, ControlSuccess.tokens, ControlSuccess.fields, ControlSuccess.entries, ControlSuccess.kind, Token.encode]
  | exchangeComplete exchange =>
      simp [encodeSuccessBody, ControlSuccess.tokens, ControlSuccess.fields, ControlSuccess.entries, ControlSuccess.kind, Token.encode,
        text]
  | closed value =>
      cases named : value.sessionId with
      | none =>
          simp [encodeSuccessBody, ControlSuccess.tokens, ControlSuccess.fields, ControlSuccess.entries, ControlSuccess.kind, named,
            sessionTokens, Token.encode]
      | some sessionId =>
          simp [encodeSuccessBody, ControlSuccess.tokens, ControlSuccess.fields, ControlSuccess.entries, ControlSuccess.kind, named,
            sessionTokens, Token.encode, text]

theorem handoff_small (handoff : HandoffState) : handoff.toWire < 2 ^ 8 := by
  have := handoff.toWire_le
  omega

namespace ControlSuccess

variable {sha256 : Bytes → Digest} {success : ControlSuccess}

theorem tokens_item (levels : Nat) (success : ControlSuccess) : IsItem (levels + 2) (success.tokens success.entries) := by
  cases success with
  | targetReady ready =>
      exact .leaf rfl rfl <| .leaf rfl rfl <| .leaf rfl rfl <|
        .leaf rfl rfl <| .leaf rfl rfl <| .leaf rfl rfl .nil
  | sessionOpened opened =>
      exact .leaf rfl rfl <| .leaf rfl rfl <| .leaf rfl rfl <|
        .leaf rfl rfl <| .leaf rfl rfl <| .leaf rfl rfl <| .leaf rfl rfl .nil
  | exchangeComplete exchange =>
      exact .leaf rfl rfl <| .leaf rfl rfl <| .leaf rfl rfl <|
        .leaf rfl rfl <| .leaf rfl rfl <| .leaf rfl rfl <|
        .leaf rfl rfl <| .leaf rfl rfl .nil
  | closed value =>
      unfold tokens fields entries
      dsimp only
      cases value.sessionId with
      | none =>
          exact .leaf rfl rfl <| .leaf rfl rfl <| .leaf rfl rfl .nil
      | some sessionId =>
          exact .leaf rfl rfl <| .leaf rfl rfl <| .leaf rfl rfl <|
            .leaf rfl rfl .nil

theorem tokens_fits (legal : success.Legal sha256) : ∀ t ∈ success.tokens success.entries, t.Fits := by
  cases success with
  | targetReady ready =>
      obtain ⟨⟨generation, epoch, issued, expires⟩, -⟩ := legal
      have small := (⟨safeInteger_small generation, safeInteger_small epoch, safeInteger_small issued, safeInteger_small expires⟩ :
        _ ∧ _ ∧ _ ∧ _)
      simp [tokens, fields, kind, entries, Token.Fits, FixedBytes.size]
      omega
  | sessionOpened opened =>
      obtain ⟨⟨-, size⟩, -, generation, epoch⟩ := legal
      have small := (⟨safeInteger_small generation, safeInteger_small epoch, opened.handoff.toWire_le⟩ : _ ∧ _ ∧ _)
      simp [tokens, fields, kind, entries, Token.Fits, FixedBytes.size]
      omega
  | exchangeComplete exchange =>
      obtain ⟨⟨session, generation, epoch⟩, ⟨-, size⟩, -⟩ := legal
      have length := validSessionId_length session
      have small := (⟨safeInteger_small generation, safeInteger_small epoch, exchange.handoff.toWire_le⟩ : _ ∧ _ ∧ _)
      simp [tokens, fields, kind, entries, Token.Fits, Text.valid, FixedBytes.size]
      omega
  | closed value =>
      have small := value.handoff.toWire_le
      cases named : value.sessionId with
      | none =>
          simp [tokens, fields, kind, entries, named, sessionTokens, Token.Fits, FixedBytes.size]
          omega
      | some sessionId =>
          have length := validSessionId_length (legal sessionId named)
          simp [tokens, fields, kind, entries, named, sessionTokens, Token.Fits, Text.valid, FixedBytes.size]
          omega

end ControlSuccess

end AppPilotKit.Control
