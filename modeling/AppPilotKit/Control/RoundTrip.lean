import AppPilotKit.Control.Encoding
import AppPilotKit.Control.Fields

/-! # Requests have one encoding

A decoder reads a checked item token by token, so what it accepts is the stream of tokens that
the encoder writes. Only the number of entries of a map with optional members is not compared;
that an item announces as many tokens as it has settles it.
-/

namespace AppPilotKit.Control

open Wire Transport Cbor
open Broker (ControlFailure ErrorKind ErrorStage Platform Digest)
open Raw (Text)

/-! ## Codes -/

theorem platformOf_eq {code : Nat} {platform : Platform} : platformOf code = some platform ↔ code = platformCode platform := by
  constructor
  · unfold platformOf
    split <;> rintro ⟨⟩ <;> rfl
  · rintro rfl
    cases platform <;> rfl

theorem sideEffectOf_eq {code : Nat} {effect : SideEffect} : sideEffectOf code = some effect ↔ code = effect.code := by
  constructor
  · unfold sideEffectOf
    split <;> rintro ⟨⟩ <;> rfl
  · rintro rfl
    cases effect <;> rfl

theorem closeReasonOf_eq {code : Nat} {reason : CloseReason} : closeReasonOf code = some reason ↔ code = reason.toWire := by
  constructor
  · unfold closeReasonOf
    split <;> rintro ⟨⟩ <;> rfl
  · rintro rfl
    cases reason <;> rfl

/-! ## Streams of the bodies -/

def prepareTokens (body : PrepareBody) : List Token :=
  [.map 5, .uint 0, .uint (platformCode body.platform), .uint 1, .text body.deviceSelector.bytes, .uint 2, .text body.appId.bytes,
    .uint 3, .text body.appArtifact.bytes, .uint 4, .bytes body.appArtifactSha256.bytes]

/-- The entry of a session, if there is one. -/
def sessionTokens (entry : Nat) : Option Text → List Token
  | some sessionId => [.uint entry, .text sessionId.bytes]
  | none => []

def openingTokens : Option Bytes → Option Digest → List Token
  | some request, some digest => [.uint 3, .bytes request, .uint 4, .bytes digest.bytes]
  | _, _ => []

/-- The stream of an opening, with the number of entries that it announces. -/
def openTokens (count : Nat) (body : OpenSessionBody) : List Token :=
  [.map count, .uint 0, .bytes body.targetToken.bytes] ++ sessionTokens 1 body.sessionId
    ++ [.uint 2, .array body.requiredCapabilities.length] ++ body.requiredCapabilities.map (fun capability => .text capability.bytes)
    ++ openingTokens body.sessionOpenRequest body.sessionOpenRequestSha256

/-- The number of its entries. -/
def openEntries (body : OpenSessionBody) : Nat := if body.sessionId.isSome then 3 else 4

def exchangeTokens (body : ExchangeBody) : List Token :=
  [.map 7, .uint 0, .bytes body.targetToken.bytes, .uint 1, .text body.sessionId.bytes, .uint 2, .uint body.processGeneration,
    .uint 3, .uint body.listenerEpoch, .uint 4, .bytes body.message, .uint 5, .bytes body.messageSha256.bytes,
    .uint 6, .uint body.sideEffect.code]

def closeSessionTokens (body : CloseSessionBody) : List Token :=
  [.map 5, .uint 0, .bytes body.targetToken.bytes, .uint 1, .text body.sessionId.bytes, .uint 2, .uint body.processGeneration,
    .uint 3, .uint body.listenerEpoch, .uint 4, .uint body.reason.toWire]

def closeLeaseTokens (body : CloseLeaseBody) : List Token :=
  [.map 2, .uint 0, .bytes body.targetToken.bytes, .uint 1, .uint body.reason.toWire]

/-! ## Legal bodies -/

structure PrepareBody.Legal (body : PrepareBody) : Prop where
  deviceSelector : validDeviceSelector body.deviceSelector.bytes
  appId : validAppId body.appId.bytes
  appArtifact : validAppArtifact body.appArtifact.bytes

/-- A request to open a session names one that exists, or carries the request that opens it. -/
structure OpenSessionBody.Legal (body : OpenSessionBody) : Prop where
  sessionId : ∀ sessionId ∈ body.sessionId, validSessionId sessionId.bytes
  count : 1 ≤ body.requiredCapabilities.length ∧ body.requiredCapabilities.length ≤ 32
  capabilities : ∀ capability ∈ body.requiredCapabilities, validCapability capability.bytes
  increasing : body.requiredCapabilities.IsChain fun before after => bytesLt before.bytes after.bytes
  opening : body.sessionOpenRequest.isSome = body.sessionId.isNone
  digest : body.sessionOpenRequestSha256.isSome = body.sessionId.isNone
  size : ∀ request ∈ body.sessionOpenRequest, request ≠ [] ∧ request.length ≤ 65536

structure ExchangeBody.Legal (body : ExchangeBody) : Prop where
  sessionId : validSessionId body.sessionId.bytes
  processGeneration : safeInteger body.processGeneration
  listenerEpoch : safeInteger body.listenerEpoch
  message : body.message ≠ [] ∧ body.message.length ≤ 16777216

structure CloseSessionBody.Legal (body : CloseSessionBody) : Prop where
  sessionId : validSessionId body.sessionId.bytes
  processGeneration : safeInteger body.processGeneration
  listenerEpoch : safeInteger body.listenerEpoch

/-- The two kinds of an opening. -/
theorem OpenSessionBody.Legal.optional {body : OpenSessionBody} (legal : body.Legal) :
    (∃ sessionId, body.sessionId = some sessionId ∧ body.sessionOpenRequest = none ∧ body.sessionOpenRequestSha256 = none) ∨
      (body.sessionId = none ∧ ∃ request digest, body.sessionOpenRequest = some request ∧ body.sessionOpenRequestSha256 = some digest) := by
  have opening := legal.opening
  have digest := legal.digest
  cases named : body.sessionId with
  | none =>
      rw [named] at opening digest
      obtain ⟨request, opens⟩ := Option.isSome_iff_exists.mp opening
      obtain ⟨digest, seals⟩ := Option.isSome_iff_exists.mp digest
      exact .inr ⟨rfl, request, digest, opens, seals⟩
  | some sessionId =>
      rw [named] at opening digest
      exact .inl ⟨sessionId, rfl, by simpa using opening, by simpa using digest⟩

/-! ## What a decoder accepts -/

section
variable {tokens : List Token} {rest : Bytes} (fits : ∀ t ∈ tokens, t.Fits)
include fits

theorem decodePrepare_ok {body : PrepareBody} (h : decodePrepare (encodeAll tokens) = .ok (body, rest)) :
    ∃ left, tokens = prepareTokens body ++ left ∧ rest = encodeAll left ∧ body.Legal := by
  obtain ⟨t₁, rfl, fits₁, h₁⟩ := entries_step fits h
  obtain ⟨t₂, rfl, fits₂, h₂⟩ := key_step fits₁ h₁
  obtain ⟨platformCode, t₃, -, rfl, fits₃, h₃⟩ := u8_step fits₂ h₂
  obtain ⟨platform, known, h₄⟩ := named_step h₃
  obtain ⟨t₄, rfl, fits₄, h₅⟩ := key_step fits₃ h₄
  obtain ⟨deviceSelector, t₅, rfl, fits₅, h₆⟩ := text_step fits₄ h₅
  obtain ⟨selector, h₇⟩ := require_step h₆
  obtain ⟨t₆, rfl, fits₆, h₈⟩ := key_step fits₅ h₇
  obtain ⟨appId, t₇, rfl, fits₇, h₉⟩ := text_step fits₆ h₈
  obtain ⟨app, h₁₀⟩ := require_step h₉
  obtain ⟨t₈, rfl, fits₈, h₁₁⟩ := key_step fits₇ h₁₀
  obtain ⟨appArtifact, t₉, rfl, fits₉, h₁₂⟩ := text_step fits₈ h₁₁
  obtain ⟨artifact, h₁₃⟩ := require_step h₁₂
  obtain ⟨t₁₀, rfl, fits₁₀, h₁₄⟩ := key_step fits₉ h₁₃
  obtain ⟨digest, t₁₁, rfl, fits₁₁, h₁₅⟩ := bytes_step fits₁₀ h₁₄
  obtain ⟨array, rfl, h₁₆⟩ := fixed_step h₁₅
  obtain ⟨rfl, rfl⟩ := pure_ok.mp h₁₆
  obtain rfl := platformOf_eq.mp known
  exact ⟨t₁₁, rfl, rfl, selector, app, artifact⟩

omit fits in
theorem readCapabilities_ok {count : Nat} {previous : Option Text} {capabilities : List Text} {tokens : List Token}
    (fits : ∀ t ∈ tokens, t.Fits) (h : readCapabilities count previous (encodeAll tokens) = .ok (capabilities, rest)) :
    ∃ left, tokens = capabilities.map (fun capability => .text capability.bytes) ++ left ∧ (∀ t ∈ left, t.Fits) ∧
      rest = encodeAll left ∧ capabilities.length = count ∧ (∀ capability ∈ capabilities, validCapability capability.bytes) ∧
      (previous.toList ++ capabilities).IsChain fun before after => bytesLt before.bytes after.bytes := by
  induction count generalizing previous capabilities tokens with
  | zero =>
      obtain ⟨rfl, rfl⟩ := pure_ok.mp h
      refine ⟨tokens, rfl, fits, rfl, rfl, by simp, ?_⟩
      cases previous <;> simp
  | succ count ih =>
      obtain ⟨capability, t₁, rfl, fits₁, h₁⟩ := text_step fits h
      obtain ⟨⟨valid, after⟩, h₂⟩ := require_step h₁
      obtain ⟨others, m, read, h₃⟩ := bind_ok.mp h₂
      obtain ⟨rfl, rfl⟩ := pure_ok.mp h₃
      obtain ⟨left, rfl, fits₂, rfl, length, valid', increasing⟩ := ih fits₁ read
      refine ⟨left, rfl, fits₂, rfl, by rw [List.length_cons, length], List.forall_mem_cons.mpr ⟨valid, valid'⟩, ?_⟩
      cases previous with
      | none => exact increasing
      | some before => exact List.isChain_cons_cons.mpr ⟨after, increasing⟩

theorem decodeCapabilities_ok {capabilities : List Text} (h : decodeCapabilities (encodeAll tokens) = .ok (capabilities, rest)) :
    ∃ left, tokens = .array capabilities.length :: (capabilities.map (fun capability => .text capability.bytes) ++ left) ∧
      (∀ t ∈ left, t.Fits) ∧ rest = encodeAll left ∧ (1 ≤ capabilities.length ∧ capabilities.length ≤ 32) ∧
      (∀ capability ∈ capabilities, validCapability capability.bytes) ∧
      capabilities.IsChain fun before after => bytesLt before.bytes after.bytes := by
  obtain ⟨count, t₁, rfl, fits₁, h₁⟩ := array_step fits h
  obtain ⟨range, h₂⟩ := require_step h₁
  obtain ⟨left, rfl, fits₂, rfl, rfl, valid, increasing⟩ := readCapabilities_ok fits₁ h₂
  exact ⟨left, rfl, fits₂, rfl, range, valid, increasing⟩

theorem sessionEntry_ok {entry key : Nat} {found : Option Text × Nat} (h : sessionEntry entry key (encodeAll tokens) = .ok (found, rest)) :
    ∃ left, .uint key :: tokens = sessionTokens entry found.1 ++ .uint found.2 :: left ∧ (∀ t ∈ left, t.Fits) ∧
      rest = encodeAll left ∧ ∀ sessionId ∈ found.1, validSessionId sessionId.bytes := by
  unfold sessionEntry at h
  by_cases there : key = entry
  · rw [if_pos there] at h
    obtain ⟨value, t₁, rfl, fits₁, h₁⟩ := text_step fits h
    obtain ⟨valid, h₂⟩ := require_step h₁
    obtain ⟨nextKey, t₂, -, rfl, fits₂, h₃⟩ := u8_step fits₁ h₂
    obtain ⟨rfl, rfl⟩ := pure_ok.mp h₃
    subst there
    exact ⟨t₂, rfl, fits₂, rfl, by simpa using valid⟩
  · rw [if_neg there] at h
    obtain ⟨rfl, rfl⟩ := pure_ok.mp h
    exact ⟨tokens, rfl, fits, rfl, by simp⟩

theorem openingEntries_ok {sessionId : Option Text} {found : Option Bytes × Option Digest}
    (h : openingEntries sessionId (encodeAll tokens) = .ok (found, rest)) :
    ∃ left, tokens = openingTokens found.1 found.2 ++ left ∧ rest = encodeAll left ∧
      found.1.isSome = sessionId.isNone ∧ found.2.isSome = sessionId.isNone ∧
      ∀ request ∈ found.1, request ≠ [] ∧ request.length ≤ 65536 := by
  unfold openingEntries at h
  cases sessionId with
  | none =>
      rw [Option.isNone_none, if_pos rfl] at h
      obtain ⟨t₁, rfl, fits₁, h₁⟩ := key_step fits h
      obtain ⟨request, t₂, rfl, fits₂, h₂⟩ := bytes_step fits₁ h₁
      obtain ⟨size, h₃⟩ := require_step h₂
      obtain ⟨t₃, rfl, fits₃, h₄⟩ := key_step fits₂ h₃
      obtain ⟨_, t₄, rfl, fits₄, h₅⟩ := bytes_step fits₃ h₄
      obtain ⟨digest, rfl, h₆⟩ := fixed_step h₅
      obtain ⟨rfl, rfl⟩ := pure_ok.mp h₆
      exact ⟨t₄, rfl, rfl, rfl, rfl, by simpa using size⟩
  | some sessionId =>
      rw [Option.isNone_some, if_neg (by decide)] at h
      obtain ⟨rfl, rfl⟩ := pure_ok.mp h
      exact ⟨tokens, rfl, rfl, rfl, rfl, by simp⟩

theorem decodeOpen_ok {body : OpenSessionBody} (h : decodeOpen (encodeAll tokens) = .ok (body, rest)) :
    ∃ count left, tokens = openTokens count body ++ left ∧ rest = encodeAll left ∧ body.Legal := by
  obtain ⟨count, t₁, rfl, fits₁, h₁⟩ := map_step fits h
  obtain ⟨-, h₂⟩ := require_step h₁
  obtain ⟨t₂, rfl, fits₂, h₃⟩ := key_step fits₁ h₂
  obtain ⟨_, t₃, rfl, fits₃, h₄⟩ := bytes_step fits₂ h₃
  obtain ⟨targetToken, rfl, h₅⟩ := fixed_step h₄
  obtain ⟨nextKey, t₄, -, rfl, fits₄, h₆⟩ := u8_step fits₃ h₅
  obtain ⟨⟨sessionId, key⟩, m, session, h₇⟩ := bind_ok.mp h₆
  obtain ⟨t₅, split, fits₅, rfl, valid⟩ := sessionEntry_ok fits₄ session
  obtain ⟨two, h₈⟩ := require_step h₇
  obtain ⟨capabilities, m', listed, h₉⟩ := bind_ok.mp h₈
  obtain ⟨t₆, rfl, fits₆, rfl, range, legal, increasing⟩ := decodeCapabilities_ok fits₅ listed
  obtain ⟨⟨request, digest⟩, m'', opening, h₁₀⟩ := bind_ok.mp h₉
  obtain ⟨left, rfl, rfl, opens, digests, size⟩ := openingEntries_ok fits₆ opening
  obtain ⟨rfl, rfl⟩ := pure_ok.mp h₁₀
  cases two
  rw [split]
  exact ⟨count, left, by simp [openTokens], rfl, valid, range, legal, increasing, opens, digests, size⟩

theorem decodeExchange_ok {body : ExchangeBody} (h : decodeExchange (encodeAll tokens) = .ok (body, rest)) :
    ∃ left, tokens = exchangeTokens body ++ left ∧ rest = encodeAll left ∧ body.Legal := by
  obtain ⟨t₁, rfl, fits₁, h₁⟩ := entries_step fits h
  obtain ⟨t₂, rfl, fits₂, h₂⟩ := key_step fits₁ h₁
  obtain ⟨_, t₃, rfl, fits₃, h₃⟩ := bytes_step fits₂ h₂
  obtain ⟨targetToken, rfl, h₄⟩ := fixed_step h₃
  obtain ⟨t₄, rfl, fits₄, h₅⟩ := key_step fits₃ h₄
  obtain ⟨sessionId, t₅, rfl, fits₅, h₆⟩ := text_step fits₄ h₅
  obtain ⟨session, h₇⟩ := require_step h₆
  obtain ⟨t₆, rfl, fits₆, h₈⟩ := key_step fits₅ h₇
  obtain ⟨generation, t₇, rfl, fits₇, h₉⟩ := u64_step fits₆ h₈
  obtain ⟨safe, h₁₀⟩ := require_step h₉
  obtain ⟨t₈, rfl, fits₈, h₁₁⟩ := key_step fits₇ h₁₀
  obtain ⟨epoch, t₉, rfl, fits₉, h₁₂⟩ := u64_step fits₈ h₁₁
  obtain ⟨safe', h₁₃⟩ := require_step h₁₂
  obtain ⟨t₁₀, rfl, fits₁₀, h₁₄⟩ := key_step fits₉ h₁₃
  obtain ⟨message, t₁₁, rfl, fits₁₁, h₁₅⟩ := bytes_step fits₁₀ h₁₄
  obtain ⟨size, h₁₆⟩ := require_step h₁₅
  obtain ⟨t₁₂, rfl, fits₁₂, h₁₇⟩ := key_step fits₁₁ h₁₆
  obtain ⟨_, t₁₃, rfl, fits₁₃, h₁₈⟩ := bytes_step fits₁₂ h₁₇
  obtain ⟨digest, rfl, h₁₉⟩ := fixed_step h₁₈
  obtain ⟨t₁₄, rfl, fits₁₄, h₂₀⟩ := key_step fits₁₃ h₁₉
  obtain ⟨code, t₁₅, -, rfl, fits₁₅, h₂₁⟩ := u8_step fits₁₄ h₂₀
  obtain ⟨effect, known, h₂₂⟩ := named_step h₂₁
  obtain ⟨rfl, rfl⟩ := pure_ok.mp h₂₂
  obtain rfl := sideEffectOf_eq.mp known
  exact ⟨t₁₅, rfl, rfl, session, safe, safe', size⟩

theorem decodeCloseSession_ok {body : CloseSessionBody} (h : decodeCloseSession (encodeAll tokens) = .ok (body, rest)) :
    ∃ left, tokens = closeSessionTokens body ++ left ∧ rest = encodeAll left ∧ body.Legal := by
  obtain ⟨t₁, rfl, fits₁, h₁⟩ := entries_step fits h
  obtain ⟨t₂, rfl, fits₂, h₂⟩ := key_step fits₁ h₁
  obtain ⟨_, t₃, rfl, fits₃, h₃⟩ := bytes_step fits₂ h₂
  obtain ⟨targetToken, rfl, h₄⟩ := fixed_step h₃
  obtain ⟨t₄, rfl, fits₄, h₅⟩ := key_step fits₃ h₄
  obtain ⟨sessionId, t₅, rfl, fits₅, h₆⟩ := text_step fits₄ h₅
  obtain ⟨session, h₇⟩ := require_step h₆
  obtain ⟨t₆, rfl, fits₆, h₈⟩ := key_step fits₅ h₇
  obtain ⟨generation, t₇, rfl, fits₇, h₉⟩ := u64_step fits₆ h₈
  obtain ⟨safe, h₁₀⟩ := require_step h₉
  obtain ⟨t₈, rfl, fits₈, h₁₁⟩ := key_step fits₇ h₁₀
  obtain ⟨epoch, t₉, rfl, fits₉, h₁₂⟩ := u64_step fits₈ h₁₁
  obtain ⟨safe', h₁₃⟩ := require_step h₁₂
  obtain ⟨t₁₀, rfl, fits₁₀, h₁₄⟩ := key_step fits₉ h₁₃
  obtain ⟨code, t₁₁, -, rfl, fits₁₁, h₁₅⟩ := u8_step fits₁₀ h₁₄
  obtain ⟨reason, known, h₁₆⟩ := named_step h₁₅
  obtain ⟨rfl, rfl⟩ := pure_ok.mp h₁₆
  obtain rfl := closeReasonOf_eq.mp known
  exact ⟨t₁₁, rfl, rfl, session, safe, safe'⟩

theorem decodeCloseLease_ok {body : CloseLeaseBody} (h : decodeCloseLease (encodeAll tokens) = .ok (body, rest)) :
    ∃ left, tokens = closeLeaseTokens body ++ left ∧ rest = encodeAll left := by
  obtain ⟨t₁, rfl, fits₁, h₁⟩ := entries_step fits h
  obtain ⟨t₂, rfl, fits₂, h₂⟩ := key_step fits₁ h₁
  obtain ⟨_, t₃, rfl, fits₃, h₃⟩ := bytes_step fits₂ h₂
  obtain ⟨targetToken, rfl, h₄⟩ := fixed_step h₃
  obtain ⟨t₄, rfl, fits₄, h₅⟩ := key_step fits₃ h₄
  obtain ⟨code, t₅, -, rfl, fits₅, h₆⟩ := u8_step fits₄ h₅
  obtain ⟨reason, known, h₇⟩ := named_step h₆
  obtain ⟨rfl, rfl⟩ := pure_ok.mp h₇
  obtain rfl := closeReasonOf_eq.mp known
  exact ⟨t₅, rfl, rfl⟩

end

/-! ## Whole requests -/

namespace ControlRequest

def bodyTokens : ControlRequest → List Token
  | prepare request => prepareTokens request.body
  | openSession request => openTokens (openEntries request.body) request.body
  | exchange request => exchangeTokens request.body
  | closeSession request => closeSessionTokens request.body
  | closeLease request => closeLeaseTokens request.body

def tokens (request : ControlRequest) : List Token :=
  envelope request.requestId.bytes request.deadlineUnixMs request.operation ++ .uint 4 :: request.bodyTokens

def LegalBody : ControlRequest → Prop
  | prepare request => request.body.Legal
  | openSession request => request.body.Legal
  | exchange request => request.body.Legal
  | closeSession request => request.body.Legal
  | closeLease _ => True

/-- A request whose fields are within the limits. -/
structure Legal (request : ControlRequest) : Prop where
  deadline : safeInteger request.deadlineUnixMs
  body : request.LegalBody

end ControlRequest

/-- The last thing a decoder looks at is whether anything is left. -/
theorem end_step {α : Type} {request r : α} {tokens : List Token} {s' : Bytes}
    (h : (requireEnd >>= fun _ => pure request : Reader Bytes α) (encodeAll tokens) = .ok (r, s')) : tokens = [] ∧ r = request := by
  obtain ⟨_, m, ended, h₁⟩ := bind_ok.mp h
  obtain ⟨rest, m', got, h₂⟩ := bind_ok.mp ended
  cases got
  obtain ⟨empty, rfl⟩ := require_ok.mp h₂
  exact ⟨encodeAll_eq_nil.mp empty, (pure_ok.mp h₁).1⟩

theorem decodeBody_ok {tokens : List Token} {operation deadline : Nat} {requestId : FixedBytes 16} {request : ControlRequest} {rest : Bytes}
    (fits : ∀ t ∈ tokens, t.Fits) (h : decodeBody operation requestId deadline (encodeAll tokens) = .ok (request, rest)) :
    request.requestId = requestId ∧ request.deadlineUnixMs = deadline ∧ request.operation = operation ∧ request.LegalBody ∧
      ∃ body left, tokens = body ++ left ∧ rest = encodeAll left ∧
        (body = request.bodyTokens ∨ ∃ count opened, request = .openSession opened ∧ body = openTokens count opened.body) := by
  match operation, h with
  | 0, h =>
      obtain ⟨body, m, decoded, h₁⟩ := bind_ok.mp h
      obtain ⟨left, split, rfl, legal⟩ := decodePrepare_ok fits decoded
      obtain ⟨rfl, rfl⟩ := pure_ok.mp h₁
      exact ⟨rfl, rfl, rfl, legal, _, left, split, rfl, .inl rfl⟩
  | 1, h =>
      obtain ⟨body, m, decoded, h₁⟩ := bind_ok.mp h
      obtain ⟨count, left, split, rfl, legal⟩ := decodeOpen_ok fits decoded
      obtain ⟨rfl, rfl⟩ := pure_ok.mp h₁
      exact ⟨rfl, rfl, rfl, legal, _, left, split, rfl, .inr ⟨count, _, rfl, rfl⟩⟩
  | 2, h =>
      obtain ⟨body, m, decoded, h₁⟩ := bind_ok.mp h
      obtain ⟨left, split, rfl, legal⟩ := decodeExchange_ok fits decoded
      obtain ⟨rfl, rfl⟩ := pure_ok.mp h₁
      exact ⟨rfl, rfl, rfl, legal, _, left, split, rfl, .inl rfl⟩
  | 3, h =>
      obtain ⟨body, m, decoded, h₁⟩ := bind_ok.mp h
      obtain ⟨left, split, rfl, legal⟩ := decodeCloseSession_ok fits decoded
      obtain ⟨rfl, rfl⟩ := pure_ok.mp h₁
      exact ⟨rfl, rfl, rfl, legal, _, left, split, rfl, .inl rfl⟩
  | 4, h =>
      obtain ⟨body, m, decoded, h₁⟩ := bind_ok.mp h
      obtain ⟨left, split, rfl⟩ := decodeCloseLease_ok fits decoded
      obtain ⟨rfl, rfl⟩ := pure_ok.mp h₁
      exact ⟨rfl, rfl, rfl, trivial, _, left, split, rfl, .inl rfl⟩
  | _ + 5, h => exact absurd h (reject_ok (s := encodeAll tokens))

theorem decodeRequest_ok {tokens : List Token} {operation : Nat} {request : ControlRequest} (fits : ∀ t ∈ tokens, t.Fits)
    (h : decodeRequest (encodeAll tokens) operation = .ok request) :
    request.operation = operation ∧ request.Legal ∧
      ∃ body, tokens = envelope request.requestId.bytes request.deadlineUnixMs operation ++ .uint 4 :: body ∧
        (body = request.bodyTokens ∨ ∃ count opened, request = .openSession opened ∧ body = openTokens count opened.body) := by
  obtain ⟨rest, read⟩ := run'_ok.mp h
  obtain ⟨t₁, rfl, fits₁, h₁⟩ := entries_step fits read
  obtain ⟨t₂, rfl, fits₂, h₂⟩ := key_step fits₁ h₁
  obtain ⟨t₃, rfl, fits₃, h₃⟩ := key_step fits₂ h₂
  obtain ⟨t₄, rfl, fits₄, h₄⟩ := key_step fits₃ h₃
  obtain ⟨_, t₅, rfl, fits₅, h₅⟩ := bytes_step fits₄ h₄
  obtain ⟨requestId, rfl, h₆⟩ := fixed_step h₅
  obtain ⟨t₆, rfl, fits₆, h₇⟩ := key_step fits₅ h₆
  obtain ⟨deadline, t₇, rfl, fits₇, h₈⟩ := u64_step fits₆ h₇
  obtain ⟨safe, h₉⟩ := require_step h₈
  obtain ⟨t₈, rfl, fits₈, h₁₀⟩ := key_step fits₇ h₉
  obtain ⟨t₉, rfl, fits₉, h₁₁⟩ := key_step fits₈ h₁₀
  obtain ⟨t₁₀, rfl, fits₁₀, h₁₂⟩ := key_step fits₉ h₁₁
  obtain ⟨decoded, m, read', h₁₃⟩ := bind_ok.mp h₁₂
  obtain ⟨rfl, rfl, rfl, legal, body, left, rfl, rfl, which⟩ := decodeBody_ok fits₁₀ read'
  obtain ⟨rfl, rfl⟩ := end_step h₁₃
  exact ⟨rfl, ⟨safe, legal⟩, body, by rw [List.append_nil]; rfl, which⟩

theorem announced_texts (texts : List Text) : announced (texts.map fun value => .text value.bytes) = 0 := by
  induction texts with
  | nil => rfl
  | cons value texts ih => rw [List.map_cons, announced_cons, ih, Token.children]

/-- An opening has as many entries as it announces. -/
theorem openTokens_entries {before : List Token} {count : Nat} {body : OpenSessionBody} (legal : body.Legal)
    (known : before.length + 1 = 1 + announced before) (balance : (before ++ openTokens count body).length = 1 + announced (before ++ openTokens count body)) :
    count = openEntries body := by
  simp only [openTokens, List.length_append, List.length_cons, List.length_nil, List.length_map, announced_append,
    announced_texts, announced_cons, announced_nil, Token.children] at balance
  rcases legal.optional with ⟨sessionId, named, absent, absent'⟩ | ⟨unnamed, request, digest, opening, sealed⟩
  · simp only [named, absent, sessionTokens, openingTokens, List.length_cons, List.length_nil, announced_cons, announced_nil,
      Token.children] at balance
    rw [openEntries, named, Option.isSome_some, if_pos rfl]
    omega
  · simp only [unnamed, opening, sealed, sessionTokens, openingTokens, List.length_cons, List.length_nil, announced_cons,
      announced_nil, Token.children] at balance
    rw [openEntries, unnamed, Option.isSome_none, if_neg (by decide)]
    omega

theorem decodeRequest_tokens {tokens : List Token} {operation : Nat} {request : ControlRequest} (fits : ∀ t ∈ tokens, t.Fits)
    (item : IsItem 64 tokens) (h : decodeRequest (encodeAll tokens) operation = .ok request) :
    tokens = request.tokens ∧ request.operation = operation ∧ request.Legal := by
  obtain ⟨rfl, legal, body, split, which⟩ := decodeRequest_ok fits h
  refine ⟨?_, rfl, legal⟩
  rcases which with rfl | ⟨count, opened, rfl, rfl⟩
  · exact split
  · have balance := item.balance
    rw [split, List.append_cons] at balance
    have entries := openTokens_entries legal.body (by simp [envelope, Token.children, announced]) balance
    rw [split, entries]
    rfl

/-! ## What an encoder writes -/

theorem frame_of {tokens : List Token} {cap : Nat} (some : tokens ≠ []) (small : (encodeAll tokens).length ≤ cap)
    (global : (encodeAll tokens).length ≤ globalCborCap) :
    frame (encodeAll tokens) cap = .ok (be 4 (encodeAll tokens).length ++ encodeAll tokens) := by
  rw [frame, if_neg (mt encodeAll_eq_nil.mp some), if_neg (by omega)]

theorem requestCap_le_global (operation : Nat) : requestCap operation ≤ globalCborCap := by
  unfold requestCap
  split <;> decide

theorem encodePrepare_eq (body : PrepareBody) : encodePrepare body = encodeAll (prepareTokens body) := by
  simp [encodePrepare, prepareTokens, text, Token.encode]

theorem encodeExchange_eq (body : ExchangeBody) : encodeExchange body = encodeAll (exchangeTokens body) := by
  simp [encodeExchange, exchangeTokens, text, Token.encode]

theorem encodeCloseSession_eq (body : CloseSessionBody) : encodeCloseSession body = encodeAll (closeSessionTokens body) := by
  simp [encodeCloseSession, closeSessionTokens, text, Token.encode]

theorem encodeCloseLease_eq (body : CloseLeaseBody) : encodeCloseLease body = encodeAll (closeLeaseTokens body) := by
  simp [encodeCloseLease, closeLeaseTokens, Token.encode]

theorem texts_eq (texts : List Text) : texts.flatMap text = encodeAll (texts.map fun value => .text value.bytes) := by
  induction texts with
  | nil => rfl
  | cons value texts ih =>
      rw [List.flatMap_cons, List.map_cons, encodeAll_cons, ih]
      rfl

theorem encodeOpen_eq {body : OpenSessionBody} (legal : body.Legal) :
    encodeOpen body = .ok (encodeAll (openTokens (openEntries body) body)) := by
  unfold encodeOpen openTokens openEntries
  rcases legal.optional with ⟨sessionId, named, absent, absent'⟩ | ⟨unnamed, request, digest, opening, sealed⟩
  · rw [named, absent, absent']
    refine congrArg Except.ok ?_
    simp [sessionTokens, openingTokens, encodeAll_append, texts_eq, Token.encode, text]
  · rw [unnamed, opening, sealed]
    refine congrArg Except.ok ?_
    simp [sessionTokens, openingTokens, encodeAll_append, texts_eq, Token.encode]

namespace ControlRequest

variable {request : ControlRequest}

theorem encodeBody_eq (legal : request.LegalBody) : request.encodeBody = .ok (encodeAll request.bodyTokens) := by
  cases request with
  | prepare request => exact congrArg _ (encodePrepare_eq _)
  | openSession request => exact encodeOpen_eq legal
  | exchange request => exact congrArg _ (encodeExchange_eq _)
  | closeSession request => exact congrArg _ (encodeCloseSession_eq _)
  | closeLease request => exact congrArg _ (encodeCloseLease_eq _)

/-- The packet of a legal request. -/
def packet (request : ControlRequest) : Bytes := be 4 (encodeAll request.tokens).length ++ encodeAll request.tokens

theorem encode_of_decode (legal : request.Legal) (small : (encodeAll request.tokens).length ≤ requestCap request.operation)
    (decodes : decodeRequestPacket request.packet = .ok request) : encodeRequestPacket request = .ok request.packet := by
  have start : Cbor.map 5 ++ Cbor.uint 0 ++ Cbor.uint 1 ++ Cbor.uint 1 ++ Cbor.bytes request.requestId.bytes ++ Cbor.uint 2
      ++ Cbor.uint request.deadlineUnixMs ++ Cbor.uint 3 ++ Cbor.uint request.operation ++ Cbor.uint 4
      ++ encodeAll request.bodyTokens = encodeAll request.tokens := by
    simp [tokens, envelope, encodeAll_append, Token.encode]
  have framed : frame (encodeAll request.tokens) (requestCap request.operation) = .ok request.packet :=
    frame_of (by simp [tokens, envelope]) small (small.trans (requestCap_le_global _))
  unfold encodeRequestPacket
  refine Checks.bind_ok.mpr ⟨_, encodeBody_eq legal.body, Checks.bind_ok.mpr ⟨request.packet, ?_, ?_⟩⟩
  · rw [start, framed]
  · exact Checks.bind_ok.mpr ⟨request, decodes, if_neg (not_not.mpr rfl)⟩

end ControlRequest

/-- Each request has one accepted encoding, the one that the encoder writes. -/
theorem decodeRequestPacket_encode {packet : Bytes} {request : ControlRequest} (accepted : decodeRequestPacket packet = .ok request) :
    encodeRequestPacket request = .ok packet ∧ request.Legal := by
  obtain ⟨cbor, operation, framed, checked, named, capped, decoded⟩ := decodeRequestPacket_ok.mp accepted
  obtain ⟨split, -, small⟩ := unframe_ok.mp framed
  obtain ⟨tokens, item, fits, rfl⟩ := (validateDeterministicCbor_ok (by unfold globalCborCap at small; omega)).mp checked
  obtain ⟨rfl, rfl, legal⟩ := decodeRequest_tokens fits item decoded
  refine ⟨?_, legal⟩
  have whole : packet = request.packet := split
  rw [whole] at accepted ⊢
  exact ControlRequest.encode_of_decode legal capped accepted

end AppPilotKit.Control
