import AppPilotKit.Control.Packets
import AppPilotKit.Lib.Utf8

/-! # Writing control packets

Every encoder checks what it has written: a request and a success must decode to themselves.
-/

namespace AppPilotKit.Control

open Wire Transport
open Broker (ControlFailure ErrorKind ErrorStage Platform Token Digest)
open Raw (Text)

def frame (cbor : Bytes) (cap : Nat) : Except ControlFailure Bytes :=
  if cbor = [] then .error (ipc .internalError)
  else if cap < cbor.length ∨ globalCborCap < cbor.length then .error (ipc .oversize)
  else .ok (be 4 cbor.length ++ cbor)

def text (value : Text) : Bytes := Cbor.head 3 value.bytes.length ++ value.bytes

/-! ## Requests -/

def platformCode : Platform → Nat
  | .iosSimulator => 0
  | .androidEmulator => 1

def SideEffect.code : SideEffect → Nat
  | .readOnly => 0
  | .localWrite => 1
  | .appMutation => 2
  | .deviceMutation => 3

def encodePrepare (body : PrepareBody) : Bytes :=
  Cbor.map 5 ++ Cbor.uint 0 ++ Cbor.uint (platformCode body.platform) ++ Cbor.uint 1 ++ text body.deviceSelector
    ++ Cbor.uint 2 ++ text body.appId ++ Cbor.uint 3 ++ text body.appArtifact
    ++ Cbor.uint 4 ++ Cbor.bytes body.appArtifactSha256.bytes

/-- Without a session the request that opens it must be there, with its digest. -/
def encodeOpen (body : OpenSessionBody) : Except ControlFailure Bytes := do
  let start := Cbor.map (if body.sessionId.isSome then 3 else 4) ++ Cbor.uint 0 ++ Cbor.bytes body.targetToken.bytes
  let session := match body.sessionId with
    | some sessionId => Cbor.uint 1 ++ text sessionId
    | none => []
  let capabilities := Cbor.uint 2 ++ Cbor.array body.requiredCapabilities.length ++ body.requiredCapabilities.flatMap text
  let opening ←
    if body.sessionId.isNone then
      match body.sessionOpenRequest, body.sessionOpenRequestSha256 with
      | some request, some digest => .ok (Cbor.uint 3 ++ Cbor.bytes request ++ Cbor.uint 4 ++ Cbor.bytes digest.bytes)
      | _, _ => .error (ipc .malformed)
    else .ok []
  pure (start ++ session ++ capabilities ++ opening)

def encodeExchange (body : ExchangeBody) : Bytes :=
  Cbor.map 7 ++ Cbor.uint 0 ++ Cbor.bytes body.targetToken.bytes ++ Cbor.uint 1 ++ text body.sessionId
    ++ Cbor.uint 2 ++ Cbor.uint body.processGeneration ++ Cbor.uint 3 ++ Cbor.uint body.listenerEpoch
    ++ Cbor.uint 4 ++ Cbor.bytes body.message ++ Cbor.uint 5 ++ Cbor.bytes body.messageSha256.bytes
    ++ Cbor.uint 6 ++ Cbor.uint body.sideEffect.code

def encodeCloseSession (body : CloseSessionBody) : Bytes :=
  Cbor.map 5 ++ Cbor.uint 0 ++ Cbor.bytes body.targetToken.bytes ++ Cbor.uint 1 ++ text body.sessionId
    ++ Cbor.uint 2 ++ Cbor.uint body.processGeneration ++ Cbor.uint 3 ++ Cbor.uint body.listenerEpoch
    ++ Cbor.uint 4 ++ Cbor.uint body.reason.toWire

def encodeCloseLease (body : CloseLeaseBody) : Bytes :=
  Cbor.map 2 ++ Cbor.uint 0 ++ Cbor.bytes body.targetToken.bytes ++ Cbor.uint 1 ++ Cbor.uint body.reason.toWire

namespace ControlRequest

def requestId : ControlRequest → FixedBytes 16
  | prepare request => request.requestId
  | openSession request => request.requestId
  | exchange request => request.requestId
  | closeSession request => request.requestId
  | closeLease request => request.requestId

def deadlineUnixMs : ControlRequest → Nat
  | prepare request => request.deadlineUnixMs
  | openSession request => request.deadlineUnixMs
  | exchange request => request.deadlineUnixMs
  | closeSession request => request.deadlineUnixMs
  | closeLease request => request.deadlineUnixMs

def operation : ControlRequest → Nat
  | prepare _ => 0
  | openSession _ => 1
  | exchange _ => 2
  | closeSession _ => 3
  | closeLease _ => 4

def encodeBody : ControlRequest → Except ControlFailure Bytes
  | prepare request => .ok (encodePrepare request.body)
  | openSession request => encodeOpen request.body
  | exchange request => .ok (encodeExchange request.body)
  | closeSession request => .ok (encodeCloseSession request.body)
  | closeLease request => .ok (encodeCloseLease request.body)

end ControlRequest

def encodeRequestPacket (request : ControlRequest) : Except ControlFailure Bytes := do
  let start := Cbor.map 5 ++ Cbor.uint 0 ++ Cbor.uint 1 ++ Cbor.uint 1 ++ Cbor.bytes request.requestId.bytes
    ++ Cbor.uint 2 ++ Cbor.uint request.deadlineUnixMs ++ Cbor.uint 3 ++ Cbor.uint request.operation ++ Cbor.uint 4
  let body ← request.encodeBody
  let packet ← frame (start ++ body) (requestCap request.operation)
  let decoded ← decodeRequestPacket packet
  if decoded ≠ request then .error (ipc .internalError)
  else .ok packet

/-! ## Results -/

structure ReadyTarget where
  targetToken : Token
  processGeneration : Nat
  listenerEpoch : Nat
  issuedAtUnixMs : Nat
  expiresAtUnixMs : Nat
  deriving DecidableEq

structure SessionOpened where
  targetToken : Token
  response : Bytes
  responseSha256 : Digest
  processGeneration : Nat
  listenerEpoch : Nat
  handoff : HandoffState
  deriving DecidableEq

structure ExchangeComplete where
  targetToken : Token
  sessionId : Text
  processGeneration : Nat
  listenerEpoch : Nat
  message : Bytes
  messageSha256 : Digest
  handoff : HandoffState
  deriving DecidableEq

structure Closed where
  targetToken : Token
  sessionId : Option Text
  handoff : HandoffState
  deriving DecidableEq

inductive ControlSuccess where
  | targetReady (ready : ReadyTarget)
  | sessionOpened (opened : SessionOpened)
  | exchangeComplete (exchange : ExchangeComplete)
  | closed (closed : Closed)
  deriving DecidableEq

inductive ControlResult where
  | success (requestId : FixedBytes 16) (result : ControlSuccess)
  | failure (requestId : FixedBytes 16) (error : ControlFailure)
  deriving DecidableEq

def handoffOf : Nat → Option HandoffState
  | 0 => some .notHandedOff
  | 1 => some .handoffPossibleOrConfirmed
  | _ => none

def errorKindOf : Nat → Option ErrorKind
  | 0 => some .targetSelectionRequired
  | 1 => some .sessionExpired
  | 2 => some .transportAuthenticationRequired
  | 3 => some .timeout
  | 4 => some .internalError
  | _ => none

def errorStageOf : Nat → Option ErrorStage
  | 0 => some .ipc
  | 1 => some .prepare
  | 2 => some .bootstrap
  | 3 => some .sessionHandshake
  | 4 => some .sessionOpen
  | 5 => some .exchange
  | 6 => some .close
  | 7 => some .cleanup
  | _ => none

/-- The sum of two `u64` values is checked. -/
def expiresAfterTtl (issued expires : Nat) : Bool := Broker.checkedAdd issued readyReferenceTtlMs = some expires

section
variable (sha256 : Bytes → Digest)

def decodeTargetReady : Reader Bytes ControlSuccess := do
  requireKey 1
  let targetToken ← fixed 32 (← decoded Cbor.readBytes)
  requireKey 3
  let processGeneration ← decoded Cbor.readU64
  requireSafeInteger processGeneration
  requireKey 4
  let listenerEpoch ← decoded Cbor.readU64
  requireSafeInteger listenerEpoch
  requireKey 5
  let issuedAtUnixMs ← decoded Cbor.readU64
  requireSafeInteger issuedAtUnixMs
  requireKey 6
  let expiresAtUnixMs ← decoded Cbor.readU64
  requireSafeInteger expiresAtUnixMs
  require (expiresAfterTtl issuedAtUnixMs expiresAtUnixMs) .internalError
  pure (.targetReady { targetToken, processGeneration, listenerEpoch, issuedAtUnixMs, expiresAtUnixMs })

def decodeSessionOpened : Reader Bytes ControlSuccess := do
  requireKey 1
  let targetToken ← fixed 32 (← decoded Cbor.readBytes)
  requireKey 2
  let response ← decoded Cbor.readBytes
  require (response ≠ [] ∧ response.length ≤ 65536) .oversize
  requireKey 3
  let responseSha256 ← fixed 32 (← decoded Cbor.readBytes)
  require (responseSha256 = sha256 response) .bindingMismatch
  requireKey 4
  let processGeneration ← decoded Cbor.readU64
  requireSafeInteger processGeneration
  requireKey 5
  let listenerEpoch ← decoded Cbor.readU64
  requireSafeInteger listenerEpoch
  requireKey 6
  let handoff ← named handoffOf (← decoded Cbor.readU8)
  pure (.sessionOpened { targetToken, response, responseSha256, processGeneration, listenerEpoch, handoff })

def decodeExchangeComplete : Reader Bytes ControlSuccess := do
  requireKey 1
  let targetToken ← fixed 32 (← decoded Cbor.readBytes)
  requireKey 2
  let sessionId ← decoded readText
  requireSessionId sessionId
  requireKey 3
  let processGeneration ← decoded Cbor.readU64
  requireSafeInteger processGeneration
  requireKey 4
  let listenerEpoch ← decoded Cbor.readU64
  requireSafeInteger listenerEpoch
  requireKey 5
  let message ← decoded Cbor.readBytes
  require (message ≠ [] ∧ message.length ≤ 67108864) .oversize
  requireKey 6
  let messageSha256 ← fixed 32 (← decoded Cbor.readBytes)
  require (messageSha256 = sha256 message) .bindingMismatch
  requireKey 7
  let handoff ← named handoffOf (← decoded Cbor.readU8)
  pure (.exchangeComplete { targetToken, sessionId, processGeneration, listenerEpoch, message, messageSha256, handoff })

def decodeClosed : Reader Bytes ControlSuccess := do
  requireKey 1
  let targetToken ← fixed 32 (← decoded Cbor.readBytes)
  let (sessionId, key) ← sessionEntry 2 (← decoded Cbor.readU8)
  require (key = 7) .malformed
  let handoff ← named handoffOf (← decoded Cbor.readU8)
  pure (.closed { targetToken, sessionId, handoff })

/-- The number of entries must be that of the kind. -/
def decodeSuccessBody : Reader Bytes ControlSuccess := do
  let count ← decoded Cbor.readMap
  match count with
  | none => reject .malformed
  | some count => do
      requireKey 0
      let kind ← decoded Cbor.readU8
      if kind = 0 ∧ count = 6 then decodeTargetReady
      else if kind = 1 ∧ count = 7 then decodeSessionOpened sha256
      else if kind = 2 ∧ count = 8 then decodeExchangeComplete sha256
      else if kind = 3 ∧ (count = 3 ∨ count = 4) then decodeClosed
      else reject .malformed

/-- The failure messages that a peer may name. -/
def stockMessages : List String :=
  ["expired", "Broker control deadline expired", "Broker control authentication failed", "Broker control failed",
    "Broker control packet rejected", "Target selection is invalid", "Target session expired",
    "Target transport authentication failed", "Broker operation timed out", "Broker operation failed"]

def safeFailureMessage : String := "Peer returned a safe Broker failure"

def utf8 (message : String) : Bytes := Cbor.utf8 message.toList

/-- One to 256 bytes, without NUL, CR and LF. -/
def plainMessage (message : Bytes) : Bool :=
  message ≠ [] && message.length ≤ 256 && !message.any fun byte => [0, 13, 10].contains byte

/-- A message that is not in stock is replaced. -/
def stockMessage (message : Bytes) : Option String :=
  match stockMessages.find? fun stock => utf8 stock == message with
  | some stock => some stock
  | none => if plainMessage message then some safeFailureMessage else none

def replaced (message : Bytes) : Reader Bytes String :=
  match stockMessage message with
  | some message => pure message
  | none => reject .malformed

def decodeFailureBody : Reader Bytes ControlFailure := do
  requireMap 6
  requireKey 0
  let kind ← named errorKindOf (← decoded Cbor.readU8)
  requireKey 1
  let found ← decoded readText
  let message ← replaced found.bytes
  requireKey 2
  let retryable ← decoded Cbor.readBool
  requireKey 3
  let stage ← named errorStageOf (← decoded Cbor.readU8)
  requireKey 4
  let handoff ← named handoffOf (← decoded Cbor.readU8)
  requireKey 5
  let closeReason ← named closeReasonOf (← decoded Cbor.readU8)
  pure { kind, message, retryable, stage, handoff, closeReason }

def decodeResult (succeeded : Bool) (requestId : FixedBytes 16) : Reader Bytes ControlResult :=
  if succeeded then do pure (.success requestId (← decodeSuccessBody sha256))
  else do pure (.failure requestId (← decodeFailureBody))

def decodeResultItem : Reader Bytes ControlResult := do
  requireMap 4
  requireKey 0
  requireKey 1
  requireKey 1
  let requestId ← fixed 16 (← decoded Cbor.readBytes)
  requireKey 2
  let succeeded ← decoded Cbor.readBool
  requireKey 3
  let result ← decodeResult sha256 succeeded requestId
  requireEnd
  pure result

def decodeResultPacket (packet : Bytes) : Except ControlFailure ControlResult := do
  let cbor ← unframe packet
  validateDeterministicCbor cbor
  (decodeResultItem sha256).run' cbor

def validateSuccess : ControlSuccess → Except ControlFailure Unit
  | .targetReady ready =>
      if ¬ safeInteger ready.processGeneration ∨ ¬ safeInteger ready.listenerEpoch
          ∨ ¬ safeInteger ready.issuedAtUnixMs ∨ ¬ safeInteger ready.expiresAtUnixMs then .error (ipc .malformed)
      else if ¬ expiresAfterTtl ready.issuedAtUnixMs ready.expiresAtUnixMs then .error (ipc .bindingMismatch)
      else .ok ()
  | .sessionOpened opened =>
      if opened.response = [] ∨ 65536 < opened.response.length then .error (ipc .oversize)
      else if opened.responseSha256 ≠ sha256 opened.response then .error (ipc .bindingMismatch)
      else if ¬ safeInteger opened.processGeneration ∨ ¬ safeInteger opened.listenerEpoch then .error (ipc .malformed)
      else .ok ()
  | .exchangeComplete exchange =>
      if ¬ validSessionId exchange.sessionId.bytes ∨ ¬ safeInteger exchange.processGeneration
          ∨ ¬ safeInteger exchange.listenerEpoch then .error (ipc .malformed)
      else if exchange.message = [] ∨ 67108864 < exchange.message.length then .error (ipc .oversize)
      else if exchange.messageSha256 ≠ sha256 exchange.message then .error (ipc .bindingMismatch)
      else .ok ()
  | .closed closed => if closed.sessionId.all (fun value => validSessionId value.bytes) then .ok () else .error (ipc .malformed)

def encodeSuccessBody : ControlSuccess → Bytes
  | .targetReady ready =>
      Cbor.map 6 ++ Cbor.uint 0 ++ Cbor.uint 0 ++ Cbor.uint 1 ++ Cbor.bytes ready.targetToken.bytes
        ++ Cbor.uint 3 ++ Cbor.uint ready.processGeneration ++ Cbor.uint 4 ++ Cbor.uint ready.listenerEpoch
        ++ Cbor.uint 5 ++ Cbor.uint ready.issuedAtUnixMs ++ Cbor.uint 6 ++ Cbor.uint ready.expiresAtUnixMs
  | .sessionOpened opened =>
      Cbor.map 7 ++ Cbor.uint 0 ++ Cbor.uint 1 ++ Cbor.uint 1 ++ Cbor.bytes opened.targetToken.bytes
        ++ Cbor.uint 2 ++ Cbor.bytes opened.response ++ Cbor.uint 3 ++ Cbor.bytes opened.responseSha256.bytes
        ++ Cbor.uint 4 ++ Cbor.uint opened.processGeneration ++ Cbor.uint 5 ++ Cbor.uint opened.listenerEpoch
        ++ Cbor.uint 6 ++ Cbor.uint opened.handoff.toWire
  | .exchangeComplete exchange =>
      Cbor.map 8 ++ Cbor.uint 0 ++ Cbor.uint 2 ++ Cbor.uint 1 ++ Cbor.bytes exchange.targetToken.bytes
        ++ Cbor.uint 2 ++ text exchange.sessionId
        ++ Cbor.uint 3 ++ Cbor.uint exchange.processGeneration ++ Cbor.uint 4 ++ Cbor.uint exchange.listenerEpoch
        ++ Cbor.uint 5 ++ Cbor.bytes exchange.message ++ Cbor.uint 6 ++ Cbor.bytes exchange.messageSha256.bytes
        ++ Cbor.uint 7 ++ Cbor.uint exchange.handoff.toWire
  | .closed closed =>
      Cbor.map (if closed.sessionId.isSome then 4 else 3) ++ Cbor.uint 0 ++ Cbor.uint 3
        ++ Cbor.uint 1 ++ Cbor.bytes closed.targetToken.bytes
        ++ (match closed.sessionId with
            | some sessionId => Cbor.uint 2 ++ text sessionId
            | none => [])
        ++ Cbor.uint 7 ++ Cbor.uint closed.handoff.toWire

def successCap : ControlSuccess → Nat
  | .sessionOpened _ => openSessionCborCap
  | .exchangeComplete _ => globalCborCap
  | .targetReady _ | .closed _ => nonExchangeCborCap

def encodeSuccessPacket (requestId : FixedBytes 16) (success : ControlSuccess) : Except ControlFailure Bytes := do
  validateSuccess sha256 success
  let cbor := Cbor.map 4 ++ Cbor.uint 0 ++ Cbor.uint 1 ++ Cbor.uint 1 ++ Cbor.bytes requestId.bytes
    ++ Cbor.uint 2 ++ Cbor.bool true ++ Cbor.uint 3 ++ encodeSuccessBody success
  let packet ← frame cbor (successCap success)
  let decoded ← decodeResultPacket sha256 packet
  if decoded ≠ .success requestId success then .error (ipc .internalError)
  else .ok packet

end

def errorKindCode : ErrorKind → Nat
  | .targetSelectionRequired => 0
  | .sessionExpired => 1
  | .transportAuthenticationRequired => 2
  | .timeout => 3
  | .internalError => 4

def errorStageCode : ErrorStage → Nat
  | .ipc => 0
  | .prepare => 1
  | .bootstrap => 2
  | .sessionHandshake => 3
  | .sessionOpen => 4
  | .exchange => 5
  | .close => 6
  | .cleanup => 7

def encodeFailurePacket (requestId : FixedBytes 16) (failure : ControlFailure) : Except ControlFailure Bytes :=
  if ¬ plainMessage (utf8 failure.message) then .error (ipc .internalError)
  else
    let cbor := Cbor.map 4 ++ Cbor.uint 0 ++ Cbor.uint 1 ++ Cbor.uint 1 ++ Cbor.bytes requestId.bytes
      ++ Cbor.uint 2 ++ Cbor.bool false ++ Cbor.uint 3
      ++ Cbor.map 6 ++ Cbor.uint 0 ++ Cbor.uint (errorKindCode failure.kind) ++ Cbor.uint 1
      ++ Cbor.head 3 (utf8 failure.message).length ++ utf8 failure.message
      ++ Cbor.uint 2 ++ Cbor.bool failure.retryable ++ Cbor.uint 3 ++ Cbor.uint (errorStageCode failure.stage)
      ++ Cbor.uint 4 ++ Cbor.uint failure.handoff.toWire ++ Cbor.uint 5 ++ Cbor.uint failure.closeReason.toWire
    frame cbor nonExchangeCborCap

end AppPilotKit.Control
