import AppPilotKit.Broker.Basic
import AppPilotKit.Lib.CborTokens
import AppPilotKit.Raw.Launch

/-! # Control packets

A client sends one request to the broker and reads one result. Each travels as a length prefix
and one CBOR item. Before a packet is decoded field by field its item is checked: every head
in its shortest form, every size definite, the keys of a map strictly increasing.
-/

namespace AppPilotKit.Control

open Wire Transport
open Broker (ControlFailure ErrorKind ErrorStage Platform Token Digest)
open Raw (Text)

def globalCborCap : Nat := 67109120
def globalPacketCap : Nat := 67109124
def openSessionCborCap : Nat := 73728
def exchangeRequestCborCap : Nat := 16777480
def nonExchangeCborCap : Nat := 8192
def readyReferenceTtlMs : Nat := 30000
def maxSafeInteger : Nat := 9007199254740991

/-- A failure of the packet layer itself. -/
def ipc (closeReason : CloseReason) : ControlFailure :=
  let (kind, message) : ErrorKind × String := match closeReason with
    | .timeout => (.timeout, "Broker control deadline expired")
    | .authenticationFailed => (.transportAuthenticationRequired, "Broker control authentication failed")
    | .internalError | .cleanupFailed => (.internalError, "Broker control failed")
    | _ => (.sessionExpired, "Broker control packet rejected")
  { kind, message, retryable := false, stage := .ipc, handoff := .notHandedOff, closeReason }

/-! ## Requests -/

inductive SideEffect where
  | readOnly
  | localWrite
  | appMutation
  | deviceMutation
  deriving DecidableEq

structure PrepareBody where
  platform : Platform
  deviceSelector : Text
  appId : Text
  appArtifact : Text
  appArtifactSha256 : Digest
  deriving DecidableEq

structure OpenSessionBody where
  targetToken : Token
  sessionId : Option Text
  requiredCapabilities : List Text
  sessionOpenRequest : Option Bytes
  sessionOpenRequestSha256 : Option Digest
  deriving DecidableEq

structure ExchangeBody where
  targetToken : Token
  sessionId : Text
  processGeneration : Nat
  listenerEpoch : Nat
  message : Bytes
  messageSha256 : Digest
  sideEffect : SideEffect
  deriving DecidableEq

structure CloseSessionBody where
  targetToken : Token
  sessionId : Text
  processGeneration : Nat
  listenerEpoch : Nat
  reason : CloseReason
  deriving DecidableEq

structure CloseLeaseBody where
  targetToken : Token
  reason : CloseReason
  deriving DecidableEq

structure Request (β : Type) where
  requestId : FixedBytes 16
  deadlineUnixMs : Nat
  body : β
  deriving DecidableEq

inductive ControlRequest where
  | prepare (request : Request PrepareBody)
  | openSession (request : Request OpenSessionBody)
  | exchange (request : Request ExchangeBody)
  | closeSession (request : Request CloseSessionBody)
  | closeLease (request : Request CloseLeaseBody)
  deriving DecidableEq

/-! ## What a field may hold -/

def isAsciiLowercase (byte : UInt8) : Bool := 97 ≤ byte.toNat && byte.toNat ≤ 122
def isAsciiUppercase (byte : UInt8) : Bool := 65 ≤ byte.toNat && byte.toNat ≤ 90
def isAsciiDigit (byte : UInt8) : Bool := 48 ≤ byte.toNat && byte.toNat ≤ 57

def isAsciiAlphanumeric (byte : UInt8) : Bool := isAsciiLowercase byte || isAsciiUppercase byte || isAsciiDigit byte

def safeInteger (value : Nat) : Bool := 1 ≤ value && value ≤ maxSafeInteger

/-- Besides letters and digits: `.`, `_`, `~` and `-`. -/
def validSessionId (value : Bytes) : Bool :=
  16 ≤ value.length && value.length ≤ 128 && value.all fun byte => isAsciiAlphanumeric byte || [46, 95, 126, 45].contains byte

/-- Besides letters and digits: `.`, `_`, `:` and `-`. -/
def validSelectorByte (byte : UInt8) : Bool := isAsciiAlphanumeric byte || [46, 95, 58, 45].contains byte

def validDeviceSelector (value : Bytes) : Bool :=
  1 ≤ value.length && value.length ≤ 256 && value.all validSelectorByte

def validAppId (value : Bytes) : Bool :=
  3 ≤ value.length && value.length ≤ 255 && value.all (fun byte => isAsciiAlphanumeric byte || [46, 95, 45].contains byte)
    && value.head?.any isAsciiAlphanumeric && value.getLast?.any isAsciiAlphanumeric

/-- An absolute path without NUL, CR and LF. -/
def validAppArtifact (value : Bytes) : Bool :=
  !(4096 < value.length || !(value.head? == some 47) || value.length < 2 || value.any fun byte => [0, 13, 10].contains byte)

def validCapability (value : Bytes) : Bool :=
  3 ≤ value.length && value.length ≤ 128 && 2 ≤ (value.splitOn 46).length
    && (value.splitOn 46).all fun part =>
      2 ≤ part.length && part.head?.any isAsciiLowercase && part.all fun byte => isAsciiLowercase byte || isAsciiDigit byte

/-- The order of byte strings. -/
def bytesLt : Bytes → Bytes → Bool
  | [], [] => false
  | [], _ :: _ => true
  | _ :: _, [] => false
  | a :: as, b :: bs => a < b || (a == b && bytesLt as bs)

/-! ## Reading the fields of an item -/

/-- A reader of the packet layer takes what it needs from the front of its input. -/
abbrev Reader (σ : Type) := StateT σ (Except ControlFailure)

def reject {σ α : Type} (reason : CloseReason) : Reader σ α := fun _ => .error (ipc reason)

def require {σ : Type} (holds : Prop) [Decidable holds] (reason : CloseReason) : Reader σ Unit :=
  if holds then pure () else reject reason

/-- An error of the CBOR decoder is a malformed packet. -/
def decoded {α : Type} (read : Bytes → Option (α × Bytes)) : Reader Bytes α := fun input =>
  match read input with
  | some found => .ok found
  | none => .error (ipc .malformed)

/-- The decoder returns text as a string. -/
def readText (input : Bytes) : Option (Text × Bytes) :=
  match read : Cbor.readStr input with
  | some (value, rest) => some (⟨value, Raw.readStr_valid read⟩, rest)
  | none => none

def requireMap (expected : Nat) : Reader Bytes Unit := do
  let entries ← decoded Cbor.readMap
  require (entries = some expected) .malformed

def requireKey (key : Nat) : Reader Bytes Unit := do
  let found ← decoded Cbor.readU8
  require (found = key) .malformed

def requireSafeInteger (value : Nat) : Reader Bytes Unit := require (safeInteger value) .malformed

def requireSessionId (value : Text) : Reader Bytes Unit := require (validSessionId value.bytes) .malformed

def fixed (n : Nat) (value : Bytes) : Reader Bytes (FixedBytes n) :=
  match FixedBytes.ofBytes? n value with
  | some value => pure value
  | none => reject .malformed

/-- A code that stands for one of several values. -/
def named {α : Type} (of : Nat → Option α) (code : Nat) : Reader Bytes α :=
  match of code with
  | some value => pure value
  | none => reject .malformed

def platformOf : Nat → Option Platform
  | 0 => some .iosSimulator
  | 1 => some .androidEmulator
  | _ => none

def sideEffectOf : Nat → Option SideEffect
  | 0 => some .readOnly
  | 1 => some .localWrite
  | 2 => some .appMutation
  | 3 => some .deviceMutation
  | _ => none

def closeReasonOf : Nat → Option CloseReason
  | 0 => some .normal
  | 1 => some .authenticationFailed
  | 2 => some .bindingMismatch
  | 3 => some .stale
  | 4 => some .timeout
  | 5 => some .oversize
  | 6 => some .malformed
  | 7 => some .sequenceViolation
  | 8 => some .recordLimit
  | 9 => some .peerClosed
  | 10 => some .brokerLost
  | 11 => some .eligibilityLost
  | 12 => some .cleanupFailed
  | 13 => some .internalError
  | _ => none

def decodePrepare : Reader Bytes PrepareBody := do
  requireMap 5
  requireKey 0
  let platform ← named platformOf (← decoded Cbor.readU8)
  requireKey 1
  let deviceSelector ← decoded readText
  require (validDeviceSelector deviceSelector.bytes) .malformed
  requireKey 2
  let appId ← decoded readText
  require (validAppId appId.bytes) .malformed
  requireKey 3
  let appArtifact ← decoded readText
  require (validAppArtifact appArtifact.bytes) .malformed
  requireKey 4
  let appArtifactSha256 ← fixed 32 (← decoded Cbor.readBytes)
  pure { platform, deviceSelector, appId, appArtifact, appArtifactSha256 }

/-- The loop over the announced capabilities; each must follow the one before it. -/
def readCapabilities : Nat → Option Text → Reader Bytes (List Text)
  | 0, _ => pure []
  | count + 1, previous => do
      let capability ← decoded readText
      require (validCapability capability.bytes ∧ previous.all (fun before => bytesLt before.bytes capability.bytes)) .malformed
      let others ← readCapabilities count (some capability)
      pure (capability :: others)

def decodeCapabilities : Reader Bytes (List Text) := do
  let count ← decoded Cbor.readArray
  match count with
  | none => reject .malformed
  | some count => do
      require (1 ≤ count ∧ count ≤ 32) .malformed
      readCapabilities count none

/-- A session has an entry of its own, or none. Returns the key that comes after it. -/
def sessionEntry (entry key : Nat) : Reader Bytes (Option Text × Nat) :=
  if key = entry then do
    let session ← decoded readText
    requireSessionId session
    let nextKey ← decoded Cbor.readU8
    pure (some session, nextKey)
  else pure (none, key)

/-- Without a session the request that opens it follows, with its digest. -/
def openingEntries (sessionId : Option Text) : Reader Bytes (Option Bytes × Option Digest) :=
  if sessionId.isNone then do
    requireKey 3
    let request ← decoded Cbor.readBytes
    require (request ≠ [] ∧ request.length ≤ 65536) .oversize
    requireKey 4
    let digest ← fixed 32 (← decoded Cbor.readBytes)
    pure (some request, some digest)
  else pure (none, none)

def decodeOpen : Reader Bytes OpenSessionBody := do
  let count ← decoded Cbor.readMap
  require (count = some 3 ∨ count = some 4) .malformed
  requireKey 0
  let targetToken ← fixed 32 (← decoded Cbor.readBytes)
  let (sessionId, nextKey) ← sessionEntry 1 (← decoded Cbor.readU8)
  require (nextKey = 2) .malformed
  let requiredCapabilities ← decodeCapabilities
  let (sessionOpenRequest, sessionOpenRequestSha256) ← openingEntries sessionId
  pure { targetToken, sessionId, requiredCapabilities, sessionOpenRequest, sessionOpenRequestSha256 }

def decodeExchange : Reader Bytes ExchangeBody := do
  requireMap 7
  requireKey 0
  let targetToken ← fixed 32 (← decoded Cbor.readBytes)
  requireKey 1
  let sessionId ← decoded readText
  requireSessionId sessionId
  requireKey 2
  let processGeneration ← decoded Cbor.readU64
  requireSafeInteger processGeneration
  requireKey 3
  let listenerEpoch ← decoded Cbor.readU64
  requireSafeInteger listenerEpoch
  requireKey 4
  let message ← decoded Cbor.readBytes
  require (message ≠ [] ∧ message.length ≤ 16777216) .oversize
  requireKey 5
  let messageSha256 ← fixed 32 (← decoded Cbor.readBytes)
  requireKey 6
  let sideEffect ← named sideEffectOf (← decoded Cbor.readU8)
  pure { targetToken, sessionId, processGeneration, listenerEpoch, message, messageSha256, sideEffect }

def decodeCloseSession : Reader Bytes CloseSessionBody := do
  requireMap 5
  requireKey 0
  let targetToken ← fixed 32 (← decoded Cbor.readBytes)
  requireKey 1
  let sessionId ← decoded readText
  requireSessionId sessionId
  requireKey 2
  let processGeneration ← decoded Cbor.readU64
  requireSafeInteger processGeneration
  requireKey 3
  let listenerEpoch ← decoded Cbor.readU64
  requireSafeInteger listenerEpoch
  requireKey 4
  let reason ← named closeReasonOf (← decoded Cbor.readU8)
  pure { targetToken, sessionId, processGeneration, listenerEpoch, reason }

def decodeCloseLease : Reader Bytes CloseLeaseBody := do
  requireMap 2
  requireKey 0
  let targetToken ← fixed 32 (← decoded Cbor.readBytes)
  requireKey 1
  let reason ← named closeReasonOf (← decoded Cbor.readU8)
  pure { targetToken, reason }

/-! ## The check of an item -/

/-- The bytes that are left, and how many came before them. -/
structure Cursor where
  offset : Nat
  rest : Bytes
  deriving DecidableEq

def take : Reader Cursor UInt8 := fun cursor =>
  match cursor.rest with
  | [] => .error (ipc .malformed)
  | byte :: rest => .ok (byte, ⟨cursor.offset + 1, rest⟩)

def takes : Nat → Reader Cursor Bytes
  | 0 => pure []
  | n + 1 => do
      let byte ← take
      let others ← takes n
      pure (byte :: others)

/-- An argument that has bytes of its own does not fit fewer. -/
def wideArgument (width minimum : Nat) : Reader Cursor Nat := do
  let raw ← takes width
  require (minimum ≤ beNat raw) .malformed
  pure (beNat raw)

def readArgument : Nat → Reader Cursor Nat
  | 24 => wideArgument 1 24
  | 25 => wideArgument 2 256
  | 26 => wideArgument 4 65536
  | 27 => wideArgument 8 4294967296
  | info => if info ≤ 23 then pure info else reject .malformed

/-- The bytes of a string. The end of the string must be a `usize`. -/
def slice (length : Nat) : Reader Cursor Bytes := fun cursor =>
  if 2 ^ 64 ≤ cursor.offset + length then .error (ipc .oversize)
  else if length ≤ cursor.rest.length then
    .ok (cursor.rest.take length, ⟨cursor.offset + length, cursor.rest.drop length⟩)
  else .error (ipc .malformed)

section
variable (item : Reader Cursor Unit)

/-- The loop over the elements of an array. -/
def validateElements : Nat → Reader Cursor Unit
  | 0 => pure ()
  | count + 1 => do
      item
      validateElements count

/-- The loop over the entries of a map, with the key before. -/
def validateEntries : Nat → Option Nat → Reader Cursor Unit
  | 0, _ => pure ()
  | count + 1, previous => do
      let initial ← take
      require (initial.toNat / 32 = 0) .malformed
      let key ← readArgument (initial.toNat % 32)
      require (previous.all (· < key)) .malformed
      item
      validateEntries count (some key)

end

/-- The levels are those that the depth leaves: an item at depth 64 is refused. -/
def validateItem : Nat → Reader Cursor Unit
  | 0 => reject .malformed
  | levels + 1 => do
      let initial ← take
      let info := initial.toNat % 32
      match initial.toNat / 32 with
      | 0 => do
          let _ ← readArgument info
          pure ()
      | 2 => do
          let length ← readArgument info
          let _ ← slice length
          pure ()
      | 3 => do
          let length ← readArgument info
          let value ← slice length
          require (Cbor.validUtf8 value) .malformed
      | 4 => do
          let count ← readArgument info
          validateElements (validateItem levels) count
      | 5 => do
          let count ← readArgument info
          validateEntries (validateItem levels) count none
      | 7 => require (info = 20 ∨ info = 21) .malformed
      | _ => reject .malformed

def validateDeterministicCbor (bytes : Bytes) : Except ControlFailure Unit :=
  match validateItem 64 ⟨0, bytes⟩ with
  | .ok ((), cursor) => if cursor.offset = bytes.length then .ok () else .error (ipc .malformed)
  | .error failure => .error failure

/-! ## Packets -/

def unframe (packet : Bytes) : Except ControlFailure Bytes :=
  if packet.length < 4 then .error (ipc .malformed)
  else
    let declared := beNat (packet.take 4)
    if declared = 0 then .error (ipc .malformed)
    else if globalCborCap < declared ∨ globalPacketCap < declared + 4 then .error (ipc .oversize)
    else if packet.length ≠ declared + 4 then .error (ipc .malformed)
    else .ok (packet.drop 4)

def requestOperation (cbor : Bytes) : Except ControlFailure Nat :=
  let reader : Reader Bytes Nat := do
    requireMap 5
    requireKey 0
    requireKey 1
    requireKey 1
    let requestId ← decoded Cbor.readBytes
    require (requestId.length = 16) .malformed
    requireKey 2
    requireSafeInteger (← decoded Cbor.readU64)
    requireKey 3
    let operation ← decoded Cbor.readU8
    require (operation ≤ 4) .malformed
    pure operation
  reader.run' cbor

/-- The body that the operation asks for. -/
def decodeBody (operation : Nat) (requestId : FixedBytes 16) (deadlineUnixMs : Nat) : Reader Bytes ControlRequest :=
  match operation with
  | 0 => do pure (.prepare { requestId, deadlineUnixMs, body := ← decodePrepare })
  | 1 => do pure (.openSession { requestId, deadlineUnixMs, body := ← decodeOpen })
  | 2 => do pure (.exchange { requestId, deadlineUnixMs, body := ← decodeExchange })
  | 3 => do pure (.closeSession { requestId, deadlineUnixMs, body := ← decodeCloseSession })
  | 4 => do pure (.closeLease { requestId, deadlineUnixMs, body := ← decodeCloseLease })
  | _ => reject .malformed

/-- The item ends the packet. -/
def requireEnd : Reader Bytes Unit := do
  let rest ← get
  require (rest = []) .malformed

def decodeRequest (cbor : Bytes) (operation : Nat) : Except ControlFailure ControlRequest :=
  let reader : Reader Bytes ControlRequest := do
    requireMap 5
    requireKey 0
    requireKey 1
    requireKey 1
    let requestId ← fixed 16 (← decoded Cbor.readBytes)
    requireKey 2
    let deadlineUnixMs ← decoded Cbor.readU64
    requireSafeInteger deadlineUnixMs
    requireKey 3
    requireKey operation
    requireKey 4
    let request ← decodeBody operation requestId deadlineUnixMs
    requireEnd
    pure request
  reader.run' cbor

def requestCap : Nat → Nat
  | 1 => openSessionCborCap
  | 2 => exchangeRequestCborCap
  | _ => nonExchangeCborCap

def decodeRequestPacket (packet : Bytes) : Except ControlFailure ControlRequest := do
  let cbor ← unframe packet
  validateDeterministicCbor cbor
  let operation ← requestOperation cbor
  if requestCap operation < cbor.length then .error (ipc .oversize)
  else decodeRequest cbor operation

end AppPilotKit.Control
