import AppPilotKit.Transport.Session

/-! # The bootstrap handshake and the lease connection

The Target opens a lease with a Noise NK handshake: its second message carries
the process bootstrap secret, which the Target acknowledges. The connection
stays open afterwards for heartbeats.
-/

namespace AppPilotKit.Transport

open Wire

structure BootstrapBinding where
  targetReferenceDigest : FixedBytes 32
  leaseId : FixedBytes 16
  targetNonce : FixedBytes 32
  appArtifactDigest : FixedBytes 32
  expiryMs : Nat
  deriving DecidableEq

def bootstrapPrologue (binding : BootstrapBinding) : Bytes :=
  Cbor.array 10 ++ Cbor.str "apppilotkit.transport" ++ Cbor.uint 1 ++ Cbor.str "bootstrap" ++ Cbor.uint 0
    ++ Cbor.uint 1 ++ Cbor.bytes binding.targetReferenceDigest.bytes ++ Cbor.bytes binding.leaseId.bytes
    ++ Cbor.bytes binding.targetNonce.bytes ++ Cbor.bytes binding.appArtifactDigest.bytes
    ++ Cbor.uint binding.expiryMs

namespace BootstrapBinding

def m1Payload (binding : BootstrapBinding) : Bytes :=
  Cbor.map 4 ++ Cbor.uint 0 ++ Cbor.uint 1 ++ Cbor.uint 1 ++ Cbor.bytes binding.targetReferenceDigest.bytes
    ++ Cbor.uint 2 ++ Cbor.bytes binding.leaseId.bytes ++ Cbor.uint 3 ++ Cbor.bytes binding.targetNonce.bytes

def expectedM2 (binding : BootstrapBinding) (secret : FixedBytes 32) : Bytes :=
  Cbor.map 7 ++ Cbor.uint 0 ++ Cbor.uint 1 ++ Cbor.uint 1 ++ Cbor.bytes secret.bytes
    ++ Cbor.uint 2 ++ Cbor.bytes binding.targetReferenceDigest.bytes ++ Cbor.uint 3
    ++ Cbor.bytes binding.leaseId.bytes ++ Cbor.uint 4 ++ Cbor.bytes binding.targetNonce.bytes
    ++ Cbor.uint 5 ++ Cbor.uint binding.expiryMs ++ Cbor.uint 6 ++ Cbor.bytes binding.appArtifactDigest.bytes

end BootstrapBinding

/-- The secret of a second message that repeats the binding in canonical form. -/
def parseM2 (binding : BootstrapBinding) (b : Bytes) : Except Error (FixedBytes 32) := do
  let rest ← expectMap 7 b
  let rest ← expectU8 0 rest
  let (version, rest) ← decoded (Cbor.readU8 rest)
  let rest ← expectU8 1 rest
  let (secret, rest) ← readFixed 32 rest
  let rest ← expectU8 2 rest
  let (digest, rest) ← readFixed 32 rest
  let rest ← expectU8 3 rest
  let (lease, rest) ← readFixed 16 rest
  let rest ← expectU8 4 rest
  let (nonce, rest) ← readFixed 32 rest
  let rest ← expectU8 5 rest
  let (expiry, rest) ← decoded (Cbor.readU64 rest)
  let rest ← expectU8 6 rest
  let (artifact, rest) ← readFixed 32 rest
  if rest ≠ [] ∨ version ≠ 1 then throw (.new .malformed)
  if digest ≠ binding.targetReferenceDigest ∨ lease ≠ binding.leaseId ∨ nonce ≠ binding.targetNonce
      ∨ expiry ≠ binding.expiryMs ∨ artifact ≠ binding.appArtifactDigest then
    throw (.new .bindingMismatch)
  if binding.expectedM2 secret ≠ b then throw (.new .malformed)
  pure secret

structure TargetBootstrapAck where
  targetReferenceDigest : FixedBytes 32
  leaseId : FixedBytes 16
  processGeneration : Nat
  listenerEpoch : Nat
  nkHandshakeHash : FixedBytes 32
  deriving DecidableEq

def bootstrapAckPayload (ack : TargetBootstrapAck) : Bytes :=
  Cbor.map 6 ++ Cbor.uint 0 ++ Cbor.uint 1 ++ Cbor.uint 1 ++ Cbor.bytes ack.targetReferenceDigest.bytes
    ++ Cbor.uint 2 ++ Cbor.bytes ack.leaseId.bytes ++ Cbor.uint 3 ++ Cbor.uint ack.processGeneration
    ++ Cbor.uint 4 ++ Cbor.uint ack.listenerEpoch ++ Cbor.uint 5 ++ Cbor.bytes ack.nkHandshakeHash.bytes

structure LeaseBinding where
  leaseId : FixedBytes 16
  processGeneration : Nat
  listenerEpoch : Nat
  deriving DecidableEq

def LeaseBinding.fromAck (ack : TargetBootstrapAck) : LeaseBinding :=
  { leaseId := ack.leaseId, processGeneration := ack.processGeneration, listenerEpoch := ack.listenerEpoch }

def heartbeatPayload (role : Nat) (binding : LeaseBinding) (counter : Nat) : Except Error Bytes :=
  if ¬ (role = 1 ∨ role = 2) ∨ counter = 0 then .error (.new .sequenceViolation)
  else .ok (Cbor.map 5 ++ Cbor.uint 0 ++ Cbor.uint role ++ Cbor.uint 1 ++ Cbor.bytes binding.leaseId.bytes
    ++ Cbor.uint 2 ++ Cbor.uint binding.processGeneration ++ Cbor.uint 3 ++ Cbor.uint binding.listenerEpoch
    ++ Cbor.uint 4 ++ Cbor.uint counter)

def parseHeartbeat (b : Bytes) (role : Nat) (binding : LeaseBinding) : Except Error Nat := do
  let rest ← expectMap 5 b
  let rest ← expectU8 0 rest
  let rest ← expectU8 role rest
  let rest ← expectU8 1 rest
  let (leaseId, rest) ← readFixed 16 rest
  let rest ← expectU8 2 rest
  let (generation, rest) ← decoded (Cbor.readU64 rest)
  let rest ← expectU8 3 rest
  let (epoch, rest) ← decoded (Cbor.readU64 rest)
  let rest ← expectU8 4 rest
  let (counter, rest) ← decoded (Cbor.readU64 rest)
  if leaseId ≠ binding.leaseId ∨ generation ≠ binding.processGeneration ∨ epoch ≠ binding.listenerEpoch then
    throw (.new .bindingMismatch)
  if counter = 0 ∨ rest ≠ [] then throw (.new .malformed)
  let canonical ← heartbeatPayload role binding counter
  if canonical ≠ b then throw (.new .malformed)
  pure counter

structure LeaseCore (T : Type) where
  transport : Option T
  binding : LeaseBinding
  closed : Bool := false
  sentRecords : Nat
  sentPlaintext : Nat
  receivedRecords : Nat
  receivedPlaintext : Nat
  pendingHeartbeat : Option Nat := none
  lastHeartbeat : Nat := 0

namespace LeaseCore

variable {R H T : Type}

def closeState (c : LeaseCore T) : LeaseCore T := { c with closed := true, transport := none }

def finishResult {α : Type} : Except Error α × LeaseCore T → Except Error α × LeaseCore T
  | (.error error, c) => (.error error, c.closeState)
  | (.ok value, c) => (.ok value, c)

def openTransport (c : LeaseCore T) : Except Error T :=
  if c.closed then .error (.new .sequenceViolation)
  else
    match c.transport with
    | some transport => .ok transport
    | none => .error (.new .sequenceViolation)

def encrypt (noise : Noise R H T) (c : LeaseCore T) (plaintext : Bytes) : Except Error Bytes × LeaseCore T :=
  match c.openTransport with
  | .error error => (.error error, c)
  | .ok transport =>
      match noise.encryptTransport transport plaintext with
      | .error error => (.error error, c)
      | .ok (frame, transport) => (.ok frame, { c with transport := some transport })

/-- The counters after one more record, unless they reach a limit. With
    `reserve` one Close has to fit after it. -/
def usageAfter (c : LeaseCore T) (plaintext : Bytes) (reserve : Option Nat) : Option (Nat × Nat) :=
  match checkedAdd c.sentRecords 1, checkedAdd c.sentPlaintext plaintext.length with
  | some records, some bytes =>
      let extra := match reserve with
        | none => (some records, some bytes)
        | some closeLen => (checkedAdd records 1, checkedAdd bytes closeLen)
      match extra with
      | (some r, some b) => if r ≥ recordLimit ∨ b ≥ byteLimit then none else some (records, bytes)
      | _ => none
  | _, _ => none

def limitError (noise : Noise R H T) (c : LeaseCore T) : Error × LeaseCore T :=
  match limitClosePlaintext .notHandedOff with
  | .error _ => (.recordLimit none, c.closeState)
  | .ok plaintext =>
      match c.usageAfter plaintext none with
      | none => (.recordLimit none, c.closeState)
      | some (records, bytes) =>
          match c.encrypt noise plaintext with
          | (.error _, c) => (.recordLimit none, c.closeState)
          | (.ok frame, c) =>
              (.recordLimit (some frame), { c with sentRecords := records, sentPlaintext := bytes }.closeState)

def writeRecord (noise : Noise R H T) (c : LeaseCore T) (kind : RecordKind) (data : Bytes) :
    Except Error Bytes × LeaseCore T :=
  match completeRecord kind data with
  | .error error => (.error error, c)
  | .ok record =>
      match record.encode with
      | .error error => (.error error, c)
      | .ok plaintext =>
          match limitClosePlaintext .notHandedOff with
          | .error error => (.error error, c)
          | .ok close =>
              match c.usageAfter plaintext (if kind = .close then none else some close.length) with
              | none =>
                  let (error, c) := c.limitError noise
                  (.error error, c)
              | some (records, bytes) =>
                  match c.encrypt noise plaintext with
                  | (.error error, c) => (.error error, c)
                  | (.ok frame, c) => (.ok frame, { c with sentRecords := records, sentPlaintext := bytes })

def decryptCounted (noise : Noise R H T) (c : LeaseCore T) (outer : Bytes) : Except Error Bytes × LeaseCore T :=
  match c.openTransport with
  | .error error => (.error error, c)
  | .ok transport =>
      match noise.decryptTransport transport outer with
      | .error error => (.error error, c)
      | .ok (plaintext, transport) =>
          let c := { c with transport := some transport }
          match checkedAdd c.receivedRecords 1, checkedAdd c.receivedPlaintext plaintext.length with
          | some records, some bytes =>
              if records ≥ recordLimit ∨ bytes ≥ byteLimit then
                let (error, c) := c.limitError noise
                (.error error, c)
              else (.ok plaintext, { c with receivedRecords := records, receivedPlaintext := bytes })
          | _, _ =>
              let (error, c) := c.limitError noise
              (.error error, c)

def writeHeartbeat (noise : Noise R H T) (c : LeaseCore T) (role counter : Nat) :
    Except Error Bytes × LeaseCore T :=
  match heartbeatPayload role c.binding counter with
  | .error error => (.error error, c)
  | .ok payload => c.writeRecord noise .heartbeat payload

/-- The heartbeat inside a decrypted record; an authenticated Close is an error of its own. -/
def heartbeatOf (c : LeaseCore T) (role : Nat) (plaintext : Bytes) : Except Error Nat := do
  let record ← Record.decode plaintext
  if record.kind = .close then
    validateCompleteRecord record .close
    let (reason, handoff) ← parseClose record.data
    throw (.ofPeerClose reason handoff)
  validateCompleteRecord record .heartbeat
  parseHeartbeat record.data role c.binding

def readHeartbeat (noise : Noise R H T) (c : LeaseCore T) (outer : Bytes) (role : Nat) :
    Except Error Nat × LeaseCore T :=
  match c.decryptCounted noise outer with
  | (.error error, c) => (.error error, c)
  | (.ok plaintext, c) => (c.heartbeatOf role plaintext, c)

end LeaseCore

/-- Target side of the post-ACK NK lease-control connection. -/
structure TargetLeaseConnection (T : Type) where
  core : LeaseCore T

namespace TargetLeaseConnection

variable {R H T : Type}

def wrap {α : Type} (r : Except Error α × LeaseCore T) : Except Error α × TargetLeaseConnection T := (r.1, ⟨r.2⟩)

def readHeartbeatRequest (noise : Noise R H T) (l : TargetLeaseConnection T) (outer : Bytes) :
    Except Error Nat × TargetLeaseConnection T :=
  wrap (LeaseCore.finishResult
    (if l.core.pendingHeartbeat.isSome then (.error (.new .sequenceViolation), l.core)
    else
      match l.core.readHeartbeat noise outer 1 with
      | (.error error, c) => (.error error, c)
      | (.ok counter, c) =>
          if counter ≤ c.lastHeartbeat then (.error (.new .sequenceViolation), c)
          else (.ok counter, { c with pendingHeartbeat := some counter })))

def writeHeartbeatReply (noise : Noise R H T) (l : TargetLeaseConnection T) (counter : Nat) :
    Except Error Bytes × TargetLeaseConnection T :=
  wrap (LeaseCore.finishResult
    (if l.core.pendingHeartbeat ≠ some counter then (.error (.new .sequenceViolation), l.core)
    else
      match l.core.writeHeartbeat noise 2 counter with
      | (.error error, c) => (.error error, c)
      | (.ok frame, c) => (.ok frame, { c with pendingHeartbeat := none, lastHeartbeat := counter })))

end TargetLeaseConnection

/-- Target-only NK bootstrap initiator. -/
structure TargetBootstrap (H : Type) where
  state : H
  binding : BootstrapBinding

def validGeneration (value : Nat) : Bool := 1 ≤ value && value ≤ jsonSafeMax

namespace TargetBootstrap

variable {R H T : Type}

def new (noise : Noise R H T) (entropy : R) (binding : BootstrapBinding) (brokerStaticPublic : FixedBytes 32) :
    Except Error (TargetBootstrap H) :=
  (core (noise.nkInitiator entropy brokerStaticPublic.bytes (bootstrapPrologue binding))).map (⟨·, binding⟩)

def writeM1 (noise : Noise R H T) (b : TargetBootstrap H) : Except Error Bytes × TargetBootstrap H :=
  match noise.writeHandshakeFrame b.state b.binding.m1Payload with
  | .error error => (.error error, b)
  | .ok (frame, state) => (.ok frame, { b with state })

/-- What `read_m2` yields: the acknowledgement with its transport, and the secret. -/
def readM2 (noise : Noise R H T) (b : TargetBootstrap H) (outer : Bytes) (processGeneration listenerEpoch : Nat) :
    Except Error ((T × TargetBootstrapAck) × FixedBytes 32) := do
  if !validGeneration processGeneration || listenerEpoch != 1 then throw (.new .bindingMismatch)
  let (payload, state) ← noise.readHandshakeFrame b.state outer
  let hash := noise.handshakeHash state
  let secret ← parseM2 b.binding payload
  let ack : TargetBootstrapAck := {
    targetReferenceDigest := b.binding.targetReferenceDigest
    leaseId := b.binding.leaseId
    processGeneration, listenerEpoch
    nkHandshakeHash := hash
  }
  let transport ← core (noise.intoTransport state)
  pure ((transport, ack), secret)

end TargetBootstrap

/-- `TargetBootstrapAckSender::write_ack`. -/
def writeAck {R H T : Type} (noise : Noise R H T) (transport : T) (ack : TargetBootstrapAck) :
    Except Error (Bytes × TargetLeaseConnection T) := do
  let record ← completeRecord .finished (bootstrapAckPayload ack)
  let plaintext ← record.encode
  let (frame, transport) ← noise.encryptTransport transport plaintext
  pure (frame, ⟨{
    transport := some transport, binding := LeaseBinding.fromAck ack, sentRecords := 1
    sentPlaintext := plaintext.length, receivedRecords := 0, receivedPlaintext := 0
  }⟩)

end AppPilotKit.Transport
