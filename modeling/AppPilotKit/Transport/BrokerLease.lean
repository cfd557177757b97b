import AppPilotKit.Transport.Lease

/-! # Both ends of the lease connection

The Broker side of the connection that stays open after the acknowledgement,
how either side closes it, and the calls of the two interfaces.
-/

namespace AppPilotKit.Transport

open Wire

variable {R H T : Type}

/-- The acknowledgement of a Target that repeats the binding in canonical form. -/
def parseBootstrapAck (b : Bytes) (binding : BootstrapBinding) (hash : FixedBytes 32) :
    Except Error TargetBootstrapAck := do
  let rest ← expectMap 6 b
  let rest ← expectU8 0 rest
  let rest ← expectU8 1 rest
  let rest ← expectU8 1 rest
  let (digest, rest) ← readFixed 32 rest
  let rest ← expectU8 2 rest
  let (lease, rest) ← readFixed 16 rest
  let rest ← expectU8 3 rest
  let (generation, rest) ← decoded (Cbor.readU64 rest)
  let rest ← expectU8 4 rest
  let (epoch, rest) ← decoded (Cbor.readU64 rest)
  let rest ← expectU8 5 rest
  let (receivedHash, rest) ← readFixed 32 rest
  if rest ≠ [] then throw (.new .malformed)
  if digest ≠ binding.targetReferenceDigest ∨ lease ≠ binding.leaseId ∨ receivedHash ≠ hash
      ∨ !validGeneration generation ∨ epoch ≠ 1 then
    throw (.new .bindingMismatch)
  let ack : TargetBootstrapAck := {
    targetReferenceDigest := digest, leaseId := lease, processGeneration := generation, listenerEpoch := epoch
    nkHandshakeHash := hash
  }
  if bootstrapAckPayload ack ≠ b then throw (.new .malformed)
  pure ack

namespace LeaseCore

def writeClose (noise : Noise R H T) (c : LeaseCore T) (reason : CloseReason) (handoff : HandoffState) :
    Except Error Bytes × LeaseCore T :=
  match c.writeRecord noise .close (closePayload reason handoff) with
  | (.error error, c) => (.error error, c)
  | (.ok frame, c) => (.ok frame, c.closeState)

/-- The Close inside a decrypted record. -/
def closeOf (plaintext : Bytes) : Except Error (CloseReason × HandoffState) := do
  let record ← Record.decode plaintext
  validateCompleteRecord record .close
  parseClose record.data

def readClose (noise : Noise R H T) (c : LeaseCore T) (outer : Bytes) :
    Except Error (CloseReason × HandoffState) × LeaseCore T :=
  match c.decryptCounted noise outer with
  | (.error error, c) => (.error error, c)
  | (.ok plaintext, c) =>
      match closeOf plaintext with
      | .error error => (.error error, c)
      | .ok close => (.ok close, c.closeState)

end LeaseCore

namespace TargetLeaseConnection

def writeClose (noise : Noise R H T) (l : TargetLeaseConnection T) (reason : CloseReason) (handoff : HandoffState) :
    Except Error Bytes × TargetLeaseConnection T :=
  wrap (LeaseCore.finishResult (l.core.writeClose noise reason handoff))

def readClose (noise : Noise R H T) (l : TargetLeaseConnection T) (outer : Bytes) :
    Except Error (CloseReason × HandoffState) × TargetLeaseConnection T :=
  wrap (LeaseCore.finishResult (l.core.readClose noise outer))

end TargetLeaseConnection

/-- Broker side of the post-ACK NK lease-control connection. -/
structure BrokerLeaseConnection (T : Type) where
  core : LeaseCore T

namespace BrokerLeaseConnection

def wrap {α : Type} (r : Except Error α × LeaseCore T) : Except Error α × BrokerLeaseConnection T := (r.1, ⟨r.2⟩)

def writeHeartbeatRequest (noise : Noise R H T) (l : BrokerLeaseConnection T) (counter : Nat) :
    Except Error Bytes × BrokerLeaseConnection T :=
  wrap (LeaseCore.finishResult
    (if l.core.pendingHeartbeat.isSome ∨ counter ≤ l.core.lastHeartbeat then
      (.error (.new .sequenceViolation), l.core)
    else
      match l.core.writeHeartbeat noise 1 counter with
      | (.error error, c) => (.error error, c)
      | (.ok frame, c) => (.ok frame, { c with pendingHeartbeat := some counter })))

def readHeartbeatReply (noise : Noise R H T) (l : BrokerLeaseConnection T) (outer : Bytes) :
    Except Error Nat × BrokerLeaseConnection T :=
  wrap (LeaseCore.finishResult
    (match l.core.readHeartbeat noise outer 2 with
    | (.error error, c) => (.error error, c)
    | (.ok counter, c) =>
        if c.pendingHeartbeat ≠ some counter then (.error (.new .sequenceViolation), c)
        else (.ok counter, { c with pendingHeartbeat := none, lastHeartbeat := counter })))

def writeClose (noise : Noise R H T) (l : BrokerLeaseConnection T) (reason : CloseReason) (handoff : HandoffState) :
    Except Error Bytes × BrokerLeaseConnection T :=
  wrap (LeaseCore.finishResult (l.core.writeClose noise reason handoff))

def readClose (noise : Noise R H T) (l : BrokerLeaseConnection T) (outer : Bytes) :
    Except Error (CloseReason × HandoffState) × BrokerLeaseConnection T :=
  wrap (LeaseCore.finishResult (l.core.readClose noise outer))

end BrokerLeaseConnection

/-- `BrokerBootstrapAckReceiver::read_ack`. -/
def readAck (noise : Noise R H T) (transport : T) (binding : BootstrapBinding) (nkHandshakeHash : FixedBytes 32)
    (outer : Bytes) : Except Error (TargetBootstrapAck × BrokerLeaseConnection T) := do
  let (plaintext, transport) ← noise.decryptTransport transport outer
  let record ← Record.decode plaintext
  validateCompleteRecord record .finished
  let ack ← parseBootstrapAck record.data binding nkHandshakeHash
  pure (ack, ⟨{
    transport := some transport, binding := LeaseBinding.fromAck ack, sentRecords := 0, sentPlaintext := 0
    receivedRecords := 1, receivedPlaintext := plaintext.length
  }⟩)

/-! ## Calls -/

/-- What a successful call on a lease connection returns. -/
inductive LeaseReply where
  | record (frame : Bytes)
  | heartbeat (counter : Nat)
  | peerClose (reason : CloseReason) (handoff : HandoffState)
  deriving Repr, DecidableEq

/-- The transport records a result of a lease call hands to the caller. -/
def leaseHandedOut : Except Error LeaseReply → List Bytes
  | .ok (.record frame) => [frame]
  | .ok _ => []
  | .error error => error.closeFrame.toList

inductive TargetLeaseCall where
  | readHeartbeatRequest (outer : Bytes)
  | writeHeartbeatReply (counter : UInt64)
  | writeClose (reason : CloseReason) (handoff : HandoffState)
  | readClose (outer : Bytes)
  deriving Repr, DecidableEq

inductive BrokerLeaseCall where
  | writeHeartbeatRequest (counter : UInt64)
  | readHeartbeatReply (outer : Bytes)
  | writeClose (reason : CloseReason) (handoff : HandoffState)
  | readClose (outer : Bytes)
  deriving Repr, DecidableEq

/-- Present the result of a method as a reply. -/
def leaseReplyWith {α σ : Type} (f : α → LeaseReply) (r : Except Error α × σ) : Except Error LeaseReply × σ :=
  (r.1.map f, r.2)

def TargetLeaseConnection.call (noise : Noise R H T) (l : TargetLeaseConnection T) :
    TargetLeaseCall → Except Error LeaseReply × TargetLeaseConnection T
  | .readHeartbeatRequest outer => leaseReplyWith .heartbeat (l.readHeartbeatRequest noise outer)
  | .writeHeartbeatReply counter => leaseReplyWith .record (l.writeHeartbeatReply noise counter.toNat)
  | .writeClose reason handoff => leaseReplyWith .record (l.writeClose noise reason handoff)
  | .readClose outer => leaseReplyWith (fun close => .peerClose close.1 close.2) (l.readClose noise outer)

def BrokerLeaseConnection.call (noise : Noise R H T) (l : BrokerLeaseConnection T) :
    BrokerLeaseCall → Except Error LeaseReply × BrokerLeaseConnection T
  | .writeHeartbeatRequest counter => leaseReplyWith .record (l.writeHeartbeatRequest noise counter.toNat)
  | .readHeartbeatReply outer => leaseReplyWith .heartbeat (l.readHeartbeatReply noise outer)
  | .writeClose reason handoff => leaseReplyWith .record (l.writeClose noise reason handoff)
  | .readClose outer => leaseReplyWith (fun close => .peerClose close.1 close.2) (l.readClose noise outer)

end AppPilotKit.Transport
