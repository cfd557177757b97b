import AppPilotKit.Transport.Lease

/-! # The launch descriptor

`create` accepts one canonical CBOR map that says which platform endpoint to
offer and binds the lease the Target may bootstrap.
-/

namespace AppPilotKit.Target

open Wire Transport

inductive SupervisorError where
  | invalidArgument
  | wrongPhase
  | internal
  deriving Repr, DecidableEq

def descriptorMax : Nat := 8192

inductive Endpoint where
  | ios (port : Nat)
  | android (name : Bytes)
  deriving Repr, DecidableEq

structure ParsedDescriptor where
  binding : BootstrapBinding
  brokerPublicKey : FixedBytes 32
  endpoint : Endpoint
  deriving DecidableEq

/-- Every decoding failure of the descriptor is `InvalidArgument`. -/
def field {α : Type} : Option α → Except SupervisorError α
  | some value => .ok value
  | none => .error .invalidArgument

def requireField (b : Bool) : Except SupervisorError Unit := if b then .ok () else .error .invalidArgument

def expectKey (key : Nat) (b : Bytes) : Except SupervisorError Bytes := do
  let (found, rest) ← field (Cbor.readU8 b)
  requireField (found = key)
  pure rest

def fixedBytes (n : Nat) (b : Bytes) : Except SupervisorError (FixedBytes n × Bytes) := do
  let (value, rest) ← field (Cbor.readBytes b)
  let value ← field (FixedBytes.ofBytes? n value)
  pure (value, rest)

/-- The loopback address as CBOR text. -/
def loopback : Bytes := [49, 50, 55, 46, 48, 46, 48, 46, 49]

def text (b : Bytes) : Bytes := Cbor.head 3 b.length ++ b

def parseEndpoint (platform : Nat) (b : Bytes) : Except SupervisorError (Endpoint × Bytes) := do
  let (entries, rest) ← field (Cbor.readMap b)
  if platform = 0 then
    requireField (entries = some 2)
    let rest ← expectKey 0 rest
    let (host, rest) ← field (Cbor.readStr rest)
    requireField (host = loopback)
    let rest ← expectKey 1 rest
    let (port, rest) ← field (Cbor.readU16 rest)
    requireField (49152 ≤ port && port ≤ 65535)
    pure (.ios port, rest)
  else
    requireField (entries = some 1)
    let rest ← expectKey 0 rest
    let (name, rest) ← field (Cbor.readStr rest)
    requireField (32 ≤ name.length && name.length ≤ 96 && !name.contains 0)
    pure (.android name, rest)

def encodeEndpoint : Endpoint → Bytes
  | .ios port => Cbor.map 2 ++ Cbor.uint 0 ++ text loopback ++ Cbor.uint 1 ++ Cbor.uint port
  | .android name => Cbor.map 1 ++ Cbor.uint 0 ++ text name

def Endpoint.platform : Endpoint → Nat
  | .ios _ => 0
  | .android _ => 1

def encodeDescriptor (parsed : ParsedDescriptor) : Bytes :=
  Cbor.map 9 ++ Cbor.uint 0 ++ Cbor.uint 1 ++ Cbor.uint 1 ++ Cbor.uint parsed.endpoint.platform
    ++ Cbor.uint 2 ++ Cbor.bytes parsed.binding.leaseId.bytes
    ++ Cbor.uint 3 ++ Cbor.bytes parsed.binding.targetNonce.bytes
    ++ Cbor.uint 4 ++ Cbor.bytes parsed.binding.appArtifactDigest.bytes
    ++ Cbor.uint 5 ++ Cbor.bytes parsed.brokerPublicKey.bytes
    ++ Cbor.uint 6 ++ encodeEndpoint parsed.endpoint
    ++ Cbor.uint 7 ++ Cbor.uint parsed.binding.expiryMs
    ++ Cbor.uint 8 ++ Cbor.bytes parsed.binding.targetReferenceDigest.bytes

def parseDescriptor (b : Bytes) : Except SupervisorError ParsedDescriptor := do
  requireField (!b.isEmpty && b.length ≤ descriptorMax)
  let (entries, rest) ← field (Cbor.readMap b)
  requireField (entries = some 9)
  let rest ← expectKey 0 rest
  let (version, rest) ← field (Cbor.readU8 rest)
  requireField (version = 1)
  let rest ← expectKey 1 rest
  let (platform, rest) ← field (Cbor.readU8 rest)
  requireField (platform = 0 || platform = 1)
  let rest ← expectKey 2 rest
  let (leaseId, rest) ← fixedBytes 16 rest
  let rest ← expectKey 3 rest
  let (targetNonce, rest) ← fixedBytes 32 rest
  let rest ← expectKey 4 rest
  let (appArtifactDigest, rest) ← fixedBytes 32 rest
  let rest ← expectKey 5 rest
  let (brokerPublicKey, rest) ← fixedBytes 32 rest
  let rest ← expectKey 6 rest
  let (endpoint, rest) ← parseEndpoint platform rest
  let rest ← expectKey 7 rest
  let (expiryMs, rest) ← field (Cbor.readU64 rest)
  requireField (1 ≤ expiryMs && expiryMs ≤ jsonSafeMax)
  let rest ← expectKey 8 rest
  let (targetReferenceDigest, rest) ← fixedBytes 32 rest
  requireField rest.isEmpty
  let parsed : ParsedDescriptor := {
    binding := { targetReferenceDigest, leaseId, targetNonce, appArtifactDigest, expiryMs }
    brokerPublicKey, endpoint
  }
  requireField (encodeDescriptor parsed = b)
  pure parsed

end AppPilotKit.Target
