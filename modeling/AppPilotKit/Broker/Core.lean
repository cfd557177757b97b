import AppPilotKit.Lib.Dict
import AppPilotKit.Lib.Programs
import AppPilotKit.Broker.Basic

/-! # The state of the session broker

One lease to a slot, with its references, its sessions and its ledger of operations. A
slot is emptied in place and never filled again, so an index names one lease for good.
What Rust's ownership keeps apart stands in the state as well: the call that holds an
operation guard, a session's crypto state or a cleanup receipt is named there.
-/

namespace AppPilotKit.Broker

open Wire Transport

structure SelectionKey where
  platform : Platform
  device : String
  app : String
  deriving DecidableEq

structure PrepareKey where
  platform : Platform
  device : String
  app : String
  digest : Digest
  deriving DecidableEq

namespace PrepareKey

def new (body : PrepareBody) : PrepareKey :=
  { platform := body.platform, device := body.deviceSelector, app := body.appId, digest := body.appArtifactSha256 }

def selection (key : PrepareKey) : SelectionKey := { platform := key.platform, device := key.device, app := key.app }

theorem ext_selection {key other : PrepareKey} (same : key.selection = other.selection)
    (digest : key.digest = other.digest) : key = other := by
  cases key
  cases other
  simp_all [selection]

end PrepareKey

inductive LeaseState where
  | preparing
  | ready
  | stale
  | closing
  deriving Repr, DecidableEq

inductive RefState where
  | pending
  | minted
  | redeeming
  | consumed
  | stale
  deriving Repr, DecidableEq

structure Reference where
  state : RefState
  issued : Nat
  expires : Nat
  sessionSlot : Option Nat
  sessionId : Option String
  deriving DecidableEq

/-- A session. Of its crypto state and its reader the Broker knows whether they are there. -/
structure Session where
  id : Option String
  raw : Nat
  crypto : Bool
  reader : Bool
  response : Bytes
  responseDigest : Digest
  handoff : HandoffState
  last : Nat
  deriving DecidableEq

/-! ## The ledger of operations -/

/-- One lease-wide ownership ledger. Every operation that can block on raw I/O enters it
    before the lock is released; terminal cleanup first closes the gate and then waits for
    the ledger to drain. -/
structure OperationState where
  accepting : Bool := true
  completed : Option (Except CloseReason Unit) := none
  nextId : Nat := 1
  cancellations : List Nat := []
  deriving DecidableEq

namespace OperationState

def active (o : OperationState) : Nat := o.cancellations.length

def enter (o : OperationState) : Except CloseReason (Nat × OperationState) :=
  if !o.accepting then .error .stale
  else match checkedAdd o.nextId 1 with
    | none => .error .internalError
    | some next =>
        .ok (o.nextId, { o with nextId := next, cancellations := o.cancellations ++ [o.nextId] })

/-- The guard of an operation is dropped. -/
def leave (o : OperationState) (id : Nat) : OperationState :=
  { o with cancellations := o.cancellations.filter (· ≠ id) }

def finishClose (o : OperationState) (result : Except CloseReason Unit) : OperationState :=
  { o with completed := some result }

end OperationState

/-! ## Leases -/

/-- What a successful bootstrap gives to the Broker. -/
structure BootstrapSuccess (χ : Type) where
  ackDigest : Digest
  ackLeaseId : LeaseId
  processGeneration : Nat
  listenerEpoch : Nat
  nkHandshakeHash : Digest
  bootstrap : Nat
  lease : χ

/-- What a successful `session.open` gives to the Broker. -/
structure OpenedSession where
  raw : Nat
  response : Bytes
  handoff : HandoffState

/-- A prepared launch, with its pre-shared secret, its receipt and its operation guard. -/
structure Prepared (χ : Type) where
  success : BootstrapSuccess χ
  operation : Nat

structure Lease (χ : Type) where
  key : PrepareKey
  state : LeaseState
  leaseId : LeaseId
  generation : Nat
  epoch : Nat
  nkHash : Digest
  control : Option Nat
  leaseCrypto : Option χ
  controlReader : Bool
  pbs : Bool
  connector : Bool
  cleanup : Bool
  references : Dict Token Reference
  sessions : Dict Nat Session
  nextSession : Nat
  created : Nat
  lastHeartbeatAttempt : Nat
  lastHeartbeatSuccess : Nat
  heartbeatCounter : Nat
  heartbeatMisses : Nat
  lastClientActivity : Nat
  terminalCleanupFailed : Bool
  terminalReason : Option CloseReason
  terminalHandoff : HandoffState
  handoff : HandoffState

/-- `PRODUCING`, `READY` and the other states of an owned result. -/
inductive OwnedState where
  | producing
  | ready
  | taken
  | abandoned
  | reaping
  | reaped
  | cleanupFailed
  deriving DecidableEq

structure OwnedOp (χ : Type) where
  state : OwnedState := .producing
  cell : Option (Except TransportFailure (Prepared χ)) := none

/-- A slot, and what outlives the lease in it. -/
structure Place (χ : Type) where
  key : PrepareKey
  lease : Option (Lease χ)
  operations : OperationState
  readyProbe : Option Nat
  owned : OwnedOp χ

/-- The three parties that call a cleanup receipt. -/
inductive Cleaner where
  | terminalReaper
  | discardPrepared
  | lateReaper
  deriving DecidableEq

/-- What the Broker has done, in order. -/
inductive Event where
  | drew (token : Token)
  | beginLaunch (index : Nat)
  | aborted (index : Nat) (ok : Bool)
  | launched (index : Nat)
  | cleanup (index : Nat) (cleaner : Cleaner) (ok : Bool)
  | beginClose (index : Nat) (who : Nat)
  | finishClose (index : Nat) (who : Nat) (result : Except CloseReason Unit)
  | terminalized (index : Nat) (who : Nat) (result : Except CloseReason Unit)
  | openSession (index : Nat) (token : Token) (slot now expires : Nat)
  | inserted (index : Nat) (token : Token) (slot : Nat)
  | cancelled (raw : Nat)
  | decided (who : Nat) (index : Nat) (success : ControlSuccess) (generation epoch checked : Nat)
  | returned (who : Nat) (answer : Except ControlFailure ControlSuccess)
  | panicked

structure Core (χ : Type) where
  places : List (Place χ) := []
  failed : Dict SelectionKey (Digest × CloseReason) := ∅
  staleTokens : Dict Token Nat := ∅
  shuttingDown : Bool := false
  pendingReapers : Int := 0
  latest : Nat := 0
  history : List Event := []

/-- What one step finds: up to three clock readings, fresh random values, and how the
    platform and the raw streams answer. -/
structure Input (χ : Type) where
  clock : Option Nat := none
  second : Option Nat := none
  third : Option Nat := none
  entropy : Option (Token × LeaseId × Digest) := none
  keys : Except CloseReason Unit := .ok ()
  descriptor : Except CloseReason Unit := .ok ()
  aborted : Bool := true
  launched : Except TransportFailure Unit := .ok ()
  bootstrapped : Except TransportFailure (BootstrapSuccess χ) := .error ⟨.timeout, .notHandedOff, false⟩
  late : Bool := false
  cleaned : Bool := true
  heartbeat : χ → Nat → Except TransportFailure Unit × χ := fun crypto _ => (.ok (), crypto)
  reply : χ → Except TransportFailure Nat × χ := fun crypto => (.error ⟨.timeout, .notHandedOff, false⟩, crypto)
  opened : Except TransportFailure OpenedSession := .error ⟨.timeout, .notHandedOff, false⟩
  exchanged : Except TransportFailure Bytes := .error ⟨.timeout, .notHandedOff, false⟩
  closed : Except TransportFailure Unit := .ok ()

/-- The last reading of a step, after the last one before it. -/
def Input.time {χ : Type} (input : Input χ) (latest : Nat) : Nat :=
  input.third.getD (input.second.getD (input.clock.getD latest))

namespace Core

variable {χ : Type}

def lease? (core : Core χ) (index : Nat) : Option (Lease χ) := core.places[index]?.bind (·.lease)

def onPlace (core : Core χ) (index : Nat) (f : Place χ → Place χ) : Core χ :=
  { core with places := core.places.modify index f }

def onOperations (core : Core χ) (index : Nat) (f : OperationState → OperationState) : Core χ :=
  core.onPlace index fun place => { place with operations := f place.operations }

def setLease (core : Core χ) (index : Nat) (lease : Lease χ) : Core χ :=
  core.onPlace index fun place => { place with lease := some lease }

def log (core : Core χ) (events : List Event) : Core χ := { core with history := core.history ++ events }

def clocked (core : Core χ) (latest : Nat) : Core χ := { core with latest }

end Core

end AppPilotKit.Broker
