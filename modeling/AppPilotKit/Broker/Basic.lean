import AppPilotKit.Transport.Basic

/-! # Requests, answers and limits of the session broker

Times are milliseconds since the epoch. A clock reading may fail; sums of `u64` values are
checked as the source checks them.
-/

namespace AppPilotKit.Broker

open Wire Transport

def maxSafe : Nat := 9007199254740991
def iosPrepareLaunchMs : Nat := 10000
def androidPrepareLaunchMs : Nat := 20000
def prepareBootstrapMs : Nat := 10000
def cleanupMs : Nat := 2000
def sessionIdleMs : Nat := 30000
def leaseIdleMs : Nat := 120000
def leaseAbsoluteMs : Nat := 900000
def heartbeatIntervalMs : Nat := 30000
def heartbeatMissLimit : Nat := 4
def readyReferenceTtlMs : Nat := 30000

abbrev Token := FixedBytes 32
abbrev Digest := FixedBytes 32
abbrev LeaseId := FixedBytes 16

inductive Platform where
  | iosSimulator
  | androidEmulator
  deriving Repr, DecidableEq

inductive ErrorKind where
  | targetSelectionRequired
  | sessionExpired
  | transportAuthenticationRequired
  | timeout
  | internalError
  deriving Repr, DecidableEq

inductive ErrorStage where
  | ipc
  | prepare
  | bootstrap
  | sessionHandshake
  | sessionOpen
  | exchange
  | close
  | cleanup
  deriving Repr, DecidableEq

structure ControlFailure where
  kind : ErrorKind
  message : String
  retryable : Bool
  stage : ErrorStage
  handoff : HandoffState
  closeReason : CloseReason
  deriving Repr, DecidableEq

/-- All terminal information the raw transport passes on. -/
structure TransportFailure where
  closeReason : CloseReason
  handoff : HandoffState
  cleanupFailed : Bool
  deriving Repr, DecidableEq

def fail (stage : ErrorStage) (reason : CloseReason) : ControlFailure :=
  let (kind, message) : ErrorKind × String := match reason with
    | .authenticationFailed => (.transportAuthenticationRequired, "Target transport authentication failed")
    | .timeout => (.timeout, "Broker operation timed out")
    | .internalError | .cleanupFailed => (.internalError, "Broker operation failed")
    | _ => (.sessionExpired, "Target session expired")
  { kind, message, retryable := false, stage, handoff := .notHandedOff, closeReason := reason }

def selectionFailure (stage : ErrorStage) : ControlFailure :=
  { kind := .targetSelectionRequired, message := "Target selection is invalid", retryable := false, stage
    handoff := .notHandedOff, closeReason := .bindingMismatch }

def transportFail (stage : ErrorStage) (error : TransportFailure) : ControlFailure :=
  { fail stage error.closeReason with handoff := error.handoff }

/-! ## Requests and answers -/

structure PrepareBody where
  platform : Platform
  deviceSelector : String
  appId : String
  appArtifact : String
  appArtifactSha256 : Digest
  deriving DecidableEq

structure OpenSessionBody where
  targetToken : Token
  sessionId : Option String
  sessionOpenRequest : Option Bytes
  sessionOpenRequestSha256 : Option Digest
  deriving DecidableEq

structure ExchangeBody where
  targetToken : Token
  sessionId : String
  processGeneration : Nat
  listenerEpoch : Nat
  message : Bytes
  messageSha256 : Digest
  deriving DecidableEq

structure CloseSessionBody where
  targetToken : Token
  sessionId : String
  processGeneration : Nat
  listenerEpoch : Nat
  reason : CloseReason
  deriving DecidableEq

structure CloseLeaseBody where
  targetToken : Token
  reason : CloseReason
  deriving DecidableEq

structure Request (β : Type) where
  deadlineUnixMs : Nat
  body : β
  deriving DecidableEq

inductive ControlRequest where
  | prepare (request : Request PrepareBody)
  | openSession (request : Request OpenSessionBody)
  | exchange (request : Request ExchangeBody)
  | closeSession (request : Request CloseSessionBody)
  | closeLease (request : Request CloseLeaseBody)
  deriving DecidableEq

def ControlRequest.deadlineUnixMs : ControlRequest → Nat
  | .prepare request => request.deadlineUnixMs
  | .openSession request => request.deadlineUnixMs
  | .exchange request => request.deadlineUnixMs
  | .closeSession request => request.deadlineUnixMs
  | .closeLease request => request.deadlineUnixMs

structure ReadyTarget where
  targetToken : Token
  processGeneration : Nat
  listenerEpoch : Nat
  issuedAtUnixMs : Nat
  expiresAtUnixMs : Nat
  deriving DecidableEq

structure SessionOpened where
  targetToken : Token
  response : Bytes
  responseSha256 : Digest
  processGeneration : Nat
  listenerEpoch : Nat
  handoff : HandoffState
  deriving DecidableEq

structure ExchangeComplete where
  targetToken : Token
  sessionId : String
  processGeneration : Nat
  listenerEpoch : Nat
  message : Bytes
  messageSha256 : Digest
  handoff : HandoffState
  deriving DecidableEq

structure Closed where
  targetToken : Token
  sessionId : Option String
  handoff : HandoffState
  deriving DecidableEq

inductive ControlSuccess where
  | targetReady (ready : ReadyTarget)
  | sessionOpened (opened : SessionOpened)
  | exchangeComplete (complete : ExchangeComplete)
  | closed (closed : Closed)
  deriving DecidableEq

/-! ## Deadlines and limits -/

/-- The sum of two `u64` values, if it is one. -/
def checkedAdd (a b : Nat) : Option Nat := if a + b < 2 ^ 64 then some (a + b) else none

def saturatingAdd (a b : Nat) : Nat := min (a + b) (2 ^ 64 - 1)

def prepareLaunchBudget : Platform → Nat
  | .iosSimulator => iosPrepareLaunchMs
  | .androidEmulator => androidPrepareLaunchMs

def prepareDeadline (started callerDeadline : Nat) (platform : Platform) : Except ControlFailure Nat :=
  match (checkedAdd started (prepareLaunchBudget platform)).bind (checkedAdd · prepareBootstrapMs) with
  | some budget => .ok (min callerDeadline budget)
  | none => .error (fail .prepare .internalError)

def launchDeadline (started prepareDeadline : Nat) (platform : Platform) : Except ControlFailure Nat :=
  match checkedAdd started (prepareLaunchBudget platform) with
  | some limit => .ok (min prepareDeadline limit)
  | none => .error (fail .prepare .internalError)

def bootstrapDeadline (connected prepareDeadline : Nat) : Except ControlFailure Nat :=
  match checkedAdd connected prepareBootstrapMs with
  | some limit => .ok (min prepareDeadline limit)
  | none => .error (fail .bootstrap .internalError)

/-- An absolute deadline is positive and a safe integer. -/
def abs (value : Nat) : Except ControlFailure Nat :=
  if 1 ≤ value ∧ value ≤ maxSafe then .ok value else .error (fail .ipc .internalError)

def commitRejectionReason (completed deadline : Nat) (bindingMatches : Bool) : Option CloseReason :=
  if completed ≥ deadline then some .timeout
  else if !bindingMatches then some .bindingMismatch
  else none

/-- The end of a validity of 30 s, if it is a safe integer. -/
def safeExpiry (now ttl : Nat) : Option Nat := if now + ttl ≤ maxSafe then some (now + ttl) else none

def sessionTombstoneExpires (now : Nat) : Except ControlFailure Nat :=
  match safeExpiry now sessionIdleMs with
  | some expires => .ok expires
  | none => .error (fail .cleanup .internalError)

def expiredAt (current observed ttl : Nat) : Bool := ttl ≤ current - observed

def heartbeatLost (misses : Nat) : Bool := heartbeatMissLimit ≤ misses

def leaseTerminalReason (current created lastClientActivity misses : Nat) : Option CloseReason :=
  if expiredAt current created leaseAbsoluteMs then some .stale
  else if heartbeatLost misses then some .brokerLost
  else if expiredAt current lastClientActivity leaseIdleMs then some .stale
  else none

inductive HeartbeatAttempt where
  | requestAndReply
  | replyOnly
  deriving DecidableEq

def heartbeatAttempt (misses : Nat) : HeartbeatAttempt := if misses = 0 then .requestAndReply else .replyOnly

end AppPilotKit.Broker
