import AppPilotKit.Lib.Cbor

/-! # Close reasons, handoff state and errors of the transport core -/

namespace AppPilotKit.Transport

open Wire

/-- The only terminal reasons emitted by the core. -/
inductive CloseReason where
  | normal
  | authenticationFailed
  | bindingMismatch
  | stale
  | timeout
  | oversize
  | malformed
  | sequenceViolation
  | recordLimit
  | peerClosed
  | brokerLost
  | eligibilityLost
  | cleanupFailed
  | internalError
  deriving Repr, DecidableEq

/-- Conservative application-dispatch state used in a close record. -/
inductive HandoffState where
  | notHandedOff
  | handoffPossibleOrConfirmed
  deriving Repr, DecidableEq

/-- A stable, secret-free error. `closeFrame` is the one authenticated Close
    frame generated before a terminal limit transition. -/
structure Error where
  reason : CloseReason
  peerClose : Option (CloseReason × HandoffState) := none
  closeFrame : Option Bytes := none
  deriving Repr, DecidableEq

namespace Error

def new (reason : CloseReason) : Error := { reason }

def ofPeerClose (reason : CloseReason) (handoff : HandoffState) : Error :=
  { reason := .peerClosed, peerClose := some (reason, handoff) }

def recordLimit (closeFrame : Option Bytes) : Error := { reason := .recordLimit, closeFrame }

end Error

namespace CloseReason

/-- The wire value of a reason. -/
def toWire : CloseReason → Nat
  | .normal => 0
  | .authenticationFailed => 1
  | .bindingMismatch => 2
  | .stale => 3
  | .timeout => 4
  | .oversize => 5
  | .malformed => 6
  | .sequenceViolation => 7
  | .recordLimit => 8
  | .peerClosed => 9
  | .brokerLost => 10
  | .eligibilityLost => 11
  | .cleanupFailed => 12
  | .internalError => 13

def fromWire : Nat → Except Error CloseReason
  | 0 => .ok .normal
  | 1 => .ok .authenticationFailed
  | 2 => .ok .bindingMismatch
  | 3 => .ok .stale
  | 4 => .ok .timeout
  | 5 => .ok .oversize
  | 6 => .ok .malformed
  | 7 => .ok .sequenceViolation
  | 8 => .ok .recordLimit
  | 9 => .ok .peerClosed
  | 10 => .ok .brokerLost
  | 11 => .ok .eligibilityLost
  | 12 => .ok .cleanupFailed
  | 13 => .ok .internalError
  | _ => .error (.new .malformed)

theorem toWire_le (reason : CloseReason) : reason.toWire ≤ 13 := by
  cases reason <;> decide

end CloseReason

namespace HandoffState

def toWire : HandoffState → Nat
  | .notHandedOff => 0
  | .handoffPossibleOrConfirmed => 1

def fromWire : Nat → Except Error HandoffState
  | 0 => .ok .notHandedOff
  | 1 => .ok .handoffPossibleOrConfirmed
  | _ => .error (.new .malformed)

def conservativeMax : HandoffState → HandoffState → HandoffState
  | .handoffPossibleOrConfirmed, _ => .handoffPossibleOrConfirmed
  | _, .handoffPossibleOrConfirmed => .handoffPossibleOrConfirmed
  | .notHandedOff, .notHandedOff => .notHandedOff

theorem toWire_le (handoff : HandoffState) : handoff.toWire ≤ 1 := by
  cases handoff <;> decide

end HandoffState

end AppPilotKit.Transport
