import AppPilotKit.Lib.Table
import AppPilotKit.Target.Descriptor

/-! # The Target transport supervisor

`TargetTransport` owns one lease connection and its child sessions. The host
drives it with events and gets one outcome or a rejection back; a rejected event
may still have changed the state, so `drive` always returns the next one.
Randomness for new Noise states is an argument.
-/

namespace AppPilotKit.Target

open Wire Transport

def bootstrapDeadlineMs : Nat := 10000
def sessionHandshakeDeadlineMs : Nat := 1000
def sessionOpenResponseDeadlineMs : Nat := 2000
def frameDeadlineMs : Nat := 2000
def sessionIdleDeadlineMs : Nat := 30000
def leaseTickMs : Nat := 30000

inductive EventTag where
  | bootstrapConnected
  | streamBytes
  | fullWriteCommitted
  | sessionAccepted
  | runtimeResponse
  | streamEof
  | streamIoFailed
  | streamCloseNormal
  | timerFired
  | eligibilityLost
  | cleanupFailed
  | internalError
  deriving Repr, DecidableEq

structure Event where
  tag : EventTag
  flags : Nat := 0
  streamId : Nat := 0
  writeToken : Nat := 0
  bytes : Bytes := []
  deriving Repr, DecidableEq

inductive OutcomeKind where
  | endpointReady
  | writeFrames
  | application
  | leaseReady
  | needInput
  | sessionTerminal
  | leaseTerminal
  | closed
  deriving Repr, DecidableEq

structure Outcome where
  kind : OutcomeKind
  flags : Nat := 0
  streamId : Nat := 0
  writeToken : Nat := 0
  bytes : Option Bytes := none
  value0 : Nat := 0
  value1 : Nat := 0
  nextDeadlineMs : Nat := 0
  closeReason : CloseReason := .normal
  handoff : HandoffState := .notHandedOff
  peerClose : Option (CloseReason × HandoffState) := none
  deriving Repr, DecidableEq

namespace Outcome

def new (kind : OutcomeKind) : Outcome := { kind }

def stream (o : Outcome) (streamId : Nat) : Outcome := { o with streamId }

def values (o : Outcome) (value0 value1 : Nat) : Outcome := { o with value0, value1 }

/-- A timer travels in the token slot when that is free, else in `value0`. -/
def deadline (o : Outcome) (timer milliseconds : Nat) : Outcome :=
  if o.writeToken = 0 then
    { o with writeToken := timer, flags := o.flags ||| 1 <<< 2, nextDeadlineMs := milliseconds }
  else { o with value0 := timer, flags := o.flags ||| 1 <<< 1, nextDeadlineMs := milliseconds }

def write (streamId writeToken : Nat) (bytes : Bytes) : Outcome :=
  { (Outcome.new .writeFrames).stream streamId with writeToken, bytes := some bytes }

def application (streamId : Nat) (bytes : Bytes) : Outcome :=
  { (Outcome.new .application).stream streamId with handoff := .handoffPossibleOrConfirmed, bytes := some bytes }

def terminal (kind : OutcomeKind) (streamId : Nat) (closeReason : CloseReason) (handoff : HandoffState)
    (peerClose : Option (CloseReason × HandoffState)) : Outcome :=
  { (Outcome.new kind).stream streamId with closeReason, handoff, peerClose }

/-- An outcome that also reports a new frame deadline. -/
def withFrameDeadline (o : Outcome) : Option Nat → Outcome
  | some timer => o.deadline timer frameDeadlineMs
  | none => o

end Outcome

structure Terminal where
  reason : CloseReason
  handoff : HandoffState
  peerClose : Option (CloseReason × HandoffState)
  deriving Repr, DecidableEq

def Terminal.internal : Terminal := { reason := .internalError, handoff := .notHandedOff, peerClose := none }

inductive TimerAction where
  | bootstrap
  | bootstrapFrame
  | leaseTick
  | leaseFrame
  | sessionPhase (streamId : Nat)
  | sessionIdle (streamId : Nat)
  | sessionFrame (streamId : Nat)
  deriving Repr, DecidableEq

inductive ChildPhase (H T : Type) where
  | m1Pending (session : TargetSession H T) (writeToken : Nat)
  | awaitM2 (session : TargetSession H T)
  | finishedPending (session : TargetSession H T) (writeToken : Nat)
  | awaitFinished (session : TargetSession H T)
  | awaitApplication (session : TargetSession H T)
  | awaitRuntime (session : TargetSession H T)
  | responsePending (session : TargetSession H T) (writeToken : Nat)
  | terminalPending (writeToken : Nat) (terminal : Terminal)
  | terminal

structure Child (H T : Type) where
  phase : ChildPhase H T
  decoder : OuterFrameDecoder
  phaseTimer : Option Nat
  frameTimer : Option Nat
  applications : Nat

structure Eligible (H T : Type) where
  leaseStream : Nat
  lease : TargetLeaseConnection T
  pbs : FixedBytes 32
  sessionBinding : SessionBinding
  leaseDecoder : OuterFrameDecoder
  leaseWrite : Option (Nat × Nat)
  leaseFrameTimer : Option Nat
  leaseTickTimer : Option Nat
  leaseTicks : Nat
  missedTicks : Nat
  children : Table (Child H T)

inductive Phase (H T : Type) where
  | awaitBootstrap (binding : BootstrapBinding) (brokerPublicKey : FixedBytes 32)
  | bootstrapM1Pending (streamId : Nat) (bootstrap : TargetBootstrap H) (writeToken : Nat)
      (decoder : OuterFrameDecoder) (frameTimer : Option Nat)
  | bootstrapM2 (streamId : Nat) (bootstrap : TargetBootstrap H) (decoder : OuterFrameDecoder)
      (frameTimer : Option Nat)
  | bootstrapAckPending (streamId : Nat) (lease : TargetLeaseConnection T) (pbs : FixedBytes 32)
      (sessionBinding : SessionBinding) (writeToken : Nat) (decoder : OuterFrameDecoder) (frameTimer : Option Nat)
  | eligible (e : Eligible H T)
  | terminal (t : Terminal)

/-- `next_token` and `timers`, which the timer helpers take together. -/
structure Clock where
  nextToken : Nat
  timers : Table TimerAction

structure TargetTransport (H T : Type) where
  phase : Phase H T
  generation : Nat
  clock : Clock

/-! ## Tokens and timers -/

namespace Clock

/-- `allocate_token`: a `u64` that must not wrap. -/
def allocateToken (c : Clock) : Except SupervisorError Nat × Clock :=
  if c.nextToken + 1 < 2 ^ 64 then
    (if c.nextToken = 0 then .error .internal else .ok c.nextToken, { c with nextToken := c.nextToken + 1 })
  else (.error .internal, c)

def scheduleTimer (c : Clock) (action : TimerAction) : Except SupervisorError Nat × Clock :=
  match c.allocateToken with
  | (.error error, c) => (.error error, c)
  | (.ok token, c) => (.ok token, { c with timers := c.timers.insert token action })

/-- Remove the timer of a slot, if it holds one. -/
def cancel (c : Clock) : Option Nat → Clock
  | some timer => { c with timers := c.timers.erase timer }
  | none => c

/-- Start a frame timer for a partial frame, stop it once the frame is whole.
    The result is the timer that was started, the slot and the clock. -/
def updateFrameTimer (c : Clock) (incomplete : Bool) (slot : Option Nat) (action : TimerAction) :
    Except SupervisorError (Option Nat) × Option Nat × Clock :=
  if incomplete then
    if slot.isNone then
      match c.scheduleTimer action with
      | (.error error, c) => (.error error, slot, c)
      | (.ok timer, c) => (.ok (some timer), some timer, c)
    else (.ok none, slot, c)
  else (.ok none, none, c.cancel slot)

end Clock

variable {R H T : Type}

/-- `replace_child_timer` on the child itself. -/
def replaceChildTimer (child : Child H T) (c : Clock) (action : TimerAction) :
    Except SupervisorError Nat × Child H T × Clock :=
  let c := c.cancel child.phaseTimer
  match c.scheduleTimer action with
  | (.error error, c) => (.error error, { child with phaseTimer := none }, c)
  | (.ok timer, c) => (.ok timer, { child with phaseTimer := some timer }, c)

namespace Child

/-- A child that has produced an application may have been handed off. -/
def handoff (child : Child H T) : HandoffState :=
  if child.applications > 0 then .handoffPossibleOrConfirmed else .notHandedOff

/-- `session.eof()` in every phase that has a session. -/
def eofSession : ChildPhase H T → Option (Except Error Unit) × ChildPhase H T
  | .m1Pending session token => let (r, session) := session.eof; (some r, .m1Pending session token)
  | .awaitM2 session => let (r, session) := session.eof; (some r, .awaitM2 session)
  | .finishedPending session token => let (r, session) := session.eof; (some r, .finishedPending session token)
  | .awaitFinished session => let (r, session) := session.eof; (some r, .awaitFinished session)
  | .awaitApplication session => let (r, session) := session.eof; (some r, .awaitApplication session)
  | .awaitRuntime session => let (r, session) := session.eof; (some r, .awaitRuntime session)
  | .responsePending session token => let (r, session) := session.eof; (some r, .responsePending session token)
  | .terminalPending token terminal => (none, .terminalPending token terminal)
  | .terminal => (none, .terminal)

def eofError (child : Child H T) : Option Error × Child H T :=
  match child.decoder.eof with
  | (.error error, decoder) => (some error, { child with decoder })
  | (.ok (), decoder) =>
      let child := { child with decoder }
      match eofSession child.phase with
      | (some (.error error), phase) =>
          if error.reason ≠ .peerClosed then (some error, { child with phase }) else (none, { child with phase })
      | (_, phase) => (none, { child with phase })

end Child

namespace TargetTransport

/-- Store a child under its stream in an eligible phase. -/
def withChild (t : TargetTransport H T) (e : Eligible H T) (streamId : Nat) (child : Child H T) :
    TargetTransport H T :=
  { t with phase := .eligible { e with children := e.children.insert streamId child } }

/-- Uses the phase `self` has now: while an operation has moved it out, no child is found. -/
def childTerminal (t : TargetTransport H T) (streamId : Nat) (reason : CloseReason)
    (peer : Option (CloseReason × HandoffState)) : Outcome × TargetTransport H T :=
  match t.phase with
  | .eligible e =>
      match e.children.lookup streamId with
      | some child =>
          (.terminal .sessionTerminal streamId reason child.handoff peer,
            { t with
              phase := .eligible { e with children := e.children.erase streamId }
              clock := (t.clock.cancel child.phaseTimer).cancel child.frameTimer })
      | none => (.terminal .sessionTerminal streamId reason .notHandedOff peer, t)
  | _ => (.terminal .sessionTerminal streamId reason .notHandedOff peer, t)

def leaseTerminal (t : TargetTransport H T) (reason : CloseReason)
    (peer : Option (CloseReason × HandoffState)) : Outcome × TargetTransport H T :=
  let handoff := match t.phase with
    | .eligible e => if e.children.any (·.applications > 0) then .handoffPossibleOrConfirmed else .notHandedOff
    | .terminal terminal => terminal.handoff
    | _ => .notHandedOff
  (.terminal .leaseTerminal 0 reason handoff peer,
    { t with phase := .terminal ⟨reason, handoff, peer⟩, clock := { t.clock with timers := ∅ } })

def coreLeaseError (t : TargetTransport H T) (error : Error) : Outcome × TargetTransport H T :=
  t.leaseTerminal error.reason error.peerClose

/-- The handoff a child terminal reports while the child is registered. -/
def childHandoff (t : TargetTransport H T) (streamId : Nat) : HandoffState :=
  match t.phase with
  | .eligible e =>
      match e.children.lookup streamId with
      | some child => child.handoff
      | none => .notHandedOff
  | _ => .notHandedOff

def childCoreError (t : TargetTransport H T) (streamId : Nat) (error : Error) : Outcome × TargetTransport H T :=
  match error.closeFrame with
  | none => t.childTerminal streamId error.reason error.peerClose
  | some frame =>
      let handoff := t.childHandoff streamId
      match t.clock.allocateToken with
      | (.error _, clock) => { t with clock }.childTerminal streamId .internalError none
      | (.ok token, clock) =>
          let t := { t with clock }
          match t.phase with
          | .eligible e =>
              match e.children.lookup streamId with
              | some child =>
                  -- the Close frame is written before the child ends
                  let o := Outcome.write streamId token frame
                  ({ o with
                      flags := o.flags ||| 1 <<< 3, closeReason := error.reason, handoff
                      peerClose := error.peerClose },
                    t.withChild e streamId
                      { child with phase := .terminalPending token ⟨error.reason, handoff, error.peerClose⟩ })
              | none => t.childTerminal streamId error.reason error.peerClose
          | _ => t.childTerminal streamId error.reason error.peerClose

/-- An outcome is always an answer. -/
def answer (r : Outcome × TargetTransport H T) : Except SupervisorError Outcome × TargetTransport H T :=
  (.ok r.1, r.2)

end TargetTransport

end AppPilotKit.Target
