import AppPilotKit.Lib.Threads
import AppPilotKit.Target.Ticks

/-! # Concurrent drive calls on one handle

`apppilotkit_tp_v1_drive` after its argument checks and the look-up of the handle. Every
access to an atomic or under a lock is one step of the call; the transport itself is only
touched by the call that holds the busy flag. A call that records a request takes the
publish gate for that one write, so that the gate is free again when its step is done.
-/

namespace AppPilotKit.Ffi

open Transport Target

variable {R H T : Type}

/-- The values of `pending_terminal` other than zero. -/
inductive TerminalRequest where
  | eligibilityLost
  | cleanupFailed
  | leaseStream
  | internalError
  deriving Repr, DecidableEq

structure SupervisorEntry (H T : Type) where
  busy : Bool
  retired : Bool
  pendingTerminal : Option TerminalRequest
  pendingTimer : Nat
  leaseStream : Nat
  publishGate : Bool
  terminalTimers : List Nat
  transport : TargetTransport H T

def SupervisorEntry.new (transport : TargetTransport H T) : SupervisorEntry H T :=
  { busy := false, retired := false, pendingTerminal := none, pendingTimer := 0, leaseStream := 0, publishGate := false
    terminalTimers := transport.terminalTimerTokens, transport }

/-- The close reason of a transport that has ended. -/
def terminalReason (t : TargetTransport H T) : Option CloseReason :=
  match t.phase with
  | .terminal terminal => some terminal.reason
  | _ => none

def terminateInternalError (t : TargetTransport H T) : TargetTransport H T := (t.leaseTerminal .internalError none).2

/-- The terminal request of a well-formed event. -/
def terminalRequest (entry : SupervisorEntry H T) (event : Event) : Option TerminalRequest :=
  if event.flags = 0 ∧ event.writeToken = 0 ∧ event.bytes = [] then
    match event.tag with
    | .eligibilityLost => if event.streamId = 0 then some .eligibilityLost else none
    | .cleanupFailed => if event.streamId = 0 then some .cleanupFailed else none
    | .internalError => if event.streamId = 0 then some .internalError else none
    | .streamEof | .streamIoFailed | .streamCloseNormal =>
        if event.streamId ≠ 0 ∧ entry.leaseStream = event.streamId then some .leaseStream else none
    | _ => none
  else none

/-- The event fires a timer that is listed as terminal. -/
def timerRequest (entry : SupervisorEntry H T) (event : Event) : Bool :=
  event.flags = 0 ∧ event.streamId = 0 ∧ event.writeToken ≠ 0 ∧ event.bytes = [] ∧ event.tag = .timerFired ∧
    event.writeToken ∈ entry.terminalTimers

/-- The pending request is what the current event has just done. -/
def currentAlreadyApplied (outcome : Except SupervisorError Outcome) (pending : TerminalRequest) (current : EventTag) : Bool :=
  match outcome, pending, current with
  | .ok value, .eligibilityLost, .eligibilityLost => value.kind = .leaseTerminal ∧ value.closeReason = .eligibilityLost
  | .ok value, .cleanupFailed, .cleanupFailed => value.kind = .leaseTerminal ∧ value.closeReason = .cleanupFailed
  | .ok value, .internalError, .internalError => value.kind = .leaseTerminal ∧ value.closeReason = .internalError
  | _, _, _ => false

/-- The event with which a pending request is applied. -/
def requestEvent (leaseStream : Nat) : TerminalRequest → Event
  | .eligibilityLost => { tag := .eligibilityLost }
  | .cleanupFailed => { tag := .cleanupFailed }
  | .leaseStream => { tag := .streamIoFailed, streamId := leaseStream }
  | .internalError => { tag := .internalError }

/-- Where a call is. From `checkRetired` to `releaseBusy` it holds the busy flag; `second`
    tells the arbitration under the publish gate from the one before it. -/
inductive Point where
  | classify
  | probeTimer (request : Option TerminalRequest)
  | record (request : Option TerminalRequest) (timer : Bool)
  | takeBusy
  | checkRetired
  | readReason
  | drive (onEntry : Option CloseReason)
  | refresh (onEntry : Option CloseReason) (outcome : Except SupervisorError Outcome)
  | swapTerminal (second : Bool) (onEntry : Option CloseReason) (outcome : Except SupervisorError Outcome)
  | applyTerminal (second : Bool) (onEntry : Option CloseReason) (request : TerminalRequest)
  | swapTimer (second : Bool) (onEntry : Option CloseReason) (outcome : Except SupervisorError Outcome)
  | applyTimer (second : Bool) (onEntry : Option CloseReason) (outcome : Except SupervisorError Outcome) (timer : Nat)
  | lockGate (onEntry : Option CloseReason) (outcome : Except SupervisorError Outcome)
  | publish (outcome : Except SupervisorError Outcome)
  | releaseBusy
  | returned

/-- A call with its event, the outcomes its drives produced, and what it published. -/
structure Call where
  event : Event
  point : Point
  produced : List Outcome
  published : List Outcome

namespace Call

def start (event : Event) : Call := { event, point := .classify, produced := [], published := [] }

/-- Go on at a point. -/
def goto (call : Call) (point : Point) : Call := { call with point }

/-- Note the outcome of a drive. -/
def note (call : Call) (result : Except SupervisorError Outcome) : Call :=
  { call with produced := call.produced ++ result.toOption.toList }

end Call

/-- What the timer of another call makes of the outcome. -/
def timerOutcome (outcome : Except SupervisorError Outcome) :
    Except SupervisorError Outcome → Except SupervisorError Outcome
  | .ok value => if value.kind = .sessionTerminal ∨ value.kind = .leaseTerminal then .ok value else outcome
  | .error error => .error error

/-- The point after an arbitration. -/
def arbitrated (second : Bool) (onEntry : Option CloseReason) (outcome : Except SupervisorError Outcome) : Point :=
  if second then .publish outcome else .lockGate onEntry outcome

/-- The randomness of a drive, and whether the output registry is full. -/
structure Input (R : Type) where
  entropy : R
  full : Bool

/-- One step of a call. A call that waits for the gate stays where it is. -/
def advance (noise : Noise R H T) (entry : SupervisorEntry H T) (call : Call) (input : Input R) :
    SupervisorEntry H T × Call :=
  match call.point with
  | .classify => (entry, call.goto (.probeTimer (terminalRequest entry call.event)))
  | .probeTimer request =>
      let timer := timerRequest entry call.event
      (entry, call.goto (if request.isSome || timer then .record request timer else .takeBusy))
  | .record request timer =>
      if entry.publishGate then (entry, call)
      else
        ({ entry with
            pendingTerminal := if entry.pendingTerminal.isNone then request else entry.pendingTerminal
            pendingTimer := if timer ∧ entry.pendingTimer = 0 then call.event.writeToken else entry.pendingTimer },
          call.goto .takeBusy)
  | .takeBusy =>
      if entry.busy then (entry, call.goto .returned) else ({ entry with busy := true }, call.goto .checkRetired)
  | .checkRetired => (entry, call.goto (if entry.retired then .releaseBusy else .readReason))
  | .readReason => (entry, call.goto (.drive (terminalReason entry.transport)))
  | .drive onEntry =>
      let (result, transport) := entry.transport.drive noise input.entropy call.event
      let connected : Bool := match result with
        | .ok value => value.kind = .writeFrames ∧ call.event.tag = .bootstrapConnected
        | .error _ => false
      ({ entry with transport, leaseStream := if connected then call.event.streamId else entry.leaseStream },
        (call.note result).goto (.refresh onEntry result))
  | .refresh onEntry outcome =>
      ({ entry with terminalTimers := entry.transport.terminalTimerTokens },
        call.goto (.swapTerminal false onEntry outcome))
  | .swapTerminal second onEntry outcome =>
      ({ entry with pendingTerminal := none },
        call.goto (match entry.pendingTerminal with
          | some pending =>
              if currentAlreadyApplied outcome pending call.event.tag then .swapTimer second onEntry outcome
              else .applyTerminal second onEntry pending
          | none => .swapTimer second onEntry outcome))
  | .applyTerminal second onEntry request =>
      let transport :=
        if request = .internalError ∧ onEntry.isNone then terminateInternalError entry.transport else entry.transport
      let (result, transport) := transport.drive noise input.entropy (requestEvent entry.leaseStream request)
      ({ entry with transport, terminalTimers := transport.terminalTimerTokens },
        (call.note result).goto (arbitrated second onEntry result))
  | .swapTimer second onEntry outcome =>
      ({ entry with pendingTimer := 0 },
        call.goto (if entry.pendingTimer = 0 ∨ call.event.tag = .timerFired then arbitrated second onEntry outcome
          else .applyTimer second onEntry outcome entry.pendingTimer))
  | .applyTimer second onEntry outcome timer =>
      let (result, transport) := entry.transport.drive noise input.entropy (fired timer)
      ({ entry with transport, terminalTimers := transport.terminalTimerTokens },
        (call.note result).goto (arbitrated second onEntry (timerOutcome outcome result)))
  | .lockGate onEntry outcome =>
      if entry.publishGate then (entry, call)
      else ({ entry with publishGate := true }, call.goto (.swapTerminal true onEntry outcome))
  | .publish outcome =>
      ({ entry with publishGate := false },
        { call with
          point := .releaseBusy
          published := match outcome with
            | .ok value => if value.bytes.isSome ∧ input.full then call.published else call.published ++ [value]
            | .error _ => call.published })
  | .releaseBusy => ({ entry with busy := false }, call.goto .returned)
  | .returned => (entry, call)

/-- The handle as a machine of concurrent calls. -/
def handle (noise : Noise R H T) : Threads.Machine (SupervisorEntry H T) Call Event (Input R) :=
  { start := Call.start, next := advance noise }

/-- The handle before the first call. -/
def opened (transport : TargetTransport H T) : Threads.Pool (SupervisorEntry H T) Call := ⟨.new transport, []⟩

end AppPilotKit.Ffi
