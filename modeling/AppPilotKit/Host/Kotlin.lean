import AppPilotKit.Host.Desk

/-! # The Android host

`TargetTransport` applies outcomes on one lifecycle thread, in the order in which
tasks were posted to it. Reads and writes run on worker threads; each read ends
with bytes, with the end of the stream or with a failure, and a read whose stream
was closed before it began ends silently.
-/

namespace AppPilotKit.Host.Kotlin

open Wire Transport Target Host

inductive SocketEvent where
  | accepted (streamId : Nat)
  | bytes (streamId : Nat) (bytes : Bytes)
  | readEnded (streamId : Nat) (failed : Bool)
  | writeCompleted (streamId token : Nat) (failed : Bool)
  | listenerFailed
  | peerUnsupported

inductive Task where
  | socket (event : SocketEvent)
  | timer (token : Nat)
  | eligibilityLost
  | close

structure TransportHost (H T : Type) where
  desk : Desk H T
  terminalObserved : List Nat := []
  queue : List Task := []
  listening : Bool := true
  nextStreamId : Nat := 1
  streams : List Nat := []
  readsInFlight : List Nat := []
  writesInFlight : List (Nat × Nat) := []
  armed : List Nat := []

section
variable {R H T : Type}

/-- `sessionTerminal`. -/
def sessionTerminal (d : Desk H T) (streamId : Nat) : Desk H T :=
  if streamId = 0 then d
  else
    let d := (d.note (.sessionTerminal streamId)).note (.close streamId)
    let d := d.wipePendingWrite streamId
    { d with runtimes := d.runtimes.erase streamId }

/-- `leaseTerminal`, which also drops the composition. -/
def leaseTerminal (d : Desk H T) : Desk H T := { d.leaseTerminal with composed := d.composed && d.stopped }

section
variable (noise : Noise R H T) (world : World R) (observed : Nat → Bool) (process : Desk H T → Outcome → Desk H T)

def internalFailure (d : Desk H T) : Desk H T := d.internalFailure noise world.entropy leaseTerminal process

def driveAndProcess (d : Desk H T) (event : Event) : Desk H T :=
  d.driveAndProcess noise world.entropy leaseTerminal process event

def application (d : Desk H T) (o : Outcome) : Desk H T :=
  let request := o.bytes.getD []
  if o.streamId = 0 ∨ request = [] ∨ !d.composed then internalFailure noise world process d
  else
    let (runtime, d) := d.runtimeFor o.streamId
    match world.response with
    | none => internalFailure noise world process d
    | some response =>
        if d.stopped ∨ d.runtimes.lookup o.streamId ≠ some runtime ∨ observed o.streamId ∨ world.observed then d
        else
          driveAndProcess noise world process d { tag := .runtimeResponse, streamId := o.streamId, bytes := response }

def leaseReady (d : Desk H T) (o : Outcome) : Desk H T :=
  if o.streamId ≠ d.bootstrapStreamId ∨ o.value0 = 0 ∨ o.value1 = 0 ∨ d.composed then
    internalFailure noise world process d
  else if !world.composes then internalFailure noise world process d
  else
    let d := { d with composed := true }.note (.receive o.streamId)
    match d.pendingSession with
    | some streamId =>
        driveAndProcess noise world process { d with pendingSession := none } { tag := .sessionAccepted, streamId }
    | none => d

end

/-- `process`. An outcome can call for one more event of the same stream, and that
    event or the outcome itself for an internal error, which ends the lease; so
    few rounds are ever needed. -/
def process (noise : Noise R H T) (world : World R) (observed : Nat → Bool) : Nat → Desk H T → Outcome → Desk H T
  | 0, d, _ => d
  | rounds + 1, d, o =>
      if d.stopped then d
      else
        let d := d.scheduleDeadline o
        let again := process noise world observed rounds
        match o.kind with
        | .needInput => if o.streamId = 0 then d else d.note (.receive o.streamId)
        | .writeFrames => (d.write o).getD (internalFailure noise world again d)
        | .application => application noise world observed again d o
        | .leaseReady => leaseReady noise world again d o
        | .sessionTerminal => sessionTerminal d o.streamId
        | .leaseTerminal | .closed => leaseTerminal d
        | .endpointReady => internalFailure noise world again d

/-- Enough for an application, its response, and an internal error. -/
def depth : Nat := 4

section
variable (noise : Noise R H T) (world : World R) (observed : Nat → Bool)

def fail (d : Desk H T) : Desk H T := internalFailure noise world (process noise world observed depth) d

def advance (d : Desk H T) (event : Event) : Desk H T :=
  driveAndProcess noise world (process noise world observed depth) d event

def accepted (d : Desk H T) (streamId : Nat) : Desk H T :=
  if streamId = 0 then fail noise world observed d
  else if d.bootstrapStreamId = 0 then
    advance noise world observed { d with bootstrapStreamId := streamId } { tag := .bootstrapConnected, streamId }
  else if !d.composed then
    if d.pendingSession.isSome then d.note (.close streamId) else { d with pendingSession := some streamId }
  else advance noise world observed d { tag := .sessionAccepted, streamId }

/-- One task of the lifecycle thread. -/
def runTask (d : Desk H T) (task : Task) : Desk H T :=
  if d.stopped then d
  else
    match task with
    | .socket (.accepted streamId) => accepted noise world observed d streamId
    | .socket (.bytes streamId bytes) => advance noise world observed d { tag := .streamBytes, streamId, bytes }
    | .socket (.readEnded streamId failed) =>
        advance noise world observed d { tag := if failed then .streamIoFailed else .streamEof, streamId }
    | .socket (.writeCompleted streamId token failed) =>
        if d.pendingWrites.lookup streamId ≠ some token then d
        else
          advance noise world observed (d.wipePendingWrite streamId)
            (if failed then { tag := .streamIoFailed, streamId }
            else { tag := .fullWriteCommitted, streamId, writeToken := token })
    | .socket .listenerFailed | .socket .peerUnsupported => fail noise world observed d
    | .timer token =>
        advance noise world observed { d with pendingTimers := d.pendingTimers.erase token }
          { tag := .timerFired, writeToken := token }
    | .eligibilityLost => advance noise world observed d { tag := .eligibilityLost }
    | .close => leaseTerminal d

end

end

/-! ## The host -/

inductive ReadResult where
  | bytes (bytes : Bytes)
  | ended (failed : Bool)
  /-- The stream was gone before the read began. -/
  | nothing

inductive Input (R : Type) where
  | connect
  | listenerFails
  | peerUnsupported
  | read (streamId : Nat) (result : ReadResult)
  | written (streamId token : Nat) (failed : Bool)
  | expire (token : Nat)
  | eligibilityLost
  | close
  | run (world : World R)

namespace TransportHost

variable {R H T : Type}

def post (h : TransportHost H T) (task : Task) : TransportHost H T :=
  if h.desk.stopped then h else { h with queue := h.queue ++ [task] }

/-- `socketEvent`, on the thread that reports. -/
def socketEvent (h : TransportHost H T) (event : SocketEvent) : TransportHost H T :=
  match event with
  | .readEnded streamId _ =>
      { h with terminalObserved := streamId :: h.terminalObserved }.post (.socket event)
  | _ => h.post (.socket event)

/-- A command to the sockets, the read pump or the timers. -/
def perform (h : TransportHost H T) : Deed → TransportHost H T
  | .receive streamId =>
      if streamId ∈ h.readsInFlight then h else { h with readsInFlight := streamId :: h.readsInFlight }
  | .write streamId token => { h with writesInFlight := h.writesInFlight ++ [(streamId, token)] }
  | .close streamId => { h with streams := h.streams.erase streamId }
  | .arm token => { h with armed := token :: h.armed }
  | .sessionTerminal streamId => { h with terminalObserved := streamId :: h.terminalObserved }
  | .leaseTerminal => { h with streams := [], readsInFlight := [], armed := [], listening := false }
  | .drove _ _ | .handle _ _ => h

/-- Put the desk back and carry out what it asked for. -/
def settle (h : TransportHost H T) (d : Desk H T) : List Deed × TransportHost H T :=
  (d.log, d.log.foldl perform { h with desk := { d with log := [] } })

/-- `acceptLoop` gives each connection the next number and stops when they run out. -/
def connect (h : TransportHost H T) : TransportHost H T :=
  if !h.listening then h
  else if h.nextStreamId < 2 ^ 63 then
    { h with streams := h.nextStreamId :: h.streams, nextStreamId := h.nextStreamId + 1 }.socketEvent
      (.accepted h.nextStreamId)
  else { h with listening := false }.socketEvent .listenerFailed

/-- A read ends once; it ends silently only when its stream is closed. -/
def readDone (h : TransportHost H T) (streamId : Nat) (result : ReadResult) : TransportHost H T :=
  if streamId ∉ h.readsInFlight then h
  else
    let done := { h with readsInFlight := h.readsInFlight.erase streamId }
    match result with
    | .bytes bytes => done.socketEvent (.bytes streamId bytes)
    | .ended failed => done.socketEvent (.readEnded streamId failed)
    | .nothing => if streamId ∈ h.streams then h else done

def step (noise : Noise R H T) (h : TransportHost H T) : Input R → List Deed × TransportHost H T
  | .connect => ([], h.connect)
  | .listenerFails =>
      ([], if h.listening then { h with listening := false }.socketEvent .listenerFailed else h)
  | .peerUnsupported =>
      ([], if h.listening then { h with listening := false }.socketEvent .peerUnsupported else h)
  | .read streamId result => ([], h.readDone streamId result)
  | .written streamId token failed =>
      ([], if (streamId, token) ∈ h.writesInFlight then
        { h with writesInFlight := h.writesInFlight.erase (streamId, token) }.socketEvent
          (.writeCompleted streamId token failed) else h)
  | .expire token => ([], if token ∈ h.armed then { h with armed := h.armed.erase token }.post (.timer token) else h)
  | .eligibilityLost => ([], h.post .eligibilityLost)
  | .close => ([], h.post .close)
  | .run world =>
      match h.queue with
      | [] => ([], h)
      | task :: rest =>
          { h with queue := rest }.settle
            (runTask noise world (fun streamId => streamId ∈ h.terminalObserved) h.desk task)

end TransportHost

end AppPilotKit.Host.Kotlin
