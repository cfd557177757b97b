import AppPilotKit.Host.Desk

/-! # The iOS host

`AppPilotKitTargetTransport` is an actor. Every socket event is delivered by a
task of its own, so delivered events run in any order; a task that waits for a
runtime lets others run, and so may the second half of an event that carries both
bytes and the end of its stream. The sockets work through their commands one after
another on a queue of their own.
-/

namespace AppPilotKit.Host.Swift

open Wire Transport Target Host

inductive SocketEvent where
  | accepted (streamId : Nat)
  | received (streamId : Nat) (bytes : Bytes) (ended failed : Bool)
  | writeCompleted (streamId writeToken : Nat) (failed : Bool)
  | listenerFailed

inductive Task where
  | socket (event : SocketEvent)
  /-- The end that came with bytes, once those are processed. -/
  | ending (streamId : Nat) (failed : Bool)
  /-- An application whose runtime was called. -/
  | handled (streamId runtime : Nat)
  | timer (token : Nat)
  | eligibilityLost
  | stop

inductive Command where
  | receive (streamId : Nat)
  | send (streamId writeToken : Nat)
  | close (streamId : Nat)

structure TransportHost (H T : Type) where
  desk : Desk H T
  /-- Delivered and not yet run, in no order. -/
  tasks : List Task := []
  commands : List Command := []
  listening : Bool := true
  nextStreamId : Nat := 1
  /-- Connections that are not ready yet. -/
  connecting : List Nat := []
  /-- Open connections, and whether a receive is outstanding. -/
  streams : Table Bool := ∅
  sending : List (Nat × Nat) := []
  sleeping : List Nat := []

section
variable {R H T : Type}

def wipePendingSession (d : Desk H T) : Desk H T := { d with pendingSession := none, pendingSessionBytes := [] }

/-- `sessionTerminal`. -/
def sessionTerminal (d : Desk H T) (streamId : Nat) : Desk H T :=
  if streamId = 0 then d
  else
    let d := if d.pendingSession = some streamId then wipePendingSession d else d
    let d := (d.note (.sessionTerminal streamId)).note (.close streamId)
    let d := d.wipePendingWrite streamId
    { d with runtimes := d.runtimes.erase streamId }

section
variable (noise : Noise R H T) (world : World R) (process : Desk H T → Outcome → Desk H T)

def internalFailure (d : Desk H T) : Desk H T := d.internalFailure noise world.entropy Desk.leaseTerminal process

def driveAndProcess (d : Desk H T) (event : Event) : Desk H T :=
  d.driveAndProcess noise world.entropy Desk.leaseTerminal process event

/-- `application` up to the call of the runtime. -/
def application (d : Desk H T) (o : Outcome) : Desk H T :=
  if o.streamId = 0 ∨ o.bytes.getD [] = [] ∨ !d.composed then internalFailure noise world process d
  else
    let (runtime, d) := d.runtimeFor o.streamId
    d.note (.handle o.streamId runtime)

def leaseReady (d : Desk H T) (o : Outcome) : Desk H T :=
  if d.bootstrapStreamId ≠ o.streamId ∨ o.value0 = 0 ∨ o.value1 = 0 ∨ d.composed then
    internalFailure noise world process d
  else if !world.composes then internalFailure noise world process d
  else
    let d := { d with composed := true }
    let d := match d.pendingSession with
      | some streamId => driveAndProcess noise world process d { tag := .sessionAccepted, streamId }
      | none => d
    if d.stopped then d else d.note (.receive o.streamId)

def needInput (d : Desk H T) (streamId : Nat) : Desk H T :=
  if streamId = 0 then d
  else if d.pendingSession ≠ some streamId then d.note (.receive streamId)
  else
    let bytes := d.pendingSessionBytes
    let d := wipePendingSession d
    if bytes = [] then d.note (.receive streamId)
    else driveAndProcess noise world process d { tag := .streamBytes, streamId, bytes }

end

/-- `process`. An outcome can call for one more event, and that event or the outcome
    itself for an internal error, which ends the lease; so few rounds are ever needed. -/
def process (noise : Noise R H T) (world : World R) : Nat → Desk H T → Outcome → Desk H T
  | 0, d, _ => d
  | rounds + 1, d, o =>
      if d.stopped then d
      else
        let d := d.scheduleDeadline o
        let again := process noise world rounds
        match o.kind with
        | .needInput => needInput noise world again d o.streamId
        | .writeFrames => (d.write o).getD (internalFailure noise world again d)
        | .application => application noise world again d o
        | .leaseReady => leaseReady noise world again d o
        | .sessionTerminal => sessionTerminal d o.streamId
        | .leaseTerminal | .closed => d.leaseTerminal
        | .endpointReady => internalFailure noise world again d

/-- Enough for an accepted session or buffered bytes, and an internal error. -/
def depth : Nat := 4

section
variable (noise : Noise R H T) (world : World R)

def fail (d : Desk H T) : Desk H T := internalFailure noise world (process noise world depth) d

def advance (d : Desk H T) (event : Event) : Desk H T :=
  driveAndProcess noise world (process noise world depth) d event

def accepted (d : Desk H T) (streamId : Nat) : Desk H T :=
  if streamId = 0 then fail noise world d
  else if d.bootstrapStreamId = 0 then
    advance noise world { d with bootstrapStreamId := streamId } { tag := .bootstrapConnected, streamId }
  else if !d.composed then
    if d.pendingSession.isSome then d.note (.close streamId) else { d with pendingSession := some streamId }
  else advance noise world d { tag := .sessionAccepted, streamId }

def ending (d : Desk H T) (streamId : Nat) (failed : Bool) : Desk H T :=
  advance noise world d { tag := if failed then .streamIoFailed else .streamEof, streamId }

/-- One task of the actor, and the task it leaves behind. -/
def runTask (d : Desk H T) (task : Task) : Desk H T × List Task :=
  if d.stopped then (d, [])
  else
    match task with
    | .socket (.accepted streamId) => (accepted noise world d streamId, [])
    | .socket (.received streamId bytes ended failed) =>
        if d.pendingSession = some streamId then
          let d := { d with pendingSessionBytes := d.pendingSessionBytes ++ bytes }
          (if ended || failed then wipePendingSession d else d, [])
        else if bytes ≠ [] then
          (advance noise world d { tag := .streamBytes, streamId, bytes },
            if ended || failed then [.ending streamId failed] else [])
        else if ended || failed then (ending noise world d streamId failed, [])
        else (d, [])
    | .ending streamId failed => (ending noise world d streamId failed, [])
    | .socket (.writeCompleted streamId writeToken failed) =>
        if d.pendingWrites.lookup streamId ≠ some writeToken then (d, [])
        else
          (advance noise world (d.wipePendingWrite streamId)
            (if failed then { tag := .streamIoFailed, streamId }
            else { tag := .fullWriteCommitted, streamId, writeToken }), [])
    | .socket .listenerFailed => (fail noise world d, [])
    | .handled streamId runtime =>
        if d.runtimes.lookup streamId ≠ some runtime then (d, [])
        else
          (advance noise world d
            { tag := .runtimeResponse, streamId, bytes := world.response.getD [] }, [])
    | .timer token =>
        (advance noise world { d with pendingTimers := d.pendingTimers.erase token }
          { tag := .timerFired, writeToken := token }, [])
    | .eligibilityLost => (advance noise world d { tag := .eligibilityLost }, [])
    | .stop => (d.leaseTerminal, [])

end

end

/-! ## The host -/

inductive Input (R : Type) where
  | connect
  | ready (streamId : Nat)
  | fails (streamId : Nat) (failed : Bool)
  | receives (streamId : Nat) (bytes : Bytes) (ended failed : Bool)
  | sent (streamId writeToken : Nat) (failed : Bool)
  | listenerFails
  | dispatch
  | expire (token : Nat)
  | eligibilityLost
  | stop
  | run (index : Nat) (world : World R)

namespace TransportHost

variable {R H T : Type}

/-- Deliver an event by a task; a stopped socket host has no handler. -/
def deliver (h : TransportHost H T) (event : SocketEvent) : TransportHost H T :=
  if h.desk.stopped then h else { h with tasks := h.tasks ++ [.socket event] }

/-- What the desk asked for goes to the queue of the sockets, the timers and the tasks. -/
def perform (h : TransportHost H T) : Deed → TransportHost H T
  | .receive streamId => { h with commands := h.commands ++ [.receive streamId] }
  | .write streamId token => { h with commands := h.commands ++ [.send streamId token] }
  | .close streamId => { h with commands := h.commands ++ [.close streamId] }
  | .arm token => { h with sleeping := token :: h.sleeping }
  | .handle streamId runtime => { h with tasks := h.tasks ++ [.handled streamId runtime] }
  | .leaseTerminal => { h with streams := ∅, connecting := [], sleeping := [], listening := false }
  | .drove _ _ | .sessionTerminal _ => h

def settle (h : TransportHost H T) (r : Desk H T × List Task) : List Deed × TransportHost H T :=
  (r.1.log, r.1.log.foldl perform { h with desk := { r.1 with log := [] }, tasks := h.tasks ++ r.2 })

/-- The next command of the socket queue. -/
def dispatch (h : TransportHost H T) : TransportHost H T :=
  match h.commands with
  | [] => h
  | .receive streamId :: rest =>
      let h := { h with commands := rest }
      if h.streams.lookup streamId = some false then { h with streams := h.streams.insert streamId true } else h
  | .send streamId token :: rest =>
      let h := { h with commands := rest }
      if (h.streams.lookup streamId).isSome then { h with sending := h.sending ++ [(streamId, token)] }
      else h.deliver (.writeCompleted streamId token true)
  | .close streamId :: rest =>
      { h with commands := rest, streams := h.streams.erase streamId }

/-- `accept` gives each connection the next number until they run out. -/
def connect (h : TransportHost H T) : TransportHost H T :=
  if !h.listening then h
  else if h.nextStreamId + 1 < 2 ^ 64 then
    { h with
      connecting := h.nextStreamId :: h.connecting, streams := h.streams.insert h.nextStreamId false
      nextStreamId := h.nextStreamId + 1 }
  else h.deliver .listenerFailed

/-- A write under way is looked up by its stream and its token. -/
local instance sending_lawful : LawfulBEq (Nat × Nat) := inferInstance

def step (noise : Noise R H T) (h : TransportHost H T) : Input R → List Deed × TransportHost H T
  | .connect => ([], h.connect)
  | .ready streamId =>
      ([], if streamId ∈ h.connecting ∧ (h.streams.lookup streamId).isSome then
        { h with connecting := h.connecting.erase streamId }.deliver (.accepted streamId) else h)
  | .fails streamId failed =>
      ([], if (h.streams.lookup streamId).isSome then
        { h with streams := h.streams.erase streamId }.deliver (.received streamId [] true failed) else h)
  | .receives streamId bytes ended failed =>
      ([], if h.streams.lookup streamId = some true then
        { h with streams := h.streams.insert streamId false }.deliver (.received streamId bytes ended failed) else h)
  | .sent streamId token failed =>
      ([], if (streamId, token) ∈ h.sending then
        { h with sending := h.sending.erase (streamId, token) }.deliver (.writeCompleted streamId token failed) else h)
  | .listenerFails => ([], if h.listening then { h with listening := false }.deliver .listenerFailed else h)
  | .dispatch => ([], h.dispatch)
  | .expire token =>
      ([], if token ∈ h.sleeping then
        { h with sleeping := h.sleeping.erase token, tasks := h.tasks ++ [.timer token] } else h)
  | .eligibilityLost => ([], { h with tasks := h.tasks ++ [.eligibilityLost] })
  | .stop => ([], { h with tasks := h.tasks ++ [.stop] })
  | .run index world =>
      match h.tasks[index]? with
      | none => ([], h)
      | some task => { h with tasks := h.tasks.eraseIdx index }.settle (runTask noise world h.desk task)

end TransportHost

end AppPilotKit.Host.Swift
