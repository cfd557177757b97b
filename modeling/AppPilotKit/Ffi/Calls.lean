import AppPilotKit.Ffi.Entry
import AppPilotKit.Ffi.Registry

/-! # The calls of the library

All handles live in two registries, one for supervisors and one for outputs, each under a lock
of its own. A call looks its supervisor up, works on the entry, and goes back to the registries
at the end, so that other calls run between any two of these steps. The arguments of a call are
well formed, and its pointers are not null.
-/

namespace AppPilotKit.Ffi

open Transport Target
open Wire (Bytes)

variable {R H T : Type}

inductive Status where
  | ok
  | needInput
  | event
  | terminal
  | invalidArgument
  | invalidHandle
  | wrongPhase
  | busy
  | bufferTooSmall
  | internalPanic
  deriving Repr, DecidableEq

def statusForOutcome : OutcomeKind → Status
  | .needInput => .needInput
  | .sessionTerminal | .leaseTerminal => .terminal
  | .closed => .ok
  | _ => .event

def supervisorStatus : SupervisorError → Status
  | .invalidArgument => .invalidArgument
  | .wrongPhase => .wrongPhase
  | .internal => .internalPanic

structure OutputEntry where
  owner : Nat
  bytes : Bytes
  deriving DecidableEq

/-- What the callers have seen, in the order it was decided. -/
inductive Happening where
  | created (handle : Nat)
  | announced (output owner : Nat) (bytes : Bytes)
  | copied (output : Nat) (bytes : Bytes)
  | dropped (output : Nat)
  | unregistered (handle : Nat)
  | ended (handle : Nat)
  deriving DecidableEq

/-- The registries, the entries that the supervisors' registry points to, and the history. -/
structure Library (H T : Type) where
  supervisors : Registry Nat
  outputs : Registry OutputEntry
  entries : List (SupervisorEntry H T)
  history : List Happening

/-- Where a call is. `dropping` tells a drop from a close. -/
inductive Task (H T : Type) where
  | create (made : Except SupervisorError (TargetTransport H T × Outcome))
  | createPublish (handle : Nat) (outcome : Outcome)
  | createUndo (handle : Nat)
  | drive (handle : Nat) (event : Event)
  | driving (handle place : Nat) (call : Call)
  | close (dropping : Bool) (handle : Nat)
  | claim (dropping : Bool) (handle place : Nat)
  | retire (dropping : Bool) (handle place : Nat)
  | shut (dropping : Bool) (handle place : Nat)
  | unregister (dropping : Bool) (handle place : Nat)
  | sweep (handle place : Nat)
  | release (handle place : Nat) (status : Status)
  | outputLen (output : Nat)
  | outputCopy (output capacity : Nat)
  | outputDrop (output : Nat)
  | returned (status : Status)

/-- What a caller may ask for. -/
inductive Request where
  | create (descriptor : Bytes) (draws : List Nat)
  | drive (handle : Nat) (event : Event)
  | close (handle : Nat)
  | drop (handle : Nat)
  | outputLen (output : Nat)
  | outputCopy (output capacity : Nat)
  | outputDrop (output : Nat)

def Request.task : Request → Task H T
  | create descriptor draws => .create (TargetTransport.create descriptor draws)
  | drive handle event => .drive handle event
  | close handle => .close false handle
  | drop handle => .close true handle
  | outputLen output => .outputLen output
  | outputCopy output capacity => .outputCopy output capacity
  | outputDrop output => .outputDrop output

/-- `TargetTransport::close`. -/
def closeTransport (t : TargetTransport H T) : TargetTransport H T :=
  { t with
    clock := { t.clock with timers := ∅ }
    phase := .terminal { reason := .normal, handoff := .notHandedOff, peerClose := none } }

/-- `remove_owned_outputs`. -/
def Registry.removeOwned (r : Registry OutputEntry) (owner : Nat) : Registry OutputEntry :=
  ⟨r.slots.map fun slot =>
    match slot.value with
    | some output => if output.owner = owner then { generation := nextGeneration slot.generation, value := none } else slot
    | none => slot⟩

namespace Library

def new : Library H T := { supervisors := .new, outputs := .new, entries := [], history := [] }

def record (l : Library H T) (happening : Happening) : Library H T := { l with history := l.history ++ [happening] }

/-- Change the entry in a place. -/
def update (l : Library H T) (place : Nat) (f : SupervisorEntry H T → SupervisorEntry H T) : Library H T :=
  { l with entries := l.entries.modify place f }

/-- `publish_outcome`: the bytes of an outcome go to a slot of their own, also when no handle
    is left for it. -/
def publishOutcome (l : Library H T) (owner : Nat) (outcome : Outcome) : Except Unit Nat × Library H T :=
  match outcome.bytes with
  | none => (.ok 0, l)
  | some bytes =>
      let (answer, outputs) := l.outputs.insert { owner, bytes }
      match answer with
      | .ok output => (.ok output, { l with outputs }.record (.announced output owner bytes))
      | .error () => (.error (), { l with outputs })

/-- The outcome that a drive publishes in its next step. -/
def outcomeOf (call : Call) : Option Outcome :=
  match call.point with
  | .publish (.ok outcome) => some outcome
  | _ => none

variable (noise : Noise R H T)

/-- One step of a drive on its entry; the step that publishes also stores the bytes. -/
def advanceDrive (l : Library H T) (handle place : Nat) (call : Call) (entropy : R) : Library H T × Call :=
  match l.entries[place]? with
  | none => (l, call)
  | some entry =>
      let (answer, stored) := match outcomeOf call with
        | some outcome => l.publishOutcome handle outcome
        | none => (.ok 0, l)
      let (entry, call) := advance noise entry call { entropy, full := answer = .error () }
      (stored.update place fun _ => entry, call)

/-- One step of a call. -/
def next (l : Library H T) (task : Task H T) (entropy : R) : Library H T × Task H T :=
  match task with
  | .create (.error error) => (l, .returned (supervisorStatus error))
  | .create (.ok (transport, outcome)) =>
      let (answer, supervisors) := l.supervisors.insert l.entries.length
      let l := { l with supervisors, entries := l.entries ++ [SupervisorEntry.new transport] }
      match answer with
      | .ok handle => (l, .createPublish handle outcome)
      | .error () => (l, .returned .internalPanic)
  | .createPublish handle outcome =>
      match l.publishOutcome handle outcome with
      | (.ok _, l) => (l.record (.created handle), .returned (statusForOutcome outcome.kind))
      | (.error (), l) => (l, .createUndo handle)
  | .createUndo handle => ({ l with supervisors := (l.supervisors.remove handle).2 }, .returned .internalPanic)
  | .drive handle event =>
      match l.supervisors.get handle with
      | some place => (l, .driving handle place (Call.start event))
      | none => (l, .returned .invalidHandle)
  | .driving handle place call =>
      let (l, call) := l.advanceDrive noise handle place call entropy
      (l, .driving handle place call)
  | .close dropping handle =>
      if handle = 0 then (l, .returned .ok)
      else
        match l.supervisors.get handle with
        | some place => (l, .claim dropping handle place)
        | none => (l, .returned .invalidHandle)
  | .claim dropping handle place =>
      match l.entries[place]? with
      | none => (l, .returned .invalidHandle)
      | some entry =>
          if entry.busy then (l, .returned .busy)
          else (l.update place fun entry => { entry with busy := true }, .retire dropping handle place)
  | .retire dropping handle place => (l.update place fun entry => { entry with retired := true }, .shut dropping handle place)
  | .shut dropping handle place =>
      (l.update place fun entry => { entry with transport := closeTransport entry.transport }, .unregister dropping handle place)
  | .unregister dropping handle place =>
      match l.supervisors.remove handle with
      | (some _, supervisors) => ({ l with supervisors }.record (.unregistered handle), .sweep handle place)
      | (none, supervisors) =>
          ({ l with supervisors }, if dropping then .sweep handle place else .release handle place .invalidHandle)
  | .sweep handle place => ({ l with outputs := l.outputs.removeOwned handle }, .release handle place .ok)
  | .release handle place status =>
      let l := l.update place fun entry => { entry with busy := false }
      (if status = .ok then l.record (.ended handle) else l, .returned status)
  | .outputLen output =>
      match l.outputs.get output with
      | none => (l, .returned .invalidHandle)
      | some _ => (l, .returned .ok)
  | .outputCopy output capacity =>
      match l.outputs.get output with
      | none => (l, .returned .invalidHandle)
      | some entry =>
          if capacity < entry.bytes.length then (l, .returned .bufferTooSmall)
          else (l.record (.copied output entry.bytes), .returned .ok)
  | .outputDrop output =>
      if output = 0 then (l, .returned .ok)
      else
        match l.outputs.remove output with
        | (some _, outputs) => ({ l with outputs }.record (.dropped output), .returned .ok)
        | (none, outputs) => ({ l with outputs }, .returned .invalidHandle)
  | .returned status => (l, .returned status)

end Library

/-- The library as a machine of concurrent calls. -/
def library (noise : Noise R H T) : Threads.Machine (Library H T) (Task H T) Request R :=
  { start := Request.task, next := Library.next noise }

/-- The library before the first call. -/
def unused : Threads.Pool (Library H T) (Task H T) := ⟨.new, []⟩

end AppPilotKit.Ffi
