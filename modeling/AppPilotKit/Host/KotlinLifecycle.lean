import AppPilotKit.Lib.Runs
import AppPilotKit.Host.Kotlin

/-! # The lifecycle thread of the Android host

Blocks run on the looper of one thread. The end of the lease quits this looper: blocks that
wait already still run, later ones are dropped. `close` posts a block and waits for it, two
seconds at most; `start` waits for the activation in the same way and closes when it fails.
-/

namespace AppPilotKit.Host.Kotlin

open Wire Transport Target Host

variable {R H T : Type}

inductive Block where
  | activate
  | task (task : Task)
  | close (caller : Nat)

/-- What became of a call of `close`. A block that was dropped never counts the latch down. -/
inductive Call where
  | waiting
  | returned
  | dropped
  | timedOut
  deriving DecidableEq

/-- Where the thread that called `start` stands. -/
inductive Starter where
  | waiting
  | active
  | failed
  | closing (caller : Nat)
  | rethrew
  /-- Something else was thrown than the failure of the activation. -/
  | replaced
  deriving DecidableEq

/-- The transport and its threads. The looper leaves the block in `current` after its effects. -/
structure Lifecycle (H T : Type) where
  host : TransportHost H T
  started : Bool := false
  /-- The activation threw. -/
  failed : Bool := false
  blocks : List Block := [.activate]
  current : Option Block := none
  quit : Bool := false
  /-- The accept loop holds a connection that has no number yet. -/
  inHand : Bool := false
  calls : List Call := []
  starter : Starter := .waiting

inductive Act (R : Type) where
  /-- Something that is neither a connection nor a block. -/
  | event (input : Input R)
  | accept
  | register
  /-- The lifecycle thread takes the next block, or leaves the one it runs. -/
  | turn (world : World R) (binds : Bool)
  | close
  | expire (caller : Nat)
  | resume

section
variable (noise : Noise R H T) (world : World R)

/-- `activate`: whether it failed, whether the transport is started, and the desk. -/
def activate (initial : Outcome) (binds started : Bool) (d : Desk H T) : Bool × Bool × Desk H T :=
  if started || d.stopped then (true, started, d)
  else if initial.kind ≠ .endpointReady ∨ initial.value0 ≠ 1 ∨ initial.value1 ≠ 0 then (true, false, d)
  else
    let d := d.scheduleDeadline initial
    if binds then (false, true, d) else (true, true, fail noise world (fun _ => false) d)

end

namespace Lifecycle

/-- The looper takes blocks until it has quit. -/
def post (l : Lifecycle H T) (block : Block) : Lifecycle H T :=
  if l.quit then l else { l with blocks := l.blocks ++ [block] }

/-- What the host has posted goes to the looper. -/
def posted (l : Lifecycle H T) (host : TransportHost H T) : Lifecycle H T :=
  host.queue.foldl (fun l task => l.post (.task task)) { l with host := { host with queue := [] } }

/-- The end of the accept loop's round: the connection gets the next number, if there is one. -/
def register (l : Lifecycle H T) : Lifecycle H T :=
  if l.inHand then
    let h := l.host
    let l := { l with inHand := false }
    if h.nextStreamId < 2 ^ 63 then
      l.posted ({ h with streams := h.nextStreamId :: h.streams, nextStreamId := h.nextStreamId + 1 }.socketEvent
        (.accepted h.nextStreamId))
    else l.posted ({ h with listening := false }.socketEvent .listenerFailed)
  else l

/-- `runOnLifecycleAndWait` for `close`, on another thread. -/
def close (l : Lifecycle H T) : Lifecycle H T :=
  { l.post (.close l.calls.length) with calls := l.calls ++ [if l.quit then .dropped else .waiting] }

/-- The thread in `start` goes on. -/
def resume (l : Lifecycle H T) : Lifecycle H T :=
  match l.starter with
  | .failed => { l.close with starter := .closing l.calls.length }
  | .closing caller =>
      match l.calls[caller]? with
      | some .returned => { l with starter := .rethrew }
      | some .timedOut => { l with starter := .replaced }
      | _ => l
  | _ => l

section
variable (noise : Noise R H T) (initial : Outcome) (world : World R) (binds : Bool)

/-- The effects of a block. -/
def begin (l : Lifecycle H T) (block : Block) : List Deed × Lifecycle H T :=
  match block with
  | .activate =>
      let (failed, started, d) := activate noise world initial binds l.started l.host.desk
      let (deeds, host) := { l.host with listening := l.host.listening || (!failed) }.settle d
      (deeds, { l with host, started, failed })
  | .task task =>
      if !l.started then ([], l)
      else
        let observed := fun streamId => decide (streamId ∈ l.host.terminalObserved)
        let (deeds, host) := l.host.settle (runTask noise world observed l.host.desk task)
        (deeds, { l with host })
  | .close _ =>
      let (deeds, host) := l.host.settle (if l.host.desk.stopped then l.host.desk else leaseTerminal l.host.desk)
      (deeds, { l with host })

/-- The looper has quit by the time the block is left that ended the lease, and only then does
    the thread that waits for the block go on. -/
def leave (l : Lifecycle H T) (block : Block) : Lifecycle H T :=
  let l := { l with current := none, quit := l.quit || l.host.desk.stopped }
  match block with
  | .activate => { l with starter := if l.failed then .failed else .active }
  | .close caller => { l with calls := l.calls.set caller .returned }
  | .task _ => l

def turn (l : Lifecycle H T) : List Deed × Lifecycle H T :=
  match l.current with
  | some block => ([], l.leave block)
  | none =>
      match l.blocks with
      | [] => ([], l)
      | block :: blocks => { l with blocks, current := some block }.begin noise initial world binds block

end

def step (noise : Noise R H T) (initial : Outcome) (l : Lifecycle H T) : Act R → List Deed × Lifecycle H T
  | .event input =>
      match input with
      | .connect | .close | .run _ => ([], l)
      | input => ([], l.posted (l.host.step noise input).2)
  | .accept => ([], if l.host.listening then { l with inHand := true } else l)
  | .register => ([], l.register)
  | .turn world binds => l.turn noise initial world binds
  | .close => ([], l.close)
  | .expire caller => ([], if l.calls[caller]? = some .dropped then { l with calls := l.calls.set caller .timedOut } else l)
  | .resume => ([], l.resume)

/-- The transport that `start` has made and posts the activation of. -/
def created (t : TargetTransport H T) : Lifecycle H T :=
  { host := { desk := { supervisor := t }, listening := false } }

end Lifecycle

end AppPilotKit.Host.Kotlin
