import AppPilotKit.Broker.Basic
import AppPilotKit.Transport.Outer

/-! # Reading frames from a raw stream

A reader keeps the frames of a read that were not asked for yet, and the deadline of the frame
that it is in the middle of. A call reads until it has a frame, or fails. Clock readings and
the answers of the raw stream are arguments.
-/

namespace AppPilotKit.Raw

open Wire Transport
open Broker (TransportFailure)

def incompleteOuterMs : Nat := 2000

/-- The length of the buffer for one read. -/
def chunkLength : Nat := 4096

inductive PlatformFailureKind where
  | timedOut
  | cancelled
  | eof
  | unavailable
  | rejected
  | cleanupFailed
  | internal
  deriving Repr, DecidableEq

/-- A `u64` that is not zero. -/
structure AbsoluteDeadline where
  value : Nat
  nonzero : value ≠ 0
  small : value < 2 ^ 64
  deriving DecidableEq

def AbsoluteDeadline.new (value : Nat) (small : value < 2 ^ 64) : Except PlatformFailureKind AbsoluteDeadline :=
  if nonzero : value = 0 then .error .rejected else .ok { value, nonzero, small }

def transportFailure (closeReason : CloseReason) : TransportFailure :=
  { closeReason, handoff := .notHandedOff, cleanupFailed := false }

def platformFailure (kind : PlatformFailureKind) : TransportFailure :=
  let reason : CloseReason := match kind with
    | .timedOut | .cancelled => .timeout
    | .eof => .peerClosed
    | .rejected => .bindingMismatch
    | .cleanupFailed => .cleanupFailed
    | .unavailable | .internal => .internalError
  { transportFailure reason with cleanupFailed := kind = .cleanupFailed }

def coreFailure (error : Error) : TransportFailure :=
  { transportFailure error.reason with handoff := (error.peerClose.map (·.2)).getD .notHandedOff }

/-- `u64::saturating_add`. -/
def saturatingAdd (a b : Nat) : Nat := min (a + b) (2 ^ 64 - 1)

def deadlineExpiredAt (now deadline : Nat) : Bool := now ≥ deadline

def phaseDeadlineValue (command started budgetMs : Nat) : Nat :=
  let budgetDeadline := saturatingAdd started budgetMs
  if command < budgetDeadline then command else budgetDeadline

theorem phaseDeadlineValue_small (command : AbsoluteDeadline) (started budgetMs : Nat) :
    phaseDeadlineValue command.value started budgetMs < 2 ^ 64 := by
  have small := command.small
  unfold phaseDeadlineValue saturatingAdd
  dsimp only
  split
  · exact small
  · omega

def phaseDeadline (command : AbsoluteDeadline) (started budgetMs : Nat) : Except TransportFailure AbsoluteDeadline :=
  (AbsoluteDeadline.new (phaseDeadlineValue command.value started budgetMs)
    (phaseDeadlineValue_small command started budgetMs)).mapError platformFailure

def ensureDeadlineAt (now : Nat) (deadline : AbsoluteDeadline) : Except TransportFailure Unit :=
  if deadlineExpiredAt now deadline.value then .error (transportFailure .timeout) else .ok ()

/-- `now_unix_ms`: the clock may be before the epoch. -/
def nowUnixMs : Option Nat → Except TransportFailure Nat
  | some now => .ok now
  | none => .error (transportFailure .internalError)

/-! ## The progress of a frame -/

structure OuterProgress where
  header : Bytes := []
  expected : Option Nat := none
  payloadLen : Nat := 0
  deriving Repr, DecidableEq

namespace OuterProgress

def isIncomplete (p : OuterProgress) : Bool := !p.header.isEmpty || p.expected.isSome

def pushByte (p : OuterProgress) (byte : UInt8) : OuterProgress :=
  match p.expected with
  | none =>
      match p.header ++ [byte] with
      | [high, low] => { header := [], expected := some (beNat [high, low]), payloadLen := 0 }
      | header => { p with header }
  | some expected =>
      if p.payloadLen + 1 = expected then { p with expected := none, payloadLen := 0 }
      else { p with payloadLen := p.payloadLen + 1 }

def push (p : OuterProgress) (input : Bytes) : OuterProgress := input.foldl pushByte p

end OuterProgress

/-! ## The reader -/

structure RawFrameReader where
  decoder : OuterFrameDecoder
  ready : List Bytes
  outerProgress : OuterProgress
  incompleteDeadline : Option AbsoluteDeadline
  terminal : Option TransportFailure
  deriving DecidableEq

/-- A failure of the reader, marked when `expire_incomplete_at` raised it. -/
inductive ReadFailure where
  | expired (now : Nat) (failure : TransportFailure)
  | other (failure : TransportFailure)
  deriving DecidableEq

/-- What the source returns. -/
def ReadFailure.failure : ReadFailure → TransportFailure
  | expired _ failure => failure
  | other failure => failure

/-- Who reads decides what the end of the stream means. A session may fail at its end too. -/
inductive Owner where
  | outer
  | session (failure : Option TransportFailure)
  deriving DecidableEq

/-- One turn of the read loop: the clock before, the answer of the raw stream to a deadline,
    and the clock after. -/
structure Turn where
  current : Option Nat
  read : AbsoluteDeadline → Except PlatformFailureKind Bytes
  after : Option Nat

namespace RawFrameReader

def new : RawFrameReader :=
  { decoder := .new, ready := [], outerProgress := {}, incompleteDeadline := none, terminal := none }

def ensureNotTerminal (r : RawFrameReader) : Except TransportFailure Unit :=
  match r.terminal with
  | none => .ok ()
  | some failure => .error failure

def terminate (r : RawFrameReader) (failure : TransportFailure) : RawFrameReader := { r with terminal := some failure }

def readDeadline (r : RawFrameReader) (command : AbsoluteDeadline) : Except TransportFailure AbsoluteDeadline :=
  match r.incompleteDeadline with
  | some incomplete =>
      (AbsoluteDeadline.new (min command.value incomplete.value) (min_lt_of_left_lt command.small)).mapError platformFailure
  | none => .ok command

def trackOuterProgress (r : RawFrameReader) (input : Bytes) (command : AbsoluteDeadline) (now : Nat) :
    Except TransportFailure Unit × RawFrameReader :=
  let r := { r with outerProgress := r.outerProgress.push input }
  if r.outerProgress.isIncomplete then
    if r.incompleteDeadline.isNone then
      match phaseDeadline command now incompleteOuterMs with
      | .error failure => (.error failure, r)
      | .ok deadline => (.ok (), { r with incompleteDeadline := some deadline })
    else (.ok (), r)
  else (.ok (), { r with incompleteDeadline := none })

def expireIncompleteAt (r : RawFrameReader) (now : Nat) : Except ReadFailure Unit × RawFrameReader :=
  match r.ensureNotTerminal with
  | .error failure => (.error (.other failure), r)
  | .ok () =>
      if r.incompleteDeadline.any fun deadline => deadlineExpiredAt now deadline.value then
        let (result, decoder) := r.decoder.timeout
        let failure := match result with
          | .error error => coreFailure error
          | .ok () => transportFailure .timeout
        (.error (.expired now failure), { r with decoder, terminal := some failure })
      else (.ok (), r)

/-- `eof_from_outer` and `eof_from_session`. -/
def eof (r : RawFrameReader) (owner : Owner) : TransportFailure × RawFrameReader :=
  let (result, decoder) := r.decoder.eof
  let sessionFailure := match owner with
    | .outer => none
    | .session failure => failure
  let failure := match result with
    | .error error => coreFailure error
    | .ok () => sessionFailure.getD (transportFailure .peerClosed)
  (failure, { r with decoder }.terminate failure)

/-- The checks that begin a call and every turn of its loop. -/
def check (r : RawFrameReader) (command : AbsoluteDeadline) (current : Option Nat) :
    Except ReadFailure Unit × RawFrameReader :=
  match nowUnixMs current with
  | .error failure => (.error (.other failure), r)
  | .ok now =>
      match r.expireIncompleteAt now with
      | (.error failure, r) => (.error failure, r)
      | (.ok (), r) => ((ensureDeadlineAt now command).mapError .other, r)

/-- What comes before the loop. Without a result the loop starts. -/
def begin_ (r : RawFrameReader) (command : AbsoluteDeadline) (current : Option Nat) :
    Option (Except ReadFailure Bytes) × RawFrameReader :=
  match r.ensureNotTerminal with
  | .error failure => (some (.error (.other failure)), r)
  | .ok () =>
      match r.check command current with
      | (.error failure, r) => (some (.error failure), r)
      | (.ok (), r) =>
          match r.ready with
          | frame :: ready => (some (.ok frame), { r with ready })
          | [] => (none, r)

/-- One turn of the loop. Without a result the next turn follows. -/
def turn (r : RawFrameReader) (owner : Owner) (command : AbsoluteDeadline) (t : Turn) :
    Option (Except ReadFailure Bytes) × RawFrameReader :=
  match r.check command t.current with
  | (.error failure, r) => (some (.error failure), r)
  | (.ok (), r) =>
      match r.readDeadline command with
      | .error failure => (some (.error (.other failure)), r)
      | .ok deadline =>
          match t.read deadline with
          | .error kind =>
              match nowUnixMs t.after with
              | .error failure => (some (.error (.other failure)), r)
              | .ok now =>
                  match r.expireIncompleteAt now with
                  | (.error failure, r) => (some (.error failure), r)
                  | (.ok (), r) =>
                      if kind = .eof then
                        let (failure, r) := r.eof owner
                        (some (.error (.other failure)), r)
                      else (some (.error (.other (platformFailure kind))), r)
          | .ok input =>
              if input.length > chunkLength then
                let failure := transportFailure .internalError
                (some (.error (.other failure)), r.terminate failure)
              else if input = [] then
                let (failure, r) := r.eof owner
                (some (.error (.other failure)), r)
              else
                match r.decoder.push input with
                | (.error error, decoder) =>
                    let failure := coreFailure error
                    (some (.error (.other failure)), { r with decoder }.terminate failure)
                | (.ok frames, decoder) =>
                    let r := { r with decoder }
                    match nowUnixMs t.after with
                    | .error failure => (some (.error (.other failure)), r)
                    | .ok now =>
                        match r.trackOuterProgress input command now with
                        | (.error failure, r) => (some (.error (.other failure)), r)
                        | (.ok (), r) =>
                            match r.ready ++ frames with
                            | frame :: ready => (some (.ok frame), { r with ready })
                            | [] => (none, { r with ready := [] })

/-- The loop, as long as there are turns. -/
def loop (owner : Owner) (command : AbsoluteDeadline) : List Turn → RawFrameReader →
    Option (Except ReadFailure Bytes) × RawFrameReader
  | [], r => (none, r)
  | t :: rest, r =>
      match r.turn owner command t with
      | (some result, r) => (some result, r)
      | (none, r) => loop owner command rest r

/-- `read_outer` and `read_outer_for_session`. Without a result the call still waits. -/
def readOuter (r : RawFrameReader) (owner : Owner) (command : AbsoluteDeadline) (current : Option Nat) (turns : List Turn) :
    Option (Except ReadFailure Bytes) × RawFrameReader :=
  match r.begin_ command current with
  | (some result, r) => (some result, r)
  | (none, r) => loop owner command turns r

end RawFrameReader

end AppPilotKit.Raw
