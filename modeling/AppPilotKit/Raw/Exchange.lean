import AppPilotKit.Lib.Scripts
import AppPilotKit.Raw.Reader
import AppPilotKit.Transport.Session

/-! # Requests over a raw stream

`exchange` and `open_session` as scripts that ask the clock, the raw stream and its
connector. A loop over reads takes a bound on its turns and is cut short there.
-/

namespace AppPilotKit.Raw

open Wire Transport Scripts
open Broker (TransportFailure)

def sessionTotalMs : Nat := 4000

def sessionConnectMs : Nat := 1000

def sessionHandshakeMs : Nat := 1000

def sessionOpenResponseMs : Nat := 2000

/-- What a write is for. The raw stream is not told. -/
inductive Purpose where
  | handshake
  | request
  | reservedClose
  deriving DecidableEq

inductive Query where
  | now
  | connect (deadline : AbsoluteDeadline)
  | read (deadline : AbsoluteDeadline)
  | write (purpose : Purpose) (input : Bytes) (deadline : AbsoluteDeadline)
  | cancel

/-- A read returns what it read, a write how much it took. The clock may be before the
    epoch. -/
def Query.Reply : Query → Type
  | .now => Option Nat
  | .connect _ => Except PlatformFailureKind Unit
  | .read _ => Except PlatformFailureKind Bytes
  | .write _ _ _ => Except PlatformFailureKind Nat
  | .cancel => Unit

abbrev Talk (α : Type) := Script Query Query.Reply α

def ask (query : Query) : Talk query.Reply := Script.request query

/-- `with_handoff`. -/
def withHandoff (failure : TransportFailure) (handoff : HandoffState) : TransportFailure :=
  { failure with handoff := failure.handoff.conservativeMax handoff }

/-! ## Writing -/

/-- `ensure_deadline`. -/
def ensureDeadline (deadline : AbsoluteDeadline) : Talk (Except TransportFailure Unit) := do
  match nowUnixMs (← ask .now) with
  | .error failure => return .error failure
  | .ok now => return ensureDeadlineAt now deadline

def writeAll (purpose : Purpose) (bytes : Bytes) (deadline : AbsoluteDeadline) : Talk (Except TransportFailure Unit) :=
  if bytes = [] then pure (.ok ())
  else do
    match ← ensureDeadline deadline with
    | .error failure => return .error failure
    | .ok () =>
        match ← ask (.write purpose bytes deadline) with
        | .error kind => return .error (platformFailure kind)
        | .ok written =>
            if _taken : written = 0 ∨ written > bytes.length then return .error (transportFailure .peerClosed)
            else writeAll purpose (bytes.drop written) deadline
termination_by bytes.length
decreasing_by
  simp only [List.length_drop]
  omega

def writeFrames (frames : List Bytes) (deadline : AbsoluteDeadline) : Talk (Except TransportFailure Unit) :=
  match frames with
  | [] => pure (.ok ())
  | frame :: frames => do
      match ← writeAll .request frame deadline with
      | .error failure => return .error failure
      | .ok () => writeFrames frames deadline

/-- `c1_failure_after_close` with `return_after_reserved_close`: the failure of the core
    stays, whatever becomes of its Close frame. -/
def c1FailureAfterClose (error : Error) (deadline : AbsoluteDeadline) : Talk TransportFailure := do
  if let some frame := error.closeFrame then
    let _ ← writeAll .reservedClose frame deadline
  return coreFailure error

/-! ## Reading -/

section
variable {σ : Type}

/-- One turn of the loop of `read_outer` and `read_outer_for_session`. The end of the stream
    is for the owner of the stream to judge. -/
def readTurn (onEof : σ → AbsoluteDeadline → Talk (Owner × σ)) (r : RawFrameReader) (s : σ) (deadline : AbsoluteDeadline) :
    Talk (Option (Except ReadFailure Bytes) × RawFrameReader × σ) := do
  match r.check deadline (← ask .now) with
  | (.error failure, r) => return (some (.error failure), r, s)
  | (.ok (), r) =>
      match r.readDeadline deadline with
      | .error failure => return (some (.error (.other failure)), r, s)
      | .ok limit =>
          match ← ask (.read limit) with
          | .error kind =>
              match nowUnixMs (← ask .now) with
              | .error failure => return (some (.error (.other failure)), r, s)
              | .ok now =>
                  match r.expireIncompleteAt now with
                  | (.error failure, r) => return (some (.error failure), r, s)
                  | (.ok (), r) =>
                      if kind = .eof then
                        let (owner, s) ← onEof s deadline
                        let (failure, r) := r.eof owner
                        return (some (.error (.other failure)), r, s)
                      else return (some (.error (.other (platformFailure kind))), r, s)
          | .ok input =>
              if input.length > chunkLength then
                let failure := transportFailure .internalError
                return (some (.error (.other failure)), r.terminate failure, s)
              else if input = [] then
                let (owner, s) ← onEof s deadline
                let (failure, r) := r.eof owner
                return (some (.error (.other failure)), r, s)
              else
                match r.decoder.push input with
                | (.error error, decoder) =>
                    let failure := coreFailure error
                    return (some (.error (.other failure)), { r with decoder }.terminate failure, s)
                | (.ok frames, decoder) =>
                    let r := { r with decoder }
                    match nowUnixMs (← ask .now) with
                    | .error failure => return (some (.error (.other failure)), r, s)
                    | .ok now =>
                        match r.trackOuterProgress input deadline now with
                        | (.error failure, r) => return (some (.error (.other failure)), r, s)
                        | (.ok (), r) =>
                            match r.ready ++ frames with
                            | frame :: ready => return (some (.ok frame), { r with ready }, s)
                            | [] => return (none, { r with ready := [] }, s)

def readLoop (onEof : σ → AbsoluteDeadline → Talk (Owner × σ)) : Nat → RawFrameReader → σ → AbsoluteDeadline →
    Talk (Except TransportFailure Bytes × RawFrameReader × σ)
  | 0, _, _, _ => .cut
  | turns + 1, r, s, deadline => do
      match ← readTurn onEof r s deadline with
      | (some result, r, s) => return (result.mapError ReadFailure.failure, r, s)
      | (none, r, s) => readLoop onEof turns r s deadline

def readFrame (onEof : σ → AbsoluteDeadline → Talk (Owner × σ)) (turns : Nat) (r : RawFrameReader) (s : σ)
    (deadline : AbsoluteDeadline) : Talk (Except TransportFailure Bytes × RawFrameReader × σ) := do
  match r.ensureNotTerminal with
  | .error failure => return (.error failure, r, s)
  | .ok () =>
      match r.check deadline (← ask .now) with
      | (.error failure, r) => return (.error failure.failure, r, s)
      | (.ok (), r) =>
          match r.ready with
          | frame :: ready => return (.ok frame, { r with ready }, s)
          | [] => readLoop onEof turns r s deadline

end

def readOuter (turns : Nat) (r : RawFrameReader) (deadline : AbsoluteDeadline) :
    Talk (Except TransportFailure Bytes × RawFrameReader) := do
  let (result, r, ()) ← readFrame (fun (s : Unit) _ => pure (.outer, s)) turns r () deadline
  return (result, r)

section
variable {R H T : Type} (noise : Noise R H T)

/-- The end of the stream ends the session too. -/
def endOfSession (s : BrokerSession H T) (deadline : AbsoluteDeadline) : Talk (Owner × BrokerSession H T) :=
  match s.eof with
  | (.ok (), s) => pure (.session none, s)
  | (.error error, s) => do return (.session (some (← c1FailureAfterClose error deadline)), s)

def readOuterForSession (turns : Nat) (r : RawFrameReader) (s : BrokerSession H T) (deadline : AbsoluteDeadline) :
    Talk (Except TransportFailure Bytes × RawFrameReader × BrokerSession H T) :=
  readFrame endOfSession turns r s deadline

def readResponse (turns : Nat) (r : RawFrameReader) (s : BrokerSession H T) (deadline : AbsoluteDeadline) :
    Nat → Talk (Except TransportFailure Bytes × RawFrameReader × BrokerSession H T)
  | 0 => .cut
  | rounds + 1 => do
      match ← readOuterForSession turns r s deadline with
      | (.error failure, r, s) => return (.error failure, r, s)
      | (.ok outer, r, s) =>
          match s.readApplicationResponse noise outer with
          | (.error error, s) => return (.error (← c1FailureAfterClose error deadline), r, s)
          | (.ok (some response), s) => return (.ok response, r, s)
          | (.ok none, s) => readResponse turns r s deadline rounds

/-! ## Requests -/

/-- The end of `exchange` and of `open_session`: the frames of a request, then its response. -/
def request (turns rounds : Nat) (written : Except Error (List Bytes) × BrokerSession H T) (r : RawFrameReader)
    (deadline : AbsoluteDeadline) : Talk (Except TransportFailure Bytes × RawFrameReader × BrokerSession H T) := do
  match written with
  | (.error error, s) => return (.error (← c1FailureAfterClose error deadline), r, s)
  | (.ok frames, s) =>
      match ← writeFrames frames deadline with
      | .error failure => return (.error failure, r, s)
      | .ok () =>
          let (result, r, s) ← readResponse noise turns r s deadline rounds
          return (result.mapError (withHandoff · .handoffPossibleOrConfirmed), r, s)

def exchange (turns rounds : Nat) (r : RawFrameReader) (s : BrokerSession H T) (payload : Bytes)
    (deadline : AbsoluteDeadline) : Talk (Except TransportFailure Bytes × RawFrameReader × BrokerSession H T) :=
  request noise turns rounds (s.writeApplicationRequest noise payload) r deadline

/-! ## Opening a session -/

structure OpenedSession (H T : Type) where
  session : BrokerSession H T
  response : Bytes
  handoff : HandoffState
  reader : RawFrameReader

/-- A part of `open_session`: what it owns is dropped when it fails. -/
abbrev Opening (α : Type) := Attempt Query Query.Reply TransportFailure α

def Opening.of {α β : Type} (talk : Talk (Except TransportFailure α × β)) : Opening (α × β) :=
  ExceptT.mk do
    let (result, state) ← talk
    return result.map (·, state)

/-- A call of the core. -/
def Opening.call {α β : Type} (deadline : AbsoluteDeadline) : Except Error α × β → Opening (α × β)
  | (.ok value, state) => pure (value, state)
  | (.error error, _) => ExceptT.mk do return .error (← c1FailureAfterClose error deadline)

/-- The deadline of a phase that starts now. -/
def Opening.phase (overall : AbsoluteDeadline) (budgetMs : Nat) : Opening AbsoluteDeadline := do
  let now ← Attempt.request .now nowUnixMs
  ExceptT.mk (pure (phaseDeadline overall now budgetMs))

def handshake (turns : Nat) (entropy : R) (binding : SessionBinding) (pbs : FixedBytes 32) (overall : AbsoluteDeadline) :
    Opening (RawFrameReader × BrokerSession H T) := do
  let deadline ← Opening.phase overall sessionHandshakeMs
  let (m1, r) ← Opening.of (readOuter turns .new deadline)
  let (s, ()) ← Opening.call deadline (BrokerSession.new noise entropy binding pbs, ())
  let (m2, s) ← Opening.call deadline (s.readM1WriteM2 noise m1)
  ExceptT.mk (writeAll .handshake m2 deadline)
  let (targetFinished, r, s) ← Opening.of (readOuterForSession turns r s deadline)
  let ((), s) ← Opening.call deadline (s.readFinished noise targetFinished)
  let (brokerFinished, s) ← Opening.call deadline (s.writeFinished noise)
  ExceptT.mk (writeAll .handshake brokerFinished deadline)
  return (r, s)

/-- After the connection: the handshake, the request and its response. -/
def openConnected (turns rounds : Nat) (entropy : R) (binding : SessionBinding) (pbs : FixedBytes 32) (payload : Bytes)
    (overall : AbsoluteDeadline) : Opening (OpenedSession H T) := do
  let (r, s) ← handshake noise turns entropy binding pbs overall
  let deadline ← Opening.phase overall sessionOpenResponseMs
  let (response, reader, session) ←
    Opening.of (request noise turns rounds (s.writeSessionOpen noise payload) r deadline)
  return { session, response, handoff := .handoffPossibleOrConfirmed, reader }

def openSession (turns rounds : Nat) (entropy : R) (binding : SessionBinding) (pbs : FixedBytes 32) (payload : Bytes)
    (deadline : AbsoluteDeadline) : Opening (OpenedSession H T) := do
  let started ← Attempt.request .now nowUnixMs
  let overall ← ExceptT.mk (pure (phaseDeadline deadline started sessionTotalMs))
  let connect ← ExceptT.mk (pure (phaseDeadline overall started sessionConnectMs))
  ExceptT.mk (ensureDeadline connect)
  Attempt.request (.connect connect) fun reply => Except.mapError platformFailure reply
  match ← Attempt.outcome (openConnected noise turns rounds entropy binding pbs payload overall) with
  | .ok opened => return opened
  | .error failure =>
      Attempt.request .cancel fun _ => .ok ()
      throw failure

end

end AppPilotKit.Raw
