import AppPilotKit.Transport.Session

/-! # Sequences of session calls

`TargetSession.call` and `BrokerSession.call` run one API call; `handedOut` is
the list of transport records a reply gives to the caller, including the Close
frame an error may carry.
-/

namespace AppPilotKit.Transport

open Wire

/-- What a successful call returns. -/
inductive Reply where
  | done
  | handshake (frame : Bytes)
  | records (frames : List Bytes)
  | message (bytes : Option Bytes)
  | peerClose (reason : CloseReason) (handoff : HandoffState)
  deriving Repr, DecidableEq

/-- The transport records a result hands to the caller. -/
def handedOut : Except Error Reply → List Bytes
  | .ok (.records frames) => frames
  | .ok _ => []
  | .error error => error.closeFrame.toList

inductive TargetCall where
  | writeM1
  | readM2 (outer : Bytes)
  | writeFinished
  | readFinished (outer : Bytes)
  | readApplication (outer : Bytes)
  | eof
  | writeApplicationResponse (payload : Bytes)
  | writeClose (reason : CloseReason) (handoff : HandoffState)
  | readClose (outer : Bytes)
  | validateBinding (processGeneration listenerEpoch : Nat)
  deriving Repr, DecidableEq

inductive BrokerCall where
  | readM1WriteM2 (outer : Bytes)
  | writeFinished
  | readFinished (outer : Bytes)
  | writeSessionOpen (payload : Bytes)
  | writeApplicationRequest (payload : Bytes)
  | readApplicationResponse (outer : Bytes)
  | eof
  | writeClose (reason : CloseReason) (handoff : HandoffState)
  | readClose (outer : Bytes)
  | validateBinding (processGeneration listenerEpoch : Nat)
  deriving Repr, DecidableEq

/-- Present the result of a method as a reply. -/
def replyWith {α σ : Type} (f : α → Reply) (r : Except Error α × σ) : Except Error Reply × σ := (r.1.map f, r.2)

section

variable {R H T : Type}

def TargetSession.call (noise : Noise R H T) (s : TargetSession H T) :
    TargetCall → Except Error Reply × TargetSession H T
  | .writeM1 => replyWith .handshake (s.writeM1 noise)
  | .readM2 outer => replyWith (fun _ => .done) (s.readM2 noise outer)
  | .writeFinished => replyWith (fun frame => .records [frame]) (s.writeFinished noise)
  | .readFinished outer => replyWith (fun _ => .done) (s.readFinished noise outer)
  | .readApplication outer => replyWith .message (s.readApplication noise outer)
  | .eof => replyWith (fun _ => .done) s.eof
  | .writeApplicationResponse payload => replyWith .records (s.writeApplicationResponse noise payload)
  | .writeClose reason handoff => replyWith (fun frame => .records [frame]) (s.writeClose noise reason handoff)
  | .readClose outer => replyWith (fun close => .peerClose close.1 close.2) (s.readClose noise outer)
  | .validateBinding generation epoch => replyWith (fun _ => .done) (s.validateBinding generation epoch)

def BrokerSession.call (noise : Noise R H T) (s : BrokerSession H T) :
    BrokerCall → Except Error Reply × BrokerSession H T
  | .readM1WriteM2 outer => replyWith .handshake (s.readM1WriteM2 noise outer)
  | .writeFinished => replyWith (fun frame => .records [frame]) (s.writeFinished noise)
  | .readFinished outer => replyWith (fun _ => .done) (s.readFinished noise outer)
  | .writeSessionOpen payload => replyWith .records (s.writeSessionOpen noise payload)
  | .writeApplicationRequest payload => replyWith .records (s.writeApplicationRequest noise payload)
  | .readApplicationResponse outer => replyWith .message (s.readApplicationResponse noise outer)
  | .eof => replyWith (fun _ => .done) s.eof
  | .writeClose reason handoff => replyWith (fun frame => .records [frame]) (s.writeClose noise reason handoff)
  | .readClose outer => replyWith (fun close => .peerClose close.1 close.2) (s.readClose noise outer)
  | .validateBinding generation epoch => replyWith (fun _ => .done) (s.validateBinding generation epoch)

end

end AppPilotKit.Transport
