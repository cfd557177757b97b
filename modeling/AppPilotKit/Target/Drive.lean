import AppPilotKit.Target.Supervisor

/-! # Driving the supervisor

One function for each event handler of the source. Where the source moves the
phase out of `self` while it works, an early return leaves `Terminal::internal`
behind, and so do these functions.
-/

namespace AppPilotKit.Target

open Wire Transport

variable {R H T : Type}

/-- The answer to one event: an outcome or a rejection, and the next state. -/
abbrev Answer (H T : Type) := Except SupervisorError Outcome × TargetTransport H T

namespace TargetTransport

/-- The state while `full_write_committed` and the bootstrap handlers hold the phase. -/
def movedOut (t : TargetTransport H T) : TargetTransport H T := { t with phase := .terminal .internal }

def bootstrapConnected (noise : Noise R H T) (entropy : R) (t : TargetTransport H T) (event : Event) : Answer H T :=
  if event.streamId = 0 ∨ event.writeToken ≠ 0 ∨ event.bytes ≠ [] then (.error .invalidArgument, t)
  else
    match t.phase with
    | .awaitBootstrap binding brokerPublicKey =>
        let t := t.movedOut
        match TargetBootstrap.new noise entropy binding brokerPublicKey with
        | .error error => answer (t.coreLeaseError error)
        | .ok bootstrap =>
            match bootstrap.writeM1 noise with
            | (.error error, _) => answer (t.coreLeaseError error)
            | (.ok frames, bootstrap) =>
                match t.clock.allocateToken with
                | (.error error, clock) => (.error error, { t with clock })
                | (.ok writeToken, clock) =>
                    match clock.scheduleTimer .bootstrap with
                    | (.error error, clock) => (.error error, { t with clock })
                    | (.ok timer, clock) =>
                        (.ok ((Outcome.write event.streamId writeToken frames).deadline timer bootstrapDeadlineMs),
                          { t with phase := .bootstrapM1Pending event.streamId bootstrap writeToken .new none, clock })
    | _ => (.error .wrongPhase, t)

/-- `commit_child_write`, which runs while the phase is moved out. The eligible
    part it was given comes back with the answer. -/
def commitChildWrite (t : TargetTransport H T) (e : Eligible H T) (streamId token : Nat) :
    Answer H T × Eligible H T :=
  match e.children.lookup streamId with
  | none => ((.error .wrongPhase, t), e)
  | some child =>
      let put (child : Child H T) : Eligible H T := { e with children := e.children.insert streamId child }
      let needInput : Answer H T := (.ok ((Outcome.new .needInput).stream streamId), t)
      match child.phase with
      | .m1Pending session writeToken =>
          if writeToken = token then (needInput, put { child with phase := .awaitM2 session })
          else ((.error .wrongPhase, t), e)
      | .finishedPending session writeToken =>
          if writeToken = token then (needInput, put { child with phase := .awaitFinished session })
          else ((.error .wrongPhase, t), e)
      | .responsePending session writeToken =>
          if writeToken = token then
            match replaceChildTimer { child with phase := .awaitApplication session } t.clock
                (.sessionIdle streamId) with
            | (.error error, child, clock) => ((.error error, { t with clock }), put child)
            | (.ok timer, child, clock) =>
                ((.ok (((Outcome.new .needInput).stream streamId).deadline timer sessionIdleDeadlineMs),
                  { t with clock }), put child)
          else ((.error .wrongPhase, t), e)
      | .terminalPending writeToken terminal =>
          if writeToken = token then
            (answer (t.childTerminal streamId terminal.reason terminal.peerClose), put { child with phase := .terminal })
          else ((.error .wrongPhase, t), e)
      | _ => ((.error .wrongPhase, t), e)

def fullWriteCommitted (t : TargetTransport H T) (event : Event) : Answer H T :=
  if event.streamId = 0 ∨ event.writeToken = 0 ∨ event.bytes ≠ [] then (.error .invalidArgument, t)
  else
    match t.phase with
    | .bootstrapM1Pending streamId bootstrap writeToken decoder frameTimer =>
        if streamId = event.streamId ∧ writeToken = event.writeToken then
          (.ok ((Outcome.new .needInput).stream streamId),
            { t with phase := .bootstrapM2 streamId bootstrap decoder frameTimer })
        else (.error .wrongPhase, t)
    | .bootstrapAckPending streamId lease pbs sessionBinding writeToken decoder frameTimer =>
        if streamId = event.streamId ∧ writeToken = event.writeToken then
          let clock := { t.clock with timers := t.clock.timers.retain (· ≠ TimerAction.bootstrap) }
          match clock.scheduleTimer .leaseTick with
          | (.error error, clock) => (.error error, { t.movedOut with clock })
          | (.ok tick, clock) =>
              (.ok ((((Outcome.new .leaseReady).stream streamId).values sessionBinding.processGeneration
                  sessionBinding.listenerEpoch).deadline tick leaseTickMs),
                { t with
                  phase := .eligible {
                    leaseStream := streamId, lease, pbs, sessionBinding, leaseDecoder := decoder
                    leaseWrite := none, leaseFrameTimer := frameTimer, leaseTickTimer := some tick
                    leaseTicks := 0, missedTicks := 0, children := ∅ }
                  clock })
        else (.error .wrongPhase, t)
    | .eligible e =>
        if e.leaseStream = event.streamId then
          match e.leaseWrite with
          | some (token, _) =>
              if token = event.writeToken then
                (.ok ((Outcome.new .needInput).stream event.streamId),
                  { t with phase := .eligible { e with leaseWrite := none } })
              else (.error .wrongPhase, t)
          | none => (.error .wrongPhase, t)
        else
          let ((result, t'), e) := t.movedOut.commitChildWrite e event.streamId event.writeToken
          (result, { t' with phase := .eligible e })
    | _ => (.error .wrongPhase, t)

def sessionAccepted (noise : Noise R H T) (entropy : R) (t : TargetTransport H T) (event : Event) : Answer H T :=
  if event.streamId = 0 ∨ event.writeToken ≠ 0 ∨ event.bytes ≠ [] then (.error .invalidArgument, t)
  else
    match t.phase with
    | .eligible e =>
        if event.streamId = e.leaseStream ∨ (e.children.lookup event.streamId).isSome then (.error .wrongPhase, t)
        else
          match TargetSession.new noise entropy e.sessionBinding e.pbs with
          | .error _ => (.error .internal, t)
          | .ok session =>
              match session.writeM1 noise with
              | (.error _, _) => (.error .internal, t)
              | (.ok frames, session) =>
                  match t.clock.allocateToken with
                  | (.error error, clock) => (.error error, { t with clock })
                  | (.ok token, clock) =>
                      match clock.scheduleTimer (.sessionPhase event.streamId) with
                      | (.error error, clock) => (.error error, { t with clock })
                      | (.ok timer, clock) =>
                          (.ok ((Outcome.write event.streamId token frames).deadline timer
                              sessionHandshakeDeadlineMs),
                            { t with clock }.withChild e event.streamId {
                              phase := .m1Pending session token, decoder := .new, phaseTimer := some timer
                              frameTimer := none, applications := 0 })
    | _ => (.error .wrongPhase, t)

def runtimeResponse (noise : Noise R H T) (t : TargetTransport H T) (event : Event) : Answer H T :=
  if event.streamId = 0 ∨ event.writeToken ≠ 0 ∨ event.bytes = [] then (.error .invalidArgument, t)
  else
    match t.phase with
    | .eligible e =>
        match e.children.lookup event.streamId with
        | none => (.error .wrongPhase, t)
        | some child =>
            match child.phase with
            | .awaitRuntime session =>
                let t := t.withChild e event.streamId { child with phase := .terminal }
                match session.writeApplicationResponse noise event.bytes with
                | (.error error, _) => answer (t.childCoreError event.streamId error)
                | (.ok frameParts, session) =>
                    match t.clock.allocateToken with
                    | (.error error, clock) => (.error error, { t with clock })
                    | (.ok token, clock) =>
                        (.ok (Outcome.write event.streamId token frameParts.flatten),
                          { t with clock }.withChild e event.streamId
                            { child with phase := .responsePending session token })
            | _ => (.error .wrongPhase, t)
    | _ => (.error .wrongPhase, t)

def bootstrapBytes (noise : Noise R H T) (t : TargetTransport H T) (event : Event) : Answer H T :=
  match t.phase with
  | .bootstrapM2 streamId bootstrap decoder frameTimer =>
      let t := t.movedOut
      match decoder.push event.bytes with
      | (.error error, _) => answer (t.coreLeaseError error)
      | (.ok frames, decoder) =>
          match t.clock.updateFrameTimer decoder.isIncomplete frameTimer .bootstrapFrame with
          | (.error error, _, clock) => (.error error, { t with clock })
          | (.ok frameDeadline, frameTimer, clock) =>
              let t := { t with clock }
              match frames with
              | [] =>
                  (.ok (((Outcome.new .needInput).stream streamId).withFrameDeadline frameDeadline),
                    { t with phase := .bootstrapM2 streamId bootstrap decoder frameTimer })
              | [frame] =>
                  match bootstrap.readM2 noise frame t.generation 1 with
                  | .error error => answer (t.coreLeaseError error)
                  | .ok ((transport, ack), pbs) =>
                      let sessionBinding : SessionBinding := {
                        leaseId := ack.leaseId, processGeneration := ack.processGeneration
                        listenerEpoch := ack.listenerEpoch, nkHandshakeHash := ack.nkHandshakeHash }
                      match writeAck noise transport ack with
                      | .error error => answer (t.coreLeaseError error)
                      | .ok (ack, lease) =>
                          match t.clock.allocateToken with
                          | (.error error, clock) => (.error error, { t with clock })
                          | (.ok writeToken, clock) =>
                              (.ok ((Outcome.write streamId writeToken ack).withFrameDeadline frameDeadline),
                                { t with
                                  phase := .bootstrapAckPending streamId lease pbs sessionBinding writeToken decoder
                                    frameTimer
                                  clock })
              | _ => answer (t.leaseTerminal .sequenceViolation none)
  | _ => (.error .wrongPhase, t)

def leaseBytes (noise : Noise R H T) (t : TargetTransport H T) (event : Event) : Answer H T :=
  match t.phase with
  | .eligible e =>
      if e.leaseWrite.isSome then (.error .wrongPhase, t)
      else
        match e.leaseDecoder.push event.bytes with
        | (.error error, leaseDecoder) => answer ({ t with phase := .eligible { e with leaseDecoder } }.coreLeaseError error)
        | (.ok frames, leaseDecoder) =>
            match t.clock.updateFrameTimer leaseDecoder.isIncomplete e.leaseFrameTimer .leaseFrame with
            | (.error error, leaseFrameTimer, clock) =>
                (.error error, { t with phase := .eligible { e with leaseDecoder, leaseFrameTimer }, clock })
            | (.ok frameDeadline, leaseFrameTimer, clock) =>
                let e := { e with leaseDecoder, leaseFrameTimer }
                let t := { t with phase := .eligible e, clock }
                match frames with
                | [] => (.ok (((Outcome.new .needInput).stream event.streamId).withFrameDeadline frameDeadline), t)
                | [frame] =>
                    match e.lease.readHeartbeatRequest noise frame with
                    | (.error error, lease) => answer ({ t with phase := .eligible { e with lease } }.coreLeaseError error)
                    | (.ok counter, lease) =>
                        match lease.writeHeartbeatReply noise counter with
                        | (.error error, lease) =>
                            answer ({ t with phase := .eligible { e with lease } }.coreLeaseError error)
                        | (.ok reply, lease) =>
                            let e := { e with lease, missedTicks := 0 }
                            match t.clock.allocateToken with
                            | (.error error, clock) => (.error error, { t with phase := .eligible e, clock })
                            | (.ok token, clock) =>
                                (.ok ((Outcome.write event.streamId token reply).withFrameDeadline frameDeadline),
                                  { t with phase := .eligible { e with leaseWrite := some (token, counter) }, clock })
                | _ => answer (t.leaseTerminal .sequenceViolation none)
  | _ => (.error .wrongPhase, t)

/-- The loop over application frames: at most one message may complete. -/
inductive ApplicationRead (H T : Type) where
  | done (session : TargetSession H T) (application : Option Bytes)
  | second
  | failed (error : Error)

def readApplications (noise : Noise R H T) (session : TargetSession H T) (application : Option Bytes) :
    List Bytes → ApplicationRead H T
  | [] => .done session application
  | frame :: rest =>
      match session.readApplication noise frame with
      | (.ok (some bytes), session) =>
          if application.isNone then readApplications noise session (some bytes) rest else .second
      | (.ok none, session) => readApplications noise session application rest
      | (.error error, _) => .failed error

/-- What follows the loop, in both phases that run it. The child in `t` is in
    phase `Terminal` while its frames are read. -/
def finishApplications (t : TargetTransport H T) (e : Eligible H T) (streamId : Nat) (child : Child H T)
    (frameDeadline : Option Nat) : ApplicationRead H T → Answer H T
  | .second =>
      answer ((t.withChild e streamId { child with phase := .terminal }).childTerminal streamId .sequenceViolation none)
  | .failed error =>
      answer ((t.withChild e streamId { child with phase := .terminal }).childCoreError streamId error)
  | .done session none =>
      (.ok (((Outcome.new .needInput).stream streamId).withFrameDeadline frameDeadline),
        t.withChild e streamId { child with phase := .awaitApplication session })
  | .done session (some bytes) =>
      match checkedAdd child.applications 1 with
      | none => (.error .internal, t.withChild e streamId { child with phase := .terminal })
      | some applications =>
          let child := { child with applications, phase := .awaitRuntime session }
          match frameDeadline with
          | some timer =>
              (.ok ((Outcome.application streamId bytes).deadline timer frameDeadlineMs),
                { t with clock := t.clock.cancel child.phaseTimer }.withChild e streamId
                  { child with phaseTimer := none })
          | none =>
              match replaceChildTimer child t.clock (.sessionPhase streamId) with
              | (.error error, child, clock) => (.error error, { t with clock }.withChild e streamId child)
              | (.ok timer, child, clock) =>
                  (.ok ((Outcome.application streamId bytes).deadline timer
                      (if applications = 1 then sessionOpenResponseDeadlineMs else sessionIdleDeadlineMs)),
                    { t with clock }.withChild e streamId child)

/-- The frames of a child, once its decoder and frame timer are up to date. -/
def sessionFrames (noise : Noise R H T) (t : TargetTransport H T) (e : Eligible H T) (streamId : Nat)
    (child : Child H T) (frameDeadline : Option Nat) (frame : Bytes) (more : List Bytes) : Answer H T :=
  let gone := t.withChild e streamId { child with phase := .terminal }
  match child.phase with
  | .awaitM2 session =>
      if more ≠ [] then answer (gone.childTerminal streamId .sequenceViolation none)
      else
        match session.readM2 noise frame with
        | (.error error, _) => answer (gone.childCoreError streamId error)
        | (.ok (), session) =>
            match session.writeFinished noise with
            | (.error error, _) => answer (gone.childCoreError streamId error)
            | (.ok finished, session) =>
                match t.clock.allocateToken with
                | (.error error, clock) => (.error error, { gone with clock })
                | (.ok token, clock) =>
                    (.ok ((Outcome.write streamId token finished).withFrameDeadline frameDeadline),
                      { t with clock }.withChild e streamId { child with phase := .finishedPending session token })
  | .awaitFinished session =>
      match session.readFinished noise frame with
      | (.error error, _) => answer (gone.childCoreError streamId error)
      | (.ok (), session) =>
          t.finishApplications e streamId child frameDeadline (readApplications noise session none more)
  | .awaitApplication session =>
      t.finishApplications e streamId child frameDeadline (readApplications noise session none (frame :: more))
  | _ => (.error .wrongPhase, t.withChild e streamId child)

def sessionBytes (noise : Noise R H T) (t : TargetTransport H T) (event : Event) : Answer H T :=
  match t.phase with
  | .eligible e =>
      match e.children.lookup event.streamId with
      | none => (.error .wrongPhase, t)
      | some child =>
          match child.decoder.push event.bytes with
          | (.error error, decoder) =>
              answer ((t.withChild e event.streamId { child with decoder }).childCoreError event.streamId error)
          | (.ok frames, decoder) =>
              match t.clock.updateFrameTimer decoder.isIncomplete child.frameTimer (.sessionFrame event.streamId) with
              | (.error error, frameTimer, clock) =>
                  (.error error, { t with clock }.withChild e event.streamId { child with decoder, frameTimer })
              | (.ok frameDeadline, frameTimer, clock) =>
                  let t := { t with clock }
                  let child := { child with decoder, frameTimer }
                  match frames with
                  | [] =>
                      (.ok (((Outcome.new .needInput).stream event.streamId).withFrameDeadline frameDeadline),
                        t.withChild e event.streamId child)
                  | frame :: more => t.sessionFrames noise e event.streamId child frameDeadline frame more
  | _ => (.error .wrongPhase, t)

def streamBytes (noise : Noise R H T) (t : TargetTransport H T) (event : Event) : Answer H T :=
  if event.streamId = 0 ∨ event.writeToken ≠ 0 ∨ event.bytes = [] then (.error .invalidArgument, t)
  else
    match t.phase with
    | .bootstrapM2 streamId _ _ _ =>
        if streamId = event.streamId then t.bootstrapBytes noise event else (.error .wrongPhase, t)
    | .eligible e =>
        if e.leaseStream = event.streamId then t.leaseBytes noise event
        else if (e.children.lookup event.streamId).isSome then t.sessionBytes noise event
        else (.error .wrongPhase, t)
    | _ => (.error .wrongPhase, t)

/-- An orderly end checks the decoder of its stream first; a failed one does not. -/
def streamEnd (t : TargetTransport H T) (streamId : Nat) (reason : CloseReason) (orderly : Bool) : Answer H T :=
  match t.phase with
  | .bootstrapM1Pending stream bootstrap writeToken decoder frameTimer =>
      if stream = streamId then
        match (if orderly then decoder.eof else (.ok (), decoder)) with
        | (.error error, decoder) =>
            answer ({ t with phase := .bootstrapM1Pending stream bootstrap writeToken decoder frameTimer }.coreLeaseError
              error)
        | (.ok (), _) => answer (t.leaseTerminal reason none)
      else (.error .wrongPhase, t)
  | .bootstrapM2 stream bootstrap decoder frameTimer =>
      if stream = streamId then
        match (if orderly then decoder.eof else (.ok (), decoder)) with
        | (.error error, decoder) =>
            answer ({ t with phase := .bootstrapM2 stream bootstrap decoder frameTimer }.coreLeaseError error)
        | (.ok (), _) => answer (t.leaseTerminal reason none)
      else (.error .wrongPhase, t)
  | .bootstrapAckPending stream lease pbs sessionBinding writeToken decoder frameTimer =>
      if stream = streamId then
        match (if orderly then decoder.eof else (.ok (), decoder)) with
        | (.error error, decoder) =>
            answer ({ t with
              phase := .bootstrapAckPending stream lease pbs sessionBinding writeToken decoder frameTimer }.coreLeaseError
                error)
        | (.ok (), _) => answer (t.leaseTerminal reason none)
      else (.error .wrongPhase, t)
  | .eligible e =>
      if e.leaseStream = streamId then
        match (if orderly then e.leaseDecoder.eof else (.ok (), e.leaseDecoder)) with
        | (.error error, leaseDecoder) =>
            answer ({ t with phase := .eligible { e with leaseDecoder } }.coreLeaseError error)
        | (.ok (), _) => answer (t.leaseTerminal .brokerLost none)
      else
        match e.children.lookup streamId with
        | none => (.error .wrongPhase, t)
        | some child =>
            match (if orderly then child.eofError else (none, child)) with
            | (some error, child) => answer ((t.withChild e streamId child).childCoreError streamId error)
            | (none, child) => answer ((t.withChild e streamId child).childTerminal streamId reason none)
  | _ => (.error .wrongPhase, t)

def streamClosed (t : TargetTransport H T) (event : Event) : Answer H T :=
  if event.streamId = 0 ∨ event.writeToken ≠ 0 ∨ event.bytes ≠ [] then (.error .invalidArgument, t)
  else
    match event.tag with
    | .streamIoFailed => t.streamEnd event.streamId .peerClosed false
    | .streamEof => t.streamEnd event.streamId .peerClosed true
    | _ => t.streamEnd event.streamId .normal true

/-- `u8::saturating_add(1)`. -/
def saturatingSucc (n : Nat) : Nat := min (n + 1) 255

/-- The timer was already removed when its action runs. -/
def leaseTickFired (t : TargetTransport H T) (token : Nat) : Answer H T :=
  match t.phase with
  | .eligible e =>
      if e.leaseTickTimer ≠ some token then (.ok (.new .needInput), t)
      else
        let e := { e with leaseTicks := saturatingSucc e.leaseTicks, missedTicks := saturatingSucc e.missedTicks }
        let t := { t with phase := .eligible e }
        if e.leaseTicks ≥ 30 then answer (t.leaseTerminal .stale none)
        else if e.missedTicks ≥ 4 then answer (t.leaseTerminal .brokerLost none)
        else
          match t.clock.scheduleTimer .leaseTick with
          | (.error error, clock) => (.error error, { t with clock })
          | (.ok timer, clock) =>
              (.ok ((Outcome.new .needInput).deadline timer leaseTickMs),
                { t with phase := .eligible { e with leaseTickTimer := some timer }, clock })
  | _ => (.ok (.new .needInput), t)

/-- A child timer ends its child, if the child is still there. -/
def childTimerFired (t : TargetTransport H T) (streamId : Nat) (reason : CloseReason) : Answer H T :=
  match t.phase with
  | .eligible e =>
      if (e.children.lookup streamId).isSome then answer (t.childTerminal streamId reason none)
      else (.ok (.new .needInput), t)
  | _ => (.ok (.new .needInput), t)

def timerFired (t : TargetTransport H T) (event : Event) : Answer H T :=
  if event.streamId ≠ 0 ∨ event.writeToken = 0 ∨ event.bytes ≠ [] then (.error .invalidArgument, t)
  else
    match t.clock.timers.lookup event.writeToken with
    | none => (.ok (.new .needInput), t)
    | some action =>
        let t := { t with clock := t.clock.cancel (some event.writeToken) }
        match action with
        | .bootstrap | .bootstrapFrame | .leaseFrame => answer (t.leaseTerminal .timeout none)
        | .leaseTick => t.leaseTickFired event.writeToken
        | .sessionPhase streamId | .sessionFrame streamId => t.childTimerFired streamId .timeout
        | .sessionIdle streamId => t.childTimerFired streamId .stale

def eligibilityLost (t : TargetTransport H T) : Outcome × TargetTransport H T :=
  match t.phase with
  | .eligible e =>
      match checkedAdd e.sessionBinding.listenerEpoch 1 with
      | none => t.leaseTerminal .internalError none
      | some nextEpoch =>
          if nextEpoch > jsonSafeMax then t.leaseTerminal .internalError none
          else
            { t with
              phase := .eligible { e with
                sessionBinding := { e.sessionBinding with listenerEpoch := nextEpoch } } }.leaseTerminal
              .eligibilityLost none
  | _ => t.leaseTerminal .eligibilityLost none

/-- Events that concern the whole lease carry nothing else. -/
def leaseEvent (event : Event) (r : Outcome × TargetTransport H T) (t : TargetTransport H T) : Answer H T :=
  if event.streamId ≠ 0 ∨ event.writeToken ≠ 0 ∨ event.bytes ≠ [] then (.error .invalidArgument, t) else answer r

def drive (noise : Noise R H T) (entropy : R) (t : TargetTransport H T) (event : Event) : Answer H T :=
  match t.phase with
  | .terminal terminal =>
      (.ok (.terminal .leaseTerminal 0 terminal.reason terminal.handoff terminal.peerClose), t)
  | _ =>
      if event.flags ≠ 0 then (.error .invalidArgument, t)
      else
        match event.tag with
        | .eligibilityLost => leaseEvent event t.eligibilityLost t
        | .cleanupFailed => leaseEvent event (t.leaseTerminal .cleanupFailed none) t
        | .internalError => leaseEvent event (t.leaseTerminal .internalError none) t
        | .timerFired => t.timerFired event
        | .bootstrapConnected => t.bootstrapConnected noise entropy event
        | .fullWriteCommitted => t.fullWriteCommitted event
        | .sessionAccepted => t.sessionAccepted noise entropy event
        | .runtimeResponse => t.runtimeResponse noise event
        | .streamBytes => t.streamBytes noise event
        | .streamEof | .streamIoFailed | .streamCloseNormal => t.streamClosed event

/-- The first draw below the largest multiple of the modulus decides; a generator
    that fails gives `none`. -/
def generateProcessGeneration : List Nat → Option Nat
  | [] => none
  | value :: rest =>
      if value < 2 ^ 64 - 1 - (2 ^ 64 - 1) % jsonSafeMax then some (value % jsonSafeMax + 1)
      else generateProcessGeneration rest

/-- `draws` are the `u64` values the generator yields. -/
def create (descriptorCbor : Bytes) (draws : List Nat) :
    Except SupervisorError (TargetTransport H T × Outcome) := do
  let parsed ← parseDescriptor descriptorCbor
  let generation ← match generateProcessGeneration draws with
    | some generation => pure generation
    | none => throw .internal
  let ready := match parsed.endpoint with
    | .ios port => (Outcome.new .endpointReady).values 0 port
    | .android name => { (Outcome.new .endpointReady).values 1 0 with bytes := some name }
  pure ({ phase := .awaitBootstrap parsed.binding parsed.brokerPublicKey, generation
          clock := { nextToken := 1, timers := ∅ } }, ready)

end TargetTransport

end AppPilotKit.Target
