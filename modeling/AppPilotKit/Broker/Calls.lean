import AppPilotKit.Broker.Sections

/-! # The calls of the session broker

Each call as the sequence of its sections, its clock readings and its raw I/O. Between two
of them any other call may run. A guard is dropped where the source drops it, and an early
return drops what the call still holds.
-/

namespace AppPilotKit.Broker

open Wire Transport Programs

variable {χ : Type}

/-- The threads that the Broker starts itself. -/
inductive Task where
  | worker (reservation : Reservation)
  | drain (index : Nat) (key : PrepareKey)

abbrev Program (χ α : Type) := Prog (Core χ) (Input χ) Task α

abbrev Fallible (χ α : Type) := ExceptT ControlFailure (Prog (Core χ) (Input χ) Task) α

/-- One step waits until it may be taken; the clock moves on. -/
def waitFor {α : Type} (ready : Core χ → Input χ → Bool) (f : Nat → Core χ → Input χ → Core χ × α) : Program χ α :=
  .await ready fun who core input =>
    ((f who core input).1.clocked (input.time core.latest), (f who core input).2)

def turn {α : Type} (f : Nat → Core χ → Input χ → Core χ × α) : Program χ α := waitFor (fun _ _ => true) f

/-- A step that leaves the Broker as it is. -/
def observe {α : Type} (f : Input χ → α) : Program χ α := turn fun _ core input => (core, f input)

def change (f : Nat → Core χ → Input χ → Core χ) : Program χ Unit := turn fun who core input => (f who core input, ())

def lift {α : Type} (p : Program χ α) : Fallible χ α := ExceptT.lift p

def now : Fallible χ Nat := ExceptT.mk (observe fun input =>
  match input.clock with
  | some reading => .ok reading
  | none => .error (fail .ipc .internalError))

def cleanupDeadline : Fallible χ Unit := do
  let current ← now
  let _ ← abs (min (saturatingAdd current cleanupMs) maxSafe)

def prune (current : Nat) : Program χ Unit := change fun _ core _ => core.prune current

/-- The guard of an operation is dropped. -/
def dropOperation (index operation : Nat) : Program χ Unit :=
  change fun _ core _ => core.onOperations index (·.leave operation)

def cancel (raws : List Nat) : Program χ Unit := change fun _ core _ => core.log (raws.map Event.cancelled)

/-! ## The end of a lease -/

/-- One cleanup call on the receipt of a launch. -/
def cleanup (index : Nat) (cleaner : Cleaner) : Program χ Bool := turn fun _ core input =>
  (core.log [.cleanup index cleaner input.cleaned], input.cleaned)

def reapTerminalLease (index : Nat) (key : PrepareKey) : Program χ (Except CloseReason Unit) := do
  match ← turn fun _ core _ => core.takeReap index key with
  | .error reason => return .error reason
  | .ok work =>
      match ← (closeLink work).run with
      | .error _ => return .error .cleanupFailed
      | .ok () =>
          match ← (clean work).run with
          | .error _ => return .error .cleanupFailed
          | .ok cleaned =>
              let result := if work.terminalAlreadyFailed then .error .cleanupFailed else cleaned
              change fun _ core _ => core.emptySlot index key work.staleTokens result
              change fun who core _ => (core.onOperations index (·.finishClose result)).log [.finishClose index who result]
              return result
where
  /-- The authenticated lease Close, if the control stream is there. -/
  closeLink (work : ReapWork χ) : Fallible χ Unit :=
    match work.raw, work.crypto with
    | some raw, some _ => do
        cleanupDeadline
        lift (cancel [raw])
    | _, _ => pure ()
  clean (work : ReapWork χ) : Fallible χ (Except CloseReason Unit) :=
    if work.cleanupAlreadyFailed then pure (.error .cleanupFailed)
    else if work.cleanup then do
      cleanupDeadline
      let ok ← lift (cleanup index .terminalReaper)
      return if ok then .ok () else .error .cleanupFailed
    else pure (.ok ())

/-- A call returns from `terminalize_lease`. -/
def terminalized (index : Nat) (result : Except CloseReason Unit) : Program χ Unit :=
  change fun who core _ => core.log [.terminalized index who result]

/-- Atomically seals a lease and gives exactly one owner the cleanup receipt. A concurrent
    terminal caller waits for that owner. -/
def terminalizeLease (index : Nat) (reason : CloseReason) : Fallible χ Unit := do
  let terminalNow ← now
  let expires ← sessionTombstoneExpires terminalNow
  match ← lift (turn fun who core _ => core.sealLease who index reason expires) with
  | .absent => throw (fail .close .stale)
  | .follower =>
      cleanupDeadline
      let result ← lift (waitFor (fun core input => (core.operations index).completed.isSome || input.late)
        fun _ core _ => (core, (core.operations index).completed.getD (.error .cleanupFailed)))
      lift (terminalized index result)
      match result with
      | .ok () => pure ()
      | .error reason => throw (fail .cleanup reason)
  | .owner key links =>
      lift (cancel links)
      cleanupDeadline
      let drained ← lift (waitFor (fun core input => (core.operations index).active = 0 || input.late)
        fun _ core _ => (core, decide ((core.operations index).active = 0)))
      if drained then
        let result ← lift (reapTerminalLease index key)
        lift (terminalized index result)
        match result with
        | .ok () => pure ()
        | .error reason => throw (fail .cleanup reason)
      else
        lift (change fun _ core _ => core.tombstone key true)
        lift (Prog.spawn (.drain index key) fun _ _ core => core)
        lift (terminalized index (.error .cleanupFailed))
        throw (fail .cleanup .cleanupFailed)

/-- The thread that reaps a lease whose operations did not drain in time. -/
def drain (index : Nat) (key : PrepareKey) : Program χ Unit := do
  waitFor (fun core _ => (core.operations index).active = 0) fun _ core _ => (core, ())
  let _ ← reapTerminalLease index key

/-! ## Heartbeats -/

/-- Enter the probe of a lease; one heartbeat at a time. -/
def enterProbe (index deadline : Nat) : Fallible χ Unit := ExceptT.mk <|
  waitFor (fun core input => (core.places[index]?.bind (·.readyProbe)).isNone || input.clock.all (deadline ≤ ·))
    fun who core input =>
      if (core.places[index]?.bind (·.readyProbe)).isNone then
        (core.onPlace index fun place => { place with readyProbe := some who }, .ok ())
      else match input.clock with
        | none => (core, .error (fail .ipc .internalError))
        | some _ => (core, .error (fail .prepare .timeout))

/-- One authenticated round trip, or only the reply that is still due. -/
def beat (probe : Probe χ) : Program χ (Except TransportFailure Unit × χ) := observe fun input =>
  match heartbeatAttempt probe.misses with
  | .requestAndReply => input.heartbeat probe.crypto probe.counter
  | .replyOnly =>
      match input.reply probe.crypto with
      | (.error error, crypto) => (.error error, crypto)
      | (.ok received, crypto) =>
          if received = probe.counter then (.ok (), crypto)
          else (.error ⟨.sequenceViolation, .notHandedOff, false⟩, crypto)

/-- What a heartbeat does once it has the probe. -/
def probed (index deadline : Nat) : Fallible χ Bool := do
  match ← lift (turn fun _ core _ => core.takeControl index deadline) with
  | .error failure => throw failure
  | .ok probe =>
      let (result, crypto) ← lift (beat probe)
      match result with
      | .ok () => settle probe (← lift (turn fun _ core input => core.succeedHeartbeat index crypto probe.counter input))
      | .error error =>
          if error.closeReason = .timeout then
            settle probe (← lift (turn fun _ core _ => core.missHeartbeat index crypto deadline))
          else
            let found ← lift (turn fun _ core _ => core.faultHeartbeat index crypto error)
            lift (dropOperation index probe.operation)
            if found then
              let _ ← lift (terminalizeLease index error.closeReason).run
              throw (transportFail .close error)
            else throw (fail .close .stale)
where
  /-- The guard is dropped before a terminal lease is sealed. -/
  settle (probe : Probe χ) (completion : Completion Bool) : Fallible χ Bool := do
    lift (dropOperation index probe.operation)
    match completion with
    | .answered answer => answer
    | .terminal reason =>
        let _ ← lift (terminalizeLease index reason).run
        throw (fail .close reason)

def heartbeat (index deadline : Nat) : Fallible χ Bool := do
  let found ← lift (turn fun _ core _ => (core, ((core.lease? index).filter (·.state = .ready)).isSome))
  if found then
    enterProbe index deadline
    let answer ← lift (probed index deadline).run
    lift (change fun _ core _ => core.onPlace index fun place => { place with readyProbe := none })
    answer
  else throw (fail .close .stale)

/-! ## Prepare -/

def rejectWithCleanup (r : Reservation) (reason : CloseReason) (cleanupFailed : Bool) : Program χ ControlFailure := do
  change fun _ core _ => core.rejectWithCleanup r reason cleanupFailed
  return fail (if reason = .cleanupFailed then .cleanup else .bootstrap) reason

def reject (r : Reservation) (reason : CloseReason) : Program χ ControlFailure :=
  rejectWithCleanup r reason (reason = .cleanupFailed)

/-- A prepared launch goes out of scope. -/
def dropPrepared (r : Reservation) (prepared : Prepared χ) : Program χ Unit := dropOperation r.index prepared.operation

/-- A late bootstrap result has transferred launch ownership to the Broker. Consume that
    ownership before observing the stale terminal state. -/
def discardPrepared (r : Reservation) (prepared : Prepared χ) (reason : CloseReason) : Fallible χ ReadyTarget := do
  lift (cancel [prepared.success.bootstrap])
  match ← lift cleanupDeadline.run with
  | .error failure =>
      lift (dropPrepared r prepared)
      throw failure
  | .ok () =>
      let ok ← lift (cleanup r.index .discardPrepared)
      if !ok then
        lift (change fun _ core _ => core.onPlace r.index fun place =>
          { place with lease := place.lease.map fun lease => { lease with terminalCleanupFailed := true } })
      let failure ← lift (rejectWithCleanup r reason !ok)
      -- the tombstone is there before the guard is released
      lift (dropOperation r.index prepared.operation)
      throw failure

def discardPreparedTransport (r : Reservation) (prepared : Prepared χ) (error : TransportFailure) : Fallible χ ReadyTarget :=
  ExceptT.mk do
    match ← (discardPrepared r prepared error.closeReason).run with
    | .error failure => return .error { failure with handoff := error.handoff }
    | .ok ready => return .ok ready

def rejectTransport (r : Reservation) (error : TransportFailure) : Program χ ControlFailure := do
  let failure ← rejectWithCleanup r error.closeReason error.cleanupFailed
  return { failure with handoff := error.handoff }

/-- An authenticated bootstrap becomes a ready lease after one heartbeat round trip. -/
def commit (r : Reservation) (prepared : Prepared χ) : Fallible χ ReadyTarget := do
  match ← lift now.run with
  | .error failure =>
      lift (dropPrepared r prepared)
      throw failure
  | .ok completed =>
      let bindingMatches : Bool := prepared.success.ackLeaseId = r.leaseId ∧ prepared.success.ackDigest = r.digest ∧
        prepared.success.listenerEpoch = 1
      match commitRejectionReason completed r.deadline bindingMatches, abs r.deadline with
      | some reason, _ => discardPrepared r prepared reason
      | none, .error failure =>
          lift (dropPrepared r prepared)
          throw failure
      | none, .ok _ =>
          let (result, crypto) ← lift (observe fun input => input.heartbeat prepared.success.lease 1)
          let prepared := { prepared with success := { prepared.success with lease := crypto } }
          match result with
          | .error error => discardPreparedTransport r prepared error
          | .ok () => proved prepared
where
  proved (prepared : Prepared χ) : Fallible χ ReadyTarget := do
    match ← lift now.run with
    | .error failure =>
        lift (dropPrepared r prepared)
        throw failure
    | .ok completed =>
        match commitRejectionReason completed r.deadline true, safeExpiry completed readyReferenceTtlMs with
        | some reason, _ => discardPrepared r prepared reason
        | none, none =>
            lift (dropPrepared r prepared)
            throw (fail .prepare .internalError)
        | none, some expires =>
            match ← lift (turn fun who core _ => core.commit who r prepared completed expires) with
            | some ready => pure ready
            | none => discardPrepared r prepared .stale

/-- The result of a worker, or nothing when the deadline passes first. -/
def waitUntil (index : Nat) : Program χ (Option (Except TransportFailure (Prepared χ))) :=
  waitFor
    (fun core input => match core.places[index]? with
      | some place => place.owned.state = .ready || (input.late && place.owned.state = .producing)
      | none => false)
    fun _ core _ =>
      match core.places[index]? with
      | none => (core, none)
      | some place =>
          if place.owned.state = .ready then
            (core.onPlace index fun place => { place with owned := { state := .taken, cell := none } }, place.owned.cell)
          else
            (core.onPlace index fun place => { place with owned := { place.owned with state := .abandoned } }, none)

/-- A pending launch goes out of scope. -/
def dropPending (r : Reservation) : Program χ Unit := dropOperation r.index r.operation

def abortLaunch (r : Reservation) (reason : CloseReason) : Fallible χ ReadyTarget := do
  match ← lift cleanupDeadline.run with
  | .error failure =>
      lift (dropPending r)
      throw failure
  | .ok () =>
      let ok ← lift (turn fun _ core input =>
        (core.log [.aborted r.index input.aborted],
          input.aborted))
      let failure ← lift (reject r (if ok then reason else .cleanupFailed))
      lift (dropOperation r.index r.operation)
      throw failure

/-- `TargetSelection::new`, after the deadline has been checked. -/
def targetSelection (r : Reservation) : Except ControlFailure Unit :=
  match abs r.launchDeadline with
  | .error failure => .error failure
  | .ok _ =>
      if r.body.deviceSelector.isEmpty || r.body.appId.isEmpty || r.body.appArtifact.isEmpty then
        .error (fail .prepare .bindingMismatch)
      else .ok ()

def launch (r : Reservation) : Fallible χ ReadyTarget := do
  match targetSelection r with
  | .error failure =>
      lift (dropOperation r.index r.operation)
      throw failure
  | .ok () =>
      lift (change fun _ core _ => core.log [.beginLaunch r.index])
      match ← lift (observe fun input => input.descriptor) with
      | .error reason => abortLaunch r reason
      | .ok () =>
          lift (Prog.spawn (.worker r) fun _ _ core => core)
          lift (change fun _ core _ => { core with pendingReapers := core.pendingReapers + 1 })
          match ← lift (waitUntil r.index) with
          | none => throw (← lift (reject r .timeout))
          | some result =>
              lift (change fun _ core _ => { core with pendingReapers := core.pendingReapers - 1 })
              match result with
              | .ok prepared => commit r prepared
              | .error error => throw (← lift (rejectTransport r error))

/-- Only a lease that answers a heartbeat is used again. -/
def reusePrepare (index : Nat) (key : PrepareKey) (deadline : Nat) : Fallible χ ReadyTarget := do
  if ← heartbeat index deadline then
    let current ← now
    if deadline ≤ current then throw (fail .prepare .timeout)
    match ← lift (turn fun who core input => core.reuse who index key current input) with
    | .answered answer => answer
    | .terminal reason =>
        terminalizeLease index reason
        throw (fail .prepare reason)
  else throw (fail .prepare .timeout)

def prepare (digests : Digests) (request : Request PrepareBody) : Fallible χ ReadyTarget := do
  let started ← now
  let deadline ← prepareDeadline started request.deadlineUnixMs request.body.platform
  let limit ← launchDeadline started deadline request.body.platform
  match ← lift (turn fun _ core input => core.route digests request started deadline limit input) with
  | .refused failure => throw failure
  | .sealed index reason =>
      terminalizeLease index reason
      throw (fail .prepare reason)
  | .reuse index => reusePrepare index (PrepareKey.new request.body) deadline
  | .launch reservation => launch reservation

/-! ## The launch worker -/

/-- A result without a prepared launch: the guard has been dropped before it is published. -/
def failLaunch (r : Reservation) (failure : TransportFailure) : Program χ (Except TransportFailure (Prepared χ)) := do
  dropOperation r.index r.operation
  return .error failure

def launchAndBootstrap (r : Reservation) : Program χ (Except TransportFailure (Prepared χ)) := do
  match ← observe fun input => input.launched with
  | .error failure => failLaunch r failure
  | .ok () =>
      let deadline : Fallible χ Nat := do
        let connected ← now
        let limit ← bootstrapDeadline connected r.deadline
        abs limit
      match ← deadline.run with
      | .error failure => failLaunch r ⟨failure.closeReason, .notHandedOff, false⟩
      | .ok _ =>
          match ← turn fun _ core input => match input.bootstrapped with
            | .ok success => (core.log [.launched r.index], Except.ok success)
            | .error failure => (core, .error failure) with
          | .ok success => return .ok { success, operation := r.operation }
          | .error failure => failLaunch r failure

/-- The caller has gone; the worker cleans up what it has just launched. -/
def reapLate (r : Reservation) (result : Except TransportFailure (Prepared χ)) : Program χ Unit := do
  let cleanupFailed ← match result with
    | .error error => pure error.cleanupFailed
    | .ok prepared => do
        cancel [prepared.success.bootstrap]
        match ← cleanupDeadline.run with
        | .error _ =>
            dropPrepared r prepared
            pure true
        | .ok () =>
            let ok ← cleanup r.index .lateReaper
            dropOperation r.index prepared.operation
            pure !ok
  change fun _ core _ => core.reapLate r.index r.key cleanupFailed
  change fun _ core _ => { core with pendingReapers := core.pendingReapers - 1 }
  change fun _ core _ => core.onPlace r.index fun place =>
    { place with owned := { place.owned with state := if cleanupFailed then .cleanupFailed else .reaped } }

def publish (r : Reservation) (result : Except TransportFailure (Prepared χ)) : Program χ Unit := do
  change fun _ core _ => core.onPlace r.index fun place =>
    { place with owned := { place.owned with cell := some result } }
  let abandoned ← turn fun _ core _ =>
    match core.places[r.index]? with
    | some place =>
        if place.owned.state = .abandoned then
          (core.onPlace r.index fun place => { place with owned := { state := .reaping, cell := none } }, true)
        else
          (core.onPlace r.index fun place => { place with owned := { place.owned with state := .ready } }, false)
    | none => (core, false)
  if abandoned then reapLate r result

def worker (r : Reservation) : Program χ Unit := do
  let result ← launchAndBootstrap r
  publish r result

/-! ## Sessions -/

/-- Drop the guard, and seal a lease that has become terminal meanwhile. -/
def settle {α : Type} (stage : ErrorStage) (index operation : Nat) (completion : Completion α) : Fallible χ α := do
  lift (dropOperation index operation)
  match completion with
  | .answered answer => answer
  | .terminal reason =>
      let _ ← lift (terminalizeLease index reason).run
      throw (fail stage reason)

/-- A request whose lease is terminal seals it. -/
def admitted {α : Type} (stage : ErrorStage) (admission : Admission α) : Fallible χ (Nat × α) :=
  match admission with
  | .refused failure => throw failure
  | .terminal index reason => do
      let _ ← lift (terminalizeLease index reason).run
      throw (fail stage reason)
  | .admitted index value => pure (index, value)

def openSession (digests : Digests) (request : Request OpenSessionBody) : Fallible χ ControlSuccess := do
  let current ← now
  match request.body.sessionId with
  | some id =>
      let admission ← lift (turn fun who core input => core.matchOpen who request.body.targetToken id current input)
      let (_, success) ← admitted .sessionOpen admission
      return success
  | none =>
      match request.body.sessionOpenRequest with
      | none => throw (fail .sessionOpen .malformed)
      | some payload =>
          if request.body.sessionOpenRequestSha256 ≠ some (digests.sha256 payload) then
            throw (fail .sessionOpen .bindingMismatch)
          let current ← now
          let admission ← lift (turn fun _ core _ =>
            core.redeem request.body.targetToken current request.deadlineUnixMs)
          let (index, redemption) ← admitted .sessionOpen admission
          let opened ← lift (observe fun input => input.opened)
          let completion ← lift (turn fun who core input =>
            core.commitSession who digests request.body.targetToken index redemption opened input)
          settle .sessionOpen index redemption.operation completion

def exchange (digests : Digests) (request : Request ExchangeBody) : Fallible χ ControlSuccess := do
  let body := request.body
  if body.messageSha256 ≠ digests.sha256 body.message then throw (fail .exchange .bindingMismatch)
  let current ← now
  let admission ← lift (turn fun _ core _ =>
    core.borrow .exchange body.targetToken body.sessionId body.processGeneration body.listenerEpoch true current
      request.deadlineUnixMs)
  let (index, borrowed) ← admitted .exchange admission
  let result ← lift (observe fun input => input.exchanged)
  let completion ← lift (turn fun who core input =>
    core.completeExchange who digests body index borrowed result input)
  settle .exchange index borrowed.operation completion

def closeSession (request : Request CloseSessionBody) : Fallible χ ControlSuccess := do
  let body := request.body
  let current ← now
  let admission ← lift (turn fun _ core _ =>
    core.borrow .close body.targetToken body.sessionId body.processGeneration body.listenerEpoch false current
      request.deadlineUnixMs)
  let (index, borrowed) ← admitted .close admission
  let result ← lift (turn fun _ core input => (core.log [.cancelled borrowed.raw], input.closed))
  let completion ← lift (turn fun who core input => core.completeClose who body index borrowed result input)
  settle .close index borrowed.operation completion

def closeLease (request : Request CloseLeaseBody) : Fallible χ ControlSuccess := do
  let token := request.body.targetToken
  let found ← lift (turn fun _ core _ => (core, match core.leaseOf? token with
    | none => Except.error (core.tokenFailure .close token)
    | some (index, lease) => .ok (index, lease.handoffNow)))
  match found with
  | .error failure => throw failure
  | .ok (index, handoff) =>
      terminalizeLease index request.body.reason
      return .closed { targetToken := token, sessionId := none, handoff }

/-- Session idle is narrower than lease expiry: it destroys only that connection and leaves
    sibling sessions live. -/
def expireSession (index slot : Nat) : Fallible χ Unit := do
  match ← lift (turn fun _ core _ => core.expire index slot) with
  | .error failure => throw failure
  | .ok (borrowed, id) =>
      match ← lift cleanupDeadline.run with
      | .error failure =>
          lift (dropOperation index borrowed.operation)
          throw failure
      | .ok () =>
          lift (cancel [borrowed.raw])
          let answer ← lift (turn fun _ core input => core.completeExpire index borrowed id input)
          lift (dropOperation index borrowed.operation)
          answer

/-! ## The Broker -/

/-- Go through what is due; the first failure is the answer. -/
def forEach {α : Type} (each : α → Fallible χ Unit) : List α → Program χ (Option ControlFailure)
  | [] => pure none
  | item :: rest => do
      let first ← (each item).run
      let later ← forEach each rest
      return match first with
        | .error failure => some failure
        | .ok () => later

def maintain : Fallible χ Unit := do
  let current ← now
  lift (prune current)
  let due ← lift (turn fun _ core _ => (core, core.scan current))
  let sessions ← lift (forEach (fun (index, slot) => expireSession index slot) due.sessions)
  let leases ← lift (forEach (terminalizeLease · .stale) due.leases)
  let losses ← lift (forEach (fun index => do
    terminalizeLease index .brokerLost
    throw (fail .close .brokerLost)) due.losses)
  let heartbeats ← lift (forEach (fun index => do
    let _ ← heartbeat index (min (saturatingAdd current heartbeatIntervalMs) maxSafe)) due.heartbeats)
  match (sessions <|> leases <|> losses <|> heartbeats) with
  | some failure => throw failure
  | none => pure ()

/-- Shut down one slot: wait for a reaper that is under way. -/
def shutdownSlot (reason : CloseReason) (index : Nat) : Fallible χ Unit := ExceptT.mk do
  let present ← turn fun _ core _ => (core, (core.lease? index).isSome)
  match ← (terminalizeLease index reason).run with
  | .ok () => return .ok ()
  | .error error =>
      if error.closeReason = .cleanupFailed ∧ present then
        waitFor (fun core _ => (core.operations index).completed.isSome) fun _ core _ => (core, ())
      return if error.closeReason = .stale then .ok () else .error error

def shutdown (reason : CloseReason) : Fallible χ Unit := do
  let indices ← lift (turn fun _ core _ =>
    ({ core with shuttingDown := true },
      (List.range core.places.length).filter fun index => (core.lease? index).isSome))
  match ← lift (forEach (shutdownSlot reason) indices) with
  | some failure => throw failure
  | none => pure ()

def handle (digests : Digests) (request : ControlRequest) : Fallible χ ControlSuccess := do
  let current ← now
  lift (prune current)
  if request.deadlineUnixMs ≤ current then throw (fail .ipc .timeout)
  match request with
  | .prepare request => return .targetReady (← prepare digests request)
  | .openSession request => openSession digests request
  | .exchange request => exchange digests request
  | .closeSession request => closeSession request
  | .closeLease request => closeLease request

/-- What may be asked of a Broker. -/
inductive Call where
  | handle (request : ControlRequest)
  | maintain
  | shutdown (reason : CloseReason)

def call (digests : Digests) : Call → Program χ Unit
  | .handle request => do
      let answer ← (handle digests request).run
      change fun who core _ => core.log [.returned who answer]
  | .maintain => do
      let _ ← (maintain : Fallible χ Unit).run
      return ()
  | .shutdown reason => do
      let _ ← (shutdown reason : Fallible χ Unit).run
      return ()

def task : Task → Program χ Unit
  | .worker reservation => worker reservation
  | .drain index key => drain index key

def system (χ : Type) (digests : Digests) : System (Core χ) (Input χ) Task Call :=
  { entry := call digests, child := task }

/-- A Broker that has just started. -/
def start (χ : Type) : Pool (Core χ) (Input χ) Task := ⟨{}, []⟩

end AppPilotKit.Broker
