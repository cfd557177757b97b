import AppPilotKit.Broker.Core

/-! # The lock-protected sections

Each function here is what one call does to the state while it has the lock, and what it
found. A call that leaves a section with an error after it entered the ledger has dropped
its guard inside the section.
-/

namespace AppPilotKit.Broker

open Wire Transport

variable {χ : Type}

/-- The digest of a byte string, and the printed form of a reference. -/
structure Digests where
  sha256 : Bytes → Digest
  reference : Token → Bytes

/-! ## What sections do to a lease -/

namespace Lease

def terminalReasonAt (lease : Lease χ) (current : Nat) : Option CloseReason :=
  leaseTerminalReason current lease.created lease.lastClientActivity lease.heartbeatMisses

/-- The handoff a close of the lease reports. -/
def handoffNow (lease : Lease χ) : HandoffState :=
  if lease.handoff = .handoffPossibleOrConfirmed ∨
      lease.sessions.any (fun session => session.handoff = .handoffPossibleOrConfirmed) then
    .handoffPossibleOrConfirmed
  else .notHandedOff

/-- The effective deadline of an operation on the lease. -/
def deadlineFor (lease : Lease χ) (deadline : Nat) : Except ControlFailure Nat :=
  abs (min deadline (min (saturatingAdd lease.created leaseAbsoluteMs) maxSafe))

/-- A reference outlives its time only while its session is there. -/
def keepsReference (lease : Lease χ) (current : Nat) (reference : Reference) : Bool :=
  (reference.state = .consumed && reference.sessionSlot.any fun slot => (lease.sessions.lookup slot).isSome) ||
    current < reference.expires

def prune (lease : Lease χ) (current : Nat) : Lease χ :=
  { lease with references := lease.references.retain fun _ reference => lease.keepsReference current reference }

def onReference (lease : Lease χ) (token : Token) (f : Reference → Reference) : Lease χ :=
  { lease with references := lease.references.adjust token f }

def onSession (lease : Lease χ) (slot : Nat) (f : Session → Session) : Lease χ :=
  { lease with sessions := lease.sessions.adjust slot f }

def staleReferences (lease : Lease χ) : Lease χ :=
  { lease with references := lease.references.mapValues fun reference => { reference with state := .stale } }

def staleReference (lease : Lease χ) (token : Token) : Lease χ :=
  lease.onReference token fun reference => { reference with state := .stale }

/-- A lease that its terminal owner has sealed. -/
def terminalize (lease : Lease χ) (reason : CloseReason) (expires : Nat) : Lease χ :=
  { lease with
    state := .closing, terminalReason := some (lease.terminalReason.getD reason), terminalHandoff := lease.handoffNow
    references := lease.references.mapValues fun reference =>
      { reference with
        state := .stale, expires := if reference.sessionId.isSome then expires else reference.expires } }

/-- Seal a ready lease under the decision lock of prepare. -/
def sealFor (lease : Lease χ) (reason : CloseReason) : Lease χ :=
  { lease.staleReferences with state := .closing, terminalReason := some reason }

/-- A fresh reference of a ready lease. -/
def mintReference (lease : Lease χ) (token : Token) (issued expires : Nat) : Lease χ :=
  { lease with
    references := lease.references.insert token
      { state := .minted, issued, expires, sessionSlot := none, sessionId := none } }

/-- The lease takes over what the bootstrap gave. -/
def commitLaunch (lease : Lease χ) (token : Token) (success : BootstrapSuccess χ) (completed expires : Nat) : Lease χ :=
  { lease.onReference token fun reference => { reference with state := .minted, issued := completed, expires } with
    generation := success.processGeneration, epoch := success.listenerEpoch, nkHash := success.nkHandshakeHash
    pbs := true, control := some success.bootstrap, leaseCrypto := some success.lease, controlReader := true
    connector := true, cleanup := true, state := .ready, created := completed, lastHeartbeatAttempt := completed
    lastHeartbeatSuccess := completed, heartbeatCounter := 2 }

/-- A concurrent terminal owner that has sealed the lease still finds it sealed. -/
def reject (lease : Lease χ) (token : Token) (reason : CloseReason) : Lease χ :=
  { lease with
    state := if lease.state = .closing then .closing else .stale
    terminalReason := some (lease.terminalReason.getD reason)
    references := lease.references.erase token }

/-- The next session slot goes to the reference that is being redeemed. -/
def redeem (lease : Lease χ) (token : Token) : Lease χ :=
  { lease.onReference token fun reference =>
      { reference with state := .redeeming, sessionSlot := some lease.nextSession } with
    nextSession := lease.nextSession + 1 }

def consume (lease : Lease χ) (token : Token) : Lease χ :=
  lease.onReference token fun reference => { reference with state := .consumed }

def insertSession (lease : Lease χ) (slot : Nat) (session : Session) : Lease χ :=
  { lease with sessions := lease.sessions.insert slot session }

/-- The first call on a session binds its id, in the session and in its reference. -/
def bindSession (lease : Lease χ) (token : Token) (slot : Nat) (id : String) : Lease χ :=
  if (lease.sessions.lookup slot).any (·.id.isNone) then
    (lease.onReference token fun reference => { reference with sessionId := some id }).onSession slot
      fun session => { session with id := some id }
  else lease

/-- An exchange gives the crypto state back. -/
def giveBack (lease : Lease χ) (slot : Nat) : Lease χ :=
  { lease.onSession slot fun session =>
      { session with crypto := true, reader := true, handoff := .handoffPossibleOrConfirmed } with
    handoff := .handoffPossibleOrConfirmed }

def used (lease : Lease χ) (slot last : Nat) : Lease χ :=
  { lease.onSession slot fun session => { session with last } with lastClientActivity := last }

def nameReference (lease : Lease χ) (token : Token) (id : String) : Lease χ :=
  lease.onReference token fun reference => { reference with sessionId := some id }

/-- The session is gone; its reference keeps the id for a while. -/
def removeSession (lease : Lease χ) (token : Token) (id : String) (expires slot : Nat) : Lease χ :=
  { lease.onReference token fun reference => { reference with sessionId := some id, expires } with
    sessions := lease.sessions.erase slot }

def giveControlBack (lease : Lease χ) (crypto : χ) : Lease χ :=
  { lease with leaseCrypto := some crypto, controlReader := true }

/-- A missed reply counts against the lease. -/
def miss (lease : Lease χ) (crypto : χ) (deadline : Nat) : Lease χ :=
  { lease.giveControlBack crypto with
    lastHeartbeatAttempt := deadline - heartbeatIntervalMs, heartbeatMisses := min (lease.heartbeatMisses + 1) 255 }

end Lease

namespace Core

def prune (core : Core χ) (current : Nat) : Core χ :=
  { core with
    staleTokens := core.staleTokens.retain fun _ expires => current < expires
    places := core.places.map fun place => { place with lease := place.lease.map (·.prune current) } }

/-- The first slot whose lease has the reference. -/
def leaseOf? (core : Core χ) (token : Token) : Option (Nat × Lease χ) :=
  (core.places.findIdx? fun place => place.lease.any fun lease => (lease.references.lookup token).isSome).bind
    fun index => (core.lease? index).map (index, ·)

def tokenFailure (core : Core χ) (stage : ErrorStage) (token : Token) : ControlFailure :=
  if (core.staleTokens.lookup token).isSome then fail stage .stale else selectionFailure stage

def operations (core : Core χ) (index : Nat) : OperationState := (core.places[index]?.map Place.operations).getD {}

/-- The lease and the ledger after a call has entered it. -/
def setEntered (core : Core χ) (index : Nat) (lease : Lease χ) (operations : OperationState) : Core χ :=
  core.onPlace index fun place => { place with lease := some lease, operations }

/-- A failed cleanup blocks the selection for good. -/
def tombstone (core : Core χ) (key : PrepareKey) (cleanupFailed : Bool) : Core χ :=
  if cleanupFailed then { core with failed := core.failed.insert key.selection (key.digest, .cleanupFailed) } else core

end Core

/-! ## Prepare -/

structure Reservation where
  index : Nat
  key : PrepareKey
  body : PrepareBody
  token : Token
  digest : Digest
  leaseId : LeaseId
  deadline : Nat
  launchDeadline : Nat
  operation : Nat

inductive PrepareRoute where
  | refused (failure : ControlFailure)
  | sealed (index : Nat) (reason : CloseReason)
  | reuse (index : Nat)
  | launch (reservation : Reservation)

/-- The lease of a slot that has just been reserved. -/
def reservedLease (key : PrepareKey) (token : Token) (leaseId : LeaseId) (started deadline : Nat) : Lease χ :=
  { key, state := .preparing, leaseId, generation := 0, epoch := 0, nkHash := .replicate 32 0
    control := none, leaseCrypto := none, controlReader := false, pbs := false, connector := false, cleanup := false
    references := (∅ : Dict Token Reference).insert token
      { state := .pending, issued := 0, expires := deadline, sessionSlot := none, sessionId := none }
    sessions := ∅, nextSession := 1, created := started
    lastHeartbeatAttempt := started, lastHeartbeatSuccess := started, heartbeatCounter := 1, heartbeatMisses := 0
    lastClientActivity := started, terminalCleanupFailed := false, terminalReason := none
    terminalHandoff := .notHandedOff, handoff := .notHandedOff }

/-- The launch is the first operation of its slot. -/
def reservedPlace (lease : Lease χ) : Place χ :=
  { key := lease.key, lease := some lease, operations := { nextId := 2, cancellations := [1] }, readyProbe := none
    owned := {} }

inductive Reuse where
  | answered (answer : Except ControlFailure ReadyTarget)
  | terminal (reason : CloseReason)

namespace Core

/-- The slots that the selection of a key has, whatever the artifact. -/
def conflicts (core : Core χ) (key : PrepareKey) : Bool := core.places.any fun place => place.lease.any fun lease =>
  lease.key.selection = key.selection && lease.key.digest ≠ key.digest

/-- The first slot with a lease of the key that satisfies `p`. -/
def indexOf? (core : Core χ) (key : PrepareKey) (p : LeaseState → Bool) : Option Nat :=
  core.places.findIdx? fun place => place.lease.any fun lease => lease.key = key && p lease.state

def route (core : Core χ) (digests : Digests) (request : Request PrepareBody) (started deadline limit : Nat)
    (input : Input χ) : Core χ × PrepareRoute :=
  let key := PrepareKey.new request.body
  if core.conflicts key then (core, .refused (fail .prepare .bindingMismatch))
  else match core.failed.lookup key.selection with
    | some (digest, reason) =>
        (core, .refused (fail .cleanup (if digest = key.digest then reason else .bindingMismatch)))
    | none =>
        if core.shuttingDown then (core, .refused (fail .ipc .brokerLost))
        else match core.indexOf? key (· = .ready) with
          | some index =>
              match core.lease? index with
              | none => (core, .reuse index)
              | some lease =>
                  match lease.terminalReasonAt started with
                  | some reason =>
                      (core.setLease index (lease.sealFor reason), .sealed index reason)
                  | none => (core, .reuse index)
          | none =>
              if (core.indexOf? key (· = .preparing)).isSome then (core, .refused (fail .prepare .bindingMismatch))
              else match (core.indexOf? key (· ≠ .ready)).bind core.lease? with
                | some lease => (core, .refused (fail .prepare (lease.terminalReason.getD .stale)))
                | none =>
                    match input.entropy, input.keys with
                    | none, _ => (core, .refused (fail .ipc .internalError))
                    | some _, .error reason => (core, .refused (fail .bootstrap reason))
                    | some (token, leaseId, _), .ok () =>
                        ({ core with
                            places := core.places ++
                              [reservedPlace (reservedLease key token leaseId started deadline)]
                            history := core.history ++ [.drew token] },
                          .launch {
                            index := core.places.length, key, body := request.body, token
                            digest := digests.sha256 (digests.reference token)
                            leaseId, deadline, launchDeadline := limit, operation := 1 })

/-- After a successful heartbeat a prepare mints a reference of the lease it found. -/
def reuse (core : Core χ) (who index : Nat) (key : PrepareKey) (current : Nat) (input : Input χ) : Core χ × Reuse :=
  match core.lease? index with
  | none => (core, .answered (.error (fail .prepare .stale)))
  | some lease =>
      if lease.key ≠ key ∨ lease.state ≠ .ready then (core, .answered (.error (fail .prepare .stale)))
      else match lease.terminalReasonAt current with
        | some reason => (core, .terminal reason)
        | none =>
            match input.entropy, safeExpiry current readyReferenceTtlMs with
            | none, _ => (core, .answered (.error (fail .ipc .internalError)))
            | some _, none => (core, .answered (.error (fail .prepare .internalError)))
            | some (token, _), some expires =>
                let ready : ReadyTarget := {
                  targetToken := token, processGeneration := lease.generation, listenerEpoch := lease.epoch
                  issuedAtUnixMs := current, expiresAtUnixMs := expires }
                ((core.setLease index (lease.mintReference token current expires)).log
                  [.drew token, .decided who index (.targetReady ready) lease.generation lease.epoch current],
                  .answered (.ok ready))

/-- The lease becomes ready and the guard of the launch is dropped. -/
def commit (core : Core χ) (who : Nat) (r : Reservation) (prepared : Prepared χ) (completed expires : Nat) :
    Core χ × Option ReadyTarget :=
  match core.lease? r.index with
  | none => (core, none)
  | some lease =>
      if lease.key ≠ r.key ∨ lease.state ≠ .preparing then (core, none)
      else match (lease.references.lookup r.token).filter (·.state = .pending) with
        | none => (core, none)
        | some _ =>
            let ready : ReadyTarget := {
              targetToken := r.token, processGeneration := prepared.success.processGeneration
              listenerEpoch := prepared.success.listenerEpoch, issuedAtUnixMs := completed, expiresAtUnixMs := expires }
            ((core.onPlace r.index fun place => { place with
                lease := some (lease.commitLaunch r.token prepared.success completed expires)
                operations := place.operations.leave prepared.operation }).log
              [.decided who r.index (.targetReady ready) ready.processGeneration ready.listenerEpoch completed],
              some ready)

def rejectWithCleanup (core : Core χ) (r : Reservation) (reason : CloseReason) (cleanupFailed : Bool) : Core χ :=
  (core.onPlace r.index fun place => { place with lease := place.lease.map (·.reject r.token reason) }).tombstone r.key
    cleanupFailed

/-- The caller has gone: an abandoned launch has been cleaned up. -/
def reapLate (core : Core χ) (index : Nat) (key : PrepareKey) (cleanupFailed : Bool) : Core χ :=
  (core.onPlace index fun place => { place with
      lease := (place.lease.filter (·.state ≠ .stale)).map (·.staleReferences) }).tombstone key cleanupFailed

end Core

/-! ## Sessions -/

/-- The slot of the session that a token and an id name. -/
def matchedSessionSlot (lease : Lease χ) (token : Token) (sessionId : String) (stage : ErrorStage) (allowUnbound : Bool) :
    Except ControlFailure Nat :=
  match (lease.references.lookup token).filter (·.state = .consumed) with
  | none => .error (selectionFailure stage)
  | some reference =>
      match reference.sessionSlot with
      | none => .error (selectionFailure stage)
      | some slot =>
          if reference.sessionId.any (· ≠ sessionId) then .error (selectionFailure stage)
          else match lease.sessions.lookup slot with
            | none =>
                .error (if reference.sessionId = some sessionId then fail stage .stale else selectionFailure stage)
            | some session =>
                if session.id.any (· ≠ sessionId) then .error (selectionFailure stage)
                else if !allowUnbound && reference.sessionId.isNone then .error (selectionFailure stage)
                else .ok slot

structure SessionBinding where
  leaseId : LeaseId
  processGeneration : Nat
  listenerEpoch : Nat
  nkHandshakeHash : Digest
  deriving DecidableEq

def Lease.binding (lease : Lease χ) : SessionBinding :=
  { leaseId := lease.leaseId, processGeneration := lease.generation, listenerEpoch := lease.epoch
    nkHandshakeHash := lease.nkHash }

/-- What a request finds of the lease that its token names. -/
inductive Admission (α : Type) where
  | refused (failure : ControlFailure)
  | terminal (index : Nat) (reason : CloseReason)
  | admitted (index : Nat) (value : α)

/-- What a call finds of its lease when it comes back from raw I/O. -/
inductive Completion (α : Type) where
  | terminal (reason : CloseReason)
  | answered (answer : Except ControlFailure α)

structure Redemption where
  slot : Nat
  binding : SessionBinding
  operation : Nat

structure Borrowed where
  slot : Nat
  raw : Nat
  handoff : HandoffState
  operation : Nat

namespace Core

/-- Match-only open: answer from the session that is there. -/
def matchOpen (core : Core χ) (who : Nat) (token : Token) (id : String) (current : Nat) (input : Input χ) :
    Core χ × Admission ControlSuccess :=
  match core.leaseOf? token with
  | none => (core, .refused (core.tokenFailure .sessionOpen token))
  | some (index, lease) =>
      match lease.terminalReasonAt current with
      | some reason => (core, .terminal index reason)
      | none =>
          if lease.state ≠ .ready then (core, .refused (fail .sessionOpen .stale))
          else match matchedSessionSlot lease token id .sessionOpen false with
            | .error failure => (core, .refused failure)
            | .ok slot =>
                match (lease.sessions.lookup slot).filter fun session => session.id = some id && session.crypto with
                | none => (core, .refused (fail .sessionOpen .stale))
                | some session =>
                    match input.clock with
                    | none => (core, .refused (fail .ipc .internalError))
                    | some later =>
                        let opened : SessionOpened := {
                          targetToken := token, response := session.response, responseSha256 := session.responseDigest
                          processGeneration := lease.generation, listenerEpoch := lease.epoch, handoff := session.handoff }
                        ((core.setLease index { lease with lastClientActivity := later }).log
                          [.decided who index (.sessionOpened opened) lease.generation lease.epoch current],
                          .admitted index (.sessionOpened opened))

/-- Target-only open: the reference is redeemed once, before it expires. -/
def redeem (core : Core χ) (token : Token) (current deadline : Nat) : Core χ × Admission Redemption :=
  match core.leaseOf? token with
  | none => (core, .refused (core.tokenFailure .sessionOpen token))
  | some (index, lease) =>
      match lease.terminalReasonAt current with
      | some reason => (core, .terminal index reason)
      | none =>
          if lease.state ≠ .ready then (core, .refused (fail .sessionOpen .stale))
          else match (lease.references.lookup token).filter fun r => r.state = .minted && current < r.expires with
            | none => (core, .refused (fail .sessionOpen .stale))
            | some reference =>
                match (core.operations index).enter with
                | .error reason => (core, .refused (fail .sessionOpen reason))
                | .ok (operation, operations) =>
                    let left (lease : Lease χ) := core.setEntered index lease (operations.leave operation)
                    match checkedAdd lease.nextSession 1 with
                    | none =>
                        (left (lease.onReference token fun reference => { reference with state := .redeeming }),
                          .refused (fail .sessionOpen .internalError))
                    | some _ =>
                        if !lease.connector || !lease.pbs then
                          (left (lease.redeem token), .refused (fail .sessionHandshake .stale))
                        else match lease.deadlineFor deadline with
                          | .error failure => (left (lease.redeem token), .refused failure)
                          | .ok _ =>
                              ((core.setEntered index (lease.redeem token) operations).log
                                [.openSession index token lease.nextSession current reference.expires],
                                .admitted index { slot := lease.nextSession, binding := lease.binding, operation })

/-- The second section of open: the session is committed if its lease is still the one it
    was opened for. -/
def commitSession (core : Core χ) (who : Nat) (digests : Digests) (token : Token) (index : Nat) (redemption : Redemption)
    (result : Except TransportFailure OpenedSession) (input : Input χ) : Core χ × Completion ControlSuccess :=
  match input.clock with
  | none => (core, .answered (.error (fail .ipc .internalError)))
  | some completed =>
      match core.lease? index with
      | none => (core, .answered (.error (fail .sessionOpen .stale)))
      | some lease =>
          match lease.terminalReasonAt completed with
          | some reason =>
              (core.log (result.toOption.map fun opened => Event.cancelled opened.raw).toList, .terminal reason)
          | none =>
              match result with
              | .error error =>
                  (core.setLease index (lease.staleReference token), .answered (.error (transportFail .sessionOpen error)))
              | .ok opened =>
                  if lease.state ≠ .ready ∨ lease.binding ≠ redemption.binding then
                    ((core.setLease index (lease.staleReference token)).log [.cancelled opened.raw],
                      .answered (.error (fail .sessionOpen .stale)))
                  else match (lease.references.lookup token).filter fun r =>
                      r.state = .redeeming && r.sessionSlot = some redemption.slot with
                    | none => (core, .answered (.error (fail .sessionOpen .stale)))
                    | some _ =>
                        match input.second with
                        | none =>
                            (core.setLease index (lease.consume token),
                              .answered (.error (fail .ipc .internalError)))
                        | some last =>
                            let digest := digests.sha256 opened.response
                            let session : Session := {
                              id := none, raw := opened.raw, crypto := true, reader := true
                              response := opened.response, responseDigest := digest, handoff := opened.handoff, last }
                            let lease := (lease.consume token).insertSession redemption.slot session
                            match input.third with
                            | none =>
                                ((core.setLease index lease).log [.inserted index token redemption.slot],
                                  .answered (.error (fail .ipc .internalError)))
                            | some activity =>
                                let success : SessionOpened := {
                                  targetToken := token, response := opened.response, responseSha256 := digest
                                  processGeneration := lease.generation, listenerEpoch := lease.epoch
                                  handoff := opened.handoff }
                                ((core.setLease index { lease with lastClientActivity := activity }).log
                                  [.inserted index token redemption.slot,
                                    .decided who index (.sessionOpened success) lease.generation lease.epoch completed],
                                  .answered (.ok (.sessionOpened success)))

/-- Exchange and close take the session that their token and id name: they bind its id if
    it has none, and take its crypto state. Exchange takes the reader as well. -/
def borrow (core : Core χ) (stage : ErrorStage) (token : Token) (id : String) (generation epoch : Nat)
    (withReader : Bool) (current deadline : Nat) : Core χ × Admission Borrowed :=
  match core.leaseOf? token with
  | none => (core, .refused (core.tokenFailure stage token))
  | some (index, lease) =>
      match lease.terminalReasonAt current with
      | some reason => (core, .terminal index reason)
      | none =>
          if lease.state ≠ .ready ∨ lease.generation ≠ generation ∨ lease.epoch ≠ epoch then
            (core, .refused (fail stage .stale))
          else match matchedSessionSlot lease token id stage true with
            | .error failure => (core, .refused failure)
            | .ok slot =>
                match (core.operations index).enter with
                | .error reason => (core, .refused (fail stage reason))
                | .ok (operation, operations) =>
                    match lease.sessions.lookup slot, lease.references.lookup token with
                    | some session, some _ =>
                        let bound := lease.bindSession token slot id
                        let left (lease : Lease χ) := core.setEntered index lease (operations.leave operation)
                        if withReader && !session.reader then (left bound, .refused (fail stage .stale))
                        else
                          let read := bound.onSession slot fun session =>
                            { session with reader := session.reader && !withReader }
                          if !session.crypto then (left read, .refused (fail stage .stale))
                          else match lease.deadlineFor deadline with
                            | .error failure =>
                                (left (read.onSession slot fun session => { session with crypto := false }), .refused failure)
                            | .ok _ =>
                                (core.setEntered index (read.onSession slot fun session => { session with crypto := false })
                                    operations,
                                  .admitted index
                                    { slot, raw := session.raw, handoff := session.handoff, operation })
                    -- the `expect`s on the matched session and its reference
                    | _, _ => (core.log [.panicked], .refused (fail stage .internalError))

/-- The second section of exchange. -/
def completeExchange (core : Core χ) (who : Nat) (digests : Digests) (body : ExchangeBody) (index : Nat) (b : Borrowed)
    (result : Except TransportFailure Bytes) (input : Input χ) : Core χ × Completion ControlSuccess :=
  match core.lease? index with
  | none => (core, .answered (.error (fail .exchange .stale)))
  | some lease =>
      match input.clock with
      | none => (core, .answered (.error (fail .ipc .internalError)))
      | some completed =>
          match lease.terminalReasonAt completed with
          | some reason => (core.log [.cancelled b.raw], .terminal reason)
          | none =>
              if lease.state ≠ .ready ∨ lease.generation ≠ body.processGeneration ∨ lease.epoch ≠ body.listenerEpoch then
                (core.log [.cancelled b.raw], .answered (.error (fail .exchange .stale)))
              else match lease.sessions.lookup b.slot, result with
                | none, _ => (core, .answered (.error (fail .exchange .stale)))
                | some _, .ok message =>
                    match input.second with
                    | none =>
                        (core.setLease index (lease.giveBack b.slot), .answered (.error (fail .ipc .internalError)))
                    | some last =>
                        let complete : ExchangeComplete := {
                          targetToken := body.targetToken, sessionId := body.sessionId
                          processGeneration := lease.generation, listenerEpoch := lease.epoch, message
                          messageSha256 := digests.sha256 message, handoff := .handoffPossibleOrConfirmed }
                        ((core.setLease index ((lease.giveBack b.slot).used b.slot last)).log
                          [.decided who index (.exchangeComplete complete) body.processGeneration body.listenerEpoch
                            completed], .answered (.ok (.exchangeComplete complete)))
                | some _, .error error =>
                    if (lease.references.lookup body.targetToken).isNone then
                      -- the `expect` on the reference of the failed session
                      (core.log [.cancelled b.raw, .panicked], .answered (.error (fail .exchange .internalError)))
                    else
                      let named := (core.setLease index (lease.nameReference body.targetToken body.sessionId)).log
                        [.cancelled b.raw]
                      match input.second with
                      | none => (named, .answered (.error (fail .ipc .internalError)))
                      | some now =>
                          match sessionTombstoneExpires now with
                          | .error failure => (named, .answered (.error failure))
                          | .ok expires =>
                              ((core.setLease index
                                  (lease.removeSession body.targetToken body.sessionId expires b.slot)).log
                                [.cancelled b.raw], .answered (.error (transportFail .exchange error)))

/-- The second section of close: the session is gone, whatever the stream said. -/
def completeClose (core : Core χ) (who : Nat) (body : CloseSessionBody) (index : Nat) (b : Borrowed)
    (result : Except TransportFailure Unit) (input : Input χ) : Core χ × Completion ControlSuccess :=
  match input.clock with
  | none => (core, .answered (.error (fail .ipc .internalError)))
  | some completed =>
      match core.lease? index with
      | none => (core, .answered (.error (fail .close .stale)))
      | some lease =>
          match lease.terminalReasonAt completed with
          | some reason => (core.log [.cancelled b.raw], .terminal reason)
          | none =>
              if lease.state ≠ .ready ∨ lease.generation ≠ body.processGeneration ∨ lease.epoch ≠ body.listenerEpoch then
                (core, .answered (.error (fail .close .stale)))
              else match (lease.references.lookup body.targetToken).bind (·.sessionSlot) with
                | none => (core, .answered (.error (fail .close .stale)))
                | some slot =>
                    let named := core.setLease index (lease.nameReference body.targetToken body.sessionId)
                    match input.second with
                    | none => (named, .answered (.error (fail .ipc .internalError)))
                    | some now =>
                        match sessionTombstoneExpires now with
                        | .error failure => (named, .answered (.error failure))
                        | .ok expires =>
                            let gone := core.setLease index
                              (lease.removeSession body.targetToken body.sessionId expires slot)
                            match result with
                            | .ok () =>
                                let closed : Closed := {
                                  targetToken := body.targetToken, sessionId := some body.sessionId, handoff := b.handoff }
                                (gone.log
                                  [.decided who index (.closed closed) body.processGeneration body.listenerEpoch completed],
                                  .answered (.ok (.closed closed)))
                            | .error error => (gone, .answered (.error (transportFail .close error)))

end Core

/-! ## Maintenance -/

structure Due where
  sessions : List (Nat × Nat) := []
  leases : List Nat := []
  losses : List Nat := []
  heartbeats : List Nat := []

namespace Core

/-- What is due on one lease. -/
def dueOf (current index : Nat) (lease : Lease χ) : Due :=
  if lease.state ≠ .ready then {}
  else match lease.terminalReasonAt current with
    | some .brokerLost => { losses := [index] }
    | some _ => { leases := [index] }
    | none =>
        { sessions := (lease.sessions.entries.filter fun entry =>
            entry.2.crypto && expiredAt current entry.2.last sessionIdleMs).map fun entry => (index, entry.1)
          heartbeats := if expiredAt current lease.lastHeartbeatAttempt heartbeatIntervalMs then [index] else [] }

def appendDue (a b : Due) : Due :=
  { sessions := a.sessions ++ b.sessions, leases := a.leases ++ b.leases, losses := a.losses ++ b.losses
    heartbeats := a.heartbeats ++ b.heartbeats }

def scan (core : Core χ) (current : Nat) : Due :=
  (core.places.zipIdx.map fun (place, index) => (place.lease.map (dueOf current index)).getD {}).foldl appendDue {}

/-- The first section of an idle end takes the crypto state of the session. -/
def expire (core : Core χ) (index slot : Nat) : Core χ × Except ControlFailure (Borrowed × Option String) :=
  match (core.lease? index).filter (·.state = .ready) with
  | none => (core, .error (fail .close .stale))
  | some lease =>
      match (lease.sessions.lookup slot).filter (·.crypto) with
      | none => (core, .error (fail .close .stale))
      | some session =>
          match (core.operations index).enter with
          | .error reason => (core, .error (fail .close reason))
          | .ok (operation, operations) =>
              (core.setEntered index (lease.onSession slot fun session => { session with crypto := false }) operations,
                .ok ({ slot, raw := session.raw, handoff := session.handoff, operation }, session.id))

/-- The second section: the reference keeps the id of the session that is gone. -/
def completeExpire (core : Core χ) (index : Nat) (b : Borrowed) (id : Option String) (input : Input χ) :
    Core χ × Except ControlFailure Unit :=
  match core.lease? index with
  | none => (core, .ok ())
  | some lease =>
      match id, (lease.references.entries.find? fun entry => entry.2.sessionSlot = some b.slot).map Sigma.fst with
      | some id, some token =>
          let named := core.setLease index (lease.nameReference token id)
          match input.clock with
          | none => (named, .error (fail .ipc .internalError))
          | some now =>
              match sessionTombstoneExpires now with
              | .error failure => (named, .error failure)
              | .ok expires => (core.setLease index (lease.removeSession token id expires b.slot), .ok ())
      | _, _ => (core.setLease index { lease with sessions := lease.sessions.erase b.slot }, .ok ())

end Core

/-! ## Heartbeats -/

structure Probe (χ : Type) where
  crypto : χ
  counter : Nat
  misses : Nat
  operation : Nat

namespace Core

/-- A heartbeat takes the control stream of a ready lease. -/
def takeControl (core : Core χ) (index deadline : Nat) : Core χ × Except ControlFailure (Probe χ) :=
  match (core.lease? index).filter (·.state = .ready) with
  | none => (core, .error (fail .close .stale))
  | some lease =>
      match (core.operations index).enter with
      | .error reason => (core, .error (fail .close reason))
      | .ok (operation, operations) =>
          let left (lease : Lease χ) := core.setEntered index lease (operations.leave operation)
          if lease.control.isNone ∨ !lease.controlReader then (left lease, .error (fail .close .stale))
          else match lease.leaseCrypto with
            | none => (left { lease with controlReader := false }, .error (fail .close .stale))
            | some crypto =>
                let taken := { lease with controlReader := false, leaseCrypto := none }
                match lease.deadlineFor deadline with
                | .error failure => (left taken, .error failure)
                | .ok _ =>
                    (core.setEntered index taken operations,
                      .ok { crypto, counter := lease.heartbeatCounter, misses := lease.heartbeatMisses, operation })

/-- A heartbeat that failed for another reason than time gives the control stream back. -/
def faultHeartbeat (core : Core χ) (index : Nat) (crypto : χ) (error : TransportFailure) : Core χ × Bool :=
  match core.lease? index with
  | none => (core, false)
  | some lease =>
      if lease.state = .ready then
        (core.setLease index { lease.giveControlBack crypto with
          handoff := if lease.handoff = .handoffPossibleOrConfirmed ∨ error.handoff = .handoffPossibleOrConfirmed then
            .handoffPossibleOrConfirmed else .notHandedOff }, true)
      else (core, true)

def succeedHeartbeat (core : Core χ) (index : Nat) (crypto : χ) (counter : Nat) (input : Input χ) :
    Core χ × Completion Bool :=
  match (core.lease? index).filter (·.state = .ready) with
  | none => (core, .answered (.error (fail .close .stale)))
  | some lease =>
      let back := lease.giveControlBack crypto
      match input.clock with
      | none => (core.setLease index back, .answered (.error (fail .ipc .internalError)))
      | some completed =>
          match lease.terminalReasonAt completed with
          | some reason => (core.setLease index back, .terminal reason)
          | none =>
              let beaten := { back with
                lastHeartbeatSuccess := completed, lastHeartbeatAttempt := completed, heartbeatMisses := 0 }
              match checkedAdd counter 1 with
              | none => (core.setLease index beaten, .answered (.error (fail .close .internalError)))
              | some next => (core.setLease index { beaten with heartbeatCounter := next }, .answered (.ok true))

/-- The fourth miss in a row is the loss of the Broker. -/
def missHeartbeat (core : Core χ) (index : Nat) (crypto : χ) (deadline : Nat) : Core χ × Completion Bool :=
  match (core.lease? index).filter (·.state = .ready) with
  | none => (core, .answered (.error (fail .close .stale)))
  | some lease =>
      (core.setLease index (lease.miss crypto deadline),
        if heartbeatLost (lease.miss crypto deadline).heartbeatMisses then .terminal .brokerLost
        else .answered (.ok false))

end Core

/-! ## The end of a lease -/

inductive Sealing where
  | absent
  | follower
  | owner (key : PrepareKey) (links : List Nat)

structure ReapWork (χ : Type) where
  raw : Option Nat
  crypto : Option χ
  cleanup : Bool
  cleanupAlreadyFailed : Bool
  terminalAlreadyFailed : Bool
  staleTokens : List (Token × Nat)

namespace Core

/-- The section that seals a lease: the first caller becomes the terminal owner. -/
def sealLease (core : Core χ) (who index : Nat) (reason : CloseReason) (expires : Nat) : Core χ × Sealing :=
  match core.lease? index with
  | none => (core, .absent)
  | some lease =>
      if !(core.operations index).accepting then (core, .follower)
      else
        ((core.onPlace index fun place => { place with
            lease := some (lease.terminalize reason expires)
            operations := { place.operations with accepting := false } }).log [.beginClose index who],
          .owner lease.key (lease.sessions.entries.map (·.2.raw) ++ lease.control.toList))

/-- The first section of the terminal reaper takes the receipt and the control stream. -/
def takeReap (core : Core χ) (index : Nat) (key : PrepareKey) : Core χ × Except CloseReason (ReapWork χ) :=
  match core.lease? index with
  | none => (core, .error .stale)
  | some lease =>
      if lease.key ≠ key ∨ lease.state ≠ .closing then (core, .error .stale)
      else
        let failed : Bool := core.failed.lookup key.selection = some (key.digest, .cleanupFailed)
        (core.setLease index { lease with control := none, leaseCrypto := none, cleanup := false },
          .ok {
            raw := lease.control, crypto := lease.leaseCrypto, cleanup := lease.cleanup
            cleanupAlreadyFailed := lease.terminalCleanupFailed, terminalAlreadyFailed := failed
            staleTokens := lease.references.entries.map fun entry => (entry.1, entry.2.expires) })

/-- The second section of the terminal reaper empties the slot. -/
def emptySlot (core : Core χ) (index : Nat) (key : PrepareKey) (tokens : List (Token × Nat))
    (result : Except CloseReason Unit) : Core χ :=
  ({ core with
      staleTokens := tokens.foldl (fun (stale : Dict Token Nat) entry => stale.insert entry.1 entry.2) core.staleTokens
      : Core χ }.onPlace index fun place => { place with
    lease := place.lease.filter fun lease => !(lease.key = key && lease.state = .closing) }).tombstone key (result matches .error _)

end Core

end AppPilotKit.Broker
