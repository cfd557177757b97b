import AppPilotKit.Transport.Noise

/-! # Protocol sessions

`TargetSession` is the NNpsk0 initiator and can only receive the first
application message; `BrokerSession` is the responder and can only send it.
Both wrap one `SessionCore`. A method takes the state before the call and
returns its result together with the state after it, also when it fails.
-/

namespace AppPilotKit.Transport

open Wire

structure SessionLimits where
  requestBytes : Nat := 16 * 1024 * 1024
  responseBytes : Nat := 64 * 1024 * 1024
  firstOpenBytes : Nat := 64 * 1024
  deriving Repr, DecidableEq

structure SessionBinding where
  leaseId : FixedBytes 16
  processGeneration : Nat
  listenerEpoch : Nat
  nkHandshakeHash : FixedBytes 32
  deriving DecidableEq

def jsonSafeMax : Nat := 9007199254740991

def SessionBinding.valid (b : SessionBinding) : Bool :=
  (1 ≤ b.processGeneration && b.processGeneration ≤ jsonSafeMax)
    && (1 ≤ b.listenerEpoch && b.listenerEpoch ≤ jsonSafeMax)

def sessionPrologue (binding : SessionBinding) (limits : SessionLimits) : Except Error Bytes :=
  if binding.valid then
    .ok (Cbor.array 12 ++ Cbor.str "apppilotkit.transport" ++ Cbor.uint 1 ++ Cbor.str "session"
      ++ Cbor.uint 0 ++ Cbor.uint 1 ++ Cbor.bytes binding.leaseId.bytes ++ Cbor.uint binding.processGeneration
      ++ Cbor.uint binding.listenerEpoch ++ Cbor.uint limits.requestBytes ++ Cbor.uint limits.responseBytes
      ++ Cbor.uint 8192 ++ Cbor.bytes binding.nkHandshakeHash.bytes)
  else .error (.new .bindingMismatch)

/-- The canonical Finished payload. -/
def finished (binding : SessionBinding) (role : Nat) (sessionHash : FixedBytes 32) : Bytes :=
  Cbor.map 6 ++ Cbor.uint 0 ++ Cbor.uint 1 ++ Cbor.uint 1 ++ Cbor.uint role ++ Cbor.uint 2
    ++ Cbor.bytes binding.leaseId.bytes ++ Cbor.uint 3 ++ Cbor.uint binding.processGeneration
    ++ Cbor.uint 4 ++ Cbor.uint binding.listenerEpoch ++ Cbor.uint 5 ++ Cbor.bytes sessionHash.bytes

/-- Read a byte string of a fixed length. -/
def readFixed (n : Nat) (b : Bytes) : Except Error (FixedBytes n × Bytes) := do
  let (value, rest) ← decoded (Cbor.readBytes b)
  match FixedBytes.ofBytes? n value with
  | some value => pure (value, rest)
  | none => throw (.new .malformed)

def parseFinished (b : Bytes) (binding : SessionBinding) (sessionHash : FixedBytes 32) : Except Error Nat := do
  let rest ← expectMap 6 b
  let rest ← expectU8 0 rest
  let rest ← expectU8 1 rest
  let rest ← expectU8 1 rest
  let (role, rest) ← decoded (Cbor.readU8 rest)
  let rest ← expectU8 2 rest
  let (leaseId, rest) ← readFixed 16 rest
  if leaseId ≠ binding.leaseId then throw (.new .bindingMismatch)
  let rest ← expectU8 3 rest
  let (generation, rest) ← decoded (Cbor.readU64 rest)
  if generation ≠ binding.processGeneration then throw (.new .bindingMismatch)
  let rest ← expectU8 4 rest
  let (epoch, rest) ← decoded (Cbor.readU64 rest)
  if epoch ≠ binding.listenerEpoch then throw (.new .bindingMismatch)
  let rest ← expectU8 5 rest
  let (hash, rest) ← readFixed 32 rest
  if hash ≠ sessionHash then throw (.new .bindingMismatch)
  if rest ≠ [] ∨ finished binding role sessionHash ≠ b then throw (.new .malformed)
  if role = 0 ∨ role = 1 then pure role else throw (.new .malformed)

structure SessionCore (H T : Type) where
  handshake : Option H
  transport : Option T
  binding : SessionBinding
  sessionHash : Option (FixedBytes 32)
  limits : SessionLimits
  reassembly : RecordReassembler
  sentFinished : Bool
  gotFinished : Bool
  peerTurn : Bool
  firstApplication : Bool
  closed : Bool
  sentRecords : Nat
  sentPlaintext : Nat
  receivedRecords : Nat
  receivedPlaintext : Nat
  handoff : HandoffState

namespace SessionCore

variable {R H T : Type}

def closeState (c : SessionCore H T) : SessionCore H T :=
  { c with closed := true, transport := none, handshake := none, reassembly := c.reassembly.clear,
           sessionHash := none }

/-- Every failed call ends the session. -/
def finishResult {α : Type} : Except Error α × SessionCore H T → Except Error α × SessionCore H T
  | (.error error, c) => (.error error, c.closeState)
  | (.ok value, c) => (.ok value, c)

def new (noise : Noise R H T) (entropy : R) (binding : SessionBinding) (pbs : FixedBytes 32)
    (initiator : Bool) (inboundCap : Nat) (peerTurn : Bool) : Except Error (SessionCore H T) := do
  let limits : SessionLimits := {}
  let prologue ← sessionPrologue binding limits
  let handshake ← core (if initiator then noise.pskInitiator entropy pbs.bytes prologue
    else noise.pskResponder entropy pbs.bytes prologue)
  let reassembly ← RecordReassembler.new inboundCap
  pure {
    handshake := some handshake, transport := none, binding, sessionHash := none, limits, reassembly
    sentFinished := false, gotFinished := false, peerTurn, firstApplication := false, closed := false
    sentRecords := 0, sentPlaintext := 0, receivedRecords := 0, receivedPlaintext := 0
    handoff := .notHandedOff
  }

def writeHandshake (noise : Noise R H T) (c : SessionCore H T) (payload : Bytes) :
    Except Error Bytes × SessionCore H T :=
  match c.handshake with
  | none => (.error (.new .sequenceViolation), c)
  | some state =>
      match noise.writeHandshakeFrame state payload with
      | .error error => (.error error, c)
      | .ok (frame, state) => (.ok frame, { c with handshake := some state })

def readHandshake (noise : Noise R H T) (c : SessionCore H T) (outer : Bytes) :
    Except Error Unit × SessionCore H T :=
  match c.handshake with
  | none => (.error (.new .sequenceViolation), c)
  | some state =>
      match noise.readHandshakeFrame state outer with
      | .error error => (.error error, c)
      | .ok (payload, state) =>
          let c := { c with handshake := some state }
          if payload.isEmpty then (.ok (), c) else (.error (.new .authenticationFailed), c)

def finishHandshake (noise : Noise R H T) (c : SessionCore H T) : Except Error Unit × SessionCore H T :=
  match c.handshake with
  | none => (.error (.new .sequenceViolation), c)
  | some state =>
      let c := { c with handshake := none, sessionHash := some (noise.handshakeHash state) }
      match core (noise.intoTransport state) with
      | .error error => (.error error, c)
      | .ok transport => (.ok (), { c with transport := some transport })

def readHandshakeFinish (noise : Noise R H T) (c : SessionCore H T) (outer : Bytes) :
    Except Error Unit × SessionCore H T :=
  match c.readHandshake noise outer with
  | (.error error, c) => (.error error, c)
  | (.ok (), c) => c.finishHandshake noise

/-- The transport of an open session. -/
def openTransport (c : SessionCore H T) : Except Error T :=
  if c.closed then .error (.new .sequenceViolation)
  else
    match c.transport with
    | some transport => .ok transport
    | none => .error (.new .sequenceViolation)

/-- Encrypt one plaintext with the transport of an open session. -/
def encrypt (noise : Noise R H T) (c : SessionCore H T) (plaintext : Bytes) :
    Except Error Bytes × SessionCore H T :=
  match c.openTransport with
  | .error error => (.error error, c)
  | .ok transport =>
      match noise.encryptTransport transport plaintext with
      | .error error => (.error error, c)
      | .ok (frame, transport) => (.ok frame, { c with transport := some transport })

/-- The totals the limits are checked against: with room for one Close, or as they are. -/
def withReserve (c : SessionCore H T) (reserveClose : Bool) (nextRecords nextBytes : Nat) :
    Except Error (Option Nat × Option Nat) :=
  if reserveClose then
    (limitClosePlaintext c.handoff).map fun close =>
      (checkedAdd nextRecords 1, checkedAdd nextBytes close.length)
  else .ok (some nextRecords, some nextBytes)

/-- The counters after sending, when the limits allow it. -/
def sendUsageAfter (c : SessionCore H T) (additionalRecords additionalBytes : Nat) (reserveClose : Bool) :
    Except Error (Option (Nat × Nat)) :=
  match checkedAdd c.sentRecords additionalRecords, checkedAdd c.sentPlaintext additionalBytes with
  | some nextRecords, some nextBytes =>
      match c.withReserve reserveClose nextRecords nextBytes with
      | .error error => .error error
      | .ok (some records, some bytes) =>
          if records ≥ recordLimit ∨ bytes ≥ byteLimit then .ok none else .ok (some (nextRecords, nextBytes))
      | .ok _ => .ok none
  | _, _ => .ok none

/-- The reserved Close of a session that reached a limit; `none` when the
    counters or the transport leave no room for it. -/
def limitCloseFrame (noise : Noise R H T) (c : SessionCore H T) (handoff : HandoffState) :
    Option Bytes × SessionCore H T :=
  match limitClosePlaintext handoff with
  | .error _ => (none, c)
  | .ok plaintext =>
      match c.sendUsageAfter 1 plaintext.length false with
      | .error _ | .ok none => (none, c)
      | .ok (some (nextRecords, nextBytes)) =>
          match c.encrypt noise plaintext with
          | (.error _, c) => (none, c)
          | (.ok frame, c) => (some frame, { c with sentRecords := nextRecords, sentPlaintext := nextBytes })

def recordLimitErrorWithHandoff (noise : Noise R H T) (c : SessionCore H T) (handoff : HandoffState) :
    Error × SessionCore H T :=
  let (closeFrame, c) := c.limitCloseFrame noise handoff
  (.recordLimit closeFrame, c.closeState)

def recordLimitError (noise : Noise R H T) (c : SessionCore H T) : Error × SessionCore H T :=
  c.recordLimitErrorWithHandoff noise c.handoff

def encryptCounted (noise : Noise R H T) (c : SessionCore H T) (plaintext : Bytes) :
    Except Error Bytes × SessionCore H T :=
  match c.sendUsageAfter 1 plaintext.length true with
  | .error error => (.error error, c)
  | .ok none =>
      let (error, c) := c.recordLimitError noise
      (.error error, c)
  | .ok (some (nextRecords, nextBytes)) =>
      match c.encrypt noise plaintext with
      | (.error error, c) => (.error error, c)
      | (.ok frame, c) => (.ok frame, { c with sentRecords := nextRecords, sentPlaintext := nextBytes })

def decryptCounted (noise : Noise R H T) (c : SessionCore H T) (outer : Bytes) :
    Except Error Bytes × SessionCore H T :=
  match c.openTransport with
  | .error error => (.error error, c)
  | .ok transport =>
      match noise.decryptTransport transport outer with
      | .error error => (.error error, c)
      | .ok (plaintext, transport) =>
          let c := { c with transport := some transport }
          match checkedAdd c.receivedRecords 1, checkedAdd c.receivedPlaintext plaintext.length with
          | some records, some bytes =>
              if records ≥ recordLimit ∨ bytes ≥ byteLimit then
                let (error, c) := c.recordLimitError noise
                (.error error, c)
              else (.ok plaintext, { c with receivedRecords := records, receivedPlaintext := bytes })
          | _, _ =>
              let (error, c) := c.recordLimitError noise
              (.error error, c)

/-- Decrypt one outer frame and decode the record in it. -/
def readRecord (noise : Noise R H T) (c : SessionCore H T) (outer : Bytes) :
    Except Error Record × SessionCore H T :=
  match c.decryptCounted noise outer with
  | (.error error, c) => (.error error, c)
  | (.ok plaintext, c) => (Record.decode plaintext, c)

def writeRecord (noise : Noise R H T) (c : SessionCore H T) (kind : RecordKind) (payload : Bytes) :
    Except Error Bytes × SessionCore H T :=
  match completeRecord kind payload with
  | .error error => (.error error, c)
  | .ok record =>
      match record.encode with
      | .error error => (.error error, c)
      | .ok plaintext => c.encryptCounted noise plaintext

def writeFinished (noise : Noise R H T) (c : SessionCore H T) (role : Nat) :
    Except Error Bytes × SessionCore H T :=
  if c.sentFinished then (.error (.new .sequenceViolation), c)
  else
    match c.sessionHash with
    | none => (.error (.new .sequenceViolation), c)
    | some hash =>
        match c.writeRecord noise .finished (finished c.binding role hash) with
        | (.error error, c) => (.error error, c)
        | (.ok frame, c) => (.ok frame, { c with sentFinished := true })

def readFinished (noise : Noise R H T) (c : SessionCore H T) (outer : Bytes) (role : Nat) :
    Except Error Unit × SessionCore H T :=
  if c.gotFinished then (.error (.new .authenticationFailed), { c with closed := true })
  else
    match c.sessionHash with
    | none => (.error (.new .sequenceViolation), c)
    | some expectedHash =>
        match c.readRecord noise outer with
        | (.error error, c) => (.error error, c)
        | (.ok record, c) =>
            match validateCompleteRecord record .finished with
            | .error error => (.error error, c)
            | .ok () =>
                match parseFinished record.data c.binding expectedHash with
                | .error error => (.error error, c)
                | .ok received =>
                    if received ≠ role then (.error (.new .authenticationFailed), c)
                    else (.ok (), { c with gotFinished := true })

/-- Encrypt the fragments of one message in order. -/
def encryptAll (noise : Noise R H T) : SessionCore H T → List Bytes → Except Error (List Bytes) × SessionCore H T
  | c, [] => (.ok [], c)
  | c, plaintext :: rest =>
      match c.encrypt noise plaintext with
      | (.error error, c) => (.error error, c)
      | (.ok frame, c) =>
          match encryptAll noise c rest with
          | (.error error, c) => (.error error, c)
          | (.ok frames, c) => (.ok (frame :: frames), c)

/-- The plaintext bytes of a message, unless they overflow. -/
def messageBytes (plaintexts : List Bytes) : Option Nat :=
  plaintexts.foldlM (fun total plaintext => checkedAdd total plaintext.length) 0

def writeApplication (noise : Noise R H T) (c : SessionCore H T) (payload : Bytes) (cap : Nat) :
    Except Error (List Bytes) × SessionCore H T :=
  if !c.sentFinished || !c.gotFinished || c.peerTurn || payload.isEmpty then
    (.error (.new .sequenceViolation), c)
  else if payload.length > cap then (.error (.new .oversize), c)
  else
    match fragmentRecords .application payload with
    | .error error => (.error error, c)
    | .ok plaintexts =>
        let usage := match messageBytes plaintexts with
          | some bytes => c.sendUsageAfter plaintexts.length bytes true
          | none => .ok none
        match usage with
        | .error error => (.error error, c)
        | .ok none =>
            let (error, c) := c.recordLimitError noise
            (.error error, c)
        | .ok (some (nextRecords, nextBytes)) =>
            match c.encryptAll noise plaintexts with
            | (.error error, c) => (.error error, c)
            | (.ok frames, c) =>
                (.ok frames,
                  { c with sentRecords := nextRecords, sentPlaintext := nextBytes, peerTurn := true })

def readApplication (noise : Noise R H T) (c : SessionCore H T) (outer : Bytes) :
    Except Error (Option Bytes) × SessionCore H T :=
  if !c.sentFinished || !c.gotFinished then (.error (.new .sequenceViolation), c)
  else
    match c.readRecord noise outer with
    | (.error error, c) => (.error error, c)
    | (.ok record, c) =>
        if record.kind = .close then
          match validateCompleteRecord record .close with
          | .error error => (.error error, c)
          | .ok () =>
              match parseClose record.data with
              | .error error => (.error error, c)
              | .ok (reason, handoff) => (.error (.ofPeerClose reason handoff), { c with closed := true })
        else if !c.peerTurn then (.error (.new .sequenceViolation), c)
        else if record.kind ≠ .application then (.error (.new .sequenceViolation), c)
        else
          match c.reassembly.accept record with
          | (.error error, reassembly) => (.error error, { c with reassembly })
          | (.ok none, reassembly) => (.ok none, { c with reassembly })
          | (.ok (some (_, bytes)), reassembly) =>
              let c := { c with reassembly }
              if bytes.isEmpty then (.error (.new .malformed), c)
              else (.ok (some bytes), { c with peerTurn := false })

def eof (c : SessionCore H T) : Except Error Unit × SessionCore H T :=
  if c.closed then (.error (.new .sequenceViolation), c)
  else
    match c.reassembly.eof with
    | (.error error, reassembly) => (.error error, { c with reassembly }.closeState)
    | (.ok (), reassembly) => (.error (.new .peerClosed), { c with reassembly }.closeState)

/-- What `read_close` and `write_close` leave behind: the hash stays. -/
def endSession (c : SessionCore H T) : SessionCore H T :=
  { c with closed := true, transport := none, handshake := none, reassembly := c.reassembly.clear }

def readClose (noise : Noise R H T) (c : SessionCore H T) (outer : Bytes) :
    Except Error (CloseReason × HandoffState) × SessionCore H T :=
  if !c.sentFinished || !c.gotFinished then (.error (.new .sequenceViolation), c)
  else
    match c.readRecord noise outer with
    | (.error error, c) => (.error error, c)
    | (.ok record, c) =>
        match validateCompleteRecord record .close with
        | .error error => (.error error, c)
        | .ok () =>
            match parseClose record.data with
            | .error error => (.error error, c)
            | .ok close => (.ok close, c.endSession)

def writeClose (noise : Noise R H T) (c : SessionCore H T) (reason : CloseReason) (handoff : HandoffState) :
    Except Error Bytes × SessionCore H T :=
  let effectiveHandoff := c.handoff.conservativeMax handoff
  match completeRecord .close (closePayload reason effectiveHandoff) with
  | .error error => (.error error, c)
  | .ok record =>
      match record.encode with
      | .error error => (.error error, c)
      | .ok plaintext =>
          match c.sendUsageAfter 1 plaintext.length false with
          | .error error => (.error error, c)
          | .ok none =>
              let (error, c) := c.recordLimitErrorWithHandoff noise effectiveHandoff
              (.error error, c)
          | .ok (some (nextRecords, nextBytes)) =>
              match c.encrypt noise plaintext with
              | (.error error, c) => (.error error, c)
              | (.ok frame, c) =>
                  (.ok frame, { c with sentRecords := nextRecords, sentPlaintext := nextBytes }.endSession)

def validateBinding (c : SessionCore H T) (processGeneration listenerEpoch : Nat) :
    Except Error Unit × SessionCore H T :=
  if processGeneration ≠ c.binding.processGeneration ∨ listenerEpoch ≠ c.binding.listenerEpoch then
    (.error (.new .bindingMismatch), c.closeState)
  else (.ok (), c)

end SessionCore

/-- Target-only NNpsk0 initiator. -/
structure TargetSession (H T : Type) where
  core : SessionCore H T

/-- Broker-only NNpsk0 responder. -/
structure BrokerSession (H T : Type) where
  core : SessionCore H T

namespace TargetSession

variable {R H T : Type}

/-- Wrap the core a method leaves behind. -/
def wrap {α : Type} (r : Except Error α × SessionCore H T) : Except Error α × TargetSession H T := (r.1, ⟨r.2⟩)

def new (noise : Noise R H T) (entropy : R) (binding : SessionBinding) (pbs : FixedBytes 32) :
    Except Error (TargetSession H T) :=
  (SessionCore.new noise entropy binding pbs true ({} : SessionLimits).firstOpenBytes true).map (⟨·⟩)

def writeM1 (noise : Noise R H T) (s : TargetSession H T) : Except Error Bytes × TargetSession H T :=
  wrap (SessionCore.finishResult (s.core.writeHandshake noise []))

def readM2 (noise : Noise R H T) (s : TargetSession H T) (outer : Bytes) :
    Except Error Unit × TargetSession H T :=
  wrap (SessionCore.finishResult (s.core.readHandshakeFinish noise outer))

def writeFinished (noise : Noise R H T) (s : TargetSession H T) : Except Error Bytes × TargetSession H T :=
  wrap (SessionCore.finishResult (s.core.writeFinished noise 0))

def readFinished (noise : Noise R H T) (s : TargetSession H T) (outer : Bytes) :
    Except Error Unit × TargetSession H T :=
  wrap (SessionCore.finishResult
    (if !s.core.sentFinished then (.error (.new .sequenceViolation), s.core)
    else s.core.readFinished noise outer 1))

/-- The first delivered message records the handoff and raises the inbound cap;
    a cap that cannot be raised returns before `finish_result`. -/
def readApplication (noise : Noise R H T) (s : TargetSession H T) (outer : Bytes) :
    Except Error (Option Bytes) × TargetSession H T :=
  match s.core.readApplication noise outer with
  | (.ok (some bytes), c) =>
      let c := { c with handoff := .handoffPossibleOrConfirmed }
      if c.firstApplication then wrap (.ok (some bytes), c)
      else
        match c.reassembly.setCap c.limits.requestBytes with
        | (.error error, reassembly) => wrap (.error error, { c with firstApplication := true, reassembly })
        | (.ok (), reassembly) => wrap (.ok (some bytes), { c with firstApplication := true, reassembly })
  | result => wrap (SessionCore.finishResult result)

def eof (s : TargetSession H T) : Except Error Unit × TargetSession H T := wrap s.core.eof

def writeApplicationResponse (noise : Noise R H T) (s : TargetSession H T) (payload : Bytes) :
    Except Error (List Bytes) × TargetSession H T :=
  wrap (SessionCore.finishResult
    (if !s.core.firstApplication then (.error (.new .sequenceViolation), s.core)
    else s.core.writeApplication noise payload s.core.limits.responseBytes))

def writeClose (noise : Noise R H T) (s : TargetSession H T) (reason : CloseReason) (handoff : HandoffState) :
    Except Error Bytes × TargetSession H T :=
  wrap (SessionCore.finishResult (s.core.writeClose noise reason handoff))

def readClose (noise : Noise R H T) (s : TargetSession H T) (outer : Bytes) :
    Except Error (CloseReason × HandoffState) × TargetSession H T :=
  wrap (SessionCore.finishResult (s.core.readClose noise outer))

def validateBinding (s : TargetSession H T) (processGeneration listenerEpoch : Nat) :
    Except Error Unit × TargetSession H T :=
  wrap (s.core.validateBinding processGeneration listenerEpoch)

end TargetSession

namespace BrokerSession

variable {R H T : Type}

def wrap {α : Type} (r : Except Error α × SessionCore H T) : Except Error α × BrokerSession H T := (r.1, ⟨r.2⟩)

def new (noise : Noise R H T) (entropy : R) (binding : SessionBinding) (pbs : FixedBytes 32) :
    Except Error (BrokerSession H T) :=
  (SessionCore.new noise entropy binding pbs false ({} : SessionLimits).responseBytes false).map (⟨·⟩)

def readM1WriteM2 (noise : Noise R H T) (s : BrokerSession H T) (outer : Bytes) :
    Except Error Bytes × BrokerSession H T :=
  wrap (SessionCore.finishResult
    (match s.core.readHandshake noise outer with
    | (.error error, c) => (.error error, c)
    | (.ok (), c) =>
        match c.writeHandshake noise [] with
        | (.error error, c) => (.error error, c)
        | (.ok message, c) =>
            match c.finishHandshake noise with
            | (.error error, c) => (.error error, c)
            | (.ok (), c) => (.ok message, c)))

def writeFinished (noise : Noise R H T) (s : BrokerSession H T) : Except Error Bytes × BrokerSession H T :=
  wrap (SessionCore.finishResult
    (if !s.core.gotFinished then (.error (.new .sequenceViolation), s.core)
    else s.core.writeFinished noise 1))

def readFinished (noise : Noise R H T) (s : BrokerSession H T) (outer : Bytes) :
    Except Error Unit × BrokerSession H T :=
  wrap (SessionCore.finishResult (s.core.readFinished noise outer 0))

/-- A message that was handed to the transport may have been dispatched. -/
def noteHandoff : Except Error (List Bytes) × SessionCore H T → Except Error (List Bytes) × SessionCore H T
  | (.ok frames, c) => (.ok frames, { c with handoff := .handoffPossibleOrConfirmed })
  | (.error error, c) => (.error error, c)

def writeSessionOpen (noise : Noise R H T) (s : BrokerSession H T) (payload : Bytes) :
    Except Error (List Bytes) × BrokerSession H T :=
  wrap (SessionCore.finishResult (noteHandoff
    (if s.core.firstApplication || payload.isEmpty then (.error (.new .sequenceViolation), s.core)
    else if payload.length > s.core.limits.firstOpenBytes then (.error (.new .oversize), s.core)
    else { s.core with firstApplication := true }.writeApplication noise payload s.core.limits.requestBytes)))

def writeApplicationRequest (noise : Noise R H T) (s : BrokerSession H T) (payload : Bytes) :
    Except Error (List Bytes) × BrokerSession H T :=
  wrap (SessionCore.finishResult (noteHandoff
    (if !s.core.firstApplication then (.error (.new .sequenceViolation), s.core)
    else s.core.writeApplication noise payload s.core.limits.requestBytes)))

def readApplicationResponse (noise : Noise R H T) (s : BrokerSession H T) (outer : Bytes) :
    Except Error (Option Bytes) × BrokerSession H T :=
  wrap (SessionCore.finishResult (s.core.readApplication noise outer))

def eof (s : BrokerSession H T) : Except Error Unit × BrokerSession H T := wrap s.core.eof

def writeClose (noise : Noise R H T) (s : BrokerSession H T) (reason : CloseReason) (handoff : HandoffState) :
    Except Error Bytes × BrokerSession H T :=
  wrap (SessionCore.finishResult (s.core.writeClose noise reason handoff))

def readClose (noise : Noise R H T) (s : BrokerSession H T) (outer : Bytes) :
    Except Error (CloseReason × HandoffState) × BrokerSession H T :=
  wrap (SessionCore.finishResult (s.core.readClose noise outer))

def validateBinding (s : BrokerSession H T) (processGeneration listenerEpoch : Nat) :
    Except Error Unit × BrokerSession H T :=
  wrap (s.core.validateBinding processGeneration listenerEpoch)

end BrokerSession

end AppPilotKit.Transport
