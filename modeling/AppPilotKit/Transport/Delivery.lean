import AppPilotKit.Lib.Runs
import AppPilotKit.Transport.Refinement
import AppPilotKit.Transport.BudgetRuns

/-! # Authenticated delivery between the two sessions

A link is a Target and a Broker session together with the ciphertexts each has
handed out. Any call may be made on either side at any time, and a read may be
given any bytes: what the network drops, repeats, reorders, injects or
truncates is a choice of those bytes.
-/

namespace AppPilotKit.Transport

open Wire SessionCore

variable {R H : Type}

/-- The payload a successful call has sent. -/
def TargetCall.wrote : TargetCall → Except Error Reply → Option Bytes
  | .writeApplicationResponse payload, .ok _ => some payload
  | _, _ => none

/-- The application message a call has returned. -/
def TargetCall.delivered : TargetCall → Except Error Reply → Option Bytes
  | .readApplication _, .ok (.message message) => message
  | _, _ => none

def BrokerCall.wrote : BrokerCall → Except Error Reply → Option Bytes
  | .writeSessionOpen payload, .ok _ => some payload
  | .writeApplicationRequest payload, .ok _ => some payload
  | _, _ => none

def BrokerCall.delivered : BrokerCall → Except Error Reply → Option Bytes
  | .readApplicationResponse _, .ok (.message message) => message
  | _, _ => none

section Calls

variable {aead : IdealAead} {side : Side} {peer : List Bytes} {handshakes : Noise R H Unit}
  {c c' : SessionCore H AeadState}

/-- A reply without frames hands out only what an error carries. -/
theorem framesOf_silent {α : Type} (f : α → Reply) (silent : ∀ value, replyFrames (f value) = [])
    (r : Except Error α) : framesOf (fun _ => []) r = handedOut (r.map f) := by
  rw [handedOut_eq]
  cases r with
  | error error => rfl
  | ok value => exact (silent value).symm

/-- A finished method as a reply. -/
theorem Performs.reply {α : Type} {frames : α → List Bytes} {wrote got : α → Option Bytes}
    {r : Except Error α × SessionCore H AeadState} (h : Performs aead side peer c frames wrote got r)
    {f : α → Reply} {wrote' got' : Except Error Reply → Option Bytes}
    (sameFrames : ∀ value, replyFrames (f value) = frames value)
    (sameWrote : ∀ value, wrote' (.ok (f value)) = wrote value) (failedWrote : ∀ e, wrote' (.error e) = none)
    (sameGot : ∀ value, got' (.ok (f value)) = got value) (failedGot : ∀ e, got' (.error e) = none) :
    Acts aead side peer c (handedOut ((SessionCore.finishResult r).1.map f))
      (wrote' ((SessionCore.finishResult r).1.map f)) (got' ((SessionCore.finishResult r).1.map f))
      (SessionCore.finishResult r).2 := by
  have acts := h.finishResult
  obtain ⟨result, after⟩ := r
  cases result with
  | ok value =>
      simp only [SessionCore.finishResult, framesOf, messageOf] at acts
      simp only [SessionCore.finishResult, Except.map, handedOut_eq, framesOf, sameFrames, sameWrote, sameGot]
      exact acts
  | error error =>
      simp only [SessionCore.finishResult, framesOf, messageOf] at acts
      simp only [SessionCore.finishResult, Except.map, handedOut_eq, framesOf, failedWrote, failedGot]
      exact acts

/-- A delivered message leaves the reassembler idle. -/
theorem readApplication_idle {T : Type} {noise : Noise R H T} {c c' : SessionCore H T} {outer bytes : Bytes}
    (h : c.readApplication noise outer = (.ok (some bytes), c')) :
    c'.reassembly.active = none ∧ c'.reassembly.failed = false := by
  unfold SessionCore.readApplication at h
  split at h
  · cases h
  split at h
  · cases h
  split at h
  · split at h
    · cases h
    · split at h <;> cases h
  split at h
  · cases h
  split at h
  · cases h
  split at h
  · cases h
  · cases h
  · rename_i accepted
    obtain ⟨-, idle, fine, -⟩ := RecordReassembler.accept_some accepted
    dsimp only at h
    split at h
    · cases h
    · cases h
      exact ⟨idle, fine⟩

theorem messageOf_none {α : Type} (r : Except Error α) : messageOf (fun _ => none) r = none := by
  cases r with
  | error error => rfl
  | ok value => rfl

/-- The first delivery raises the inbound cap, which cannot fail. -/
theorem TargetSession.readApplication_acts {s : TargetSession H AeadState} (limits : s.core.limits = {})
    (outer : Bytes) :
    Acts aead side peer s.core
      (framesOf (fun _ => []) (s.readApplication (aead.noise handshakes side peer) outer).1) none
      (messageOf id (s.readApplication (aead.noise handshakes side peer) outer).1)
      (s.readApplication (aead.noise handshakes side peer) outer).2.core := by
  have inner : Performs aead side peer s.core (fun _ => []) (fun _ => none) id
      (s.core.readApplication (aead.noise handshakes side peer) outer) := readApplication_performs outer
  unfold TargetSession.readApplication
  split
  · rename_i bytes c eq
    have acts := inner.ok (some bytes) (by rw [eq])
    rw [eq] at acts
    obtain ⟨idle, fine⟩ := readApplication_idle eq
    have capped : c.reassembly.setCap c.limits.requestBytes =
        (.ok (), { c.reassembly with cap := c.limits.requestBytes }) := by
      have same : c.limits = {} := acts.limits.trans limits
      simp [RecordReassembler.setCap, idle, fine, same]
    dsimp only
    split
    · exact ⟨acts.limits, acts.act⟩
    · rw [capped]
      exact ⟨acts.limits, acts.act⟩
  · have finished := inner.finishResult
    rw [messageOf_none] at finished
    exact finished

variable (aead side peer handshakes) in
theorem TargetSession.call_acts (s : TargetSession H AeadState) (limits : s.core.limits = {}) (call : TargetCall) :
    Acts aead side peer s.core (handedOut (s.call (aead.noise handshakes side peer) call).1)
      (call.wrote (s.call (aead.noise handshakes side peer) call).1)
      (call.delivered (s.call (aead.noise handshakes side peer) call).1)
      (s.call (aead.noise handshakes side peer) call).2.core := by
  have silent : ∀ {α : Type} (value : α), (none : Option Bytes) = none := fun _ => rfl
  have failed : ∀ _ : Error, (none : Option Bytes) = none := fun _ => rfl
  cases call with
  | writeM1 =>
      exact (writeHandshake_performs []).reply (fun _ => rfl) silent failed silent failed
  | readM2 outer =>
      exact (readHandshakeFinish_performs outer).reply (fun _ => rfl) silent failed silent failed
  | writeFinished =>
      exact (writeFinished_performs 0).reply (fun _ => rfl) silent failed silent failed
  | readFinished outer =>
      have inner : Performs aead side peer s.core (fun _ => []) (fun _ => none) (fun _ => none)
          (if !s.core.sentFinished then (.error (.new .sequenceViolation), s.core)
            else s.core.readFinished (aead.noise handshakes side peer) outer 1) := by
        split
        · exact performs_error (failed_plain ⟨by decide, rfl⟩ rfl rfl)
        · exact readFinished_performs outer 1
      exact inner.reply (fun _ => rfl) silent failed silent failed
  | readApplication outer =>
      have acts : Acts aead side peer s.core _ none _
          (s.readApplication (aead.noise handshakes side peer) outer).2.core :=
        TargetSession.readApplication_acts limits outer
      rw [framesOf_silent .message fun _ => rfl] at acts
      have same : ∀ r : Except Error (Option Bytes),
          messageOf id r = (TargetCall.readApplication outer).delivered (r.map .message) := by
        intro r
        cases r with
        | error error => rfl
        | ok value => rfl
      rw [same] at acts
      exact acts
  | eof =>
      have acts : Acts aead side peer s.core (framesOf (fun _ => []) s.core.eof.1) none none s.core.eof.2 := eof_acts
      rw [framesOf_silent (fun _ => .done) fun _ => rfl] at acts
      exact acts
  | writeApplicationResponse payload =>
      have inner : Performs aead side peer s.core id (fun _ => some payload) (fun _ => none)
          (if !s.core.firstApplication then (.error (.new .sequenceViolation), s.core)
            else s.core.writeApplication (aead.noise handshakes side peer) payload s.core.limits.responseBytes) := by
        split
        · exact performs_error (failed_plain ⟨by decide, rfl⟩ rfl rfl)
        · exact writeApplication_performs payload _
      exact inner.reply (fun _ => rfl) (fun _ => rfl) failed silent failed
  | writeClose reason handoff =>
      exact (writeClose_performs reason handoff).reply (fun _ => rfl) silent failed silent failed
  | readClose outer =>
      exact (readClose_performs outer).reply (fun _ => rfl) silent failed silent failed
  | validateBinding generation epoch =>
      have acts : Acts aead side peer s.core _ none none _ := validateBinding_acts generation epoch
      rw [framesOf_silent (fun _ => .done) fun _ => rfl] at acts
      exact acts

theorem noteHandoff_performs {wrote got : List Bytes → Option Bytes}
    {r : Except Error (List Bytes) × SessionCore H AeadState}
    (h : Performs aead side peer c id wrote got r) :
    Performs aead side peer c id wrote got (BrokerSession.noteHandoff r) := by
  obtain ⟨result, after⟩ := r
  cases result with
  | error error => exact h
  | ok frames =>
      have acts := h.ok frames rfl
      exact performs_ok ⟨acts.limits, acts.act⟩

theorem BrokerSession.readM1WriteM2_acts (s : BrokerSession H AeadState) (outer : Bytes) :
    Acts aead side peer s.core
      (framesOf (fun _ => []) (s.readM1WriteM2 (aead.noise handshakes side peer) outer).1) none none
      (s.readM1WriteM2 (aead.noise handshakes side peer) outer).2.core := by
  unfold BrokerSession.readM1WriteM2
  rcases readHandshake_cases (aead.noise handshakes side peer) s.core outer with
    ⟨error, read, plain, eq, same⟩ | ⟨read, eq, same⟩
  · rw [eq]
    exact (failed_plain plain same.limits (congrArg Endpoint.peerTurn same.endpoint)).acts
  rw [eq]
  rcases writeHandshake_cases (aead.noise handshakes side peer) read [] with
    ⟨error, plain, eq⟩ | ⟨frame, written, eq, same'⟩
  · simp only [eq]
    exact (failed_plain plain same.limits (congrArg Endpoint.peerTurn same.endpoint)).acts
  simp only [eq]
  have both : Handshook s.core written := ⟨same'.endpoint.trans same.endpoint, same'.limits.trans same.limits⟩
  have last : Performs aead side peer s.core (fun _ => []) (fun _ => none) (fun _ => none)
      (written.finishHandshake (aead.noise handshakes side peer)) := finishHandshake_performs both
  cases eq : written.finishHandshake (aead.noise handshakes side peer) with
  | mk result after =>
      rw [eq] at last
      cases result with
      | error error => exact (last.error error rfl).acts
      | ok value => exact last.ok value rfl

variable (aead side peer handshakes) in
theorem BrokerSession.call_acts (s : BrokerSession H AeadState) (call : BrokerCall) :
    Acts aead side peer s.core (handedOut (s.call (aead.noise handshakes side peer) call).1)
      (call.wrote (s.call (aead.noise handshakes side peer) call).1)
      (call.delivered (s.call (aead.noise handshakes side peer) call).1)
      (s.call (aead.noise handshakes side peer) call).2.core := by
  have silent : ∀ {α : Type} (value : α), (none : Option Bytes) = none := fun _ => rfl
  have failed : ∀ _ : Error, (none : Option Bytes) = none := fun _ => rfl
  cases call with
  | readM1WriteM2 outer =>
      have acts : Acts aead side peer s.core _ none none
          (s.readM1WriteM2 (aead.noise handshakes side peer) outer).2.core := BrokerSession.readM1WriteM2_acts s outer
      rw [framesOf_silent .handshake fun _ => rfl] at acts
      exact acts
  | writeFinished =>
      have inner : Performs aead side peer s.core (fun frame => [frame]) (fun _ => none) (fun _ => none)
          (if !s.core.gotFinished then (.error (.new .sequenceViolation), s.core)
            else s.core.writeFinished (aead.noise handshakes side peer) 1) := by
        split
        · exact performs_error (failed_plain ⟨by decide, rfl⟩ rfl rfl)
        · exact writeFinished_performs 1
      exact inner.reply (fun _ => rfl) silent failed silent failed
  | readFinished outer =>
      exact (readFinished_performs outer 0).reply (fun _ => rfl) silent failed silent failed
  | writeSessionOpen payload =>
      have inner : Performs aead side peer s.core id (fun _ => some payload) (fun _ => none)
          (if s.core.firstApplication || payload.isEmpty then (.error (.new .sequenceViolation), s.core)
            else if payload.length > s.core.limits.firstOpenBytes then (.error (.new .oversize), s.core)
            else { s.core with firstApplication := true }.writeApplication (aead.noise handshakes side peer) payload
              s.core.limits.requestBytes) := by
        split
        · exact performs_error (failed_plain ⟨by decide, rfl⟩ rfl rfl)
        split
        · exact performs_error (failed_plain ⟨by decide, rfl⟩ rfl rfl)
        · have written : Performs aead side peer { s.core with firstApplication := true } id
              (fun _ => some payload) (fun _ => none)
              ({ s.core with firstApplication := true }.writeApplication (aead.noise handshakes side peer) payload
                s.core.limits.requestBytes) := writeApplication_performs payload _
          refine ⟨fun e eq => ?_, fun value eq => ?_⟩
          · have failed := written.error e eq
            exact ⟨failed.limits, failed.turn, failed.frame⟩
          · have acts := written.ok value eq
            exact ⟨acts.limits, acts.act⟩
      exact (noteHandoff_performs inner).reply (fun _ => rfl) (fun _ => rfl) failed silent failed
  | writeApplicationRequest payload =>
      have inner : Performs aead side peer s.core id (fun _ => some payload) (fun _ => none)
          (if !s.core.firstApplication then (.error (.new .sequenceViolation), s.core)
            else s.core.writeApplication (aead.noise handshakes side peer) payload s.core.limits.requestBytes) := by
        split
        · exact performs_error (failed_plain ⟨by decide, rfl⟩ rfl rfl)
        · exact writeApplication_performs payload _
      exact (noteHandoff_performs inner).reply (fun _ => rfl) (fun _ => rfl) failed silent failed
  | readApplicationResponse outer =>
      exact (readApplication_performs outer).reply (fun _ => rfl) silent failed (fun _ => rfl) failed
  | eof =>
      have acts : Acts aead side peer s.core (framesOf (fun _ => []) s.core.eof.1) none none s.core.eof.2 := eof_acts
      rw [framesOf_silent (fun _ => .done) fun _ => rfl] at acts
      exact acts
  | writeClose reason handoff =>
      exact (writeClose_performs reason handoff).reply (fun _ => rfl) silent failed silent failed
  | readClose outer =>
      exact (readClose_performs outer).reply (fun _ => rfl) silent failed silent failed
  | validateBinding generation epoch =>
      have acts : Acts aead side peer s.core _ none none _ := validateBinding_acts generation epoch
      rw [framesOf_silent (fun _ => .done) fun _ => rfl] at acts
      exact acts

end Calls

/-! ## The link -/

structure Link (H : Type) where
  target : TargetSession H AeadState
  broker : BrokerSession H AeadState
  /-- The ciphertexts the Target has handed out, in order. -/
  targetSent : List Bytes
  brokerSent : List Bytes

inductive LinkCall where
  | target (call : TargetCall)
  | broker (call : BrokerCall)
  deriving Repr, DecidableEq

/-- The ciphertext inside a record frame. -/
def frameCiphertext (frame : Bytes) : Bytes := frame.drop 2

def Link.step (aead : IdealAead) (handshakes : Noise R H Unit) (l : Link H) :
    LinkCall → Except Error Reply × Link H
  | .target call =>
      let (reply, target) := l.target.call (aead.noise handshakes .target l.brokerSent) call
      (reply, { l with target, targetSent := l.targetSent ++ (handedOut reply).map frameCiphertext })
  | .broker call =>
      let (reply, broker) := l.broker.call (aead.noise handshakes .broker l.targetSent) call
      (reply, { l with broker, brokerSent := l.brokerSent ++ (handedOut reply).map frameCiphertext })

abbrev LinkRun (H : Type) := List (Runs.Step (Link H) LinkCall (Except Error Reply))

/-- The messages `TargetSession::read_application` returned. -/
def targetDelivered (run : LinkRun H) : List Bytes :=
  run.filterMap fun step =>
    match step.input with
    | .target call => call.delivered step.output
    | .broker _ => none

/-- The payloads of successful `write_application_response` calls. -/
def targetWrote (run : LinkRun H) : List Bytes :=
  run.filterMap fun step =>
    match step.input with
    | .target call => call.wrote step.output
    | .broker _ => none

/-- The messages `BrokerSession::read_application_response` returned. -/
def brokerDelivered (run : LinkRun H) : List Bytes :=
  run.filterMap fun step =>
    match step.input with
    | .target _ => none
    | .broker call => call.delivered step.output

/-- The payloads of successful `write_session_open` and `write_application_request` calls. -/
def brokerWrote (run : LinkRun H) : List Bytes :=
  run.filterMap fun step =>
    match step.input with
    | .target _ => none
    | .broker call => call.wrote step.output

section

variable {aead : IdealAead} {side : Side} {peer : List Bytes} {handshakes : Noise R H Unit}

theorem filterMap_snoc {α β : Type} (f : α → Option β) (front : List α) (last : α) :
    (front ++ [last]).filterMap f = front.filterMap f ++ (f last).toList := by
  rw [List.filterMap_append]
  cases h : f last with
  | none => simp [h]
  | some value => simp [h]

/-- The only ways the turn moves. -/
theorem Act.turn {e e' : Endpoint} {records : List Record} {wrote got : Option Bytes}
    (act : Act aead side peer e records wrote got e') :
    e'.peerTurn = e.peerTurn ∧ wrote = none ∧ got = none ∨
      e.peerTurn = false ∧ e'.peerTurn = true ∧ wrote.isSome ∧ got = none ∨
      e.peerTurn = true ∧ e'.peerTurn = false ∧ wrote = none ∧ got.isSome := by
  cases act with
  | stop noTransport noHandshake turn => exact .inl ⟨turn, rfl, rfl⟩
  | close had kind fits noTransport noHandshake turn => exact .inl ⟨turn, rfl, rfl⟩
  | write had sent turn nonempty small => exact .inr (.inl ⟨turn, rfl, rfl, rfl⟩)
  | deliver had got turn opens decodes kind state accepts => exact .inr (.inr ⟨turn, rfl, rfl, rfl⟩)
  | keep | establish | writeFinished | readFinished | fragment => exact .inl ⟨rfl, rfl, rfl⟩

/-- Only an endpoint with a transport seals records. -/
theorem Act.alive {e e' : Endpoint} {records : List Record} {wrote got : Option Bytes}
    (act : Act aead side peer e records wrote got e') : records = [] ∨ ∃ t, e.transport = some t := by
  cases act with
  | close had kind fits noTransport noHandshake turn => exact .inr ⟨_, had⟩
  | writeFinished had first kind fits => exact .inr ⟨_, had⟩
  | write had sent turn nonempty small => exact .inr ⟨_, had⟩
  | keep | stop | establish | readFinished | fragment | deliver => exact .inl rfl

/-- Handing out the frames of new records extends the ciphertexts. -/
theorem frames_append (sent records : List Record) :
    aead.ciphertexts side sent ++ (aead.frames side sent.length records).map frameCiphertext =
      aead.ciphertexts side (sent ++ records) := by
  have bare : ∀ n plaintext, frameCiphertext (aead.frame side n plaintext) = aead.encrypt side n plaintext := by
    intro n plaintext
    simp [frameCiphertext, IdealAead.frame]
  have stripped : ∀ first, (aead.frames side first records).map frameCiphertext =
      records.mapIdx fun i record => aead.encrypt side (first + i) record.wire := by
    intro first
    refine List.ext_getElem? fun i => ?_
    simp [IdealAead.frames, bare, Function.comp_def]
  rw [stripped]
  simp only [IdealAead.ciphertexts, List.mapIdx_append, Nat.add_comm]

theorem ciphertexts_append {c c' : SessionCore H AeadState} {sent records : List Record}
    {messages : List Bytes} {wrote got : Option Bytes} (sends : Sends sent messages c.endpoint)
    (act : Act aead side peer c.endpoint records wrote got c'.endpoint) :
    aead.ciphertexts side sent ++ (aead.frames side c.nextNonce records).map frameCiphertext =
      aead.ciphertexts side (sent ++ records) := by
  rcases act.alive with rfl | ⟨t, had⟩
  · simp [IdealAead.frames]
  · have nonce : c.nextNonce = sent.length := by
      have transport : c.transport = some t := had
      simpa [SessionCore.nextNonce, transport] using sends.count t had
    rw [nonce]
    exact frames_append sent records

/-- What holds after any interleaving: both directions are in order, and the
    turn of each side is the balance of its own messages. -/
structure LinkInvariant (aead : IdealAead) (run : LinkRun H) (l : Link H) : Prop where
  targetLimits : l.target.core.limits = {}
  targetSends : ∃ records, l.targetSent = aead.ciphertexts .target records ∧
    Sends records (targetWrote run) l.target.core.endpoint
  brokerSends : ∃ records, l.brokerSent = aead.ciphertexts .broker records ∧
    Sends records (brokerWrote run) l.broker.core.endpoint
  targetReceives : Receives (brokerWrote run) (targetDelivered run) l.target.core.endpoint
  brokerReceives : Receives (targetWrote run) (brokerDelivered run) l.broker.core.endpoint
  targetTurn : (targetDelivered run).length =
    (targetWrote run).length + (!l.target.core.endpoint.peerTurn).toNat
  brokerTurn : (brokerWrote run).length =
    (brokerDelivered run).length + l.broker.core.endpoint.peerTurn.toNat

/-- A call extends the ciphertexts of its side by those of its records. -/
theorem Acts.sends {c c' : SessionCore H AeadState} {frames messages sent : List Bytes} {wrote got : Option Bytes}
    (acts : Acts aead side peer c frames wrote got c')
    (sends : ∃ records, sent = aead.ciphertexts side records ∧ Sends records messages c.endpoint) :
    ∃ records, sent ++ frames.map frameCiphertext = aead.ciphertexts side records ∧
      Sends records (messages ++ wrote.toList) c'.endpoint := by
  obtain ⟨old, rfl, sends⟩ := sends
  obtain ⟨records, act, rfl⟩ := acts.act
  exact ⟨old ++ records, ciphertexts_append sends act, sends.act act⟩

/-- … and delivers the next message of the peer, or none. -/
theorem Acts.receives {c c' : SessionCore H AeadState} {frames messages delivered peerSent : List Bytes}
    {wrote got : Option Bytes} {sender : Endpoint} (acts : Acts aead side peerSent c frames wrote got c')
    (sends : ∃ records, peerSent = aead.ciphertexts side.peer records ∧ Sends records messages sender)
    (receives : Receives messages delivered c.endpoint) :
    Receives messages (delivered ++ got.toList) c'.endpoint := by
  obtain ⟨old, rfl, sends⟩ := sends
  obtain ⟨records, act, -⟩ := acts.act
  exact receives.act sends act

/-- The Target answers what it was asked. -/
theorem target_balance {e e' : Endpoint} {records : List Record} {wrote got : Option Bytes} {delivered sent : Nat}
    (act : Act aead side peer e records wrote got e') (balance : delivered = sent + (!e.peerTurn).toNat) :
    delivered + got.toList.length = sent + wrote.toList.length + (!e'.peerTurn).toNat := by
  rcases act.turn with ⟨same, rfl, rfl⟩ | ⟨before, after, wrote, rfl⟩ | ⟨before, after, rfl, got⟩
  · simpa [same] using balance
  · obtain ⟨message, rfl⟩ := Option.isSome_iff_exists.mp wrote
    simpa [before, after] using balance
  · obtain ⟨message, rfl⟩ := Option.isSome_iff_exists.mp got
    simpa [before, after] using balance

/-- The Broker asks again once it was answered. -/
theorem broker_balance {e e' : Endpoint} {records : List Record} {wrote got : Option Bytes} {delivered sent : Nat}
    (act : Act aead side peer e records wrote got e') (balance : sent = delivered + e.peerTurn.toNat) :
    sent + wrote.toList.length = delivered + got.toList.length + e'.peerTurn.toNat := by
  rcases act.turn with ⟨same, rfl, rfl⟩ | ⟨before, after, wrote, rfl⟩ | ⟨before, after, rfl, got⟩
  · simpa [same] using balance
  · obtain ⟨message, rfl⟩ := Option.isSome_iff_exists.mp wrote
    simpa [before, after] using balance
  · obtain ⟨message, rfl⟩ := Option.isSome_iff_exists.mp got
    simpa [before, after] using balance

theorem target_step {run : LinkRun H} {l : Link H} (inv : LinkInvariant aead run l) (call : TargetCall) :
    LinkInvariant aead
      (run ++ [⟨l, .target call, (l.step aead handshakes (.target call)).1, (l.step aead handshakes (.target call)).2⟩])
      (l.step aead handshakes (.target call)).2 := by
  have acts := TargetSession.call_acts aead .target l.brokerSent handshakes l.target inv.targetLimits call
  have sends := acts.sends inv.targetSends
  have receives := acts.receives inv.brokerSends inv.targetReceives
  obtain ⟨records, act, -⟩ := acts.act
  refine ⟨acts.limits.trans inv.targetLimits, ?_, ?_, ?_, ?_, ?_, ?_⟩
  · rw [targetWrote, filterMap_snoc]
    exact sends
  · rw [brokerWrote, filterMap_snoc, Option.toList_none, List.append_nil]
    exact inv.brokerSends
  · rw [brokerWrote, targetDelivered, filterMap_snoc, filterMap_snoc, Option.toList_none, List.append_nil]
    exact receives
  · rw [targetWrote, brokerDelivered, filterMap_snoc, filterMap_snoc, Option.toList_none, List.append_nil]
    exact inv.brokerReceives.more _
  · rw [targetWrote, targetDelivered, filterMap_snoc, filterMap_snoc, List.length_append, List.length_append]
    exact target_balance act inv.targetTurn
  · rw [brokerWrote, brokerDelivered, filterMap_snoc, filterMap_snoc, Option.toList_none, List.append_nil,
      List.append_nil]
    exact inv.brokerTurn

theorem broker_step {run : LinkRun H} {l : Link H} (inv : LinkInvariant aead run l) (call : BrokerCall) :
    LinkInvariant aead
      (run ++ [⟨l, .broker call, (l.step aead handshakes (.broker call)).1, (l.step aead handshakes (.broker call)).2⟩])
      (l.step aead handshakes (.broker call)).2 := by
  have acts := BrokerSession.call_acts aead .broker l.targetSent handshakes l.broker call
  have sends := acts.sends inv.brokerSends
  have receives := acts.receives inv.targetSends inv.brokerReceives
  obtain ⟨records, act, -⟩ := acts.act
  refine ⟨inv.targetLimits, ?_, ?_, ?_, ?_, ?_, ?_⟩
  · rw [targetWrote, filterMap_snoc, Option.toList_none, List.append_nil]
    exact inv.targetSends
  · rw [brokerWrote, filterMap_snoc]
    exact sends
  · rw [brokerWrote, targetDelivered, filterMap_snoc, filterMap_snoc, Option.toList_none, List.append_nil]
    exact inv.targetReceives.more _
  · rw [targetWrote, brokerDelivered, filterMap_snoc, filterMap_snoc, Option.toList_none, List.append_nil]
    exact receives
  · rw [targetWrote, targetDelivered, filterMap_snoc, filterMap_snoc, Option.toList_none, List.append_nil,
      List.append_nil]
    exact inv.targetTurn
  · rw [brokerWrote, brokerDelivered, filterMap_snoc, filterMap_snoc, List.length_append, List.length_append]
    exact broker_balance act inv.brokerTurn

/-- A new session shows a silent endpoint in its handshake. -/
theorem new_endpoint {noise : Noise R H AeadState} {entropy : R} {binding : SessionBinding} {pbs : FixedBytes 32}
    {initiator peerTurn : Bool} {inboundCap : Nat} {c : SessionCore H AeadState}
    (h : SessionCore.new noise entropy binding pbs initiator inboundCap peerTurn = .ok c) :
    c.endpoint = ⟨true, none, false, false, peerTurn, none⟩ ∧ c.limits = {} := by
  simp only [SessionCore.new, bind, Except.bind, pure, Except.pure] at h
  split at h
  · cases h
  split at h
  · cases h
  split at h
  · cases h
  rename_i reassembly fresh
  have idle : reassembly.active = none := by
    unfold RecordReassembler.new at fresh
    split at fresh <;> cases fresh
    rfl
  cases h
  exact ⟨by simp [SessionCore.endpoint, idle], rfl⟩

theorem start_sends (peerTurn : Bool) : Sends [] [] ⟨true, none, false, false, peerTurn, none⟩ := by
  refine ⟨?_, ?_, ⟨[], [], rfl, .inl ⟨rfl, rfl⟩, .inl rfl, ?_⟩, ?_, fun _ => ⟨rfl, rfl, rfl⟩⟩
  · intro record member
    cases member
  · intro message member
    cases member
  · intro t had
    cases had
  · intro t had
    cases had

theorem start_receives (peerTurn : Bool) : Receives [] [] ⟨true, none, false, false, peerTurn, none⟩ := by
  refine ⟨fun _ => ⟨rfl, rfl, rfl, rfl⟩, ?_, List.prefix_refl _⟩
  intro t had
  cases had

theorem link_start {t : TargetSession H AeadState} {b : BrokerSession H AeadState} {targetEntropy brokerEntropy : R}
    {targetBinding brokerBinding : SessionBinding} {targetPbs brokerPbs : FixedBytes 32}
    (target : TargetSession.new (aead.noise handshakes .target []) targetEntropy targetBinding targetPbs = .ok t)
    (broker : BrokerSession.new (aead.noise handshakes .broker []) brokerEntropy brokerBinding brokerPbs = .ok b) :
    LinkInvariant aead [] ⟨t, b, [], []⟩ := by
  obtain ⟨tc, tBuilt, rfl⟩ := map_ok target
  obtain ⟨bc, bBuilt, rfl⟩ := map_ok broker
  obtain ⟨tShows, limits⟩ := new_endpoint tBuilt
  obtain ⟨bShows, -⟩ := new_endpoint bBuilt
  refine ⟨limits, ⟨[], rfl, ?_⟩, ⟨[], rfl, ?_⟩, ?_, ?_, ?_, ?_⟩
  · rw [tShows]
    exact start_sends true
  · rw [bShows]
    exact start_sends false
  · rw [tShows]
    exact start_receives true
  · rw [bShows]
    exact start_receives false
  · rw [tShows]
    rfl
  · rw [bShows]
    rfl

/-- Whatever the order of calls and whatever bytes arrive, each side returns
    the messages of the other in order and at most once, and the two sides
    never hold the turn together. -/
theorem sessions_deliver_in_order (aead : IdealAead) (handshakes : Noise R H Unit) (targetEntropy brokerEntropy : R)
    (binding : SessionBinding) (pbs : FixedBytes 32) (t : TargetSession H AeadState) (b : BrokerSession H AeadState)
    (target : TargetSession.new (aead.noise handshakes .target []) targetEntropy binding pbs = .ok t)
    (broker : BrokerSession.new (aead.noise handshakes .broker []) brokerEntropy binding pbs = .ok b)
    (calls : List LinkCall) :
    let run := Runs.trace (Link.step aead handshakes) ⟨t, b, [], []⟩ calls
    let last := Runs.final (Link.step aead handshakes) ⟨t, b, [], []⟩ calls
    targetDelivered run <+: brokerWrote run ∧ brokerDelivered run <+: targetWrote run ∧
      ¬ (last.target.core.sentFinished = true ∧ last.target.core.gotFinished = true ∧
        last.broker.core.sentFinished = true ∧ last.broker.core.gotFinished = true ∧
        last.target.core.peerTurn = false ∧ last.broker.core.peerTurn = false) := by
  intro run last
  have inv : LinkInvariant aead run last := by
    refine Runs.invariant_trace (fun past l => LinkInvariant aead past l) ?_ [] _ calls (link_start target broker)
    intro past l call inv
    cases call with
    | target call => exact target_step inv call
    | broker call => exact broker_step inv call
  refine ⟨inv.targetReceives.inOrder, inv.brokerReceives.inOrder, ?_⟩
  rintro ⟨-, -, -, -, targetTurn, brokerTurn⟩
  have asked := inv.targetTurn
  have answered := inv.brokerTurn
  have targetBound := inv.targetReceives.inOrder.length_le
  have brokerBound := inv.brokerReceives.inOrder.length_le
  have targetShows : last.target.core.endpoint.peerTurn = false := targetTurn
  have brokerShows : last.broker.core.endpoint.peerTurn = false := brokerTurn
  rw [targetShows] at asked
  rw [brokerShows] at answered
  simp only [Bool.not_false, Bool.toNat_true, Bool.toNat_false] at asked answered
  omega

end

/-! ## A link that exchanges one message each way -/

namespace LinkRun

open LimitRun (binding pbs)

/-- The AEAD of `nonceNoise` as an ideal one. -/
def nonceAead : IdealAead where
  encrypt _ nonce plaintext := plaintext ++ be 16 nonce
  decrypt _ _ ciphertext := some (ciphertext.take (ciphertext.length - Noise.tagLen))
  decrypt_encrypt _ nonce plaintext := by simp [Noise.tagLen]
  encrypt_length _ nonce plaintext := by simp [Noise.tagLen]

/-- The handshake of `nonceNoise`. -/
def handshakes : Noise Unit Unit Unit where
  nkInitiator := nonceNoise.nkInitiator
  pskInitiator := nonceNoise.pskInitiator
  pskResponder := nonceNoise.pskResponder
  writeHandshake := nonceNoise.writeHandshake
  readHandshake := nonceNoise.readHandshake
  handshakeHash := nonceNoise.handshakeHash
  intoTransport _ := some ()
  writeMessage _ _ := none
  readMessage _ _ := none

def handshakeFrame : Bytes := be 2 handshakeOverhead ++ List.replicate handshakeOverhead 0

/-- The frame of one complete record. -/
def recordFrame (nonce : Nat) (kind : RecordKind) (data : Bytes) : Bytes :=
  nonceFrame nonce
    { kind, start := true, «end» := true, totalLen := data.length, offset := 0, data : Record }.wire

/-- Handshake and Finished on both sides, then a request and its response. -/
def calls : List LinkCall :=
  [.target .writeM1, .broker (.readM1WriteM2 handshakeFrame), .target (.readM2 handshakeFrame),
    .target .writeFinished,
    .broker (.readFinished (recordFrame 0 .finished (finished binding 0 (FixedBytes.replicate 32 0)))),
    .broker .writeFinished,
    .target (.readFinished (recordFrame 0 .finished (finished binding 1 (FixedBytes.replicate 32 0)))),
    .broker (.writeSessionOpen [7]), .target (.readApplication (recordFrame 1 .application [7])),
    .target (.writeApplicationResponse [9]), .broker (.readApplicationResponse (recordFrame 1 .application [9]))]

/-- The two sessions before their first call. -/
def start : Link Unit where
  target := ⟨{
    handshake := some (), transport := none, binding, sessionHash := none, limits := {}
    reassembly := { cap := 64 * 1024 }, sentFinished := false, gotFinished := false, peerTurn := true
    firstApplication := false, closed := false, sentRecords := 0, sentPlaintext := 0, receivedRecords := 0
    receivedPlaintext := 0, handoff := .notHandedOff }⟩
  broker := ⟨{
    handshake := some (), transport := none, binding, sessionHash := none, limits := {}
    reassembly := { cap := 64 * 1024 * 1024 }, sentFinished := false, gotFinished := false, peerTurn := false
    firstApplication := false, closed := false, sentRecords := 0, sentPlaintext := 0, receivedRecords := 0
    receivedPlaintext := 0, handoff := .notHandedOff }⟩
  targetSent := []
  brokerSent := []

theorem new_target : TargetSession.new (nonceAead.noise handshakes .target []) () binding pbs = .ok start.target := rfl

theorem new_broker : BrokerSession.new (nonceAead.noise handshakes .broker []) () binding pbs = .ok start.broker := rfl

end LinkRun

open LinkRun in
theorem link_delivers_both_ways :
    let run := Runs.trace (Link.step nonceAead handshakes) start calls
    targetDelivered run = [[7]] ∧ brokerDelivered run = [[9]] ∧
      targetDelivered run <+: brokerWrote run ∧ brokerDelivered run <+: targetWrote run := by
  have both := sessions_deliver_in_order nonceAead handshakes () () LimitRun.binding LimitRun.pbs start.target
    start.broker new_target new_broker calls
  exact ⟨by decide +kernel, by decide +kernel, both.1, both.2.1⟩

end AppPilotKit.Transport
