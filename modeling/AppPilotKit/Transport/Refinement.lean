import AppPilotKit.Transport.Budget
import AppPilotKit.Transport.Endpoint

/-! # Sessions refine endpoints

With an ideal AEAD behind it, every call of a session is an act of the endpoint
it shows: a failure ends the endpoint, possibly after one Close record.
-/

namespace AppPilotKit.Transport

open Wire

variable {R H : Type}

/-- The Noise library over an ideal AEAD: the handshake part is arbitrary, and
    `read_message` succeeds exactly on the next ciphertext of the peer. -/
def IdealAead.noise (aead : IdealAead) (handshakes : Noise R H Unit) (side : Side) (peer : List Bytes) :
    Noise R H AeadState where
  nkInitiator := handshakes.nkInitiator
  pskInitiator := handshakes.pskInitiator
  pskResponder := handshakes.pskResponder
  writeHandshake := handshakes.writeHandshake
  readHandshake := handshakes.readHandshake
  handshakeHash := handshakes.handshakeHash
  intoTransport state := (handshakes.intoTransport state).map fun _ => ⟨0, 0⟩
  writeMessage t plaintext := some (aead.encrypt side t.sent plaintext, { t with sent := t.sent + 1 })
  readMessage t ciphertext :=
    if peer[t.received]? = some ciphertext then
      (aead.decrypt side.peer t.received ciphertext).map (·, { t with received := t.received + 1 })
    else none

/-- The frame a plaintext travels in. -/
def IdealAead.frame (aead : IdealAead) (side : Side) (nonce : Nat) (plaintext : Bytes) : Bytes :=
  be 2 (aead.encrypt side nonce plaintext).length ++ aead.encrypt side nonce plaintext

/-- The frames of consecutive records. -/
def IdealAead.frames (aead : IdealAead) (side : Side) (first : Nat) (records : List Record) : List Bytes :=
  records.mapIdx fun i record => aead.frame side (first + i) record.wire

def SessionCore.endpoint (c : SessionCore H AeadState) : Endpoint where
  handshaking := c.handshake.isSome
  transport := c.transport
  sentFinished := c.sentFinished
  gotFinished := c.gotFinished
  peerTurn := c.peerTurn
  active := c.reassembly.active

/-- The nonce of the next record a session seals. -/
def SessionCore.nextNonce (c : SessionCore H AeadState) : Nat :=
  match c.transport with
  | some t => t.sent
  | none => 0

variable (aead : IdealAead) (side : Side) (peer : List Bytes)

/-- A call that hands out `frames` as an act of the endpoint. -/
structure Acts (c : SessionCore H AeadState) (frames : List Bytes) (wrote got : Option Bytes)
    (c' : SessionCore H AeadState) : Prop where
  limits : c'.limits = c.limits
  act : ∃ records, Act aead side peer c.endpoint records wrote got c'.endpoint ∧
    frames = aead.frames side c.nextNonce records

/-- A failure before the session is closed. -/
structure Failed (c : SessionCore H AeadState) (error : Error) (c' : SessionCore H AeadState) : Prop where
  limits : c'.limits = c.limits
  turn : c'.peerTurn = c.peerTurn
  frame : error.closeFrame = none ∨ ∃ (t : AeadState) (record : Record), c.transport = some t ∧
    record.kind = .close ∧ record.Encodable ∧ error.closeFrame = some (aead.frame side t.sent record.wire)

/-- What a method may return. -/
structure Performs {α : Type} (c : SessionCore H AeadState) (frames : α → List Bytes) (wrote got : α → Option Bytes)
    (r : Except Error α × SessionCore H AeadState) : Prop where
  error : ∀ e, r.1 = .error e → Failed aead side c e r.2
  ok : ∀ value, r.1 = .ok value → Acts aead side peer c (frames value) (wrote value) (got value) r.2

/-- The message part of a result. -/
def messageOf {α : Type} (f : α → Option Bytes) : Except Error α → Option Bytes
  | .ok value => f value
  | .error _ => none

section

variable {aead side peer} {handshakes : Noise R H Unit} {c c' : SessionCore H AeadState}

theorem Failed.acts {error : Error} (h : Failed aead side c error c') :
    Acts aead side peer c error.closeFrame.toList none none c'.closeState := by
  refine ⟨h.limits, ?_⟩
  rcases h.frame with none | ⟨t, record, had, kind, fits, frame⟩
  · exact ⟨[], .stop rfl rfl h.turn, by simp [none, IdealAead.frames]⟩
  · refine ⟨[record], .close had kind fits rfl rfl h.turn, ?_⟩
    simp [frame, IdealAead.frames, SessionCore.nextNonce, had]

theorem Performs.finishResult {α : Type} {frames : α → List Bytes} {wrote got : α → Option Bytes}
    {r : Except Error α × SessionCore H AeadState} (h : Performs aead side peer c frames wrote got r) :
    Acts aead side peer c (framesOf frames (SessionCore.finishResult r).1)
      (messageOf wrote (SessionCore.finishResult r).1) (messageOf got (SessionCore.finishResult r).1)
      (SessionCore.finishResult r).2 := by
  obtain ⟨result, after⟩ := r
  cases result with
  | ok value => exact h.ok value rfl
  | error error => exact (h.error error rfl).acts

theorem performs_error {α : Type} {frames : α → List Bytes} {wrote got : α → Option Bytes} {error : Error}
    (h : Failed aead side c error c') : Performs aead side peer c frames wrote got (.error error, c') := by
  refine ⟨?_, ?_⟩
  · intro e same
    cases same
    exact h
  · intro value same
    cases same

theorem performs_ok {α : Type} {frames : α → List Bytes} {wrote got : α → Option Bytes} {value : α}
    (h : Acts aead side peer c (frames value) (wrote value) (got value) c') :
    Performs aead side peer c frames wrote got (.ok value, c') := by
  refine ⟨?_, ?_⟩
  · intro e same
    cases same
  · intro v same
    cases same
    exact h

/-- A plain failure on an unchanged turn. -/
theorem failed_plain {error : Error} (plain : error.Plain) (limits : c'.limits = c.limits)
    (turn : c'.peerTurn = c.peerTurn) : Failed aead side c error c' :=
  ⟨limits, turn, .inl plain.2⟩

/-- A call that sends, reads and changes nothing the peer could see. -/
theorem acts_keep (same : c'.endpoint = c.endpoint) (limits : c'.limits = c.limits) :
    Acts aead side peer c [] none none c' := by
  refine ⟨limits, [], ?_, rfl⟩
  rw [same]
  exact .keep

/-- A transport seals every record under its next nonce. -/
theorem encryptTransport_ideal (t : AeadState) {plaintext : Bytes}
    (small : plaintext.length ≤ recordHeaderLen + recordDataMax) :
    (aead.noise handshakes side peer).encryptTransport t plaintext =
      .ok (aead.frame side t.sent plaintext, { t with sent := t.sent + 1 }) := by
  have size := aead.encrypt_length side t.sent plaintext
  have nonempty : aead.encrypt side t.sent plaintext ≠ [] := by
    intro empty
    simp [empty, Noise.tagLen] at size
  have fits : (aead.encrypt side t.sent plaintext).length ≤ outerMax := by
    simp only [recordHeaderLen, recordDataMax, Noise.tagLen, outerMax] at *
    omega
  simp [Noise.encryptTransport, IdealAead.noise, core, encodeOuter_of nonempty fits, Except.map, IdealAead.frame]

namespace SessionCore

theorem encrypt_ideal {t : AeadState}
    (notClosed : c.closed = false) (had : c.transport = some t) {plaintext : Bytes}
    (small : plaintext.length ≤ recordHeaderLen + recordDataMax) :
    c.encrypt (aead.noise handshakes side peer) plaintext = (.ok (aead.frame side t.sent plaintext),
      { c with transport := some { t with sent := t.sent + 1 } }) := by
  simp [encrypt, openTransport, notClosed, had, encryptTransport_ideal t small]

theorem limitClose_record (handoff : HandoffState) :
    ∃ record : Record, record.kind = .close ∧ record.Encodable ∧ limitClosePlaintext handoff = .ok record.wire := by
  have small : (closePayload .recordLimit handoff).length ≤ recordDataMax := by simp [recordDataMax]
  obtain ⟨record, complete, encoded, fits, kind, -⟩ := complete_encode .close small
  refine ⟨record, kind, fits, ?_⟩
  simp [limitClosePlaintext, complete, encoded, bind, Except.bind]

theorem wire_small {record : Record} (fits : record.Encodable) :
    record.wire.length ≤ recordHeaderLen + recordDataMax := by
  rw [Record.wire_length]
  exact Nat.add_le_add_left fits.data _

variable (aead side peer handshakes c) in
/-- A limit error closes the session, with the Close it could still seal. -/
theorem recordLimitErrorWithHandoff_failed (handoff : HandoffState) :
    Failed aead side c (c.recordLimitErrorWithHandoff (aead.noise handshakes side peer) handoff).1
      (c.recordLimitErrorWithHandoff (aead.noise handshakes side peer) handoff).2 := by
  obtain ⟨record, kind, fits, close⟩ := limitClose_record handoff
  simp only [recordLimitErrorWithHandoff, limitCloseFrame, close, sendUsageAfter_eq]
  by_cases isOpen : c.Open
  · obtain ⟨notClosed, present⟩ := isOpen
    obtain ⟨t, had⟩ := Option.isSome_iff_exists.mp present
    have encrypted : c.encrypt (aead.noise handshakes side peer) record.wire = _ :=
      encrypt_ideal notClosed had (wire_small fits)
    split
    · exact ⟨rfl, rfl, .inl rfl⟩
    · exact ⟨rfl, rfl, .inl rfl⟩
    · simp only [encrypted]
      exact ⟨rfl, rfl, .inr ⟨t, record, had, kind, fits, rfl⟩⟩
  · simp only [encrypt_closed isOpen]
    split <;> exact ⟨rfl, rfl, .inl rfl⟩

variable (aead side peer handshakes c) in
theorem encryptCounted_cases {plaintext : Bytes} (small : plaintext.length ≤ recordHeaderLen + recordDataMax) :
    (∃ error after, c.encryptCounted (aead.noise handshakes side peer) plaintext = (.error error, after) ∧
      Failed aead side c error after) ∨
    ∃ t records bytes, c.transport = some t ∧
      c.encryptCounted (aead.noise handshakes side peer) plaintext = (.ok (aead.frame side t.sent plaintext),
        { c with
          transport := some { t with sent := t.sent + 1 }, sentRecords := records, sentPlaintext := bytes }) := by
  simp only [encryptCounted, sendUsageAfter_eq]
  split
  · cases ‹Except.ok _ = Except.error _›
  · exact .inl ⟨_, _, rfl, recordLimitErrorWithHandoff_failed aead side peer handshakes c c.handoff⟩
  · by_cases isOpen : c.Open
    · obtain ⟨notClosed, present⟩ := isOpen
      obtain ⟨t, had⟩ := Option.isSome_iff_exists.mp present
      rw [encrypt_ideal notClosed had small]
      exact .inr ⟨t, _, _, had, rfl⟩
    · simp only [encrypt_closed isOpen]
      exact .inl ⟨_, _, rfl, failed_plain ⟨by decide, rfl⟩ rfl rfl⟩

/-- A Finished payload is a few CBOR heads, a lease id and a hash. -/
theorem finished_length_le (binding : SessionBinding) (role : Nat) (hash : FixedBytes 32) :
    (finished binding role hash).length ≤ recordDataMax := by
  have heads := Cbor.head_length_le
  have sizes := And.intro binding.leaseId.size hash.size
  simp only [finished, Cbor.map, Cbor.uint, Cbor.bytes, List.length_append, sizes.1, sizes.2, recordDataMax]
  have := heads 5 6
  have := heads 0 0
  have := heads 0 1
  have := heads 0 role
  have := heads 0 2
  have := heads 2 16
  have := heads 0 3
  have := heads 0 binding.processGeneration
  have := heads 0 4
  have := heads 0 binding.listenerEpoch
  have := heads 0 5
  have := heads 2 32
  omega

theorem writeFinished_performs (role : Nat) :
    Performs aead side peer c (fun frame => [frame]) (fun _ => none) (fun _ => none)
      (c.writeFinished (aead.noise handshakes side peer) role) := by
  simp only [writeFinished, writeRecord]
  split
  · exact performs_error (failed_plain ⟨by decide, rfl⟩ rfl rfl)
  rename_i unsent
  have first : c.endpoint.sentFinished = false := by simpa [endpoint] using unsent
  split
  · exact performs_error (failed_plain ⟨by decide, rfl⟩ rfl rfl)
  rename_i hash _
  obtain ⟨record, complete, encoded, fits, kind, -⟩ := complete_encode .finished (finished_length_le c.binding role hash)
  simp only [complete, encoded]
  rcases encryptCounted_cases aead side peer handshakes c (wire_small fits) with
    ⟨error, after, eq, failed⟩ | ⟨t, records, bytes, had, eq⟩
  · simp only [eq]
    exact performs_error failed
  · simp only [eq]
    refine performs_ok ⟨rfl, [record], .writeFinished had first kind fits, ?_⟩
    simp [IdealAead.frames, nextNonce, had]

theorem encryptAll_ideal {t : AeadState} (notClosed : c.closed = false) (had : c.transport = some t)
    {records : List Record} (fits : ∀ record ∈ records, record.Encodable) :
    c.encryptAll (aead.noise handshakes side peer) (records.map Record.wire) = (.ok (aead.frames side t.sent records),
      { c with transport := some { t with sent := t.sent + records.length } }) := by
  induction records generalizing c t with
  | nil => simp [encryptAll, IdealAead.frames, ← had]
  | cons record rest ih =>
      have first : c.encrypt (aead.noise handshakes side peer) record.wire = _ :=
        encrypt_ideal notClosed had (wire_small (fits record (by simp)))
      have others := ih (c := { c with transport := some { t with sent := t.sent + 1 } })
        (t := { t with sent := t.sent + 1 }) notClosed rfl fun r member => fits r (by simp [member])
      simp only [List.map_cons, encryptAll, first, others]
      simp [IdealAead.frames, Nat.add_assoc, Nat.add_comm 1]

theorem writeApplication_performs (payload : Bytes) (cap : Nat) :
    Performs aead side peer c id (fun _ => some payload) (fun _ => none)
      (c.writeApplication (aead.noise handshakes side peer) payload cap) := by
  have failed : Failed aead side c (c.recordLimitError (aead.noise handshakes side peer)).1
      (c.recordLimitError (aead.noise handshakes side peer)).2 :=
    recordLimitErrorWithHandoff_failed aead side peer handshakes c c.handoff
  simp only [writeApplication]
  split
  · exact performs_error (failed_plain ⟨by decide, rfl⟩ rfl rfl)
  rename_i ready
  obtain ⟨⟨⟨sent, got⟩, turn⟩, nonempty⟩ : ((c.sentFinished = true ∧ c.gotFinished = true) ∧ c.peerTurn = false) ∧
      payload ≠ [] := by simpa using ready
  split
  · exact performs_error (failed_plain ⟨by decide, rfl⟩ rfl rfl)
  cases fragmented : fragmentRecords .application payload with
  | error error =>
      refine performs_error (failed_plain ?_ rfl rfl)
      rw [fragmentRecords_eq] at fragmented
      split at fragmented
      · cases fragmented
        exact ⟨by decide, rfl⟩
      · cases fragmented
  | ok plaintexts =>
      have both : payload.length < 2 ^ 32 ∧ plaintexts = (fragments .application payload).map Record.wire := by
        rw [fragmentRecords_eq] at fragmented
        split at fragmented
        · cases fragmented
        · cases fragmented
          exact ⟨by omega, rfl⟩
      obtain ⟨small, shape⟩ := both
      dsimp only
      cases total : messageBytes plaintexts with
      | none =>
          exact performs_error failed
      | some bytes =>
          simp only [sendUsageAfter_eq]
          split
          · cases ‹Except.ok _ = Except.error _›
          · exact performs_error failed
          · by_cases isOpen : c.Open
            · obtain ⟨notClosed, present⟩ := isOpen
              obtain ⟨t, had⟩ := Option.isSome_iff_exists.mp present
              have sealed : c.encryptAll (aead.noise handshakes side peer) plaintexts = _ :=
                shape ▸ encryptAll_ideal notClosed had (fragments_encodable .application small)
              simp only [sealed]
              refine performs_ok ⟨rfl, fragments .application payload, .write had sent turn nonempty small, ?_⟩
              have nonce : c.nextNonce = t.sent := by simp [nextNonce, had]
              rw [id_eq, nonce]
            · have some : plaintexts ≠ [] := by
                rw [shape]
                simpa [fragments] using (fragmentCount_pos nonempty).ne'
              simp only [encryptAll_closed isOpen some]
              exact performs_error (failed_plain ⟨by decide, rfl⟩ rfl rfl)

theorem writeClose_performs (reason : CloseReason) (handoff : HandoffState) :
    Performs aead side peer c (fun frame => [frame]) (fun _ => none) (fun _ => none)
      (c.writeClose (aead.noise handshakes side peer) reason handoff) := by
  have small : (closePayload reason (c.handoff.conservativeMax handoff)).length ≤ recordDataMax := by
    simp [recordDataMax]
  obtain ⟨record, complete, encoded, fits, kind, -⟩ := complete_encode .close small
  simp only [writeClose, complete, encoded, sendUsageAfter_eq]
  split
  · cases ‹Except.ok _ = Except.error _›
  · exact performs_error (recordLimitErrorWithHandoff_failed aead side peer handshakes c _)
  · by_cases isOpen : c.Open
    · obtain ⟨notClosed, present⟩ := isOpen
      obtain ⟨t, had⟩ := Option.isSome_iff_exists.mp present
      simp only [encrypt_ideal notClosed had (wire_small fits)]
      refine performs_ok ⟨rfl, [record], .close had kind fits rfl rfl rfl, ?_⟩
      simp [IdealAead.frames, nextNonce, had]
    · simp only [encrypt_closed isOpen]
      exact performs_error (failed_plain ⟨by decide, rfl⟩ rfl rfl)

/-- The reassembler never attaches a frame to its errors. -/
theorem accept_closeFrame {r r' : RecordReassembler} {record : Record} {error : Error}
    (h : r.accept record = (.error error, r')) : error.closeFrame = none := by
  by_cases exceeds : r.Exceeds record
  · simp only [RecordReassembler.accept, RecordReassembler.acceptBody] at h
    unfold RecordReassembler.Exceeds at exceeds
    simp only [if_pos exceeds] at h
    split at h
    · cases h
      rfl
    · cases h
      rfl
  · have plain := RecordReassembler.plain_accept exceeds
    rw [h] at plain
    exact (plain error rfl).2

theorem validated_kind {record : Record} {kind : RecordKind} {value : Unit}
    (h : validateCompleteRecord record kind = .ok value) : record.kind = kind := by
  by_contra other
  simp [validateCompleteRecord, other] at h

theorem opens_of_decrypt {t t' : AeadState} {outer plaintext : Bytes}
    (h : (aead.noise handshakes side peer).decryptTransport t outer = .ok (plaintext, t')) :
    Opens aead side peer t plaintext ∧ t' = { t with received := t.received + 1 } := by
  unfold Noise.decryptTransport at h
  split at h
  · cases h
  · rename_i ciphertext _
    simp only [IdealAead.noise] at h
    split at h
    · rename_i next
      cases decrypted : aead.decrypt side.peer t.received ciphertext with
      | none => simp [decrypted, core] at h
      | some value =>
          simp only [decrypted, Option.map_some, core, Except.ok.injEq, Prod.mk.injEq] at h
          obtain ⟨rfl, rfl⟩ := h
          exact ⟨⟨ciphertext, next, decrypted⟩, rfl⟩
    · cases h

variable (aead side peer handshakes c) in
/-- Reading fails, or takes the next record of the peer. -/
theorem readRecord_cases (outer : Bytes) :
    (∃ error after, c.readRecord (aead.noise handshakes side peer) outer = (.error error, after) ∧
      Failed aead side c error after) ∨
    ∃ t plaintext record records bytes, c.transport = some t ∧ Opens aead side peer t plaintext ∧
      Record.decode plaintext = .ok record ∧
      c.readRecord (aead.noise handshakes side peer) outer = (.ok record,
        { c with
          transport := some { t with received := t.received + 1 }
          receivedRecords := records, receivedPlaintext := bytes }) := by
  rcases decryptCounted_cases (aead.noise handshakes side peer) c outer with
    ⟨error, plain, eq⟩ | ⟨t, plaintext, t', -, had, decrypted, eq | ⟨-, -, eq⟩⟩
  · exact .inl ⟨error, c, by simp only [readRecord, eq], failed_plain plain rfl rfl⟩
  · obtain ⟨-, rfl⟩ := opens_of_decrypt decrypted
    refine .inl ⟨_, _, by simp only [readRecord, eq]; rfl, ?_⟩
    obtain ⟨limits, turn, none | ⟨t', record, same, rest⟩⟩ := recordLimitErrorWithHandoff_failed aead side peer
      handshakes { c with transport := some { t with received := t.received + 1 } } c.handoff
    · exact ⟨limits, turn, .inl none⟩
    · cases same
      exact ⟨limits, turn, .inr ⟨t, record, had, rest⟩⟩
  · obtain ⟨opens, rfl⟩ := opens_of_decrypt decrypted
    cases decoded : Record.decode plaintext with
    | error error =>
        refine .inl ⟨error, _, by simp only [readRecord, eq, decoded]; rfl, ?_⟩
        exact failed_plain (plain_decode plaintext error decoded) rfl rfl
    | ok record =>
        refine .inr ⟨t, plaintext, record, c.receivedRecords + 1, c.receivedPlaintext + plaintext.length, had, opens,
          decoded, ?_⟩
        simp only [readRecord, eq, decoded]

theorem readFinished_performs (outer : Bytes) (role : Nat) :
    Performs aead side peer c (fun _ => []) (fun _ => none) (fun _ => none)
      (c.readFinished (aead.noise handshakes side peer) outer role) := by
  simp only [readFinished]
  split
  · exact performs_error (failed_plain ⟨by decide, rfl⟩ rfl rfl)
  rename_i unread
  have first : c.endpoint.gotFinished = false := by simpa [endpoint] using unread
  split
  · exact performs_error (failed_plain ⟨by decide, rfl⟩ rfl rfl)
  rename_i hash _
  rcases readRecord_cases aead side peer handshakes c outer with
    ⟨error, after, eq, failed⟩ | ⟨t, plaintext, record, records, bytes, had, opens, decodes, eq⟩
  · simp only [eq]
    exact performs_error failed
  · simp only [eq]
    split
    · exact performs_error (failed_plain (plain_validateCompleteRecord _ _ _ ‹_›) rfl rfl)
    rename_i valid
    split
    · exact performs_error (failed_plain (plain_parseFinished _ _ _ _ ‹_›) rfl rfl)
    split
    · exact performs_error (failed_plain ⟨by decide, rfl⟩ rfl rfl)
    · refine performs_ok ⟨rfl, [], .readFinished had first opens decodes (validated_kind valid), rfl⟩

theorem readClose_performs (outer : Bytes) :
    Performs aead side peer c (fun _ => []) (fun _ => none) (fun _ => none)
      (c.readClose (aead.noise handshakes side peer) outer) := by
  simp only [readClose]
  split
  · exact performs_error (failed_plain ⟨by decide, rfl⟩ rfl rfl)
  rcases readRecord_cases aead side peer handshakes c outer with
    ⟨error, after, eq, failed⟩ | ⟨t, plaintext, record, records, bytes, had, opens, decodes, eq⟩
  · simp only [eq]
    exact performs_error failed
  · simp only [eq]
    split
    · exact performs_error (failed_plain (plain_validateCompleteRecord _ _ _ ‹_›) rfl rfl)
    split
    · exact performs_error (failed_plain (plain_parseClose _ _ ‹_›) rfl rfl)
    · exact performs_ok ⟨rfl, [], .stop rfl rfl rfl, rfl⟩

theorem readApplication_performs (outer : Bytes) :
    Performs aead side peer c (fun _ => []) (fun _ => none) id
      (c.readApplication (aead.noise handshakes side peer) outer) := by
  simp only [readApplication]
  split
  · exact performs_error (failed_plain ⟨by decide, rfl⟩ rfl rfl)
  rename_i ready
  obtain ⟨-, got⟩ : c.sentFinished = true ∧ c.gotFinished = true := by simpa using ready
  rcases readRecord_cases aead side peer handshakes c outer with
    ⟨error, after, eq, failed⟩ | ⟨t, plaintext, record, records, bytes, had, opens, decodes, eq⟩
  · simp only [eq]
    exact performs_error failed
  simp only [eq]
  split
  · split
    · exact performs_error (failed_plain (plain_validateCompleteRecord _ _ _ ‹_›) rfl rfl)
    split
    · exact performs_error (failed_plain (plain_parseClose _ _ ‹_›) rfl rfl)
    · exact performs_error (failed_plain ⟨by simp [Error.ofPeerClose], rfl⟩ rfl rfl)
  split
  · exact performs_error (failed_plain ⟨by decide, rfl⟩ rfl rfl)
  rename_i turn
  split
  · exact performs_error (failed_plain ⟨by decide, rfl⟩ rfl rfl)
  rename_i kind
  split
  · rename_i error r' rejected
    refine performs_error ⟨rfl, rfl, .inl ?_⟩
    exact accept_closeFrame rejected
  · rename_i r' accepts
    exact performs_ok ⟨rfl, [], .fragment had got opens decodes (by simpa using kind) rfl accepts, rfl⟩
  · rename_i messageKind message r' accepts
    split
    · exact performs_error (failed_plain ⟨by decide, rfl⟩ rfl rfl)
    · have waiting : c.endpoint.peerTurn = true := by simpa [endpoint] using turn
      exact performs_ok ⟨rfl, [], .deliver had got waiting opens decodes (by simpa using kind) rfl accepts, rfl⟩

/-- A handshake message leaves the endpoint as it is. -/
structure Handshook (c c' : SessionCore H AeadState) : Prop where
  endpoint : c'.endpoint = c.endpoint
  limits : c'.limits = c.limits

theorem writeHandshake_cases (noise : Noise R H AeadState) (c : SessionCore H AeadState) (payload : Bytes) :
    (∃ error, error.Plain ∧ c.writeHandshake noise payload = (.error error, c)) ∨
    ∃ frame after, c.writeHandshake noise payload = (.ok frame, after) ∧ Handshook c after := by
  unfold writeHandshake
  cases had : c.handshake with
  | none => exact .inl ⟨_, ⟨by decide, rfl⟩, rfl⟩
  | some state =>
      cases written : noise.writeHandshakeFrame state payload with
      | error error =>
          simp only [written]
          exact .inl ⟨error, plain_writeHandshakeFrame state payload error written, rfl⟩
      | ok value =>
          simp only [written]
          exact .inr ⟨_, _, rfl, by simp [SessionCore.endpoint, had], rfl⟩

theorem readHandshake_cases (noise : Noise R H AeadState) (c : SessionCore H AeadState) (outer : Bytes) :
    (∃ error after, error.Plain ∧ c.readHandshake noise outer = (.error error, after) ∧ Handshook c after) ∨
    ∃ after, c.readHandshake noise outer = (.ok (), after) ∧ Handshook c after := by
  unfold readHandshake
  cases had : c.handshake with
  | none => exact .inl ⟨_, c, ⟨by decide, rfl⟩, rfl, rfl, rfl⟩
  | some state =>
      cases read : noise.readHandshakeFrame state outer with
      | error error =>
          simp only [read]
          exact .inl ⟨error, c, plain_readHandshakeFrame state outer error read, rfl, rfl, rfl⟩
      | ok value =>
          simp only [read]
          split
          · exact .inr ⟨_, rfl, by simp [SessionCore.endpoint, had], rfl⟩
          · exact .inl ⟨_, _, ⟨by decide, rfl⟩, rfl, by simp [SessionCore.endpoint, had], rfl⟩

theorem finishHandshake_cases (c : SessionCore H AeadState) :
    (∃ error after, error.Plain ∧ c.finishHandshake (aead.noise handshakes side peer) = (.error error, after) ∧
      after.peerTurn = c.peerTurn ∧ after.limits = c.limits) ∨
    ∃ after, c.finishHandshake (aead.noise handshakes side peer) = (.ok (), after) ∧ after.limits = c.limits ∧
      c.endpoint.handshaking = true ∧
      after.endpoint = { c.endpoint with handshaking := false, transport := some ⟨0, 0⟩ } := by
  unfold finishHandshake
  cases had : c.handshake with
  | none => exact .inl ⟨_, c, ⟨by decide, rfl⟩, rfl, rfl, rfl⟩
  | some state =>
      have into : core ((aead.noise handshakes side peer).intoTransport state) =
          core ((handshakes.intoTransport state).map fun _ => ⟨0, 0⟩) := rfl
      simp only [into]
      cases handshakes.intoTransport state with
      | none =>
          refine .inl ⟨.new .authenticationFailed,
            { c with handshake := none, sessionHash := some (handshakes.handshakeHash state) }, ?_⟩
          exact ⟨⟨by decide, rfl⟩, rfl, rfl, rfl⟩
      | some value =>
          refine .inr ⟨{ c with
            handshake := none, sessionHash := some (handshakes.handshakeHash state), transport := some ⟨0, 0⟩ }, ?_⟩
          exact ⟨rfl, rfl, by simp [SessionCore.endpoint, had], rfl⟩

theorem writeHandshake_performs (payload : Bytes) :
    Performs aead side peer c (fun _ => []) (fun _ => none) (fun _ => none)
      (c.writeHandshake (aead.noise handshakes side peer) payload) := by
  rcases writeHandshake_cases (aead.noise handshakes side peer) c payload with
    ⟨error, plain, eq⟩ | ⟨frame, after, eq, same⟩
  · rw [eq]
    exact performs_error (failed_plain plain rfl rfl)
  · rw [eq]
    exact performs_ok (acts_keep same.endpoint same.limits)

/-- The last step of both handshakes. -/
theorem finishHandshake_performs {first : SessionCore H AeadState} (same : Handshook first c) :
    Performs aead side peer first (fun _ => []) (fun _ => none) (fun _ => none)
      (c.finishHandshake (aead.noise handshakes side peer)) := by
  have turn : c.peerTurn = first.peerTurn := congrArg Endpoint.peerTurn same.endpoint
  rcases finishHandshake_cases c with ⟨error, after, plain, eq, afterTurn, limits⟩ | ⟨after, eq, limits, had, shows⟩
  · rw [eq]
    exact performs_error (failed_plain plain (limits.trans same.limits) (afterTurn.trans turn))
  · rw [eq]
    refine performs_ok ⟨limits.trans same.limits, [], ?_, rfl⟩
    rw [shows, same.endpoint]
    exact .establish (same.endpoint ▸ had)

theorem readHandshakeFinish_performs (outer : Bytes) :
    Performs aead side peer c (fun _ => []) (fun _ => none) (fun _ => none)
      (c.readHandshakeFinish (aead.noise handshakes side peer) outer) := by
  unfold readHandshakeFinish
  rcases readHandshake_cases (aead.noise handshakes side peer) c outer with
    ⟨error, after, plain, eq, same⟩ | ⟨after, eq, same⟩
  · rw [eq]
    exact performs_error (failed_plain plain same.limits (congrArg Endpoint.peerTurn same.endpoint))
  · rw [eq]
    exact finishHandshake_performs same

theorem eof_acts : Acts aead side peer c (framesOf (fun _ => []) c.eof.1) none none c.eof.2 := by
  unfold eof
  split
  · exact acts_keep rfl rfl
  · unfold RecordReassembler.eof
    by_cases failed : c.reassembly.failed
    · simp only [if_pos failed]
      exact ⟨rfl, [], .stop rfl rfl rfl, rfl⟩
    · by_cases active : c.reassembly.active.isSome
      · simp only [if_neg failed, if_pos active]
        exact ⟨rfl, [], .stop rfl rfl rfl, rfl⟩
      · simp only [if_neg failed, if_neg active]
        exact ⟨rfl, [], .stop rfl rfl rfl, rfl⟩

theorem validateBinding_acts (generation epoch : Nat) :
    Acts aead side peer c (framesOf (fun _ => []) (c.validateBinding generation epoch).1) none none
      (c.validateBinding generation epoch).2 := by
  unfold validateBinding
  split
  · exact ⟨rfl, [], .stop rfl rfl rfl, rfl⟩
  · exact acts_keep rfl rfl

end SessionCore

end

end AppPilotKit.Transport
