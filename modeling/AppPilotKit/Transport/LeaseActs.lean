import AppPilotKit.Transport.Payloads
import AppPilotKit.Transport.Absorbing

/-! # Lease connections over an ideal ordered AEAD

Every call on a lease connection ends it, possibly after one Close record,
sends one heartbeat or takes one heartbeat of the peer. `LeaseAct` lists these
with the counters and the room they leave for a Close.
-/

namespace AppPilotKit.Transport

open Wire

variable {R H : Type}

/-- A message that fits one record. -/
def wholeRecord (kind : RecordKind) (data : Bytes) : Record :=
  { kind, start := true, «end» := true, totalLen := data.length, offset := 0, data }

theorem wholeRecord_encodable (kind : RecordKind) {data : Bytes} (small : data.length ≤ recordDataMax) :
    (wholeRecord kind data).Encodable := by
  refine ⟨?_, by simp [wholeRecord], small⟩
  unfold recordDataMax at small
  simp only [wholeRecord]
  omega

theorem completeRecord_ok {kind : RecordKind} {data : Bytes} {record : Record}
    (h : completeRecord kind data = .ok record) : record = wholeRecord kind data := by
  unfold completeRecord at h
  split at h
  · cases h
    rfl
  · cases h

/-- What `heartbeat_payload` writes. -/
def heartbeatBytes (role : Nat) (binding : LeaseBinding) (counter : Nat) : Bytes :=
  Cbor.map 5 ++ Cbor.uint 0 ++ Cbor.uint role ++ Cbor.uint 1 ++ Cbor.bytes binding.leaseId.bytes
    ++ Cbor.uint 2 ++ Cbor.uint binding.processGeneration ++ Cbor.uint 3 ++ Cbor.uint binding.listenerEpoch
    ++ Cbor.uint 4 ++ Cbor.uint counter

def heartbeatRecord (role : Nat) (binding : LeaseBinding) (counter : Nat) : Record :=
  wholeRecord .heartbeat (heartbeatBytes role binding counter)

theorem heartbeatPayload_ok {role counter : Nat} {binding : LeaseBinding} {payload : Bytes}
    (h : heartbeatPayload role binding counter = .ok payload) : payload = heartbeatBytes role binding counter := by
  unfold heartbeatPayload at h
  split at h
  · cases h
  · cases h
    rfl

theorem heartbeatBytes_length_le (role : Nat) (binding : LeaseBinding) (counter : Nat) :
    (heartbeatBytes role binding counter).length ≤ recordDataMax := by
  have heads := Cbor.head_length_le
  simp only [heartbeatBytes, Cbor.map, Cbor.uint, Cbor.bytes, List.length_append, binding.leaseId.size, recordDataMax]
  have := heads 5 5
  have := heads 0 0
  have := heads 0 role
  have := heads 0 1
  have := heads 2 16
  have := heads 0 2
  have := heads 0 binding.processGeneration
  have := heads 0 3
  have := heads 0 binding.listenerEpoch
  have := heads 0 4
  have := heads 0 counter
  omega

theorem heartbeatRecord_encodable (role : Nat) (binding : LeaseBinding) (counter : Nat) :
    (heartbeatRecord role binding counter).Encodable :=
  wholeRecord_encodable .heartbeat (heartbeatBytes_length_le role binding counter)

/-- A heartbeat payload determines its counter, whatever it is bound to. -/
theorem heartbeatBytes_inj {role a b : Nat} {binding binding' : LeaseBinding} (smallA : a < 2 ^ 64)
    (smallB : b < 2 ^ 64) (h : heartbeatBytes role binding a = heartbeatBytes role binding' b) : a = b := by
  simp only [heartbeatBytes, List.append_assoc] at h
  have afterRole := (Cbor.uint_append (Cbor.uint_append (Cbor.uint_append (Cbor.head_append h).2).2).2).2
  have sizes : binding.leaseId.bytes.length = binding'.leaseId.bytes.length := by
    rw [binding.leaseId.size, binding'.leaseId.size]
  have afterLease := (Cbor.uint_append (Cbor.bytes_append sizes afterRole).2).2
  have afterGeneration := (Cbor.uint_append (Cbor.uint_append afterLease).2).2
  have afterEpoch := (Cbor.uint_append (Cbor.uint_append afterGeneration).2).2
  exact Cbor.uint_inj smallA smallB afterEpoch

/-- What `parse_heartbeat` accepts is canonical. -/
theorem parseHeartbeat_bytes {data : Bytes} {role counter : Nat} {binding : LeaseBinding}
    (h : parseHeartbeat data role binding = .ok counter) :
    data = heartbeatBytes role binding counter ∧ counter < 2 ^ 64 :=
  ⟨heartbeatPayload_ok (parseHeartbeat_ok h).1, (parseHeartbeat_ok h).2.2⟩

theorem plain_parseHeartbeat (data : Bytes) (role : Nat) (binding : LeaseBinding) :
    PlainFailure (parseHeartbeat data role binding) := by
  unfold parseHeartbeat
  refine plain_bind (plain_expectMap _ _) fun _ => plain_bind (plain_expectU8 _ _) fun _ => ?_
  refine plain_bind (plain_expectU8 _ _) fun _ => plain_bind (plain_expectU8 _ _) fun _ => ?_
  refine plain_bind (plain_readFixed _ _) fun _ => plain_bind (plain_expectU8 _ _) fun _ => ?_
  refine plain_bind (plain_decoded _) fun _ => plain_bind (plain_expectU8 _ _) fun _ => ?_
  refine plain_bind (plain_decoded _) fun _ => plain_bind (plain_expectU8 _ _) fun _ => ?_
  refine plain_bind (plain_decoded _) fun _ => ?_
  refine plain_ite (plain_throw_bind (by decide)) ?_
  refine plain_ite (plain_throw_bind (by decide)) ?_
  refine plain_bind (plain_ite (plain_new (by decide)) (plain_ok _)) fun _ => ?_
  exact plain_ite (plain_throw_bind (by decide)) (plain_ok _)

/-! ## The core -/

variable (aead : IdealAead) (side : Side) (peer : List Bytes)

/-- A failure before the connection is closed: it may carry the Close that was
    still paid for. -/
structure LeaseFailed (c : LeaseCore AeadState) (error : Error) (c' : LeaseCore AeadState) : Prop where
  pending : c'.pendingHeartbeat = c.pendingHeartbeat
  last : c'.lastHeartbeat = c.lastHeartbeat
  received : c.receivedRecords < recordLimit ∧ c.receivedPlaintext < byteLimit →
    c'.receivedRecords < recordLimit ∧ c'.receivedPlaintext < byteLimit
  frame : (error.closeFrame = none ∧ c'.sentRecords = c.sentRecords ∧ c'.sentPlaintext = c.sentPlaintext) ∨
    ∃ (t : AeadState) (record : Record), c.transport = some t ∧ record.kind = .close ∧ record.Encodable ∧
      error.closeFrame = some (aead.frame side t.sent record.wire) ∧
      c'.sentRecords = c.sentRecords + 1 ∧ c'.sentPlaintext = c.sentPlaintext + record.wire.length ∧
      c'.sentRecords < recordLimit ∧ c'.sentPlaintext < byteLimit

/-- The room a heartbeat has to leave for one Close. -/
def LeaseCore.Room (c : LeaseCore AeadState) (record : Record) : Prop :=
  c.sentRecords + 1 + 1 < recordLimit ∧ c.sentPlaintext + record.wire.length + closeRecordLen < byteLimit

namespace LeaseCore

variable {aead side peer} {handshakes : Noise R H Unit} {c c' : LeaseCore AeadState}

theorem usageAfter_eq (c : LeaseCore AeadState) (plaintext : Bytes) (reserve : Option Nat) :
    c.usageAfter plaintext reserve =
      if c.sentRecords + 1 + reserve.isSome.toNat < recordLimit ∧
          c.sentPlaintext + plaintext.length + reserve.getD 0 < byteLimit then
        some (c.sentRecords + 1, c.sentPlaintext + plaintext.length) else none := by
  unfold usageAfter checkedAdd
  by_cases records : c.sentRecords + 1 < 2 ^ 64
  · by_cases bytes : c.sentPlaintext + plaintext.length < 2 ^ 64
    · rw [if_pos records, if_pos bytes]
      cases reserve with
      | none =>
          simp only [Option.isSome_none, Bool.toNat_false, Option.getD_none, Nat.add_zero]
          split_ifs <;> first | rfl | omega
      | some closeLen =>
          simp only [Option.isSome_some, Bool.toNat_true, Option.getD_some]
          unfold recordLimit byteLimit
          split_ifs <;> first | rfl | omega | (simp only; split_ifs <;> first | rfl | omega)
    · rw [if_pos records, if_neg bytes, if_neg]
      unfold byteLimit
      omega
  · have exceeds : ¬ (c.sentRecords + 1 + reserve.isSome.toNat < recordLimit ∧
        c.sentPlaintext + plaintext.length + reserve.getD 0 < byteLimit) := by
      unfold recordLimit
      omega
    simp only [if_neg records, if_neg exceeds]

/-- The counters a record is paid with. -/
theorem usageAfter_some {plaintext : Bytes} {reserve : Option Nat} {records bytes : Nat}
    (h : c.usageAfter plaintext reserve = some (records, bytes)) :
    (c.sentRecords + 1 + reserve.isSome.toNat < recordLimit ∧
      c.sentPlaintext + plaintext.length + reserve.getD 0 < byteLimit) ∧
      records = c.sentRecords + 1 ∧ bytes = c.sentPlaintext + plaintext.length := by
  rw [usageAfter_eq] at h
  split at h
  · rename_i room
    cases h
    exact ⟨room, rfl, rfl⟩
  · cases h

theorem encrypt_ideal {t : AeadState} (notClosed : c.closed = false) (had : c.transport = some t) {plaintext : Bytes}
    (small : plaintext.length ≤ recordHeaderLen + recordDataMax) :
    c.encrypt (aead.noise handshakes side peer) plaintext = (.ok (aead.frame side t.sent plaintext),
      { c with transport := some { t with sent := t.sent + 1 } }) := by
  simp [encrypt, openTransport, notClosed, had, encryptTransport_ideal t small]

/-- An open connection encrypts; any other fails. -/
theorem encrypt_cases {plaintext : Bytes} (small : plaintext.length ≤ recordHeaderLen + recordDataMax) :
    c.encrypt (aead.noise handshakes side peer) plaintext = (.error (.new .sequenceViolation), c) ∨
    ∃ t, c.closed = false ∧ c.transport = some t ∧
      c.encrypt (aead.noise handshakes side peer) plaintext = (.ok (aead.frame side t.sent plaintext),
        { c with transport := some { t with sent := t.sent + 1 } }) := by
  by_cases closed : c.closed = true
  · exact .inl (by simp [encrypt, openTransport, closed])
  · have notClosed : c.closed = false := by simpa using closed
    cases had : c.transport with
    | none => exact .inl (by simp [encrypt, openTransport, notClosed, had])
    | some t => exact .inr ⟨t, notClosed, rfl, encrypt_ideal notClosed had small⟩

variable (aead side peer handshakes c) in
theorem limitError_failed :
    LeaseFailed aead side c (c.limitError (aead.noise handshakes side peer)).1
      (c.limitError (aead.noise handshakes side peer)).2 := by
  obtain ⟨record, kind, fits, close⟩ := SessionCore.limitClose_record .notHandedOff
  simp only [limitError, close]
  split
  · exact ⟨rfl, rfl, id, .inl ⟨rfl, rfl, rfl⟩⟩
  · rename_i records bytes usage
    obtain ⟨⟨room, space⟩, rfl, rfl⟩ := usageAfter_some usage
    rcases encrypt_cases (SessionCore.wire_small fits) with failed | ⟨t, notClosed, had, encrypted⟩
    · rw [failed]
      exact ⟨rfl, rfl, id, .inl ⟨rfl, rfl, rfl⟩⟩
    · rw [encrypted]
      exact ⟨rfl, rfl, id, .inr ⟨t, record, had, kind, fits, rfl, rfl, rfl, room, space⟩⟩

theorem failed_silent {error : Error} (silent : error.closeFrame = none) : LeaseFailed aead side c error c :=
  ⟨rfl, rfl, id, .inl ⟨silent, rfl, rfl⟩⟩

variable (aead side peer handshakes c) in
/-- Writing a record fails, or seals it with the room its kind has to leave. -/
theorem writeRecord_cases (kind : RecordKind) {data : Bytes} (small : data.length ≤ recordDataMax) :
    (∃ error after, c.writeRecord (aead.noise handshakes side peer) kind data = (.error error, after) ∧
      LeaseFailed aead side c error after) ∨
    ∃ t, c.closed = false ∧ c.transport = some t ∧
      (if kind = .close then c.sentRecords + 1 < recordLimit ∧
          c.sentPlaintext + (wholeRecord kind data).wire.length < byteLimit
        else c.Room (wholeRecord kind data)) ∧
      c.writeRecord (aead.noise handshakes side peer) kind data =
        (.ok (aead.frame side t.sent (wholeRecord kind data).wire),
          { c with
            transport := some { t with sent := t.sent + 1 }, sentRecords := c.sentRecords + 1
            sentPlaintext := c.sentPlaintext + (wholeRecord kind data).wire.length }) := by
  obtain ⟨close, closeEq, closeLen⟩ := limitClosePlaintext_ok .notHandedOff
  have complete : completeRecord kind data = .ok (wholeRecord kind data) := completeRecord_of small
  have encoded : (wholeRecord kind data).encode = .ok (wholeRecord kind data).wire := Record.encode_of small
  simp only [writeRecord, complete, encoded, closeEq]
  split
  · exact .inl ⟨_, _, rfl, limitError_failed aead side peer handshakes c⟩
  · rename_i records bytes usage
    obtain ⟨room, rfl, rfl⟩ := usageAfter_some usage
    rcases encrypt_cases (SessionCore.wire_small (wholeRecord_encodable kind small)) with
      failed | ⟨t, notClosed, had, encrypted⟩
    · rw [failed]
      exact .inl ⟨_, _, rfl, failed_silent rfl⟩
    · rw [encrypted]
      refine .inr ⟨t, notClosed, had, ?_, rfl⟩
      split_ifs with isClose
      · simpa [isClose] using room
      · simpa [isClose, Room, closeLen] using room

variable (aead side peer handshakes c) in
/-- Decrypting fails, or takes the next ciphertext of the peer. -/
theorem decryptCounted_cases (outer : Bytes) :
    (∃ error after, c.decryptCounted (aead.noise handshakes side peer) outer = (.error error, after) ∧
      LeaseFailed aead side c error after) ∨
    ∃ t plaintext, c.closed = false ∧ c.transport = some t ∧ Opens aead side peer t plaintext ∧
      c.receivedRecords + 1 < recordLimit ∧ c.receivedPlaintext + plaintext.length < byteLimit ∧
      c.decryptCounted (aead.noise handshakes side peer) outer = (.ok plaintext,
        { c with
          transport := some { t with received := t.received + 1 }, receivedRecords := c.receivedRecords + 1
          receivedPlaintext := c.receivedPlaintext + plaintext.length }) := by
  by_cases closed : c.closed = true
  · exact .inl ⟨.new .sequenceViolation, c, by simp [decryptCounted, openTransport, closed], failed_silent rfl⟩
  have notClosed : c.closed = false := by simpa using closed
  cases had : c.transport with
  | none =>
      exact .inl ⟨.new .sequenceViolation, c, by simp [decryptCounted, openTransport, notClosed, had], failed_silent rfl⟩
  | some t =>
      have usable : c.openTransport = .ok t := by simp [openTransport, notClosed, had]
      cases decrypted : (aead.noise handshakes side peer).decryptTransport t outer with
      | error error =>
          exact .inl ⟨error, c, by simp [decryptCounted, usable, decrypted],
            failed_silent (plain_decryptTransport t outer error decrypted).2⟩
      | ok value =>
          obtain ⟨plaintext, t'⟩ := value
          obtain ⟨opens, rfl⟩ := SessionCore.opens_of_decrypt decrypted
          -- a limit error is one of the connection that has already advanced
          have limited := limitError_failed aead side peer handshakes
            { c with transport := some { t with received := t.received + 1 } }
          have failed : LeaseFailed aead side c _ _ := {
            pending := limited.pending
            last := limited.last
            received := limited.received
            frame := by
              rcases limited.frame with silent | ⟨t', record, same, rest⟩
              · exact .inl silent
              · cases same
                exact .inr ⟨t, record, had, rest⟩
          }
          simp only [decryptCounted, usable, decrypted]
          split
          · rename_i records bytes addRecords addBytes
            obtain rfl := checkedAdd_eq addRecords
            obtain rfl := checkedAdd_eq addBytes
            split
            · exact .inl ⟨_, _, rfl, failed⟩
            · exact .inr ⟨t, plaintext, notClosed, rfl, opens, by omega, by omega, rfl⟩
          · exact .inl ⟨_, _, rfl, failed⟩

/-- A failure after a record was taken. -/
theorem failed_read {error : Error} {transport : Option AeadState} {records bytes : Nat}
    (silent : error.closeFrame = none) (within : records < recordLimit ∧ bytes < byteLimit) :
    LeaseFailed aead side c error
      { c with transport, receivedRecords := records, receivedPlaintext := bytes } :=
  ⟨rfl, rfl, fun _ => within, .inl ⟨silent, rfl, rfl⟩⟩

theorem heartbeatOf_silent {role : Nat} {plaintext : Bytes} {error : Error}
    (h : c.heartbeatOf role plaintext = .error error) : error.closeFrame = none := by
  unfold heartbeatOf at h
  rcases Checks.bind_error.mp h with failed | ⟨record, -, h⟩
  · exact (plain_decode plaintext error failed).2
  dsimp only at h
  split at h
  · rcases Checks.bind_error.mp h with failed | ⟨_, -, h⟩
    · exact (plain_validateCompleteRecord record .close error failed).2
    rcases Checks.bind_error.mp h with failed | ⟨⟨reason, handoff⟩, -, h⟩
    · exact (plain_parseClose record.data error failed).2
    · cases h
      rfl
  · rcases Checks.bind_error.mp h with failed | ⟨_, -, failed⟩
    · exact (plain_validateCompleteRecord record .heartbeat error failed).2
    · exact (plain_parseHeartbeat record.data role c.binding error failed).2

theorem closeOf_silent {plaintext : Bytes} {error : Error} (h : closeOf plaintext = .error error) :
    error.closeFrame = none := by
  unfold closeOf at h
  rcases Checks.bind_error.mp h with failed | ⟨record, -, h⟩
  · exact (plain_decode plaintext error failed).2
  rcases Checks.bind_error.mp h with failed | ⟨_, -, failed⟩
  · exact (plain_validateCompleteRecord record .close error failed).2
  · exact (plain_parseClose record.data error failed).2

theorem heartbeatOf_ok {role counter : Nat} {plaintext : Bytes} (h : c.heartbeatOf role plaintext = .ok counter) :
    ∃ record, Record.decode plaintext = .ok record ∧ record.kind = .heartbeat ∧
      record.data = heartbeatBytes role c.binding counter ∧ counter < 2 ^ 64 := by
  unfold heartbeatOf at h
  obtain ⟨record, decoded, h⟩ := Checks.bind_ok.mp h
  dsimp only at h
  split at h
  · obtain ⟨_, -, h⟩ := Checks.bind_ok.mp h
    obtain ⟨⟨reason, handoff⟩, -, h⟩ := Checks.bind_ok.mp h
    cases h
  · obtain ⟨_, valid, h⟩ := Checks.bind_ok.mp h
    exact ⟨record, decoded, SessionCore.validated_kind valid, parseHeartbeat_bytes h⟩

variable (aead side peer handshakes c) in
/-- Reading a heartbeat fails, or takes the next heartbeat of the peer. -/
theorem readHeartbeat_cases (outer : Bytes) (role : Nat) :
    (∃ error after, c.readHeartbeat (aead.noise handshakes side peer) outer role = (.error error, after) ∧
      LeaseFailed aead side c error after) ∨
    ∃ t plaintext record counter, c.closed = false ∧ c.transport = some t ∧ Opens aead side peer t plaintext ∧
      Record.decode plaintext = .ok record ∧ record.kind = .heartbeat ∧
      record.data = heartbeatBytes role c.binding counter ∧ counter < 2 ^ 64 ∧
      c.receivedRecords + 1 < recordLimit ∧ c.receivedPlaintext + plaintext.length < byteLimit ∧
      c.readHeartbeat (aead.noise handshakes side peer) outer role = (.ok counter,
        { c with
          transport := some { t with received := t.received + 1 }, receivedRecords := c.receivedRecords + 1
          receivedPlaintext := c.receivedPlaintext + plaintext.length }) := by
  rcases decryptCounted_cases aead side peer handshakes c outer with
    ⟨error, after, eq, failed⟩ | ⟨t, plaintext, notClosed, had, opens, records, bytes, eq⟩
  · exact .inl ⟨error, after, by simp only [readHeartbeat, eq], failed⟩
  · have same : ∀ (transport : Option AeadState) (records bytes : Nat),
        heartbeatOf { c with transport, receivedRecords := records, receivedPlaintext := bytes } role plaintext =
          c.heartbeatOf role plaintext := fun _ _ _ => rfl
    cases parsed : c.heartbeatOf role plaintext with
    | error error =>
        refine .inl ⟨error, _, by simp only [readHeartbeat, eq, same, parsed]; rfl, ?_⟩
        exact failed_read (heartbeatOf_silent parsed) ⟨records, bytes⟩
    | ok counter =>
        obtain ⟨record, decoded, kind, data, small⟩ := heartbeatOf_ok parsed
        exact .inr ⟨t, plaintext, record, counter, notClosed, had, opens, decoded, kind, data, small, records, bytes,
          by simp only [readHeartbeat, eq, same, parsed]⟩

variable (aead side peer handshakes c) in
/-- Writing a heartbeat fails, or seals one with room for a Close. -/
theorem writeHeartbeat_cases (role counter : Nat) :
    (∃ error after, c.writeHeartbeat (aead.noise handshakes side peer) role counter = (.error error, after) ∧
      LeaseFailed aead side c error after) ∨
    ∃ t, c.closed = false ∧ c.transport = some t ∧ c.Room (heartbeatRecord role c.binding counter) ∧
      c.writeHeartbeat (aead.noise handshakes side peer) role counter =
        (.ok (aead.frame side t.sent (heartbeatRecord role c.binding counter).wire),
          { c with
            transport := some { t with sent := t.sent + 1 }, sentRecords := c.sentRecords + 1
            sentPlaintext := c.sentPlaintext + (heartbeatRecord role c.binding counter).wire.length }) := by
  cases made : heartbeatPayload role c.binding counter with
  | error error =>
      refine .inl ⟨error, c, by simp only [writeHeartbeat, made], failed_silent ?_⟩
      unfold heartbeatPayload at made
      split at made
      · cases made
        rfl
      · cases made
  | ok payload =>
      obtain rfl := heartbeatPayload_ok made
      have small := heartbeatBytes_length_le role c.binding counter
      have same : c.writeHeartbeat (aead.noise handshakes side peer) role counter =
          c.writeRecord (aead.noise handshakes side peer) .heartbeat (heartbeatBytes role c.binding counter) := by
        simp only [writeHeartbeat, made]
      rw [same]
      rcases writeRecord_cases aead side peer handshakes c .heartbeat small with
        failed | ⟨t, notClosed, had, room, written⟩
      · exact .inl failed
      · exact .inr ⟨t, notClosed, had, by simpa [heartbeatRecord] using room, written⟩

end LeaseCore

/-! ## Acts -/

/-- One call of a side: the records it seals, the heartbeat it writes and the
    heartbeat it takes from a peer that writes in `peerRole`. -/
inductive LeaseAct (role peerRole : Nat) (c : LeaseCore AeadState) :
    List Record → Option Nat → Option Nat → LeaseCore AeadState → Prop where
  | stop {c'} (done : c'.Over) (sent : c'.sentRecords = c.sentRecords ∧ c'.sentPlaintext = c.sentPlaintext)
      (received : c.receivedRecords < recordLimit ∧ c.receivedPlaintext < byteLimit →
        c'.receivedRecords < recordLimit ∧ c'.receivedPlaintext < byteLimit) :
      LeaseAct role peerRole c [] none none c'
  | close {c' t record} (had : c.transport = some t) (kind : record.kind = .close) (fits : record.Encodable)
      (done : c'.Over)
      (sent : c'.sentRecords = c.sentRecords + 1 ∧ c'.sentPlaintext = c.sentPlaintext + record.wire.length)
      (within : c'.sentRecords < recordLimit ∧ c'.sentPlaintext < byteLimit)
      (received : c.receivedRecords < recordLimit ∧ c.receivedPlaintext < byteLimit →
        c'.receivedRecords < recordLimit ∧ c'.receivedPlaintext < byteLimit) :
      LeaseAct role peerRole c [record] none none c'
  | write {t counter pending last} (notClosed : c.closed = false) (had : c.transport = some t)
      (small : counter < 2 ^ 64) (room : c.Room (heartbeatRecord role c.binding counter)) :
      LeaseAct role peerRole c [heartbeatRecord role c.binding counter] (some counter) none
        { c with
          transport := some { t with sent := t.sent + 1 }, sentRecords := c.sentRecords + 1
          sentPlaintext := c.sentPlaintext + (heartbeatRecord role c.binding counter).wire.length
          pendingHeartbeat := pending, lastHeartbeat := last }
  | hear {t plaintext record counter pending last} (notClosed : c.closed = false) (had : c.transport = some t)
      (opens : Opens aead side peer t plaintext) (decodes : Record.decode plaintext = .ok record)
      (kind : record.kind = .heartbeat) (data : record.data = heartbeatBytes peerRole c.binding counter)
      (small : counter < 2 ^ 64) (records : c.receivedRecords + 1 < recordLimit)
      (bytes : c.receivedPlaintext + plaintext.length < byteLimit) :
      LeaseAct role peerRole c [] none (some counter)
        { c with
          transport := some { t with received := t.received + 1 }, receivedRecords := c.receivedRecords + 1
          receivedPlaintext := c.receivedPlaintext + plaintext.length
          pendingHeartbeat := pending, lastHeartbeat := last }

/-- The nonce of the next record a connection seals. -/
def LeaseCore.nextNonce (c : LeaseCore AeadState) : Nat :=
  match c.transport with
  | some t => t.sent
  | none => 0

/-- A call that hands out `frames` as an act. -/
def LeaseActs (role peerRole : Nat) (c : LeaseCore AeadState) (frames : List Bytes) (wrote heard : Option Nat)
    (c' : LeaseCore AeadState) : Prop :=
  ∃ records, LeaseAct aead side peer role peerRole c records wrote heard c' ∧
    frames = aead.frames side c.nextNonce records

/-- The counter of a successful `write_heartbeat_request`. -/
def BrokerLeaseCall.requested : BrokerLeaseCall → Except Error LeaseReply → Option Nat
  | .writeHeartbeatRequest counter, .ok _ => some counter.toNat
  | _, _ => none

/-- The counter `read_heartbeat_reply` has returned. -/
def BrokerLeaseCall.confirmed : BrokerLeaseCall → Except Error LeaseReply → Option Nat
  | .readHeartbeatReply _, .ok (.heartbeat counter) => some counter
  | _, _ => none

/-- The counter `read_heartbeat_request` has returned. -/
def TargetLeaseCall.accepted : TargetLeaseCall → Except Error LeaseReply → Option Nat
  | .readHeartbeatRequest _, .ok (.heartbeat counter) => some counter
  | _, _ => none

/-- The counter of a successful `write_heartbeat_reply`. -/
def TargetLeaseCall.replied : TargetLeaseCall → Except Error LeaseReply → Option Nat
  | .writeHeartbeatReply counter, .ok _ => some counter.toNat
  | _, _ => none

section Calls

open LeaseCore

variable {aead side peer} {handshakes : Noise R H Unit} {c c' : LeaseCore AeadState} {role peerRole : Nat}

theorem LeaseFailed.acts {error : Error} (h : LeaseFailed aead side c error c') :
    LeaseActs aead side peer role peerRole c error.closeFrame.toList none none c'.closeState := by
  rcases h.frame with ⟨silent, records, bytes⟩ | ⟨t, record, had, kind, fits, frame, records, bytes, within⟩
  · exact ⟨[], .stop (closeState_over c') ⟨records, bytes⟩ h.received, by simp [silent, IdealAead.frames]⟩
  · refine ⟨[record], .close had kind fits (closeState_over c') ⟨records, bytes⟩ within h.received, ?_⟩
    simp [frame, IdealAead.frames, LeaseCore.nextNonce, had]

/-- How a Target moves its pending heartbeat. -/
structure TargetPending (c : LeaseCore AeadState) (wrote heard : Option Nat) (c' : LeaseCore AeadState) : Prop where
  replied : ∀ counter, wrote = some counter → c.pendingHeartbeat = some counter ∧ c'.pendingHeartbeat = none
  accepted : ∀ counter, heard = some counter → c.pendingHeartbeat = none ∧ c'.pendingHeartbeat = some counter
  kept : wrote = none → heard = none → c'.pendingHeartbeat = c.pendingHeartbeat

/-- How a Broker moves its pending heartbeat. -/
structure BrokerPending (c : LeaseCore AeadState) (wrote heard : Option Nat) (c' : LeaseCore AeadState) : Prop where
  requested : ∀ counter, wrote = some counter → c.pendingHeartbeat = none ∧ c.lastHeartbeat < counter ∧
    c'.pendingHeartbeat = some counter ∧ c'.lastHeartbeat = c.lastHeartbeat
  confirmed : ∀ counter, heard = some counter → c.pendingHeartbeat = some counter ∧
    c'.pendingHeartbeat = none ∧ c'.lastHeartbeat = counter
  kept : wrote = none → heard = none →
    c'.pendingHeartbeat = c.pendingHeartbeat ∧ c'.lastHeartbeat = c.lastHeartbeat

theorem targetPending_kept (same : c'.pendingHeartbeat = c.pendingHeartbeat) : TargetPending c none none c' :=
  ⟨nofun, nofun, fun _ _ => same⟩

theorem brokerPending_kept (pending : c'.pendingHeartbeat = c.pendingHeartbeat)
    (last : c'.lastHeartbeat = c.lastHeartbeat) : BrokerPending c none none c' :=
  ⟨nofun, nofun, fun _ _ => ⟨pending, last⟩⟩

variable (aead side peer handshakes c role peerRole) in
/-- Closing ends the connection, whether it succeeds or not. -/
theorem writeClose_acts (reason : CloseReason) (handoff : HandoffState) :
    let r := finishResult (c.writeClose (aead.noise handshakes side peer) reason handoff)
    LeaseActs aead side peer role peerRole c (leaseHandedOut (r.1.map .record)) none none r.2 ∧
      r.2.pendingHeartbeat = c.pendingHeartbeat ∧ r.2.lastHeartbeat = c.lastHeartbeat := by
  have small : (closePayload reason handoff).length ≤ recordDataMax := by simp [recordDataMax]
  rcases writeRecord_cases aead side peer handshakes c .close small with
    ⟨error, after, eq, failed⟩ | ⟨t, notClosed, had, room, eq⟩
  · simp only [LeaseCore.writeClose, eq]
    exact ⟨failed.acts, failed.pending, failed.last⟩
  · simp only [LeaseCore.writeClose, eq]
    refine ⟨⟨[wholeRecord .close (closePayload reason handoff)], ?_, ?_⟩, rfl, rfl⟩
    · exact .close had rfl (wholeRecord_encodable .close small) (closeState_over _) ⟨rfl, rfl⟩
        (by rwa [if_pos rfl] at room) id
    · simp [finishResult, Except.map, leaseHandedOut, IdealAead.frames, LeaseCore.nextNonce, had]

variable (aead side peer handshakes c role peerRole) in
theorem readClose_acts (outer : Bytes) (f : CloseReason × HandoffState → LeaseReply)
    (silent : ∀ close, leaseHandedOut (.ok (f close)) = []) :
    let r := finishResult (c.readClose (aead.noise handshakes side peer) outer)
    LeaseActs aead side peer role peerRole c (leaseHandedOut (r.1.map f)) none none r.2 ∧
      r.2.pendingHeartbeat = c.pendingHeartbeat ∧ r.2.lastHeartbeat = c.lastHeartbeat := by
  rcases LeaseCore.decryptCounted_cases aead side peer handshakes c outer with
    ⟨error, after, eq, failed⟩ | ⟨t, plaintext, notClosed, had, opens, records, bytes, eq⟩
  · simp only [LeaseCore.readClose, eq]
    exact ⟨failed.acts, failed.pending, failed.last⟩
  · simp only [LeaseCore.readClose, eq]
    cases parsed : closeOf plaintext with
    | error error =>
        have failed : LeaseFailed aead side c error
            { c with
              transport := some { t with received := t.received + 1 }, receivedRecords := c.receivedRecords + 1
              receivedPlaintext := c.receivedPlaintext + plaintext.length } :=
          failed_read (closeOf_silent parsed) ⟨records, bytes⟩
        exact ⟨failed.acts, rfl, rfl⟩
    | ok close =>
        refine ⟨⟨[], .stop (closeState_over _) ⟨rfl, rfl⟩ (fun _ => ⟨records, bytes⟩), ?_⟩, rfl, rfl⟩
        simpa [finishResult, Except.map, IdealAead.frames] using silent close

variable (aead peer handshakes) in
/-- The Target answers a heartbeat it has accepted and accepts none before. -/
theorem TargetLeaseConnection.call_acts (l : TargetLeaseConnection AeadState) (call : TargetLeaseCall) :
    let r := l.call (aead.noise handshakes .target peer) call
    LeaseActs aead .target peer 2 1 l.core (leaseHandedOut r.1) (call.replied r.1) (call.accepted r.1) r.2.core ∧
      TargetPending l.core (call.replied r.1) (call.accepted r.1) r.2.core := by
  cases call with
  | readHeartbeatRequest outer =>
      simp only [TargetLeaseConnection.call, TargetLeaseConnection.readHeartbeatRequest]
      split
      · have failed : LeaseFailed aead .target l.core (.new .sequenceViolation) l.core := failed_silent rfl
        exact ⟨failed.acts, targetPending_kept rfl⟩
      · rename_i idle
        rcases LeaseCore.readHeartbeat_cases aead .target peer handshakes l.core outer 1 with
          ⟨error, after, eq, failed⟩ |
          ⟨t, plaintext, record, counter, notClosed, had, opens, decodes, kind, data, small, records, bytes, eq⟩
        · simp only [eq]
          exact ⟨failed.acts, targetPending_kept failed.pending⟩
        · simp only [eq]
          split
          · have failed : LeaseFailed aead .target l.core (.new .sequenceViolation)
                { l.core with
                  transport := some { t with received := t.received + 1 }
                  receivedRecords := l.core.receivedRecords + 1
                  receivedPlaintext := l.core.receivedPlaintext + plaintext.length } :=
              failed_read rfl ⟨records, bytes⟩
            exact ⟨failed.acts, targetPending_kept rfl⟩
          · refine ⟨⟨[], .hear notClosed had opens decodes kind data small records bytes, rfl⟩, ?_⟩
            refine ⟨by rintro _ ⟨⟩, fun value h => ?_, by rintro - ⟨⟩⟩
            cases h
            exact ⟨by simpa using idle, rfl⟩
  | writeHeartbeatReply counter =>
      simp only [TargetLeaseConnection.call, TargetLeaseConnection.writeHeartbeatReply]
      split
      · have failed : LeaseFailed aead .target l.core (.new .sequenceViolation) l.core := failed_silent rfl
        exact ⟨failed.acts, targetPending_kept rfl⟩
      · rename_i pending
        rcases LeaseCore.writeHeartbeat_cases aead .target peer handshakes l.core 2 counter.toNat with
          ⟨error, after, eq, failed⟩ | ⟨t, notClosed, had, room, eq⟩
        · simp only [eq]
          exact ⟨failed.acts, targetPending_kept failed.pending⟩
        · simp only [eq]
          refine ⟨⟨_, .write notClosed had counter.toNat_lt room, ?_⟩, ?_⟩
          · simp [wrap, finishResult, leaseReplyWith, Except.map, leaseHandedOut, IdealAead.frames,
              LeaseCore.nextNonce, had]
          · refine ⟨fun value h => ?_, by rintro _ ⟨⟩, by rintro ⟨⟩⟩
            cases h
            exact ⟨not_not.mp pending, rfl⟩
  | writeClose reason handoff =>
      obtain ⟨acts, pending, -⟩ := writeClose_acts aead .target peer handshakes l.core 2 1 reason handoff
      exact ⟨acts, targetPending_kept pending⟩
  | readClose outer =>
      obtain ⟨acts, pending, -⟩ := readClose_acts aead .target peer handshakes l.core 2 1 outer
        (fun close => .peerClose close.1 close.2) fun _ => rfl
      exact ⟨acts, targetPending_kept pending⟩

variable (aead peer handshakes) in
/-- The Broker has one request under way and takes its reply only. -/
theorem BrokerLeaseConnection.call_acts (l : BrokerLeaseConnection AeadState) (call : BrokerLeaseCall) :
    let r := l.call (aead.noise handshakes .broker peer) call
    LeaseActs aead .broker peer 1 2 l.core (leaseHandedOut r.1) (call.requested r.1) (call.confirmed r.1) r.2.core ∧
      BrokerPending l.core (call.requested r.1) (call.confirmed r.1) r.2.core := by
  cases call with
  | writeHeartbeatRequest counter =>
      simp only [BrokerLeaseConnection.call, BrokerLeaseConnection.writeHeartbeatRequest]
      split
      · have failed : LeaseFailed aead .broker l.core (.new .sequenceViolation) l.core := failed_silent rfl
        exact ⟨failed.acts, brokerPending_kept rfl rfl⟩
      · rename_i next
        obtain ⟨idle, above⟩ := not_or.mp next
        rcases LeaseCore.writeHeartbeat_cases aead .broker peer handshakes l.core 1 counter.toNat with
          ⟨error, after, eq, failed⟩ | ⟨t, notClosed, had, room, eq⟩
        · simp only [eq]
          exact ⟨failed.acts, brokerPending_kept failed.pending failed.last⟩
        · simp only [eq]
          refine ⟨⟨_, .write notClosed had counter.toNat_lt room, ?_⟩, ?_⟩
          · simp [BrokerLeaseConnection.wrap, finishResult, leaseReplyWith, Except.map, leaseHandedOut,
              IdealAead.frames, LeaseCore.nextNonce, had]
          · refine ⟨fun value h => ?_, by rintro _ ⟨⟩, by rintro ⟨⟩⟩
            cases h
            exact ⟨by simpa using idle, not_le.mp above, rfl, rfl⟩
  | readHeartbeatReply outer =>
      simp only [BrokerLeaseConnection.call, BrokerLeaseConnection.readHeartbeatReply]
      rcases LeaseCore.readHeartbeat_cases aead .broker peer handshakes l.core outer 2 with
        ⟨error, after, eq, failed⟩ |
        ⟨t, plaintext, record, counter, notClosed, had, opens, decodes, kind, data, small, records, bytes, eq⟩
      · simp only [eq]
        exact ⟨failed.acts, brokerPending_kept failed.pending failed.last⟩
      · simp only [eq]
        split
        · have failed : LeaseFailed aead .broker l.core (.new .sequenceViolation)
              { l.core with
                transport := some { t with received := t.received + 1 }
                receivedRecords := l.core.receivedRecords + 1
                receivedPlaintext := l.core.receivedPlaintext + plaintext.length } :=
            failed_read rfl ⟨records, bytes⟩
          exact ⟨failed.acts, brokerPending_kept rfl rfl⟩
        · rename_i pending
          refine ⟨⟨[], .hear notClosed had opens decodes kind data small records bytes, rfl⟩, ?_⟩
          refine ⟨by rintro _ ⟨⟩, fun value h => ?_, by rintro - ⟨⟩⟩
          cases h
          exact ⟨not_not.mp pending, rfl, rfl⟩
  | writeClose reason handoff =>
      obtain ⟨acts, pending, last⟩ := writeClose_acts aead .broker peer handshakes l.core 1 2 reason handoff
      exact ⟨acts, brokerPending_kept pending last⟩
  | readClose outer =>
      obtain ⟨acts, pending, last⟩ := readClose_acts aead .broker peer handshakes l.core 1 2 outer
        (fun close => .peerClose close.1 close.2) fun _ => rfl
      exact ⟨acts, brokerPending_kept pending last⟩

end Calls

end AppPilotKit.Transport
