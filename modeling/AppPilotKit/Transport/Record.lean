import AppPilotKit.Transport.Outer

/-! # Records, reassembly and fragmentation

A record is a twelve-byte header and its data. A message travels as a run of
records of one kind: the first declares the total length, the others continue
at the offset already received, the last carries the end flag.
-/

namespace AppPilotKit.Transport

open Wire

def recordHeaderLen : Nat := 12
def recordDataMax : Nat := 65507
/-- Each direction stops before this many transport records … -/
def recordLimit : Nat := 2 ^ 32
/-- … and before this many plaintext bytes. -/
def byteLimit : Nat := 2 ^ 40

inductive RecordKind where
  | application
  | finished
  | heartbeat
  | close
  deriving Repr, DecidableEq

namespace RecordKind

def toWire : RecordKind → Nat
  | .application => 1
  | .finished => 2
  | .heartbeat => 3
  | .close => 4

def fromWire : Nat → Except Error RecordKind
  | 1 => .ok .application
  | 2 => .ok .finished
  | 3 => .ok .heartbeat
  | 4 => .ok .close
  | _ => .error (.new .malformed)

theorem fromWire_toWire (kind : RecordKind) : fromWire kind.toWire = .ok kind := by
  cases kind <;> rfl

end RecordKind

/-- A record in memory; `totalLen` and `offset` are `u32` fields. -/
structure Record where
  kind : RecordKind
  start : Bool
  «end» : Bool
  totalLen : Nat
  offset : Nat
  data : Bytes
  deriving Repr, DecidableEq

namespace Record

def flags (r : Record) : Nat := r.start.toNat + 2 * r.end.toNat

def encode (r : Record) : Except Error Bytes :=
  if r.data.length > recordDataMax then .error (.new .oversize)
  else .ok ([UInt8.ofNat r.kind.toWire, UInt8.ofNat r.flags] ++ be 2 0 ++ be 4 r.totalLen ++ be 4 r.offset
    ++ r.data)

def decode (b : Bytes) : Except Error Record :=
  if b.length < recordHeaderLen then .error (.new .malformed)
  else if b.length - recordHeaderLen > recordDataMax then .error (.new .oversize)
  else
    let flags := (b.getD 1 0).toNat
    if flags > 3 ∨ b.getD 2 0 ≠ 0 ∨ b.getD 3 0 ≠ 0 then .error (.new .sequenceViolation)
    else
      match RecordKind.fromWire (b.getD 0 0).toNat with
      | .error error => .error error
      | .ok kind =>
          .ok {
            kind
            start := flags % 2 = 1
            «end» := flags / 2 = 1
            totalLen := beNat ((b.drop 4).take 4)
            offset := beNat ((b.drop 8).take 4)
            data := b.drop 12
          }

end Record

/-- The canonical payload of a Close record. -/
def closePayload (reason : CloseReason) (handoff : HandoffState) : Bytes :=
  Cbor.map 3 ++ Cbor.uint 0 ++ Cbor.uint 1 ++ Cbor.uint 1 ++ Cbor.uint reason.toWire
    ++ Cbor.uint 2 ++ Cbor.uint handoff.toWire

/-- A decoder step: every decoding failure is `Malformed`. -/
def decoded {α : Type} (r : Option (α × Bytes)) : Except Error (α × Bytes) :=
  match r with
  | some v => .ok v
  | none => .error (.new .malformed)

/-- Read an integer key or constant and require its value. -/
def expectU8 (value : Nat) (b : Bytes) : Except Error Bytes := do
  let (n, rest) ← decoded (Cbor.readU8 b)
  if n = value then pure rest else throw (.new .malformed)

/-- Read a map head and require its number of entries. -/
def expectMap (entries : Nat) (b : Bytes) : Except Error Bytes := do
  let (n, rest) ← decoded (Cbor.readMap b)
  if n = some entries then pure rest else throw (.new .malformed)

def parseClose (b : Bytes) : Except Error (CloseReason × HandoffState) := do
  let rest ← expectMap 3 b
  let rest ← expectU8 0 rest
  let rest ← expectU8 1 rest
  let rest ← expectU8 1 rest
  let (reason, rest) ← decoded (Cbor.readU8 rest)
  let reason ← CloseReason.fromWire reason
  let rest ← expectU8 2 rest
  let (handoff, rest) ← decoded (Cbor.readU8 rest)
  let handoff ← HandoffState.fromWire handoff
  if rest ≠ [] ∨ closePayload reason handoff ≠ b then throw (.new .malformed)
  pure (reason, handoff)

def validateControlRecord (kind : RecordKind) (b : Bytes) : Except Error Unit :=
  if kind = .close then (parseClose b).map fun _ => () else .ok ()

/-- One non-interleaved record reassembly. -/
structure RecordReassembler where
  cap : Nat
  active : Option (RecordKind × Nat × Bytes) := none
  records : Nat := 0
  bytes : Nat := 0
  failed : Bool := false
  deriving Repr, DecidableEq

namespace RecordReassembler

def new (maxMessageBytes : Nat) : Except Error RecordReassembler :=
  if maxMessageBytes = 0 then .error (.new .internalError) else .ok { cap := maxMessageBytes }

def clear (r : RecordReassembler) : RecordReassembler := { r with active := none }

/-- A record with the start flag, once the counters have been charged. -/
def acceptStart (r : RecordReassembler) (record : Record) :
    Except Error (Option (RecordKind × Bytes)) × RecordReassembler :=
  if record.totalLen > r.cap then (.error (.new .oversize), r)
  else if r.active.isSome ∨ record.offset ≠ 0 then (.error (.new .sequenceViolation), r)
  else if record.totalLen = 0 ∧ ¬ record.end then (.error (.new .malformed), r)
  else if record.data.length > record.totalLen then (.error (.new .malformed), r)
  else if record.end then
    if record.data.length ≠ record.totalLen then (.error (.new .malformed), r)
    else
      match validateControlRecord record.kind record.data with
      | .error error => (.error error, r)
      | .ok () => (.ok (some (record.kind, record.data)), r)
  else (.ok none, { r with active := some (record.kind, record.totalLen, record.data) })

/-- A record without the start flag: the active run is taken out first. -/
def acceptContinuation (r : RecordReassembler) (record : Record) :
    Except Error (Option (RecordKind × Bytes)) × RecordReassembler :=
  match r.active with
  | none => (.error (.new .sequenceViolation), r)
  | some (kind, total, assembled) =>
      let r := { r with active := none }
      if kind ≠ record.kind ∨ record.totalLen ≠ 0 ∨ record.offset ≠ assembled.length then
        (.error (.new .sequenceViolation), r)
      else if assembled.length + record.data.length > total then (.error (.new .malformed), r)
      else
        let assembled := assembled ++ record.data
        if record.end then
          if assembled.length ≠ total then (.error (.new .malformed), r)
          else
            match validateControlRecord kind assembled with
            | .error error => (.error error, r)
            | .ok () => (.ok (some (kind, assembled)), r)
        else (.ok none, { r with active := some (kind, total, assembled) })

/-- The body of `accept`: charge the counters, then dispatch on the start flag.
    The counters stay below the limits once charged, so the checked additions
    of the source cannot overflow a `u64`. -/
def acceptBody (r : RecordReassembler) (record : Record) :
    Except Error (Option (RecordKind × Bytes)) × RecordReassembler :=
  let r := { r with records := r.records + 1, bytes := r.bytes + (recordHeaderLen + record.data.length) }
  if r.records ≥ recordLimit ∨ r.bytes ≥ byteLimit then (.error (.new .recordLimit), r.clear)
  else if record.start then r.acceptStart record
  else r.acceptContinuation record

def accept (r : RecordReassembler) (record : Record) :
    Except Error (Option (RecordKind × Bytes)) × RecordReassembler :=
  if r.failed then (.error (.new .sequenceViolation), r)
  else
    match r.acceptBody record with
    | (.error error, r) => (.error error, { r.clear with failed := true })
    | (.ok message, r) => (.ok message, r)

def eof (r : RecordReassembler) : Except Error Unit × RecordReassembler :=
  if r.failed then (.error (.new .sequenceViolation), r)
  else if r.active.isSome then (.error (.new .malformed), { r.clear with failed := true })
  else (.ok (), r)

def setCap (r : RecordReassembler) (cap : Nat) : Except Error Unit × RecordReassembler :=
  if r.failed ∨ cap = 0 ∨ r.active.isSome then (.error (.new .sequenceViolation), r)
  else (.ok (), { r with cap })

end RecordReassembler

def completeRecord (kind : RecordKind) (payload : Bytes) : Except Error Record :=
  if payload.length < 2 ^ 32 then
    .ok { kind, start := true, «end» := true, totalLen := payload.length, offset := 0, data := payload }
  else .error (.new .oversize)

def validateCompleteRecord (record : Record) (kind : RecordKind) : Except Error Unit :=
  if record.kind ≠ kind ∨ ¬ record.start ∨ ¬ record.end ∨ record.offset ≠ 0 then
    .error (.new .sequenceViolation)
  else if record.totalLen ≠ record.data.length then .error (.new .malformed)
  else .ok ()

/-- The record that carries the `index`-th piece of a message. -/
def fragment (kind : RecordKind) (payload : Bytes) (index : Nat) (chunk : Bytes) : Record :=
  let offset := index * recordDataMax
  {
    kind
    start := index = 0
    «end» := offset + chunk.length = payload.length
    totalLen := if index = 0 then payload.length else 0
    offset := offset % 2 ^ 32
    data := chunk
  }

/-- How many pieces `payload.chunks(RECORD_DATA_MAX)` has. -/
def fragmentCount (payload : Bytes) : Nat := (payload.length + recordDataMax - 1) / recordDataMax

/-- The `index`-th piece. -/
def chunk (payload : Bytes) (index : Nat) : Bytes := (payload.drop (index * recordDataMax)).take recordDataMax

/-- The records of a message, before encoding. -/
def fragments (kind : RecordKind) (payload : Bytes) : List Record :=
  (List.range (fragmentCount payload)).map fun index => fragment kind payload index (chunk payload index)

def fragmentRecords (kind : RecordKind) (payload : Bytes) : Except Error (List Bytes) :=
  if payload.isEmpty ∨ payload.length > 2 ^ 32 - 1 then .error (.new .oversize)
  else (fragments kind payload).mapM Record.encode

def limitClosePlaintext (handoff : HandoffState) : Except Error Bytes := do
  (← completeRecord .close (closePayload .recordLimit handoff)).encode

/-! ## Sizes and round trips -/

namespace Record

/-- The fields of a record fit the header that carries them. -/
structure Encodable (r : Record) : Prop where
  totalLen : r.totalLen < 2 ^ 32
  offset : r.offset < 2 ^ 32
  data : r.data.length ≤ recordDataMax

/-- The bytes `encode` writes when the data fits. -/
def wire (r : Record) : Bytes :=
  [UInt8.ofNat r.kind.toWire, UInt8.ofNat r.flags] ++ be 2 0 ++ be 4 r.totalLen ++ be 4 r.offset ++ r.data

theorem encode_of {r : Record} (h : r.data.length ≤ recordDataMax) : r.encode = .ok r.wire := by
  rw [encode, if_neg (by omega)]
  rfl

theorem encode_ok {r : Record} {b} (h : r.encode = .ok b) : r.data.length ≤ recordDataMax ∧ b = r.wire := by
  unfold encode at h
  split at h
  · cases h
  · cases h
    exact ⟨by omega, rfl⟩

@[simp] theorem wire_length (r : Record) : r.wire.length = recordHeaderLen + r.data.length := by
  simp [wire, recordHeaderLen]
  omega

theorem flags_lt (r : Record) : r.flags ≤ 3 := by
  unfold flags
  cases r.start <;> cases r.end <;> decide

/-- Decoding inverts encoding. -/
theorem decode_wire {r : Record} (h : r.Encodable) : decode r.wire = .ok r := by
  obtain ⟨total, offset, data⟩ := h
  have fourTotal : ∃ a b c d, be 4 r.totalLen = [a, b, c, d] := by simp [be]
  have fourOffset : ∃ a b c d, be 4 r.offset = [a, b, c, d] := by simp [be]
  obtain ⟨a, b, c, d, totalShape⟩ := fourTotal
  obtain ⟨e, f, g, i, offsetShape⟩ := fourOffset
  have totalValue : beNat [a, b, c, d] = r.totalLen := by
    rw [← totalShape]
    exact beNat_be 4 _ (by simpa using total)
  have offsetValue : beNat [e, f, g, i] = r.offset := by
    rw [← offsetShape]
    exact beNat_be 4 _ (by simpa using offset)
  have shape : r.wire = UInt8.ofNat r.kind.toWire :: UInt8.ofNat r.flags :: 0 :: 0
      :: a :: b :: c :: d :: e :: f :: g :: i :: r.data := by
    have zeros : be 2 0 = [0, 0] := by decide
    simp [wire, totalShape, offsetShape, zeros]
  have size := wire_length r
  have kindByte : (UInt8.ofNat r.kind.toWire).toNat = r.kind.toWire := by
    cases r.kind <;> rfl
  have flagByte : (UInt8.ofNat r.flags).toNat = r.flags := by
    unfold flags
    cases r.start <;> cases r.end <;> rfl
  unfold decode
  rw [if_neg (by rw [size]; omega), if_neg (by rw [size]; omega), shape]
  simp only [List.getD_cons_succ, List.getD_cons_zero, kindByte, flagByte, RecordKind.fromWire_toWire,
    List.drop_succ_cons, List.drop_zero, List.take_succ_cons, List.take_zero, totalValue, offsetValue]
  rw [if_neg (by have := flags_lt r; simp; omega)]
  cases r with
  | mk kind start stop totalLen offset data =>
      cases start <;> cases stop <;> simp [flags]

end Record

theorem completeRecord_of {kind payload} (h : payload.length ≤ recordDataMax) :
    completeRecord kind payload =
      .ok { kind, start := true, «end» := true, totalLen := payload.length, offset := 0, data := payload } := by
  unfold completeRecord
  rw [if_pos (by unfold recordDataMax at h; omega)]

@[simp] theorem closePayload_length (reason : CloseReason) (handoff : HandoffState) :
    (closePayload reason handoff).length = 7 := by
  cases reason <;> cases handoff <;> decide

/-- The plaintext of a Close record, whatever it says. -/
def closeRecordLen : Nat := recordHeaderLen + 7

/-- A complete record of a payload that fits has a plaintext of the expected size. -/
theorem complete_encode (kind : RecordKind) {payload : Bytes} (h : payload.length ≤ recordDataMax) :
    ∃ r : Record, completeRecord kind payload = .ok r ∧ r.encode = .ok r.wire ∧ r.Encodable ∧
      r.kind = kind ∧ r.start = true ∧ r.end = true ∧ r.data = payload := by
  refine ⟨_, completeRecord_of h, Record.encode_of h, ⟨?_, by simp, h⟩, rfl, rfl, rfl, rfl⟩
  unfold recordDataMax at h
  simp only
  omega

theorem chunk_length_le (payload : Bytes) (index : Nat) : (chunk payload index).length ≤ recordDataMax := by
  unfold chunk
  exact List.length_take_le _ _

theorem encode_fragments {records : List Record} (h : ∀ r ∈ records, r.data.length ≤ recordDataMax) :
    records.mapM Record.encode = .ok (records.map Record.wire) := by
  induction records with
  | nil => rfl
  | cons r rest ih =>
      have first := Record.encode_of (h r (by simp))
      have others := ih fun r' member => h r' (by simp [member])
      rw [List.mapM_cons, first, others]
      rfl

/-- Fragmenting a message that has a length encodes every fragment. -/
theorem fragmentRecords_eq (kind : RecordKind) (payload : Bytes) :
    fragmentRecords kind payload =
      if payload.isEmpty ∨ payload.length > 2 ^ 32 - 1 then .error (.new .oversize)
      else .ok ((fragments kind payload).map Record.wire) := by
  unfold fragmentRecords
  split
  · rfl
  · refine encode_fragments fun r member => ?_
    obtain ⟨index, -, rfl⟩ := List.mem_map.mp member
    exact chunk_length_le payload index

theorem limitClosePlaintext_ok (handoff : HandoffState) :
    ∃ b, limitClosePlaintext handoff = .ok b ∧ b.length = closeRecordLen := by
  have small : (closePayload .recordLimit handoff).length ≤ recordDataMax := by simp [recordDataMax]
  obtain ⟨r, complete, encoded, -, -, -, -, data⟩ := complete_encode .close small
  refine ⟨r.wire, ?_, ?_⟩
  · simp [limitClosePlaintext, complete, encoded, bind, Except.bind]
  · rw [Record.wire_length, data, closePayload_length, closeRecordLen]

end AppPilotKit.Transport
