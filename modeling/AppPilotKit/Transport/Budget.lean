import AppPilotKit.Transport.Failure
import AppPilotKit.Transport.Calls

/-! # The send budget of a session

Each direction may carry fewer than `2 ^ 32` records and fewer than `2 ^ 40`
plaintext bytes, and an open session always keeps room for one Close. The
counters are compared with the records actually handed to the caller.
-/

namespace AppPilotKit.Transport

open Wire

variable {R H T : Type}

/-- The plaintext bytes of a record frame: neither its length header nor its tag. -/
def plaintextLen (frame : Bytes) : Nat := frame.length - (Noise.tagLen + 2)

def SessionCore.Open (c : SessionCore H T) : Prop := c.closed = false ∧ c.transport.isSome = true

/-- The counters of a session that has handed out the records `sent`. -/
structure Budget (c : SessionCore H T) (sent : List Bytes) : Prop where
  sentRecords : c.sentRecords = sent.length
  sentPlaintext : c.sentPlaintext = (sent.map plaintextLen).sum
  records_lt : c.sentRecords < recordLimit
  bytes_lt : c.sentPlaintext < byteLimit
  reserve : c.Open → c.sentRecords + 1 < recordLimit ∧ c.sentPlaintext + closeRecordLen < byteLimit
  received : c.receivedRecords < recordLimit ∧ c.receivedPlaintext < byteLimit
  reassembly : c.reassembly.records ≤ c.receivedRecords ∧ c.reassembly.bytes ≤ c.receivedPlaintext
  fresh : c.handshake.isSome → c.sentRecords = 0 ∧ c.sentPlaintext = 0
  exclusive : c.transport.isSome → c.handshake = none

/-- A transport of the session when the limit was met: the one it had before
    the call, or that one after decrypting a frame. -/
def SessionCore.Uses (noise : Noise R H T) (c : SessionCore H T) (transport : T) : Prop :=
  c.transport = some transport ∨
    ∃ before outer plaintext, c.transport = some before ∧
      noise.decryptTransport before outer = .ok (plaintext, transport)

/-- A limit error that carries the Close the session had reserved. -/
def LimitClose (noise : Noise R H T) (c : SessionCore H T) (error : Error) : Prop :=
  ∃ transport plaintext frame transport', c.Uses noise transport ∧
    limitClosePlaintext c.handoff = .ok plaintext ∧
    noise.encryptTransport transport plaintext = .ok (frame, transport') ∧
    error = .recordLimit (some frame)

/-- The frames a result hands out; `frames` reads them from a success. -/
def framesOf {α : Type} (frames : α → List Bytes) : Except Error α → List Bytes
  | .ok value => frames value
  | .error error => error.closeFrame.toList

/-- What a call leaves: the budget of the frames handed out before and by it,
    and, on a session that was open, a reserved Close in every limit error. -/
structure Accounted {α : Type} (noise : Noise R H T) (frames : α → List Bytes) (c : SessionCore H T)
    (sent : List Bytes) (r : Except Error α × SessionCore H T) : Prop where
  budget : Budget r.2 (sent ++ framesOf frames r.1)
  limit : c.Open → ∀ error, r.1 = .error error → error.reason = .recordLimit → LimitClose noise c error

namespace SessionCore

theorem sendUsageAfter_eq (c : SessionCore H T) (records bytes : Nat) (reserveClose : Bool) :
    c.sendUsageAfter records bytes reserveClose = .ok
      (if c.sentRecords + records + reserveClose.toNat < recordLimit ∧
          c.sentPlaintext + bytes + reserveClose.toNat * closeRecordLen < byteLimit then
        some (c.sentRecords + records, c.sentPlaintext + bytes) else none) := by
  obtain ⟨close, closeEq, closeLen⟩ := limitClosePlaintext_ok c.handoff
  have lens : closeRecordLen = 19 := rfl
  unfold sendUsageAfter withReserve checkedAdd
  by_cases hr : c.sentRecords + records < 2 ^ 64
  · by_cases hb : c.sentPlaintext + bytes < 2 ^ 64
    · rw [if_pos hr, if_pos hb]
      cases reserveClose with
      | false =>
          simp only [Bool.false_eq_true, if_false, Bool.toNat_false, Nat.add_zero, Nat.zero_mul]
          by_cases h : c.sentRecords + records < recordLimit ∧ c.sentPlaintext + bytes < byteLimit
          · rw [if_pos h, if_neg (by omega)]
          · rw [if_neg h, if_pos (by omega)]
      | true =>
          simp only [if_true, closeEq, Except.map, closeLen, Bool.toNat_true, Nat.one_mul]
          by_cases h : c.sentRecords + records + 1 < recordLimit ∧
              c.sentPlaintext + bytes + closeRecordLen < byteLimit
          · rw [if_pos h]
            unfold recordLimit byteLimit at h
            rw [if_pos (by omega), if_pos (by omega)]
            simp only
            rw [if_neg (by unfold recordLimit byteLimit; omega)]
          · rw [if_neg h]
            split
            · cases ‹Except.ok _ = Except.error _›
            · rename_i eq
              split at eq <;> split at eq <;> simp at eq
              obtain ⟨rfl, rfl⟩ := eq
              rw [if_pos (by omega)]
            · rfl
    · have exceeds : ¬ (c.sentRecords + records + reserveClose.toNat < recordLimit ∧
          c.sentPlaintext + bytes + reserveClose.toNat * closeRecordLen < byteLimit) := by
        unfold byteLimit
        omega
      simp only [if_pos hr, if_neg hb, if_neg exceeds]
  · have exceeds : ¬ (c.sentRecords + records + reserveClose.toNat < recordLimit ∧
        c.sentPlaintext + bytes + reserveClose.toNat * closeRecordLen < byteLimit) := by
      unfold recordLimit
      omega
    simp only [if_neg hr, if_neg exceeds]

theorem encrypt_open {noise : Noise R H T} (seals : noise.SealsRecords) {c : SessionCore H T} (isOpen : c.Open)
    {plaintext : Bytes} (small : plaintext.length ≤ recordHeaderLen + recordDataMax) :
    ∃ transport frame transport', c.transport = some transport ∧
      noise.encryptTransport transport plaintext = .ok (frame, transport') ∧
      plaintextLen frame = plaintext.length ∧
      c.encrypt noise plaintext = (.ok frame, { c with transport := some transport' }) := by
  obtain ⟨notClosed, present⟩ := isOpen
  obtain ⟨transport, eq⟩ := Option.isSome_iff_exists.mp present
  obtain ⟨frame, transport', sealed, size⟩ := Noise.encryptTransport_of seals transport small
  refine ⟨transport, frame, transport', eq, sealed, ?_, ?_⟩
  · unfold plaintextLen
    omega
  · simp [encrypt, openTransport, notClosed, eq, sealed]

theorem openTransport_closed {c : SessionCore H T} (h : ¬ c.Open) :
    c.openTransport = .error (.new .sequenceViolation) := by
  unfold openTransport
  unfold Open at h
  cases closed : c.closed <;> cases transport : c.transport <;> simp_all

theorem encrypt_closed {noise : Noise R H T} {c : SessionCore H T} (h : ¬ c.Open) (plaintext : Bytes) :
    c.encrypt noise plaintext = (.error (.new .sequenceViolation), c) := by
  simp [encrypt, openTransport_closed h]

theorem closeState_not_open (c : SessionCore H T) : ¬ c.closeState.Open := by
  intro h
  simp [closeState, Open] at h

end SessionCore

namespace Budget

variable {c : SessionCore H T} {sent : List Bytes}

/-- The flags, the handoff and the hash do not count. -/
theorem retag (b : Budget c sent) {sentFinished gotFinished peerTurn firstApplication : Bool}
    {handoff : HandoffState} {sessionHash : Option (FixedBytes 32)} :
    Budget { c with sentFinished, gotFinished, peerTurn, firstApplication, handoff, sessionHash } sent :=
  ⟨b.sentRecords, b.sentPlaintext, b.records_lt, b.bytes_lt, b.reserve, b.received, b.reassembly, b.fresh,
    b.exclusive⟩

/-- A session that is closed keeps its counters and needs no reserve. -/
theorem close (b : Budget c sent) {transport : Option T} {sessionHash : Option (FixedBytes 32)}
    (gone : transport = none ∨ transport = c.transport) {reassembly : RecordReassembler}
    (counted : reassembly.records ≤ c.receivedRecords ∧ reassembly.bytes ≤ c.receivedPlaintext)
    {handshake : Option H} (kept : handshake = none ∨ handshake = c.handshake) :
    Budget { c with closed := true, transport, handshake, reassembly, sessionHash } sent where
  sentRecords := b.sentRecords
  sentPlaintext := b.sentPlaintext
  records_lt := b.records_lt
  bytes_lt := b.bytes_lt
  reserve h := by simp [SessionCore.Open] at h
  received := b.received
  reassembly := counted
  fresh h := by
    rcases kept with rfl | rfl
    · cases h
    · exact b.fresh h
  exclusive h := by
    rcases gone with rfl | rfl
    · cases h
    · rcases kept with rfl | rfl
      · rfl
      · exact b.exclusive h

theorem cleared (b : Budget c sent) : c.reassembly.clear.records ≤ c.receivedRecords ∧
    c.reassembly.clear.bytes ≤ c.receivedPlaintext := b.reassembly

theorem closeState (b : Budget c sent) : Budget c.closeState sent :=
  b.close (.inl rfl) b.cleared (.inl rfl)

theorem endSession (b : Budget c sent) : Budget c.endSession sent :=
  b.close (.inl rfl) b.cleared (.inl rfl)

/-- Handing out frames within the limits charges them, reserve included. -/
theorem send (b : Budget c sent) (isOpen : c.Open) (frames : List Bytes) (transport : T)
    (records : c.sentRecords + frames.length + 1 < recordLimit)
    (bytes : c.sentPlaintext + (frames.map plaintextLen).sum + closeRecordLen < byteLimit) :
    Budget { c with
      transport := some transport
      sentRecords := c.sentRecords + frames.length
      sentPlaintext := c.sentPlaintext + (frames.map plaintextLen).sum } (sent ++ frames) where
  sentRecords := by simp [b.sentRecords]
  sentPlaintext := by simp [b.sentPlaintext]
  records_lt := by simp only; omega
  bytes_lt := by simp only; omega
  reserve _ := ⟨records, bytes⟩
  received := b.received
  reassembly := b.reassembly
  fresh h := by simp [b.exclusive isOpen.2] at h
  exclusive _ := b.exclusive isOpen.2

/-- A Close may use the reserve, since it ends the session. -/
theorem sendLast (b : Budget c sent) (frame : Bytes) (sessionHash : Option (FixedBytes 32))
    (records : c.sentRecords + 1 < recordLimit) (bytes : c.sentPlaintext + plaintextLen frame < byteLimit) :
    Budget { c.closeState with
      sentRecords := c.sentRecords + 1
      sentPlaintext := c.sentPlaintext + plaintextLen frame
      sessionHash } (sent ++ [frame]) where
  sentRecords := by simp [b.sentRecords]
  sentPlaintext := by simp [b.sentPlaintext]
  records_lt := records
  bytes_lt := bytes
  reserve h := by simp [SessionCore.closeState, SessionCore.Open] at h
  received := b.received
  reassembly := b.reassembly
  fresh h := by simp [SessionCore.closeState] at h
  exclusive h := by simp [SessionCore.closeState] at h

theorem advance (b : Budget c sent) {before : T}
    (had : c.transport = some before) (transport : T) : Budget { c with transport := some transport } sent where
  sentRecords := b.sentRecords
  sentPlaintext := b.sentPlaintext
  records_lt := b.records_lt
  bytes_lt := b.bytes_lt
  reserve h := b.reserve ⟨h.1, by simp [had]⟩
  received := b.received
  reassembly := b.reassembly
  fresh := b.fresh
  exclusive _ := b.exclusive (by simp [had])

theorem receive (b : Budget c sent) {bytes : Nat}
    (records_lt : c.receivedRecords + 1 < recordLimit) (bytes_lt : c.receivedPlaintext + bytes < byteLimit) :
    Budget { c with
      receivedRecords := c.receivedRecords + 1
      receivedPlaintext := c.receivedPlaintext + bytes } sent where
  sentRecords := b.sentRecords
  sentPlaintext := b.sentPlaintext
  records_lt := b.records_lt
  bytes_lt := b.bytes_lt
  reserve := b.reserve
  received := ⟨records_lt, bytes_lt⟩
  reassembly := ⟨b.reassembly.1.trans (Nat.le_succ _), b.reassembly.2.trans (Nat.le_add_right _ _)⟩
  fresh := b.fresh
  exclusive := b.exclusive

/-- During the handshake nothing has been sent, and there is no transport. -/
theorem transport_none (b : Budget c sent) (h : c.handshake.isSome) : c.transport = none := by
  cases transport : c.transport with
  | none => rfl
  | some => simp [b.exclusive (by simp [transport])] at h

theorem handshake (b : Budget c sent) {before : H} (had : c.handshake = some before) (state : H) :
    Budget { c with handshake := some state } sent where
  sentRecords := b.sentRecords
  sentPlaintext := b.sentPlaintext
  records_lt := b.records_lt
  bytes_lt := b.bytes_lt
  reserve := b.reserve
  received := b.received
  reassembly := b.reassembly
  fresh _ := b.fresh (by simp [had])
  exclusive h := by simp [b.transport_none (by simp [had])] at h

/-- The transport starts with its counters at zero. -/
theorem finish (b : Budget c sent) {before : H} (had : c.handshake = some before) {transport : Option T}
    {sessionHash : Option (FixedBytes 32)} :
    Budget { c with handshake := (none : Option H), sessionHash, transport } sent where
  sentRecords := b.sentRecords
  sentPlaintext := b.sentPlaintext
  records_lt := b.records_lt
  bytes_lt := b.bytes_lt
  reserve _ := by
    obtain ⟨records, bytes⟩ := b.fresh (by simp [had])
    simp only [records, bytes]
    decide
  received := b.received
  reassembly := b.reassembly
  fresh h := by cases h
  exclusive _ := rfl

/-- Only the counters of the reassembler matter. -/
theorem reassemble (b : Budget c sent) {reassembly : RecordReassembler}
    (counted : reassembly.records ≤ c.receivedRecords ∧ reassembly.bytes ≤ c.receivedPlaintext) :
    Budget { c with reassembly } sent :=
  ⟨b.sentRecords, b.sentPlaintext, b.records_lt, b.bytes_lt, b.reserve, b.received, counted, b.fresh,
    b.exclusive⟩

end Budget

/-! ## Each call -/

section Calls

variable {α : Type} {noise : Noise R H T} {frames : α → List Bytes} {c c' : SessionCore H T} {sent : List Bytes}

theorem accounted_error (b : Budget c' sent) {error : Error} (plain : error.Plain) :
    Accounted noise frames c sent (.error error, c') where
  budget := by simpa [framesOf, plain.2] using b
  limit := by
    rintro - _ eq reason
    cases eq
    exact absurd reason plain.1

theorem accounted_ok {value : α} (b : Budget c' (sent ++ frames value)) :
    Accounted noise frames c sent (.ok value, c') where
  budget := b
  limit := by
    rintro - _ eq
    cases eq

theorem Accounted.finishResult {r : Except Error α × SessionCore H T} (h : Accounted noise frames c sent r) :
    Accounted noise frames c sent (SessionCore.finishResult r) := by
  obtain ⟨result, after⟩ := r
  cases result with
  | ok value => exact h
  | error error => exact ⟨h.budget.closeState, h.limit⟩

/-- A call that hands out nothing and meets no limit. -/
structure Quiet (sent : List Bytes) (r : Except Error α × SessionCore H T) : Prop where
  budget : Budget r.2 sent
  plain : PlainFailure r.1

theorem quiet_error (b : Budget c sent) {error : Error} (plain : error.Plain) :
    Quiet sent ((.error error, c) : Except Error α × SessionCore H T) :=
  ⟨b, fun _ eq => by cases eq; exact plain⟩

theorem Quiet.accounted {r : Except Error α × SessionCore H T} (h : Quiet sent r) :
    Accounted noise (fun _ => []) c sent r := by
  obtain ⟨result, after⟩ := r
  cases result with
  | ok value => exact accounted_ok (by simpa using h.budget)
  | error error => exact accounted_error h.budget (h.plain error rfl)

namespace SessionCore

/-- A limit error: the reserve pays for its Close, unless the session is over. -/
theorem recordLimitErrorWithHandoff_spec (seals : noise.SealsRecords) (b : Budget c sent)
    (handoff : HandoffState) :
    Budget (c.recordLimitErrorWithHandoff noise handoff).2
        (sent ++ (c.recordLimitErrorWithHandoff noise handoff).1.closeFrame.toList) ∧
      (c.Open → ∃ transport plaintext frame transport', c.transport = some transport ∧
        limitClosePlaintext handoff = .ok plaintext ∧
        noise.encryptTransport transport plaintext = .ok (frame, transport') ∧
        (c.recordLimitErrorWithHandoff noise handoff).1 = .recordLimit (some frame)) := by
  obtain ⟨plaintext, closeEq, closeLen⟩ := limitClosePlaintext_ok handoff
  by_cases isOpen : c.Open
  · have small : plaintext.length ≤ recordHeaderLen + recordDataMax := by
      rw [closeLen, closeRecordLen]
      exact Nat.add_le_add_left (by decide) _
    obtain ⟨transport, frame, transport', had, sealed, size, encrypted⟩ := encrypt_open seals isOpen small
    obtain ⟨records, bytes⟩ := b.reserve isOpen
    have usage : c.sendUsageAfter 1 plaintext.length false =
        .ok (some (c.sentRecords + 1, c.sentPlaintext + plaintext.length)) := by
      rw [sendUsageAfter_eq, if_pos (by simp only [closeLen, Bool.toNat_false]; omega)]
    have result : c.recordLimitErrorWithHandoff noise handoff = (.recordLimit (some frame),
        { c.closeState with
          sentRecords := c.sentRecords + 1
          sentPlaintext := c.sentPlaintext + plaintext.length }) := by
      simp [recordLimitErrorWithHandoff, limitCloseFrame, closeEq, usage, encrypted, closeState]
    rw [result]
    refine ⟨?_, fun _ => ⟨transport, plaintext, frame, transport', had, closeEq, sealed, rfl⟩⟩
    have charged := b.sendLast frame none records (by rw [size, closeLen]; exact bytes)
    rwa [size] at charged
  · have result : c.recordLimitErrorWithHandoff noise handoff = (.recordLimit none, c.closeState) := by
      simp only [recordLimitErrorWithHandoff, limitCloseFrame, closeEq, sendUsageAfter_eq, encrypt_closed isOpen]
      split <;> simp_all
    rw [result]
    refine ⟨?_, fun h => absurd h isOpen⟩
    simpa [Error.recordLimit] using b.closeState

theorem recordLimitError_accounted (seals : noise.SealsRecords) (b : Budget c sent) :
    Accounted noise frames c sent
      (.error (c.recordLimitError noise).1, (c.recordLimitError noise).2) where
  budget := (recordLimitErrorWithHandoff_spec seals b c.handoff).1
  limit := by
    rintro isOpen _ eq -
    cases eq
    obtain ⟨transport, plaintext, frame, transport', had, rest⟩ :=
      (recordLimitErrorWithHandoff_spec seals b c.handoff).2 isOpen
    exact ⟨transport, plaintext, frame, transport', .inl had, rest⟩

theorem encryptCounted_accounted (seals : noise.SealsRecords) (b : Budget c sent) {plaintext : Bytes}
    (small : plaintext.length ≤ recordHeaderLen + recordDataMax) :
    Accounted noise (fun frame => [frame]) c sent (c.encryptCounted noise plaintext) := by
  unfold encryptCounted
  rw [sendUsageAfter_eq]
  split
  · cases ‹Except.ok _ = Except.error _›
  · exact recordLimitError_accounted seals b
  · rename_i usage
    obtain ⟨⟨records, bytes⟩, eq⟩ : _ ∧ _ := by simpa using usage
    by_cases isOpen : c.Open
    · obtain ⟨transport, frame, transport', had, sealed, size, encrypted⟩ := encrypt_open seals isOpen small
      simp only [encrypted]
      refine accounted_ok ?_
      have sent := b.send isOpen [frame] transport' (by simpa using records)
        (by simpa [size] using bytes)
      simpa [size, eq] using sent
    · simp only [encrypt_closed isOpen]
      exact accounted_error b ⟨by decide, rfl⟩

theorem writeRecord_accounted (seals : noise.SealsRecords) (b : Budget c sent) (kind : RecordKind)
    (payload : Bytes) : Accounted noise (fun frame => [frame]) c sent (c.writeRecord noise kind payload) := by
  unfold writeRecord
  split
  · exact accounted_error b (plain_completeRecord _ _ _ ‹_›)
  · split
    · exact accounted_error b (plain_encode _ _ ‹_›)
    · rename_i encoded
      obtain ⟨fits, rfl⟩ := Record.encode_ok encoded
      exact encryptCounted_accounted seals b (by rw [Record.wire_length]; omega)

theorem writeFinished_accounted (seals : noise.SealsRecords) (b : Budget c sent) (role : Nat) :
    Accounted noise (fun frame => [frame]) c sent (c.writeFinished noise role) := by
  unfold writeFinished
  split
  · exact accounted_error b ⟨by decide, rfl⟩
  · split
    · exact accounted_error b ⟨by decide, rfl⟩
    · rename_i hash _
      have record := writeRecord_accounted seals b .finished (finished c.binding role hash)
      split
      · rename_i eq
        rwa [eq] at record
      · rename_i eq
        rw [eq] at record
        exact accounted_ok record.budget.retag

/-- The fragments of a message fit the frames they travel in, and there is one at least. -/
theorem fragmentRecords_small {kind : RecordKind} {payload : Bytes} {plaintexts : List Bytes}
    (h : fragmentRecords kind payload = .ok plaintexts) :
    plaintexts ≠ [] ∧ ∀ plaintext ∈ plaintexts, plaintext.length ≤ recordHeaderLen + recordDataMax := by
  rw [fragmentRecords_eq] at h
  split at h
  · cases h
  · rename_i usable
    cases h
    constructor
    · have some : 0 < payload.length := by
        cases payload with
        | nil => simp at usable
        | cons => simp
      simp only [ne_eq, List.map_eq_nil_iff, fragments, List.range_eq_nil, fragmentCount, recordDataMax]
      omega
    · intro plaintext member
      obtain ⟨record, inFragments, rfl⟩ := List.mem_map.mp member
      obtain ⟨index, -, rfl⟩ := List.mem_map.mp inFragments
      rw [Record.wire_length]
      exact Nat.add_le_add_left (chunk_length_le payload index) _

theorem encryptAll_open (seals : noise.SealsRecords) (isOpen : c.Open) {plaintexts : List Bytes}
    (small : ∀ plaintext ∈ plaintexts, plaintext.length ≤ recordHeaderLen + recordDataMax) :
    ∃ frames transport', c.encryptAll noise plaintexts = (.ok frames, { c with transport := some transport' }) ∧
      frames.map plaintextLen = plaintexts.map List.length := by
  induction plaintexts generalizing c with
  | nil =>
      obtain ⟨transport, eq⟩ := Option.isSome_iff_exists.mp isOpen.2
      exact ⟨[], transport, by rw [encryptAll, ← eq], rfl⟩
  | cons plaintext rest ih =>
      obtain ⟨_, frame, transport', -, -, size, encrypted⟩ := encrypt_open seals isOpen (small plaintext (by simp))
      obtain ⟨frames, transport'', others, sizes⟩ := ih (c := { c with transport := some transport' })
        ⟨isOpen.1, rfl⟩ fun p member => small p (by simp [member])
      refine ⟨frame :: frames, transport'', ?_, by simp [size, sizes]⟩
      simp only [encryptAll, encrypted, others]

theorem encryptAll_closed (isClosed : ¬ c.Open) {plaintexts : List Bytes} (nonempty : plaintexts ≠ []) :
    c.encryptAll noise plaintexts = (.error (.new .sequenceViolation), c) := by
  cases plaintexts with
  | nil => contradiction
  | cons plaintext rest => simp only [encryptAll, encrypt_closed isClosed]

/-- The checked total of a message is the sum of its parts, or an overflow. -/
theorem messageBytes_eq {plaintexts : List Bytes} {bytes : Nat} (h : messageBytes plaintexts = some bytes) :
    bytes = (plaintexts.map List.length).sum := by
  suffices general : ∀ start, plaintexts.foldlM (fun total plaintext => checkedAdd total plaintext.length) start =
      some bytes → bytes = start + (plaintexts.map List.length).sum by
    simpa using general 0 h
  clear h
  intro start
  induction plaintexts generalizing start with
  | nil =>
      intro eq
      simpa using eq.symm
  | cons plaintext rest ih =>
      intro eq
      simp only [List.foldlM_cons, bind, Option.bind_eq_some_iff] at eq
      obtain ⟨next, added, folded⟩ := eq
      have := ih next folded
      have := checkedAdd_eq added
      simp only [List.map_cons, List.sum_cons]
      omega

theorem writeApplication_accounted (seals : noise.SealsRecords) (b : Budget c sent) (payload : Bytes) (cap : Nat) :
    Accounted noise id c sent (c.writeApplication noise payload cap) := by
  unfold writeApplication
  split
  · exact accounted_error b ⟨by decide, rfl⟩
  split
  · exact accounted_error b ⟨by decide, rfl⟩
  split
  · rename_i eq
    rw [fragmentRecords_eq] at eq
    split at eq <;> cases eq
    exact accounted_error b ⟨by decide, rfl⟩
  rename_i plaintexts fragmented
  obtain ⟨nonempty, small⟩ := fragmentRecords_small fragmented
  cases total : messageBytes plaintexts with
  | none => exact recordLimitError_accounted seals b
  | some bytes =>
      simp only [sendUsageAfter_eq]
      split
      · cases ‹Except.ok _ = Except.error _›
      · exact recordLimitError_accounted seals b
      · rename_i usage
        obtain ⟨⟨records, size⟩, eq⟩ : _ ∧ _ := by simpa using usage
        by_cases isOpen : c.Open
        · obtain ⟨frames, transport', encrypted, sizes⟩ := encryptAll_open seals isOpen small
          have count : frames.length = plaintexts.length := by simpa using congrArg List.length sizes
          have sum : (frames.map plaintextLen).sum = bytes := by rw [sizes, messageBytes_eq total]
          simp only [encrypted]
          refine accounted_ok ?_
          have charged := b.send isOpen frames transport' (by omega) (by omega)
          rw [← eq.1, ← eq.2, ← count, ← sum]
          exact charged.retag
        · simp only [encryptAll_closed isOpen nonempty]
          exact accounted_error b ⟨by decide, rfl⟩

/-- Reading a record charges the receive counters, so that the reassembler,
    which counts no more than the session, has room for it. -/
structure ReadCharged (c' : SessionCore H T) (sent : List Bytes) (record : Record) : Prop where
  budget : Budget c' sent
  records : c'.reassembly.records + 1 ≤ c'.receivedRecords
  bytes : c'.reassembly.bytes + (recordHeaderLen + record.data.length) ≤ c'.receivedPlaintext

theorem decode_length {b : Bytes} {record : Record} (h : Record.decode b = .ok record) :
    b.length = recordHeaderLen + record.data.length := by
  unfold Record.decode at h
  split at h
  · cases h
  split at h
  · cases h
  dsimp only at h
  split at h
  · cases h
  split at h
  · cases h
  · cases h
    simp only [List.length_drop, recordHeaderLen] at *
    omega

/-- The three ways a decryption ends. -/
theorem decryptCounted_cases (noise : Noise R H T) (c : SessionCore H T) (outer : Bytes) :
    (∃ error, error.Plain ∧ c.decryptCounted noise outer = (.error error, c)) ∨
    ∃ before plaintext transport, c.closed = false ∧ c.transport = some before ∧
      noise.decryptTransport before outer = .ok (plaintext, transport) ∧
      let after := { c with transport := some transport }
      (c.decryptCounted noise outer =
          (.error (after.recordLimitError noise).1, (after.recordLimitError noise).2) ∨
        c.receivedRecords + 1 < recordLimit ∧ c.receivedPlaintext + plaintext.length < byteLimit ∧
          c.decryptCounted noise outer = (.ok plaintext, { after with
            receivedRecords := c.receivedRecords + 1
            receivedPlaintext := c.receivedPlaintext + plaintext.length })) := by
  by_cases isOpen : c.Open
  · obtain ⟨notClosed, present⟩ := isOpen
    obtain ⟨before, had⟩ := Option.isSome_iff_exists.mp present
    have usable : c.openTransport = .ok before := by simp [openTransport, notClosed, had]
    cases decrypted : noise.decryptTransport before outer with
    | error error =>
        refine .inl ⟨error, plain_decryptTransport before outer error decrypted, ?_⟩
        simp [decryptCounted, usable, decrypted]
    | ok value =>
        obtain ⟨plaintext, transport⟩ := value
        refine .inr ⟨before, plaintext, transport, notClosed, had, decrypted, ?_⟩
        simp only [decryptCounted, usable, decrypted]
        split
        · rename_i records bytes addRecords addBytes
          obtain rfl := checkedAdd_eq addRecords
          obtain rfl := checkedAdd_eq addBytes
          split
          · exact .inl rfl
          · exact .inr ⟨by omega, by omega, rfl⟩
        · exact .inl rfl
  · refine .inl ⟨.new .sequenceViolation, ⟨by decide, rfl⟩, ?_⟩
    simp only [decryptCounted, openTransport_closed isOpen]

theorem readRecord_error (seals : noise.SealsRecords) (b : Budget c sent) {outer : Bytes} {error : Error}
    (h : c.readRecord noise outer = (.error error, c')) : Accounted noise frames c sent (.error error, c') := by
  rcases decryptCounted_cases noise c outer with ⟨plain, isPlain, eq⟩ | ⟨before, plaintext, transport, -, had,
    decrypted, eq | ⟨records, bytes, eq⟩⟩
  · simp only [readRecord, eq, Prod.mk.injEq, Except.error.injEq] at h
    obtain ⟨rfl, rfl⟩ := h
    exact accounted_error b isPlain
  · simp only [readRecord, eq, Prod.mk.injEq, Except.error.injEq] at h
    obtain ⟨rfl, rfl⟩ := h
    have limited := recordLimitErrorWithHandoff_spec seals (b.advance had transport) c.handoff
    refine ⟨limited.1, fun isOpen error same _ => ?_⟩
    cases same
    obtain ⟨used, close, frame, next, current, rest⟩ := limited.2 ⟨isOpen.1, rfl⟩
    cases current
    exact ⟨transport, close, frame, next, .inr ⟨before, outer, plaintext, had, decrypted⟩, rest⟩
  · simp only [readRecord, eq, Prod.mk.injEq] at h
    obtain ⟨undecoded, rfl⟩ := h
    exact accounted_error ((b.advance had transport).receive records bytes)
      (plain_decode plaintext error undecoded)

theorem readRecord_ok (b : Budget c sent) {outer : Bytes} {record : Record}
    (h : c.readRecord noise outer = (.ok record, c')) : ReadCharged c' sent record := by
  rcases decryptCounted_cases noise c outer with ⟨plain, isPlain, eq⟩ | ⟨before, plaintext, transport, -, had,
    decrypted, eq | ⟨records, bytes, eq⟩⟩
  · simp [readRecord, eq] at h
  · simp [readRecord, eq] at h
  · simp only [readRecord, eq, Prod.mk.injEq] at h
    obtain ⟨decoded, rfl⟩ := h
    have size := decode_length decoded
    have within := b.reassembly
    exact ⟨(b.advance had transport).receive records bytes, by simp only; omega, by simp only; omega⟩

theorem readFinished_accounted (seals : noise.SealsRecords) (b : Budget c sent) (outer : Bytes) (role : Nat) :
    Accounted noise (fun _ => []) c sent (c.readFinished noise outer role) := by
  unfold readFinished
  split
  · exact accounted_error (b.close (.inr rfl) b.reassembly (.inr rfl)) ⟨by decide, rfl⟩
  split
  · exact accounted_error b ⟨by decide, rfl⟩
  split
  · exact readRecord_error seals b ‹_›
  · have charged := (readRecord_ok b ‹_›).budget
    split
    · exact accounted_error charged (plain_validateCompleteRecord _ _ _ ‹_›)
    split
    · exact accounted_error charged (plain_parseFinished _ _ _ _ ‹_›)
    split
    · exact accounted_error charged ⟨by decide, rfl⟩
    · exact accounted_ok (by simpa using charged.retag)

theorem readClose_accounted (seals : noise.SealsRecords) (b : Budget c sent) (outer : Bytes) :
    Accounted noise (fun _ => []) c sent (c.readClose noise outer) := by
  unfold readClose
  split
  · exact accounted_error b ⟨by decide, rfl⟩
  split
  · exact readRecord_error seals b ‹_›
  · have charged := (readRecord_ok b ‹_›).budget
    split
    · exact accounted_error charged (plain_validateCompleteRecord _ _ _ ‹_›)
    split
    · exact accounted_error charged (plain_parseClose _ _ ‹_›)
    · exact accounted_ok (by simpa using charged.endSession)

theorem ReadCharged.within {record : Record} (charged : ReadCharged c' sent record) :
    ¬ c'.reassembly.Exceeds record := by
  have received := charged.budget.received
  have records := charged.records
  have bytes := charged.bytes
  unfold RecordReassembler.Exceeds
  omega

theorem ReadCharged.accept {record : Record} (charged : ReadCharged c' sent record) :
    Budget { c' with reassembly := (c'.reassembly.accept record).2 } sent := by
  obtain ⟨records, bytes⟩ := RecordReassembler.accept_counters c'.reassembly record
  exact charged.budget.reassemble ⟨records.trans charged.records, bytes.trans charged.bytes⟩

theorem readApplication_accounted (seals : noise.SealsRecords) (b : Budget c sent) (outer : Bytes) :
    Accounted noise (fun _ => []) c sent (c.readApplication noise outer) := by
  unfold readApplication
  split
  · exact accounted_error b ⟨by decide, rfl⟩
  split
  · exact readRecord_error seals b ‹_›
  rename_i record after eq
  have charged := readRecord_ok b eq
  have reassembled := charged.accept
  split
  · split
    · exact accounted_error charged.budget (plain_validateCompleteRecord _ _ _ ‹_›)
    split
    · exact accounted_error charged.budget (plain_parseClose _ _ ‹_›)
    · exact accounted_error (charged.budget.close (.inr rfl) charged.budget.reassembly (.inr rfl))
        ⟨by simp [Error.ofPeerClose], rfl⟩
  split
  · exact accounted_error charged.budget ⟨by decide, rfl⟩
  split
  · exact accounted_error charged.budget ⟨by decide, rfl⟩
  split
  · rename_i accepted
    have plain := RecordReassembler.plain_accept charged.within
    rw [accepted] at plain reassembled
    exact accounted_error reassembled (plain _ rfl)
  · rename_i accepted
    rw [accepted] at reassembled
    exact accounted_ok (by simpa using reassembled)
  · rename_i accepted
    rw [accepted] at reassembled
    dsimp only
    split
    · exact accounted_error reassembled ⟨by decide, rfl⟩
    · exact accounted_ok (by simpa using reassembled.retag)

/-- A Close on an open session always fits the reserve. -/
theorem writeClose_open (seals : noise.SealsRecords) (b : Budget c sent) (isOpen : c.Open) (reason : CloseReason)
    (handoff : HandoffState) : ∃ frame after, c.writeClose noise reason handoff = (.ok frame, after) ∧
      Budget after (sent ++ [frame]) := by
  have fits : (closePayload reason (c.handoff.conservativeMax handoff)).length ≤ recordDataMax := by
    simp [recordDataMax]
  obtain ⟨record, complete, encoded, encodable, -, -, -, data⟩ := complete_encode .close fits
  have length : record.wire.length = closeRecordLen := by
    rw [Record.wire_length, data, closePayload_length, closeRecordLen]
  have small : record.wire.length ≤ recordHeaderLen + recordDataMax := by
    rw [Record.wire_length]
    exact Nat.add_le_add_left encodable.data _
  obtain ⟨transport, frame, transport', -, -, size, encrypted⟩ := encrypt_open seals isOpen small
  obtain ⟨records, bytes⟩ := b.reserve isOpen
  have usage : c.sendUsageAfter 1 record.wire.length false =
      .ok (some (c.sentRecords + 1, c.sentPlaintext + record.wire.length)) := by
    rw [sendUsageAfter_eq, if_pos (by simp only [length, Bool.toNat_false]; omega)]
  have charged := b.sendLast frame c.sessionHash records (by rw [size, length]; exact bytes)
  rw [size] at charged
  refine ⟨frame, _, ?_, charged⟩
  simp only [writeClose, complete, encoded, usage, encrypted]
  rfl

theorem writeClose_accounted (seals : noise.SealsRecords) (b : Budget c sent) (reason : CloseReason)
    (handoff : HandoffState) :
    Accounted noise (fun frame => [frame]) c sent (c.writeClose noise reason handoff) := by
  by_cases isOpen : c.Open
  · obtain ⟨frame, after, written, charged⟩ := writeClose_open seals b isOpen reason handoff
    rw [written]
    exact accounted_ok charged
  · simp only [writeClose]
    split
    · exact accounted_error b (plain_completeRecord _ _ _ ‹_›)
    split
    · exact accounted_error b (plain_encode _ _ ‹_›)
    rw [sendUsageAfter_eq]
    split
    · cases ‹Except.ok _ = Except.error _›
    · exact ⟨(recordLimitErrorWithHandoff_spec seals b _).1, fun h => absurd h isOpen⟩
    · simp only [encrypt_closed isOpen]
      exact accounted_error b ⟨by decide, rfl⟩

theorem eof_accounted (b : Budget c sent) : Accounted noise (fun _ => []) c sent c.eof := by
  unfold eof
  split
  · exact accounted_error b ⟨by decide, rfl⟩
  · unfold RecordReassembler.eof
    by_cases failed : c.reassembly.failed
    · simp only [if_pos failed]
      exact accounted_error b.closeState ⟨by decide, rfl⟩
    · by_cases active : c.reassembly.active.isSome
      · simp only [if_neg failed, if_pos active]
        have counted : RecordReassembler.records { c.reassembly.clear with failed := true } ≤ c.receivedRecords ∧
            RecordReassembler.bytes { c.reassembly.clear with failed := true } ≤ c.receivedPlaintext := b.reassembly
        exact accounted_error (b.reassemble counted).closeState ⟨by decide, rfl⟩
      · simp only [if_neg failed, if_neg active]
        exact accounted_error b.closeState ⟨by decide, rfl⟩

theorem validateBinding_accounted (b : Budget c sent) (generation epoch : Nat) :
    Accounted noise (fun _ => []) c sent (c.validateBinding generation epoch) := by
  unfold validateBinding
  split
  · exact accounted_error b.closeState ⟨by decide, rfl⟩
  · exact accounted_ok (by simpa using b)

theorem writeHandshake_quiet (b : Budget c sent) (payload : Bytes) : Quiet sent (c.writeHandshake noise payload) := by
  unfold writeHandshake
  split
  · exact ⟨b, plain_new (by decide)⟩
  · rename_i state had
    split
    · rename_i error eq
      exact quiet_error b (plain_writeHandshakeFrame _ _ error eq)
    · exact ⟨b.handshake had _, plain_ok _⟩

theorem readHandshake_quiet (b : Budget c sent) (outer : Bytes) : Quiet sent (c.readHandshake noise outer) := by
  unfold readHandshake
  split
  · exact ⟨b, plain_new (by decide)⟩
  · rename_i state had
    split
    · rename_i error eq
      exact quiet_error b (plain_readHandshakeFrame _ _ error eq)
    · dsimp only
      split
      · exact ⟨b.handshake had _, plain_ok _⟩
      · exact ⟨b.handshake had _, plain_new (by decide)⟩

theorem finishHandshake_quiet (b : Budget c sent) : Quiet sent (c.finishHandshake noise) := by
  unfold finishHandshake
  split
  · exact ⟨b, plain_new (by decide)⟩
  · rename_i state had
    dsimp only
    split
    · rename_i error eq
      exact quiet_error (b.finish had) (plain_core _ error eq)
    · exact ⟨b.finish had, plain_ok _⟩

theorem readHandshakeFinish_quiet (b : Budget c sent) (outer : Bytes) :
    Quiet sent (c.readHandshakeFinish noise outer) := by
  unfold readHandshakeFinish
  have first : Quiet sent (c.readHandshake noise outer) := readHandshake_quiet b outer
  split
  · rename_i eq
    rw [eq] at first
    exact quiet_error first.budget (first.plain _ rfl)
  · rename_i eq
    rw [eq] at first
    exact finishHandshake_quiet first.budget

end SessionCore

end Calls

end AppPilotKit.Transport
