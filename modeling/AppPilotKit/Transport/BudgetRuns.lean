import AppPilotKit.Lib.Runs
import AppPilotKit.Transport.Budget
import AppPilotKit.Transport.NonceNoise

/-! # The send budget over sequences of calls

Every session starts with an empty budget, every call of its interface keeps
the account, so the account holds after any sequence of calls.
-/

namespace AppPilotKit.Transport

open Wire SessionCore

variable {R H T : Type} {noise : Noise R H T} {sent : List Bytes}

/-- The transport records of a successful reply. -/
def replyFrames : Reply → List Bytes
  | .records frames => frames
  | _ => []

theorem handedOut_eq (r : Except Error Reply) : handedOut r = framesOf replyFrames r := by
  rcases r with error | reply
  · rfl
  · cases reply <;> rfl

theorem Accounted.reply {α : Type} {frames : α → List Bytes} {c : SessionCore H T}
    {r : Except Error α × SessionCore H T} (h : Accounted noise frames c sent r) {f : α → Reply}
    (same : ∀ value, replyFrames (f value) = frames value) :
    Accounted noise replyFrames c sent (r.1.map f, r.2) := by
  obtain ⟨result, after⟩ := r
  cases result with
  | ok value => exact accounted_ok (by simpa [same, framesOf] using h.budget)
  | error error => exact ⟨h.budget, fun isOpen _ eq => by cases eq; exact h.limit isOpen error rfl⟩

theorem map_ok {α β : Type} {r : Except Error α} {f : α → β} {value : β} (h : r.map f = .ok value) :
    ∃ a, r = .ok a ∧ f a = value := by
  cases r with
  | error error => cases h
  | ok a =>
      cases h
      exact ⟨a, rfl, rfl⟩

/-- A session that was just built has sent nothing. -/
theorem new_budget {entropy : R} {binding : SessionBinding} {pbs : FixedBytes 32} {initiator : Bool}
    {inboundCap : Nat} {peerTurn : Bool} {c : SessionCore H T}
    (h : SessionCore.new noise entropy binding pbs initiator inboundCap peerTurn = .ok c) : Budget c [] := by
  simp only [SessionCore.new, bind, Except.bind, pure, Except.pure] at h
  split at h
  · cases h
  split at h
  · cases h
  split at h
  · cases h
  rename_i reassembly fresh
  have counters : reassembly.records = 0 ∧ reassembly.bytes = 0 := by
    unfold RecordReassembler.new at fresh
    split at fresh <;> cases fresh
    exact ⟨rfl, rfl⟩
  cases h
  exact {
    sentRecords := rfl
    sentPlaintext := rfl
    records_lt := Nat.two_pow_pos 32
    bytes_lt := Nat.two_pow_pos 40
    reserve := fun h => by simp [SessionCore.Open] at h
    received := ⟨Nat.two_pow_pos 32, Nat.two_pow_pos 40⟩
    reassembly := ⟨counters.1.le, counters.2.le⟩
    fresh := fun _ => ⟨rfl, rfl⟩
    exclusive := fun h => by cases h
  }

theorem setCap_counters (r : RecordReassembler) (cap : Nat) :
    (r.setCap cap).2.records = r.records ∧ (r.setCap cap).2.bytes = r.bytes := by
  unfold RecordReassembler.setCap
  split
  · exact ⟨rfl, rfl⟩
  · exact ⟨rfl, rfl⟩

theorem setCap_plain (r : RecordReassembler) (cap : Nat) : PlainFailure (r.setCap cap).1 := by
  unfold RecordReassembler.setCap
  split
  · exact plain_new (by decide)
  · exact plain_ok _

theorem TargetSession.readApplication_accounted (seals : noise.SealsRecords) {s : TargetSession H T}
    (b : Budget s.core sent) (outer : Bytes) :
    Accounted noise (fun _ => []) s.core sent
      ((s.readApplication noise outer).1, (s.readApplication noise outer).2.core) := by
  have inner := SessionCore.readApplication_accounted seals b outer
  unfold TargetSession.readApplication
  split
  · rename_i bytes c eq
    rw [eq] at inner
    have delivered : Budget c sent := by simpa [framesOf] using inner.budget
    dsimp only
    split
    · exact accounted_ok (by simpa [TargetSession.wrap] using delivered.retag)
    · have counters := setCap_counters c.reassembly c.limits.requestBytes
      have plain := setCap_plain c.reassembly c.limits.requestBytes
      have capped : Budget { c with reassembly := (c.reassembly.setCap c.limits.requestBytes).2 } sent :=
        delivered.reassemble ⟨counters.1.le.trans delivered.reassembly.1, counters.2.le.trans delivered.reassembly.2⟩
      split
      · rename_i eq
        rw [eq] at plain capped
        exact accounted_error capped.retag (plain _ rfl)
      · rename_i eq
        rw [eq] at capped
        exact accounted_ok (by simpa [TargetSession.wrap] using capped.retag)
  · exact inner.finishResult

theorem TargetSession.call_accounted (seals : noise.SealsRecords) {s : TargetSession H T}
    (b : Budget s.core sent) (call : TargetCall) :
    Accounted noise replyFrames s.core sent ((s.call noise call).1, (s.call noise call).2.core) := by
  cases call with
  | writeM1 => exact (writeHandshake_quiet b []).accounted.finishResult.reply fun _ => rfl
  | readM2 outer => exact (readHandshakeFinish_quiet b outer).accounted.finishResult.reply fun _ => rfl
  | writeFinished => exact (writeFinished_accounted seals b 0).finishResult.reply fun _ => rfl
  | readFinished outer =>
      have inner : Accounted noise (fun _ => []) s.core sent
          (if !s.core.sentFinished then (.error (.new .sequenceViolation), s.core)
            else s.core.readFinished noise outer 1) := by
        split
        · exact accounted_error b ⟨by decide, rfl⟩
        · exact readFinished_accounted seals b outer 1
      exact inner.finishResult.reply fun _ => rfl
  | readApplication outer => exact (TargetSession.readApplication_accounted seals b outer).reply fun _ => rfl
  | eof => exact (eof_accounted b).reply fun _ => rfl
  | writeApplicationResponse payload =>
      have inner : Accounted noise id s.core sent
          (if !s.core.firstApplication then (.error (.new .sequenceViolation), s.core)
            else s.core.writeApplication noise payload s.core.limits.responseBytes) := by
        split
        · exact accounted_error b ⟨by decide, rfl⟩
        · exact writeApplication_accounted seals b payload _
      exact inner.finishResult.reply fun _ => rfl
  | writeClose reason handoff => exact (writeClose_accounted seals b reason handoff).finishResult.reply fun _ => rfl
  | readClose outer => exact (readClose_accounted seals b outer).finishResult.reply fun _ => rfl
  | validateBinding generation epoch => exact (validateBinding_accounted b generation epoch).reply fun _ => rfl

theorem noteHandoff_accounted {c : SessionCore H T} {r : Except Error (List Bytes) × SessionCore H T}
    (h : Accounted noise id c sent r) : Accounted noise id c sent (BrokerSession.noteHandoff r) := by
  obtain ⟨result, after⟩ := r
  cases result with
  | ok frames => exact accounted_ok h.budget.retag
  | error error => exact h

theorem BrokerSession.readM1WriteM2_quiet {c : SessionCore H T} (b : Budget c sent) (outer : Bytes) :
    Quiet sent
      (match c.readHandshake noise outer with
      | (.error error, c) => (.error error, c)
      | (.ok (), c) =>
          match c.writeHandshake noise [] with
          | (.error error, c) => (.error error, c)
          | (.ok message, c) =>
              match c.finishHandshake noise with
              | (.error error, c) => (.error error, c)
              | (.ok (), c) => (.ok message, c)) := by
  have first : Quiet sent (c.readHandshake noise outer) := readHandshake_quiet b outer
  split
  · rename_i eq
    rw [eq] at first
    exact quiet_error first.budget (first.plain _ rfl)
  · rename_i afterRead eq
    rw [eq] at first
    have second : Quiet sent (afterRead.writeHandshake noise []) := writeHandshake_quiet first.budget []
    split
    · rename_i eq
      rw [eq] at second
      exact quiet_error second.budget (second.plain _ rfl)
    · rename_i afterWrite eq
      rw [eq] at second
      have third : Quiet sent (afterWrite.finishHandshake noise) := finishHandshake_quiet second.budget
      split
      · rename_i eq
        rw [eq] at third
        exact quiet_error third.budget (third.plain _ rfl)
      · rename_i eq
        rw [eq] at third
        exact ⟨third.budget, plain_ok _⟩

theorem BrokerSession.call_accounted (seals : noise.SealsRecords) {s : BrokerSession H T}
    (b : Budget s.core sent) (call : BrokerCall) :
    Accounted noise replyFrames s.core sent ((s.call noise call).1, (s.call noise call).2.core) := by
  cases call with
  | readM1WriteM2 outer =>
      exact (BrokerSession.readM1WriteM2_quiet b outer).accounted.finishResult.reply fun _ => rfl
  | writeFinished =>
      have inner : Accounted noise (fun frame => [frame]) s.core sent
          (if !s.core.gotFinished then (.error (.new .sequenceViolation), s.core)
            else s.core.writeFinished noise 1) := by
        split
        · exact accounted_error b ⟨by decide, rfl⟩
        · exact writeFinished_accounted seals b 1
      exact inner.finishResult.reply fun _ => rfl
  | readFinished outer => exact (readFinished_accounted seals b outer 0).finishResult.reply fun _ => rfl
  | writeSessionOpen payload =>
      have inner : Accounted noise id s.core sent
          (if s.core.firstApplication || payload.isEmpty then (.error (.new .sequenceViolation), s.core)
            else if payload.length > s.core.limits.firstOpenBytes then (.error (.new .oversize), s.core)
            else { s.core with firstApplication := true }.writeApplication noise payload
              s.core.limits.requestBytes) := by
        split
        · exact accounted_error b ⟨by decide, rfl⟩
        split
        · exact accounted_error b ⟨by decide, rfl⟩
        · have marked : Budget { s.core with firstApplication := true } sent := b.retag
          have written := writeApplication_accounted seals marked payload s.core.limits.requestBytes
          exact ⟨written.budget, written.limit⟩
      exact (noteHandoff_accounted inner).finishResult.reply fun _ => rfl
  | writeApplicationRequest payload =>
      have inner : Accounted noise id s.core sent
          (if !s.core.firstApplication then (.error (.new .sequenceViolation), s.core)
            else s.core.writeApplication noise payload s.core.limits.requestBytes) := by
        split
        · exact accounted_error b ⟨by decide, rfl⟩
        · exact writeApplication_accounted seals b payload _
      exact (noteHandoff_accounted inner).finishResult.reply fun _ => rfl
  | readApplicationResponse outer =>
      exact (SessionCore.readApplication_accounted seals b outer).finishResult.reply fun _ => rfl
  | eof => exact (eof_accounted b).reply fun _ => rfl
  | writeClose reason handoff => exact (writeClose_accounted seals b reason handoff).finishResult.reply fun _ => rfl
  | readClose outer => exact (readClose_accounted seals b outer).finishResult.reply fun _ => rfl
  | validateBinding generation epoch => exact (validateBinding_accounted b generation epoch).reply fun _ => rfl

/-- What a reached session promises about the records `sent` handed out so far. -/
structure KeepsReserve (noise : Noise R H T) (c : SessionCore H T) (sent : List Bytes) : Prop where
  sentRecords : c.sentRecords = sent.length ∧ c.sentRecords < recordLimit
  sentPlaintext : c.sentPlaintext = (sent.map plaintextLen).sum ∧ c.sentPlaintext < byteLimit
  reserve : c.Open → c.sentRecords + 1 < recordLimit ∧ c.sentPlaintext + closeRecordLen < byteLimit
  writeClose : c.Open → ∀ reason handoff, ∃ frame, (c.writeClose noise reason handoff).1 = .ok frame
  writeFinished_limit : c.Open → ∀ role error, (c.writeFinished noise role).1 = .error error →
    error.reason = .recordLimit → LimitClose noise c error
  writeApplication_limit : c.Open → ∀ payload cap error, (c.writeApplication noise payload cap).1 = .error error →
    error.reason = .recordLimit → LimitClose noise c error
  decryptCounted_limit : ∀ outer error, (c.decryptCounted noise outer).1 = .error error →
    error.reason = .recordLimit → LimitClose noise c error
  reassembler : ∀ outer record after, c.readRecord noise outer = (.ok record, after) →
    ¬ after.reassembly.Exceeds record

theorem Budget.keepsReserve (seals : noise.SealsRecords) {c : SessionCore H T} (b : Budget c sent) :
    KeepsReserve noise c sent where
  sentRecords := ⟨b.sentRecords, b.records_lt⟩
  sentPlaintext := ⟨b.sentPlaintext, b.bytes_lt⟩
  reserve := b.reserve
  writeClose isOpen reason handoff := by
    obtain ⟨frame, after, written, -⟩ := writeClose_open seals b isOpen reason handoff
    exact ⟨frame, by rw [written]⟩
  writeFinished_limit isOpen role := (writeFinished_accounted seals b role).limit isOpen
  writeApplication_limit isOpen payload cap := (writeApplication_accounted seals b payload cap).limit isOpen
  decryptCounted_limit outer error failed reason := by
    by_cases isOpen : c.Open
    · have read : c.readRecord noise outer = (.error error, (c.decryptCounted noise outer).2) := by
        cases eq : c.decryptCounted noise outer with
        | mk result after =>
            rw [eq] at failed
            cases failed
            simp only [readRecord, eq]
      have accounted : Accounted noise (fun _ => []) c sent
          ((.error error, (c.decryptCounted noise outer).2) : Except Error Unit × _) := readRecord_error seals b read
      exact accounted.limit isOpen error rfl reason
    · simp only [decryptCounted, openTransport_closed isOpen] at failed
      cases failed
      cases reason
  reassembler outer record after read := (readRecord_ok b read).within

/-- The account of a run: the budget of everything its replies handed out. -/
theorem run_budget (noise : Noise R H T) {σ ι : Type} {step : σ → ι → Except Error Reply × σ} (core : σ → SessionCore H T)
    (accounted : ∀ s i sent, Budget (core s) sent →
      Accounted noise replyFrames (core s) sent ((step s i).1, core (step s i).2))
    (s : σ) (inputs : List ι) (start : Budget (core s) []) :
    Budget (core (Runs.final step s inputs)) ((Runs.outputs step s inputs).flatMap handedOut) := by
  refine Runs.invariant_outputs (fun given s => Budget (core s) (given.flatMap handedOut)) ?_ [] s inputs start
  intro given s i b
  have next := (accounted s i _ b).budget
  rw [← handedOut_eq] at next
  simpa using next

/-- Every sequence of calls keeps the budget and the reserved Close. -/
theorem sessions_keep_reserve (noise : Noise R H T) (seals : noise.SealsRecords) (entropy : R)
    (binding : SessionBinding) (pbs : FixedBytes 32) :
    (∀ s calls, TargetSession.new noise entropy binding pbs = .ok s →
      KeepsReserve noise (Runs.final (TargetSession.call noise) s calls).core
        ((Runs.outputs (TargetSession.call noise) s calls).flatMap handedOut)) ∧
    (∀ s calls, BrokerSession.new noise entropy binding pbs = .ok s →
      KeepsReserve noise (Runs.final (BrokerSession.call noise) s calls).core
        ((Runs.outputs (BrokerSession.call noise) s calls).flatMap handedOut)) := by
  constructor
  · intro s calls made
    have start : Budget s.core [] := by
      unfold TargetSession.new at made
      obtain ⟨c, built, rfl⟩ := map_ok made
      exact new_budget built
    have account := run_budget noise TargetSession.core
      (fun s call sent b => TargetSession.call_accounted seals b call) s calls start
    exact account.keepsReserve seals
  · intro s calls made
    have start : Budget s.core [] := by
      unfold BrokerSession.new at made
      obtain ⟨c, built, rfl⟩ := map_ok made
      exact new_budget built
    have account := run_budget noise BrokerSession.core
      (fun s call sent b => BrokerSession.call_accounted seals b call) s calls start
    exact account.keepsReserve seals

/-! ## A session at its limit

One-byte requests and responses bring a Target session to the last record it
may send before its Close.
-/

namespace LimitRun

/-- The smallest message as a complete record. -/
def byteRecord : Record :=
  { kind := .application, start := true, «end» := true, totalLen := 1, offset := 0, data := [0] }

def closeRecord : Record :=
  { kind := .close, start := true, «end» := true, totalLen := 7, offset := 0
    data := closePayload .normal .notHandedOff }

def binding : SessionBinding :=
  { leaseId := FixedBytes.replicate 16 0, processGeneration := 1, listenerEpoch := 1
    nkHandshakeHash := FixedBytes.replicate 32 0 }

def pbs : FixedBytes 32 := FixedBytes.replicate 32 0

/-- The Broker's Finished, whose payload is 62 bytes long. -/
def brokerFinished : Record :=
  { kind := .finished, start := true, «end» := true, totalLen := 62, offset := 0
    data := finished binding 1 (FixedBytes.replicate 32 0) }

/-- The calls up to the first response. -/
def opening : List TargetCall :=
  [.writeM1, .readM2 (be 2 handshakeOverhead ++ List.replicate handshakeOverhead 0), .writeFinished,
    .readFinished (nonceFrame 0 brokerFinished.wire), .readApplication (nonceFrame 1 byteRecord.wire),
    .writeApplicationResponse [0]]

/-- Read the request with this nonce and answer it. -/
def exchange (nonce : Nat) : List TargetCall :=
  [.readApplication (nonceFrame nonce byteRecord.wire), .writeApplicationResponse [0]]

def exchanges : Nat → List TargetCall
  | 0 => []
  | n + 1 => exchanges n ++ exchange (n + 2)

/-- The session after the opening and `n` more exchanges. -/
def served (n : Nat) : TargetSession Unit NonceTransport :=
  ⟨{
    handshake := none, transport := some ⟨n + 2, n + 2⟩, binding, sessionHash := some (FixedBytes.replicate 32 0)
    limits := {}, reassembly := { cap := 16 * 1024 * 1024, records := n + 1, bytes := 13 * (n + 1) }
    sentFinished := true, gotFinished := true, peerTurn := true, firstApplication := true, closed := false
    sentRecords := n + 2, sentPlaintext := 74 + 13 * (n + 1), receivedRecords := n + 2
    receivedPlaintext := 74 + 13 * (n + 1), handoff := .handoffPossibleOrConfirmed
  }⟩

theorem byteRecord_encodable : byteRecord.Encodable := ⟨by decide, by decide, by decide⟩

theorem byteRecord_small : byteRecord.wire.length ≤ recordHeaderLen + recordDataMax := by
  rw [Record.wire_length]; decide

/-- The session once the request of the next exchange was delivered. -/
def asked (n : Nat) : TargetSession Unit NonceTransport :=
  ⟨{ (served n).core with
    transport := some ⟨n + 2, n + 3⟩, peerTurn := false
    reassembly := { cap := 16 * 1024 * 1024, records := n + 2, bytes := 13 * (n + 2) }
    receivedRecords := n + 3, receivedPlaintext := 74 + 13 * (n + 2) }⟩

theorem served_reads (n : Nat) (h : n + 3 < recordLimit) :
    (served n).readApplication nonceNoise (nonceFrame (n + 2) byteRecord.wire) = (.ok (some [0]), asked n) := by
  have decrypted := decrypt_nonce byteRecord_small ⟨n + 2, n + 2⟩
  have decoded := Record.decode_wire byteRecord_encodable
  have size : byteRecord.wire.length = 13 := by decide
  have read : (served n).core.readRecord nonceNoise (nonceFrame (n + 2) byteRecord.wire) =
      (.ok byteRecord, { (served n).core with
        transport := some ⟨n + 2, n + 3⟩, receivedRecords := n + 3, receivedPlaintext := 74 + 13 * (n + 2) }) := by
    unfold recordLimit at h
    have notLimited : ¬ (n + 2 + 1 ≥ recordLimit ∨ 74 + 13 * (n + 1) + 13 ≥ byteLimit) := by
      unfold recordLimit byteLimit
      omega
    simp only [readRecord, decryptCounted, openTransport, served, Bool.false_eq_true, if_false, decrypted,
      checkedAdd_of (show n + 2 + 1 < 2 ^ 64 by omega), size,
      checkedAdd_of (show 74 + 13 * (n + 1) + 13 < 2 ^ 64 by omega), if_neg notLimited, decoded]
    rfl
  have accepted : (served n).core.reassembly.accept byteRecord = (.ok (some (.application, [0])),
      { cap := 16 * 1024 * 1024, records := n + 2, bytes := 13 * (n + 2) }) := by
    unfold recordLimit at h
    have notLimited : ¬ (n + 1 + 1 ≥ recordLimit ∨ 13 * (n + 1) + (recordHeaderLen + 1) ≥ byteLimit) := by
      unfold recordLimit byteLimit recordHeaderLen
      omega
    simp [served, RecordReassembler.accept, RecordReassembler.acceptBody, RecordReassembler.acceptStart, byteRecord,
      validateControlRecord, notLimited]
    unfold recordLimit byteLimit recordHeaderLen at *
    omega
  have delivered : (served n).core.readApplication nonceNoise (nonceFrame (n + 2) byteRecord.wire) =
      (.ok (some [0]), (asked n).core) := by
    unfold SessionCore.readApplication
    rw [read]
    simp only [accepted]
    rfl
  unfold TargetSession.readApplication
  rw [delivered]
  rfl

theorem byte_fragments : fragmentRecords .application [0] = .ok [byteRecord.wire] := by
  rw [fragmentRecords_eq]
  rfl

theorem asked_answers (n : Nat) (h : n + 4 < recordLimit) :
    (asked n).writeApplicationResponse nonceNoise [0] =
      (.ok [nonceFrame (n + 2) byteRecord.wire], served (n + 1)) := by
  have size : byteRecord.wire.length = 13 := by decide
  have encrypted := encrypt_nonce byteRecord_small ⟨n + 2, n + 3⟩
  have usage : (asked n).core.sendUsageAfter 1 13 true = .ok (some (n + 3, 74 + 13 * (n + 2))) := by
    rw [sendUsageAfter_eq, if_pos]
    · rfl
    · simp only [asked, served, closeRecordLen, recordHeaderLen, Bool.toNat_true]
      unfold byteLimit
      unfold recordLimit at *
      omega
  have total : messageBytes [byteRecord.wire] = some 13 := by decide
  have written : (asked n).core.writeApplication nonceNoise [0] (asked n).core.limits.responseBytes =
      (.ok [nonceFrame (n + 2) byteRecord.wire], (served (n + 1)).core) := by
    unfold SessionCore.writeApplication
    rw [if_neg (by simp [asked, served]), if_neg (by simp [asked, served])]
    simp only [byte_fragments, total, List.length_singleton, usage, encryptAll, encrypt]
    simp only [openTransport, asked, served, Bool.false_eq_true, if_false, encrypted]
  unfold TargetSession.writeApplicationResponse
  rw [if_neg (by simp [asked, served]), written]
  rfl

/-- The last record is the Close: the response is refused with it. -/
theorem asked_limit : ∃ frame after, (asked (recordLimit - 4)).writeApplicationResponse nonceNoise [0] =
    (.error (.recordLimit (some frame)), after) := by
  have total : messageBytes [byteRecord.wire] = some 13 := by decide
  have exhausted : (asked (recordLimit - 4)).core.sendUsageAfter 1 13 true = .ok none := by
    rw [sendUsageAfter_eq, if_neg]
    simp only [asked, served, Bool.toNat_true]
    unfold recordLimit
    omega
  obtain ⟨close, closeEq, closeLen⟩ := limitClosePlaintext_ok (asked (recordLimit - 4)).core.handoff
  have room : (asked (recordLimit - 4)).core.sendUsageAfter 1 close.length false =
      .ok (some (recordLimit - 4 + 2 + 1, 74 + 13 * (recordLimit - 4 + 1) + close.length)) := by
    rw [sendUsageAfter_eq, if_pos]
    · rfl
    · rw [closeLen]
      simp only [asked, served, Bool.toNat_false, closeRecordLen, recordHeaderLen]
      unfold recordLimit byteLimit
      omega
  have small : close.length ≤ recordHeaderLen + recordDataMax := by
    rw [closeLen]
    decide
  have encrypted := encrypt_nonce small ⟨recordLimit - 4 + 2, recordLimit - 4 + 3⟩
  have open_transport : (asked (recordLimit - 4)).core.openTransport = .ok ⟨recordLimit - 4 + 2, recordLimit - 4 + 3⟩ :=
    rfl
  unfold TargetSession.writeApplicationResponse SessionCore.writeApplication
  rw [if_neg (by simp [asked, served]), if_neg (by simp [asked, served]),
    if_neg (by simp [asked, served])]
  simp only [byte_fragments, total, List.length_singleton, exhausted, recordLimitError, recordLimitErrorWithHandoff,
    limitCloseFrame, closeEq, room, encrypt, open_transport, encrypted]
  exact ⟨_, _, rfl⟩

theorem served_exchange (n : Nat) (h : n + 4 < recordLimit) :
    Runs.final (TargetSession.call nonceNoise) (served n) (exchange (n + 2)) = served (n + 1) := by
  simp only [exchange, Runs.final_cons, Runs.final_nil, TargetSession.call, replyWith]
  rw [served_reads n (by omega), asked_answers n h]

theorem served_exchanges (n : Nat) (h : n + 3 < recordLimit) :
    Runs.final (TargetSession.call nonceNoise) (served 0) (exchanges n) = served n := by
  induction n with
  | zero => rfl
  | succ n ih =>
      rw [exchanges, Runs.final_append, ih (by omega)]
      exact served_exchange n (by omega)

/-- The session before its first call. -/
def fresh : TargetSession Unit NonceTransport :=
  ⟨{
    handshake := some (), transport := none, binding, sessionHash := none, limits := {}
    reassembly := { cap := 64 * 1024 }, sentFinished := false, gotFinished := false, peerTurn := true
    firstApplication := false, closed := false, sentRecords := 0, sentPlaintext := 0, receivedRecords := 0
    receivedPlaintext := 0, handoff := .notHandedOff
  }⟩

theorem new_fresh : TargetSession.new nonceNoise () binding pbs = .ok fresh := rfl

theorem opening_served : Runs.final (TargetSession.call nonceNoise) fresh opening = served 0 := by
  rfl

/-- The calls that leave one record for the Close, deliver a request and then lose the peer. -/
def calls : List TargetCall :=
  opening ++ (exchanges (recordLimit - 4) ++
    [.readApplication (nonceFrame (recordLimit - 4 + 2) byteRecord.wire), .eof])

theorem final_calls : Runs.final (TargetSession.call nonceNoise) fresh calls =
    ⟨(asked (recordLimit - 4)).core.closeState⟩ := by
  have small : recordLimit - 4 + 3 < recordLimit := by
    unfold recordLimit
    omega
  rw [calls, Runs.final_append, opening_served, Runs.final_append, served_exchanges _ small]
  simp only [Runs.final_cons, Runs.final_nil, TargetSession.call, replyWith, served_reads _ small]
  simp [TargetSession.eof, TargetSession.wrap, SessionCore.eof, RecordReassembler.eof, asked, served]

end LimitRun

open LimitRun in
theorem nonce_sessions_keep_reserve :
    nonceNoise.SealsRecords ∧ (∃ s, TargetSession.new nonceNoise () binding pbs = .ok s ∧
      KeepsReserve nonceNoise (Runs.final (TargetSession.call nonceNoise) s calls).core
        ((Runs.outputs (TargetSession.call nonceNoise) s calls).flatMap handedOut)) ∧
      ∃ s, BrokerSession.new nonceNoise () binding pbs = .ok s ∧
        KeepsReserve nonceNoise (Runs.final (BrokerSession.call nonceNoise) s [.eof]).core
          ((Runs.outputs (BrokerSession.call nonceNoise) s [.eof]).flatMap handedOut) := by
  have both := sessions_keep_reserve nonceNoise nonceNoise_seals () binding pbs
  exact ⟨nonceNoise_seals, ⟨fresh, new_fresh, both.1 fresh calls new_fresh⟩, _, rfl, both.2 _ [.eof] rfl⟩

open LimitRun in
/-- A session that is over has no transport left for the Close: its limit errors carry none. -/
theorem limit_error_without_close :
    ∃ s, TargetSession.new nonceNoise () binding pbs = .ok s ∧
      ((Runs.final (TargetSession.call nonceNoise) s calls).core.writeApplication nonceNoise [0]
        ({} : SessionLimits).responseBytes).1 = .error (.recordLimit none) := by
  refine ⟨fresh, new_fresh, ?_⟩
  have total : messageBytes [byteRecord.wire] = some 13 := by decide
  have exhausted : (asked (recordLimit - 4)).core.closeState.sendUsageAfter 1 13 true = .ok none := by
    rw [sendUsageAfter_eq, if_neg]
    simp only [asked, served, closeState, Bool.toNat_true]
    unfold recordLimit
    omega
  rw [final_calls]
  unfold SessionCore.writeApplication
  rw [if_neg (by simp [asked, served, closeState]), if_neg (by simp)]
  simp only [byte_fragments, total, List.length_singleton, exhausted]
  obtain ⟨close, closeEq, -⟩ := limitClosePlaintext_ok (asked (recordLimit - 4)).core.closeState.handoff
  simp only [recordLimitError, recordLimitErrorWithHandoff, limitCloseFrame, closeEq, sendUsageAfter_eq,
    encrypt_closed (closeState_not_open _)]
  split <;> simp_all

end AppPilotKit.Transport
