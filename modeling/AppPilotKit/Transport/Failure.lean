import AppPilotKit.Transport.Session

/-! # Failures that are not limits

Only the limit checks of a session may report `RecordLimit` or attach a Close
frame. Everything a session is built from fails plainly.
-/

namespace AppPilotKit.Transport

open Wire

/-- An error that is neither a limit nor carries a frame. -/
def Error.Plain (error : Error) : Prop := error.reason ≠ .recordLimit ∧ error.closeFrame = none

/-- A result whose failures are all plain. -/
def PlainFailure {α : Type} (r : Except Error α) : Prop := ∀ error, r = .error error → error.Plain

section PlainFailures

variable {α β : Type}

theorem plain_ok (value : α) : PlainFailure (.ok value) := by
  intro error h
  cases h

theorem plain_new {reason : CloseReason} (h : reason ≠ .recordLimit) :
    PlainFailure (.error (.new reason) : Except Error α) := by
  intro error eq
  cases eq
  exact ⟨h, rfl⟩

theorem plain_bind {r : Except Error α} {f : α → Except Error β} (first : PlainFailure r)
    (rest : ∀ value, PlainFailure (f value)) : PlainFailure (r >>= f) := by
  cases r with
  | error error =>
      intro _ eq
      cases eq
      exact first error rfl
  | ok value => exact rest value

theorem plain_throw_bind {reason : CloseReason} {f : α → Except Error β} (h : reason ≠ .recordLimit) :
    PlainFailure (throw (.new reason) >>= f) := by
  intro error eq
  cases eq
  exact ⟨h, rfl⟩

theorem plain_map {r : Except Error α} {f : α → β} (first : PlainFailure r) : PlainFailure (r.map f) := by
  cases r with
  | error error =>
      intro _ eq
      cases eq
      exact first error rfl
  | ok value => exact plain_ok _

theorem plain_ite {p : Prop} [Decidable p] {yes no : Except Error α} (hy : PlainFailure yes)
    (hn : PlainFailure no) : PlainFailure (if p then yes else no) := by
  split
  · exact hy
  · exact hn

theorem plain_core (value : Option α) : PlainFailure (core value) := by
  cases value with
  | none => exact plain_new (by decide)
  | some value => exact plain_ok value

theorem plain_decoded (r : Option (α × Bytes)) : PlainFailure (decoded r) := by
  cases r with
  | none => exact plain_new (by decide)
  | some value => exact plain_ok value

theorem plain_expectU8 (value : Nat) (b : Bytes) : PlainFailure (expectU8 value b) :=
  plain_bind (plain_decoded _) fun _ => plain_ite (plain_ok _) (plain_new (by decide))

theorem plain_expectMap (entries : Nat) (b : Bytes) : PlainFailure (expectMap entries b) :=
  plain_bind (plain_decoded _) fun _ => plain_ite (plain_ok _) (plain_new (by decide))

theorem plain_readFixed (n : Nat) (b : Bytes) : PlainFailure (readFixed n b) := by
  refine plain_bind (plain_decoded _) fun value => ?_
  dsimp only
  split
  · exact plain_ok _
  · exact plain_new (by decide)

theorem plain_closeReason (n : Nat) : PlainFailure (CloseReason.fromWire n) := by
  unfold CloseReason.fromWire
  split <;> first | exact plain_ok _ | exact plain_new (by decide)

theorem plain_handoff (n : Nat) : PlainFailure (HandoffState.fromWire n) := by
  unfold HandoffState.fromWire
  split <;> first | exact plain_ok _ | exact plain_new (by decide)

theorem plain_recordKind (n : Nat) : PlainFailure (RecordKind.fromWire n) := by
  unfold RecordKind.fromWire
  split <;> first | exact plain_ok _ | exact plain_new (by decide)

theorem plain_encodeOuter (b : Bytes) : PlainFailure (encodeOuter b) := by
  unfold encodeOuter
  repeat' split
  all_goals first | exact plain_ok _ | exact plain_new (by decide)

theorem plain_oneOuter (b : Bytes) : PlainFailure (oneOuter b) := by
  unfold oneOuter
  split
  · exact plain_ite (plain_new (by decide)) (plain_ok _)
  · exact plain_new (by decide)

theorem plain_encode (r : Record) : PlainFailure r.encode :=
  plain_ite (plain_new (by decide)) (plain_ok _)

theorem plain_decode (b : Bytes) : PlainFailure (Record.decode b) := by
  refine plain_ite (plain_new (by decide)) (plain_ite (plain_new (by decide))
    (plain_ite (plain_new (by decide)) ?_))
  split
  · rename_i error eq
    intro _ same
    cases same
    exact plain_recordKind _ error eq
  · exact plain_ok _

theorem plain_writeHandshakeFrame {R H T : Type} {noise : Noise R H T} (state : H) (payload : Bytes) :
    PlainFailure (noise.writeHandshakeFrame state payload) := by
  unfold Noise.writeHandshakeFrame
  split
  · rename_i error eq
    intro _ same
    cases same
    exact plain_core _ error eq
  · exact plain_map (plain_encodeOuter _)

theorem plain_readHandshakeFrame {R H T : Type} {noise : Noise R H T} (state : H) (outer : Bytes) :
    PlainFailure (noise.readHandshakeFrame state outer) := by
  unfold Noise.readHandshakeFrame
  split
  · rename_i error eq
    intro _ same
    cases same
    exact plain_oneOuter outer error eq
  · exact plain_core _

theorem plain_decryptTransport {R H T : Type} {noise : Noise R H T} (transport : T) (outer : Bytes) :
    PlainFailure (noise.decryptTransport transport outer) := by
  unfold Noise.decryptTransport
  split
  · rename_i error eq
    intro _ same
    cases same
    exact plain_oneOuter outer error eq
  · exact plain_core _

theorem plain_completeRecord (kind : RecordKind) (payload : Bytes) :
    PlainFailure (completeRecord kind payload) :=
  plain_ite (plain_ok _) (plain_new (by decide))

theorem plain_validateCompleteRecord (record : Record) (kind : RecordKind) :
    PlainFailure (validateCompleteRecord record kind) :=
  plain_ite (plain_new (by decide)) (plain_ite (plain_new (by decide)) (plain_ok _))

theorem plain_parseClose (b : Bytes) : PlainFailure (parseClose b) := by
  unfold parseClose
  refine plain_bind (plain_expectMap _ _) fun _ => plain_bind (plain_expectU8 _ _) fun _ => ?_
  refine plain_bind (plain_expectU8 _ _) fun _ => plain_bind (plain_expectU8 _ _) fun _ => ?_
  refine plain_bind (plain_decoded _) fun _ => plain_bind (plain_closeReason _) fun _ => ?_
  refine plain_bind (plain_expectU8 _ _) fun _ => plain_bind (plain_decoded _) fun _ => ?_
  refine plain_bind (plain_handoff _) fun _ => ?_
  exact plain_ite (plain_throw_bind (by decide)) (plain_ok _)

theorem plain_validateControlRecord (kind : RecordKind) (b : Bytes) :
    PlainFailure (validateControlRecord kind b) :=
  plain_ite (plain_map (plain_parseClose b)) (plain_ok _)

theorem plain_parseFinished (b : Bytes) (binding : SessionBinding) (hash : FixedBytes 32) :
    PlainFailure (parseFinished b binding hash) := by
  unfold parseFinished
  refine plain_bind (plain_expectMap _ _) fun _ => plain_bind (plain_expectU8 _ _) fun _ => ?_
  refine plain_bind (plain_expectU8 _ _) fun _ => plain_bind (plain_expectU8 _ _) fun _ => ?_
  refine plain_bind (plain_decoded _) fun _ => plain_bind (plain_expectU8 _ _) fun _ => ?_
  refine plain_bind (plain_readFixed _ _) fun _ => ?_
  refine plain_ite (plain_throw_bind (by decide)) ?_
  refine plain_bind (plain_expectU8 _ _) fun _ => plain_bind (plain_decoded _) fun _ => ?_
  refine plain_ite (plain_throw_bind (by decide)) ?_
  refine plain_bind (plain_expectU8 _ _) fun _ => plain_bind (plain_decoded _) fun _ => ?_
  refine plain_ite (plain_throw_bind (by decide)) ?_
  refine plain_bind (plain_expectU8 _ _) fun _ => plain_bind (plain_readFixed _ _) fun _ => ?_
  refine plain_ite (plain_throw_bind (by decide)) ?_
  refine plain_ite (plain_throw_bind (by decide)) ?_
  exact plain_ite (plain_ok _) (plain_new (by decide))

end PlainFailures

namespace RecordReassembler

theorem acceptStart_counters (r : RecordReassembler) (record : Record) :
    (r.acceptStart record).2.records = r.records ∧ (r.acceptStart record).2.bytes = r.bytes := by
  unfold acceptStart
  repeat' split
  all_goals exact ⟨rfl, rfl⟩

theorem acceptContinuation_counters (r : RecordReassembler) (record : Record) :
    (r.acceptContinuation record).2.records = r.records ∧ (r.acceptContinuation record).2.bytes = r.bytes := by
  simp only [acceptContinuation]
  repeat' split
  all_goals exact ⟨rfl, rfl⟩

theorem acceptBody_counters (r : RecordReassembler) (record : Record) :
    (r.acceptBody record).2.records = r.records + 1 ∧
      (r.acceptBody record).2.bytes = r.bytes + (recordHeaderLen + record.data.length) := by
  unfold acceptBody
  dsimp only
  split
  · exact ⟨rfl, rfl⟩
  split
  · exact acceptStart_counters _ record
  · exact acceptContinuation_counters _ record

theorem accept_counters (r : RecordReassembler) (record : Record) :
    (r.accept record).2.records ≤ r.records + 1 ∧
      (r.accept record).2.bytes ≤ r.bytes + (recordHeaderLen + record.data.length) := by
  obtain ⟨records, bytes⟩ := acceptBody_counters r record
  unfold accept
  split
  · exact ⟨Nat.le_succ _, Nat.le_add_right _ _⟩
  split
  all_goals
    rename_i eq
    rw [eq] at records bytes
    exact ⟨records.le, bytes.le⟩

/-- The limit check of the reassembler itself. -/
def Exceeds (r : RecordReassembler) (record : Record) : Prop :=
  r.records + 1 ≥ recordLimit ∨ r.bytes + (recordHeaderLen + record.data.length) ≥ byteLimit

theorem plain_acceptStart (r : RecordReassembler) (record : Record) : PlainFailure (r.acceptStart record).1 := by
  unfold acceptStart
  repeat' split
  all_goals first
    | exact plain_ok _
    | exact plain_new (by decide)
    | (rename_i eq; intro _ same; cases same; exact plain_validateControlRecord _ _ _ eq)

theorem plain_acceptContinuation (r : RecordReassembler) (record : Record) :
    PlainFailure (r.acceptContinuation record).1 := by
  simp only [acceptContinuation]
  repeat' split
  all_goals first
    | exact plain_ok _
    | exact plain_new (by decide)
    | (rename_i eq; intro _ same; cases same; exact plain_validateControlRecord _ _ _ eq)

/-- Below its limits the reassembler never reports one. -/
theorem plain_accept {r : RecordReassembler} {record : Record} (within : ¬ r.Exceeds record) :
    PlainFailure (r.accept record).1 := by
  have body : PlainFailure (r.acceptBody record).1 := by
    unfold Exceeds at within
    simp only [acceptBody, if_neg within]
    split
    · exact plain_acceptStart _ record
    · exact plain_acceptContinuation _ record
  unfold accept
  split
  · exact plain_new (by decide)
  split
  · rename_i eq
    rwa [eq] at body
  · exact plain_ok _

end RecordReassembler

end AppPilotKit.Transport
