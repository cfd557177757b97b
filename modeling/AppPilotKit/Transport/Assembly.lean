import AppPilotKit.Lib.Runs
import AppPilotKit.Transport.Record

/-! # What a reassembler lets through

The peer controls every field of a record. `Accepted` lists what a record must
say to be taken, `Pieces` what all the records taken for one message say
together, and `Assembled` what the answers to a whole run of offers look like:
one run of records after the other, each answered by its message at its end.
-/

namespace AppPilotKit.Transport

open Wire

/-- A message under way: its kind, its declared length and the bytes so far. -/
abbrev Active := Option (RecordKind × Nat × Bytes)

/-- What a record that is taken says about the message under way, what is
    answered to it and what is under way afterwards. -/
inductive Accepted (cap : Nat) (record : Record) : Active → Option (RecordKind × Bytes) → Active → Prop where
  | whole (start : record.start = true) (stop : record.end = true) (offset : record.offset = 0)
      (total : record.totalLen = record.data.length) (fits : record.totalLen ≤ cap)
      (valid : validateControlRecord record.kind record.data = .ok ()) :
      Accepted cap record none (some (record.kind, record.data)) none
  | first (start : record.start = true) (stop : record.end = false) (offset : record.offset = 0)
      (declared : record.totalLen ≠ 0) (room : record.data.length ≤ record.totalLen) (fits : record.totalLen ≤ cap) :
      Accepted cap record none none (some (record.kind, record.totalLen, record.data))
  | next {total assembled} (start : record.start = false) (stop : record.end = false) (undeclared : record.totalLen = 0)
      (offset : record.offset = assembled.length) (room : assembled.length + record.data.length ≤ total) :
      Accepted cap record (some (record.kind, total, assembled)) none
        (some (record.kind, total, assembled ++ record.data))
  | last {total assembled} (start : record.start = false) (stop : record.end = true) (undeclared : record.totalLen = 0)
      (offset : record.offset = assembled.length) (complete : assembled.length + record.data.length = total)
      (valid : validateControlRecord record.kind (assembled ++ record.data) = .ok ()) :
      Accepted cap record (some (record.kind, total, assembled)) (some (record.kind, assembled ++ record.data)) none

namespace RecordReassembler

variable {r r' : RecordReassembler} {record : Record} {message : Option (RecordKind × Bytes)}

theorem acceptStart_ok (start : record.start = true) (taken : r.acceptStart record = (.ok message, r')) :
    Accepted r.cap record r.active message r'.active ∧ r' = { r with active := r'.active } := by
  simp only [acceptStart] at taken
  split_ifs at taken with tooLong misplaced empty overrun stop short
  · simp at taken
  · simp at taken
  · simp at taken
  · simp at taken
  · simp at taken
  all_goals
    push Not at misplaced
    obtain ⟨idle, offset⟩ := misplaced
    have idle : r.active = none := by simpa using idle
  · cases valid : validateControlRecord record.kind record.data with
    | error error => simp [valid] at taken
    | ok value =>
        simp only [valid, Prod.mk.injEq, Except.ok.injEq] at taken
        obtain ⟨rfl, rfl⟩ := taken
        push Not at short
        rw [idle]
        exact ⟨.whole start stop offset short.symm (by omega) valid, by rw [← idle]⟩
  · simp only [Prod.mk.injEq, Except.ok.injEq] at taken
    obtain ⟨rfl, rfl⟩ := taken
    rw [idle]
    have open' : record.end = false := by simpa using stop
    refine ⟨.first start open' offset ?_ (by omega) (by omega), rfl⟩
    intro zero
    exact empty ⟨zero, by simp [open']⟩

theorem acceptContinuation_ok (start : record.start = false) (taken : r.acceptContinuation record = (.ok message, r')) :
    Accepted r.cap record r.active message r'.active ∧ r' = { r with active := r'.active } := by
  simp only [acceptContinuation] at taken
  cases active : r.active with
  | none => simp [active] at taken
  | some run =>
      obtain ⟨kind, total, assembled⟩ := run
      simp only [active] at taken
      split_ifs at taken with misplaced overrun stop short
      · simp at taken
      · simp at taken
      · simp at taken
      all_goals
        push Not at misplaced
        obtain ⟨rfl, undeclared, offset⟩ := misplaced
      · cases valid : validateControlRecord record.kind (assembled ++ record.data) with
        | error error => simp [valid] at taken
        | ok value =>
            simp only [valid, Prod.mk.injEq, Except.ok.injEq] at taken
            obtain ⟨rfl, rfl⟩ := taken
            push Not at short
            exact ⟨.last start stop undeclared offset (by simpa using short) valid, rfl⟩
      · simp only [Prod.mk.injEq, Except.ok.injEq] at taken
        obtain ⟨rfl, rfl⟩ := taken
        exact ⟨.next start (by simpa using stop) undeclared offset (by omega), rfl⟩

/-- A record is taken only for what it says, and takes the cap as it is. -/
theorem accept_ok (taken : r.accept record = (.ok message, r')) :
    r.failed = false ∧ r'.failed = false ∧ r'.cap = r.cap ∧ Accepted r.cap record r.active message r'.active := by
  unfold accept at taken
  split at taken
  · simp at taken
  · rename_i sound
    have sound : r.failed = false := by simpa using sound
    split at taken
    · simp at taken
    · rename_i body
      cases taken
      simp only [acceptBody] at body
      split at body
      · simp at body
      · cases start : record.start with
        | true =>
            obtain ⟨accepted, same⟩ := acceptStart_ok start (by simpa [start] using body)
            rw [same]
            exact ⟨sound, sound, rfl, accepted⟩
        | false =>
            obtain ⟨accepted, same⟩ := acceptContinuation_ok start (by simpa [start] using body)
            rw [same]
            exact ⟨sound, sound, rfl, accepted⟩

/-- A refused record ends the reassembler. -/
theorem accept_error {error : Error} (refused : r.accept record = (.error error, r')) :
    r'.failed = true ∧ (r.failed = false → r'.active = none) := by
  unfold accept at refused
  split at refused
  · rename_i failed
    cases refused
    exact ⟨failed, by simp [failed]⟩
  · split at refused
    · cases refused
      exact ⟨rfl, fun _ => rfl⟩
    · cases refused

/-- A record that says the right things is taken while the limits are far. -/
theorem accept_of {active : Active} (accepted : Accepted r.cap record r.active message active)
    (sound : r.failed = false) (records : r.records + 1 < recordLimit)
    (bytes : r.bytes + (recordHeaderLen + record.data.length) < byteLimit) :
    r.accept record = (.ok message,
      { r with active, records := r.records + 1, bytes := r.bytes + (recordHeaderLen + record.data.length) }) := by
  unfold accept acceptBody
  simp only [sound, Bool.false_eq_true, if_false]
  rw [if_neg (by omega)]
  generalize under : r.active = before at accepted
  cases accepted with
  | whole start stop offset total fits valid =>
      have fits' : ¬ r.cap < record.totalLen := by omega
      have fits'' : ¬ r.cap < record.data.length := by omega
      simp [acceptStart, start, stop, offset, total, under, valid, fits', fits'']
  | first start stop offset declared room fits =>
      have fits' : ¬ r.cap < record.totalLen := by omega
      have room' : ¬ record.totalLen < record.data.length := by omega
      simp [acceptStart, start, stop, offset, declared, under, fits', room']
  | next start stop undeclared offset room =>
      have room' := Nat.not_lt.mpr room
      simp [acceptContinuation, start, stop, undeclared, offset, under, room']
  | last start stop undeclared offset complete valid =>
      simp [acceptContinuation, start, stop, undeclared, offset, under, complete, valid]

end RecordReassembler

/-! ## The records of one message -/

/-- What is offered to a reassembler. -/
inductive Offer where
  | record (record : Record)
  | eof

def RecordReassembler.offer (r : RecordReassembler) :
    Offer → Except Error (Option (RecordKind × Bytes)) × RecordReassembler
  | .record record => r.accept record
  | .eof => (r.eof.1.map fun () => none, r.eof.2)

/-- The records of a run with their answers. -/
def offered (steps : List (Runs.Step RecordReassembler Offer (Except Error (Option (RecordKind × Bytes))))) :
    List (Record × Except Error (Option (RecordKind × Bytes))) :=
  steps.filterMap fun b =>
    match b.input with
    | .record record => some (record, b.output)
    | .eof => none

/-- The bytes of some records, one after the other. -/
def joined (records : List Record) : Bytes := records.flatMap (·.data)

/-- The records of one message from its first on: the first declares the length
    of the message, each stands where the bytes before it end. -/
structure Pieces (cap : Nat) (kind : RecordKind) (total : Nat) (records : List Record) : Prop where
  kinds : ∀ record ∈ records, record.kind = kind
  declared : ∃ first rest, records = first :: rest ∧ first.start = true ∧ first.totalLen = total ∧
    ∀ record ∈ rest, record.start = false ∧ record.totalLen = 0
  offsets : ∀ front record back, records = front ++ record :: back → record.offset = (joined front).length
  fits : total ≤ cap

/-- The records of a whole message: only the last has the end flag. -/
structure Whole (cap : Nat) (kind : RecordKind) (message : Bytes) (records : List Record) : Prop
    extends Pieces cap kind message.length records where
  data : joined records = message
  ended : ∃ front last, records = front ++ [last] ∧ last.end = true ∧ ∀ record ∈ front, record.end = false

/-- The records of a message that has not ended. -/
structure Begun (cap : Nat) (kind : RecordKind) (total : Nat) (bytes : Bytes) (records : List Record) : Prop
    extends Pieces cap kind total records where
  data : joined records = bytes
  open_ : ∀ record ∈ records, record.end = false
  room : bytes.length ≤ total

@[simp] theorem joined_append (front back : List Record) : joined (front ++ back) = joined front ++ joined back := by
  simp [joined]

@[simp] theorem joined_singleton (record : Record) : joined [record] = record.data := by simp [joined]

namespace Pieces

variable {cap total : Nat} {kind : RecordKind} {record : Record} {records : List Record}

theorem single (start : record.start = true) (offset : record.offset = 0) (fits : record.totalLen ≤ cap) :
    Pieces cap record.kind record.totalLen [record] where
  kinds := by simp
  declared := ⟨record, [], rfl, start, rfl, by simp⟩
  offsets front other back split := by
    cases front with
    | nil =>
        obtain ⟨rfl, -⟩ := List.cons.inj split
        exact offset
    | cons head front => simp at split
  fits := fits

theorem snoc (pieces : Pieces cap record.kind total records) (start : record.start = false)
    (undeclared : record.totalLen = 0) (offset : record.offset = (joined records).length) :
    Pieces cap record.kind total (records ++ [record]) where
  kinds other member := by
    rcases List.mem_append.mp member with old | new
    · exact pieces.kinds other old
    · rw [List.mem_singleton.mp new]
  declared := by
    obtain ⟨first, rest, rfl, begins, total, others⟩ := pieces.declared
    refine ⟨first, rest ++ [record], rfl, begins, total, fun other member => ?_⟩
    rcases List.mem_append.mp member with old | new
    · exact others other old
    · rw [List.mem_singleton.mp new]
      exact ⟨start, undeclared⟩
  offsets front other back split := by
    rcases List.eq_nil_or_concat back with rfl | ⟨back, final, rfl⟩
    · obtain ⟨rfl, last⟩ := List.append_inj' split rfl
      obtain ⟨rfl, -⟩ := List.cons.inj last
      exact offset
    · rw [List.concat_eq_append, ← List.cons_append, ← List.append_assoc] at split
      exact pieces.offsets front other back (List.append_inj' split rfl).1
  fits := pieces.fits

end Pieces

/-! ## A run of offers -/

/-- A message that was let through and the records it came in. -/
structure Delivery where
  kind : RecordKind
  message : Bytes
  records : List Record

/-- Its records with their answers: nothing until the last, then the message. -/
def Delivery.answers (d : Delivery) : List (Record × Except Error (Option (RecordKind × Bytes))) :=
  (d.records.dropLast.map fun record => (record, .ok none)) ++
    d.records.getLast?.toList.map fun record => (record, .ok (some (d.kind, d.message)))

theorem Delivery.answers_records (d : Delivery) : d.answers.map Prod.fst = d.records := by
  rcases List.eq_nil_or_concat d.records with none | ⟨front, last, listed⟩
  · simp [answers, none]
  · simp [answers, listed, Function.comp_def]

/-- The answers to some records: whole messages, and a rest without a message. -/
def Assembled (cap : Nat) (answers rest : List (Record × Except Error (Option (RecordKind × Bytes)))) : Prop :=
  ∃ deliveries : List Delivery, answers = deliveries.flatMap (·.answers) ++ rest ∧
    (∀ d ∈ deliveries, Whole cap d.kind d.message d.records) ∧
    ∀ entry ∈ rest, ∀ message, entry.2 ≠ .ok (some message)

/-- What a reassembler has of the message under way, after a rest without a message. -/
structure RecordReassembler.Holds (r : RecordReassembler) (cap : Nat)
    (rest : List (Record × Except Error (Option (RecordKind × Bytes)))) : Prop where
  kept : r.failed = false → r.cap = cap
  idle : r.active = none → r.failed = false → rest = []
  busy : ∀ kind total bytes, r.active = some (kind, total, bytes) → r.failed = false ∧
    ∃ records, rest = records.map (fun record => (record, .ok none)) ∧ Begun cap kind total bytes records

namespace Assembled

variable {cap : Nat} {answers rest : List (Record × Except Error (Option (RecordKind × Bytes)))} {record : Record}

theorem wait (assembled : Assembled cap answers rest) {answer : Except Error (Option (RecordKind × Bytes))}
    (silent : ∀ message, answer ≠ .ok (some message)) :
    Assembled cap (answers ++ [(record, answer)]) (rest ++ [(record, answer)]) := by
  obtain ⟨deliveries, split, whole, quiet⟩ := assembled
  refine ⟨deliveries, by rw [split, List.append_assoc], whole, fun entry member => ?_⟩
  rcases List.mem_append.mp member with old | new
  · exact quiet entry old
  · rw [List.mem_singleton.mp new]
    exact silent

theorem deliver {records : List Record} {kind : RecordKind} {message : Bytes}
    (assembled : Assembled cap answers (records.map fun record => (record, .ok none)))
    (whole : Whole cap kind message (records ++ [record])) :
    Assembled cap (answers ++ [(record, .ok (some (kind, message)))]) [] := by
  obtain ⟨deliveries, rfl, wholes, -⟩ := assembled
  refine ⟨deliveries ++ [⟨kind, message, records ++ [record]⟩], ?_, ?_, by simp⟩
  · simp [Delivery.answers]
  · intro d member
    rcases List.mem_append.mp member with old | new
    · exact wholes d old
    · rw [List.mem_singleton.mp new]
      exact whole

end Assembled

namespace RecordReassembler

variable {r r' : RecordReassembler} {record : Record} {message : Option (RecordKind × Bytes)}
  {answers rest : List (Record × Except Error (Option (RecordKind × Bytes)))}

theorem Holds.failed {cap : Nat} (failed : r.failed = true) (idle : r.active = none) : r.Holds cap rest where
  kept sound := by simp [failed] at sound
  idle _ sound := by simp [failed] at sound
  busy kind total bytes active := by simp [idle] at active

theorem Holds.finished {cap : Nat} (same : r.cap = cap) (idle : r.active = none) : r.Holds cap [] where
  kept _ := same
  idle _ _ := rfl
  busy kind total bytes active := by simp [idle] at active

theorem Holds.begun {cap total : Nat} {kind : RecordKind} {bytes : Bytes} {records : List Record}
    (same : r.cap = cap) (sound : r.failed = false) (active : r.active = some (kind, total, bytes))
    (begun : Begun cap kind total bytes records) : r.Holds cap (records.map fun record => (record, .ok none)) where
  kept _ := same
  idle none := by simp [active] at none
  busy kind' total' bytes' active' := by
    rw [active] at active'
    cases active'
    exact ⟨sound, records, rfl, begun⟩

/-- One taken record: by what it says about the message under way. -/
theorem Holds.accepted {cap : Nat} (holds : r.Holds cap rest) (assembled : Assembled cap answers rest)
    (taken : r.accept record = (.ok message, r')) :
    ∃ rest', Assembled cap (answers ++ [(record, .ok message)]) rest' ∧ r'.Holds cap rest' := by
  obtain ⟨sound, sound', same, accepted⟩ := accept_ok taken
  have same := same.trans (holds.kept sound)
  rw [holds.kept sound] at accepted
  have idle := fun none => holds.idle none sound
  have busy := holds.busy
  generalize r.active = before at idle busy accepted
  generalize under : r'.active = after at accepted
  cases accepted with
  | whole start stop offset total fits valid =>
      obtain rfl := idle rfl
      have single := Pieces.single start offset fits
      rw [total] at single
      have whole : Whole cap record.kind record.data ([] ++ [record]) :=
        { single with data := by simp, ended := ⟨[], record, rfl, stop, by simp⟩ }
      exact ⟨[], Assembled.deliver (by simpa using assembled) whole, .finished same under⟩
  | first start stop offset declared room fits =>
      obtain rfl := idle rfl
      have begun : Begun cap record.kind record.totalLen record.data [record] :=
        { Pieces.single start offset fits with data := by simp, open_ := by simp [stop], room }
      exact ⟨_, assembled.wait (by simp), .begun same sound' under begun⟩
  | next start stop undeclared offset room =>
      obtain ⟨-, records, rfl, begun⟩ := busy _ _ _ rfl
      have pieces := begun.toPieces.snoc start undeclared (by rw [begun.data, offset])
      have begun' : Begun cap record.kind _ _ (records ++ [record]) :=
        { pieces with
          data := by rw [joined_append, begun.data, joined_singleton]
          open_ := fun other member => by
            rcases List.mem_append.mp member with old | new
            · exact begun.open_ other old
            · rw [List.mem_singleton.mp new]
              exact stop
          room := by
            rw [List.length_append]
            exact room }
      refine ⟨_, assembled.wait (by simp), ?_⟩
      simpa using Holds.begun same sound' under begun'
  | last start stop undeclared offset complete valid =>
      obtain ⟨-, records, rfl, begun⟩ := busy _ _ _ rfl
      have pieces := begun.toPieces.snoc start undeclared (by rw [begun.data, offset])
      rw [← complete, ← List.length_append] at pieces
      have whole : Whole cap record.kind _ (records ++ [record]) :=
        { pieces with
          data := by rw [joined_append, begun.data, joined_singleton]
          ended := ⟨records, record, rfl, stop, begun.open_⟩ }
      exact ⟨[], assembled.deliver whole, .finished same under⟩

/-- One offer, whatever its answer. -/
theorem Holds.offer {cap : Nat} (holds : r.Holds cap rest) (assembled : Assembled cap answers rest) (i : Offer) :
    ∃ rest', Assembled cap (answers ++ offered [⟨r, i, (r.offer i).1, (r.offer i).2⟩]) rest' ∧
      (r.offer i).2.Holds cap rest' := by
  cases i with
  | eof =>
      refine ⟨rest, by simpa [offered] using assembled, ?_⟩
      simp only [RecordReassembler.offer, eof]
      split_ifs with failed active
      · exact holds
      · exact .failed rfl rfl
      · exact holds
  | record record =>
      cases taken : r.accept record with
      | mk answer r' =>
          simp only [RecordReassembler.offer, taken, offered, List.filterMap_cons, List.filterMap_nil]
          cases answer with
          | ok message => exact holds.accepted assembled taken
          | error error =>
              obtain ⟨failed, idle⟩ := accept_error taken
              refine ⟨_, assembled.wait (by simp), .failed failed ?_⟩
              cases before : r.failed with
              | false => exact idle before
              | true =>
                  have kept : r' = r := by simpa [accept, before] using (congrArg Prod.snd taken).symm
                  rw [kept]
                  cases active : r.active with
                  | none => rfl
                  | some run => simpa [before] using (holds.busy _ _ _ active).1

/-- A failed reassembler refuses every offer and stays failed. -/
theorem offer_failed (failed : r.failed = true) (i : Offer) :
    (∃ error, (r.offer i).1 = .error error) ∧ (r.offer i).2.failed = true := by
  cases i with
  | record record => exact ⟨⟨.new .sequenceViolation, by simp [offer, accept, failed]⟩, by simp [offer, accept, failed]⟩
  | eof => exact ⟨⟨.new .sequenceViolation, by simp [offer, eof, failed, Except.map]⟩, by simp [offer, eof, failed]⟩

/-- An offer that is refused fails the reassembler. -/
theorem offer_error {i : Offer} {error : Error} (refused : (r.offer i).1 = .error error) :
    (r.offer i).2.failed = true := by
  cases i with
  | record record => exact (accept_error (Prod.ext refused rfl)).1
  | eof =>
      simp only [offer, eof] at refused ⊢
      split_ifs at refused ⊢ with failed active
      · exact failed
      · rfl
      · cases refused

theorem new_ok {cap : Nat} (created : new cap = .ok r) : r = { cap } := by
  unfold new at created
  split at created
  · cases created
  · exact (Except.ok.inj created).symm

/-- After any offers: whole messages have been answered, and what is under way
    is the rest. -/
theorem run_holds {cap : Nat} (created : new cap = .ok r) (offers : List Offer) :
    ∃ rest, Assembled cap (offered (Runs.trace RecordReassembler.offer r offers)) rest ∧
      (Runs.final RecordReassembler.offer r offers).Holds cap rest := by
  have start : ∃ rest, Assembled cap (offered []) rest ∧ r.Holds cap rest := by
    rw [new_ok created]
    exact ⟨[], ⟨[], rfl, by simp, by simp⟩, .finished rfl rfl⟩
  refine Runs.invariant_trace
    (fun past r => ∃ rest, Assembled cap (offered past) rest ∧ r.Holds cap rest) ?_ [] r offers start
  rintro past r i ⟨rest, assembled, holds⟩
  obtain ⟨rest', assembled', holds'⟩ := holds.offer assembled i
  exact ⟨rest', by simpa [offered] using assembled', holds'⟩

/-- Whatever is offered, what comes out is what came in: the answers to all the
    offers are those of whole messages, one after the other, and of a rest
    without a message. -/
theorem reassembly_sound {cap : Nat} (created : new cap = .ok r) (offers : List Offer) :
    (∃ rest, Assembled cap (offered (Runs.trace RecordReassembler.offer r offers)) rest ∧
      ∀ kind total bytes, (Runs.final RecordReassembler.offer r offers).active = some (kind, total, bytes) →
        bytes.length ≤ total ∧ total ≤ cap ∧
        ∃ first others, rest.map Prod.fst = first :: others ∧ first.totalLen = total ∧
          joined (first :: others) = bytes) ∧
      ∀ front b back, Runs.trace RecordReassembler.offer r offers = front ++ b :: back →
        (∃ error, b.output = .error error) → ∀ later ∈ back, ∃ error, later.output = .error error := by
  constructor
  · obtain ⟨rest, assembled, holds⟩ := run_holds created offers
    refine ⟨rest, assembled, fun kind total bytes active => ?_⟩
    obtain ⟨-, records, rfl, begun⟩ := holds.busy kind total bytes active
    obtain ⟨first, others, rfl, -, declared, -⟩ := begun.declared
    exact ⟨begun.room, begun.fits, first, others, by simp [Function.comp_def], declared, begun.data⟩
  · intro front b back split refused
    exact Runs.absorbed (fun _ => True) (fun r : RecordReassembler => r.failed = true)
      (fun b => ∃ error, b.output = .error error) (fun b => ∃ error, b.output = .error error)
      (fun _ _ _ => trivial) (fun s i _ ⟨error, refused⟩ => offer_error refused)
      (fun s i failed => offer_failed failed i) trivial split refused

/-- A message in two records, and the end of the stream. -/
theorem two_records_sound :
    new 8 = .ok { cap := 8 } ∧
      ∃ rest, Assembled 8 (offered (Runs.trace RecordReassembler.offer { cap := 8 }
        [.record ⟨.application, true, false, 3, 0, [1, 2]⟩, .record ⟨.application, false, true, 0, 2, [3]⟩, .eof])) rest := by
  have created : new 8 = .ok { cap := 8 } := rfl
  obtain ⟨⟨rest, assembled, -⟩, -⟩ := reassembly_sound created
    [.record ⟨.application, true, false, 3, 0, [1, 2]⟩, .record ⟨.application, false, true, 0, 2, [3]⟩, .eof]
  exact ⟨created, rest, assembled⟩

end RecordReassembler

end AppPilotKit.Transport
