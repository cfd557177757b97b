import AppPilotKit.Transport.Assembly

/-! # The fragments of a message

A message is cut into pieces that fill a record each, but for the last. Put
together in order they give the message back; and no other arrangement of some
of them does, because a piece is taken only at the offset it was cut at.
-/

namespace AppPilotKit.Transport

open Wire

theorem fragments_length (kind : RecordKind) (message : Bytes) :
    (fragments kind message).length = fragmentCount message := by
  simp [fragments]

theorem fragmentCount_pos {message : Bytes} (nonempty : message ≠ []) : 0 < fragmentCount message := by
  have := List.length_pos_of_ne_nil nonempty
  unfold fragmentCount recordDataMax
  omega

/-- One more piece extends what was assembled. -/
theorem take_append_chunk (message : Bytes) (pieces : Nat) :
    message.take (pieces * recordDataMax) ++ chunk message pieces = message.take ((pieces + 1) * recordDataMax) := by
  rw [chunk, Nat.add_mul, Nat.one_mul, List.take_add]

/-- A piece begins inside the message. -/
theorem piece_begins {message : Bytes} {piece : Nat} (h : piece < fragmentCount message) :
    piece * recordDataMax < message.length := by
  unfold fragmentCount recordDataMax at *
  omega

/-- The piece with the end flag is the last one. -/
theorem fragment_end_iff (kind : RecordKind) {message : Bytes} {piece : Nat} (h : piece < fragmentCount message) :
    (fragment kind message piece (chunk message piece)).end = true ↔ piece + 1 = fragmentCount message := by
  simp only [fragment, chunk, decide_eq_true_eq, List.length_take, List.length_drop, fragmentCount] at *
  unfold recordDataMax at *
  omega

theorem fragments_encodable (kind : RecordKind) {message : Bytes} (small : message.length < 2 ^ 32) :
    ∀ record ∈ fragments kind message, record.Encodable := by
  intro record member
  obtain ⟨index, -, rfl⟩ := List.mem_map.mp member
  refine ⟨?_, Nat.mod_lt _ (Nat.two_pow_pos 32), chunk_length_le message index⟩
  simp only [fragment]
  split
  · exact small
  · exact Nat.two_pow_pos 32

section

variable {kind : RecordKind} {message : Bytes}

/-- The fragment at `piece`. -/
theorem fragments_get {piece : Nat} (h : piece < fragmentCount message) :
    (fragments kind message)[piece]? = some (fragment kind message piece (chunk message piece)) := by
  simp [fragments, h]

theorem fragments_take_succ {piece : Nat} (h : piece < fragmentCount message) :
    (fragments kind message).take (piece + 1) =
      (fragments kind message).take piece ++ [fragment kind message piece (chunk message piece)] := by
  rw [List.take_add_one, fragments_get h]
  rfl

theorem joined_fragments {pieces : Nat} (h : pieces ≤ fragmentCount message) :
    joined ((fragments kind message).take pieces) = message.take (pieces * recordDataMax) := by
  induction pieces with
  | zero => simp [joined]
  | succ pieces ih =>
      rw [fragments_take_succ (by omega), joined_append, ih (by omega), joined_singleton]
      exact take_append_chunk message pieces

/-! ## In order -/

/-- What is under way after some of the fragments. -/
def underWay (kind : RecordKind) (message : Bytes) (pieces : Nat) : Active :=
  if pieces = 0 ∨ pieces = fragmentCount message then none
  else some (kind, message.length, message.take (pieces * recordDataMax))

theorem underWay_zero : underWay kind message 0 = none := if_pos (.inl rfl)

theorem underWay_all : underWay kind message (fragmentCount message) = none := if_pos (.inr rfl)

theorem underWay_some {pieces : Nat} (begun : pieces ≠ 0) (more : pieces ≠ fragmentCount message) :
    underWay kind message pieces = some (kind, message.length, message.take (pieces * recordDataMax)) :=
  if_neg (by tauto)

/-- A fragment in its place is taken, and the last one gives the message. -/
theorem fragment_accepted (cap : Nat) {piece : Nat} (notClose : kind ≠ .close) (small : message.length < 2 ^ 32)
    (room : message.length ≤ cap) (h : piece < fragmentCount message) :
    Accepted cap (fragment kind message piece (chunk message piece)) (underWay kind message piece)
      (if piece + 1 = fragmentCount message then some (kind, message) else none)
      (underWay kind message (piece + 1)) := by
  have begins := piece_begins h
  have next := take_append_chunk message piece
  have valid : ∀ bytes, validateControlRecord kind bytes = .ok () := fun bytes => if_neg notClose
  have stop := fragment_end_iff kind h
  have sizes : piece * recordDataMax + (chunk message piece).length ≤ message.length := by
    rw [chunk, List.length_take, List.length_drop]
    omega
  have offset : (fragment kind message piece (chunk message piece)).offset =
      (message.take (piece * recordDataMax)).length := by
    rw [List.length_take, min_eq_left begins.le]
    exact Nat.mod_eq_of_lt (by omega)
  have whole : piece + 1 = fragmentCount message → message.take (piece * recordDataMax) ++ chunk message piece = message := by
    intro last
    rw [next]
    refine List.take_of_length_le ?_
    rw [last, fragmentCount, recordDataMax]
    omega
  by_cases first : piece = 0
  · subst first
    have total : (fragment kind message 0 (chunk message 0)).totalLen = message.length := rfl
    rw [underWay_zero]
    by_cases last : 0 + 1 = fragmentCount message
    · have bytes : chunk message 0 = message := by simpa using whole last
      rw [if_pos last, last, underWay_all]
      have taken : Accepted cap (fragment kind message 0 (chunk message 0)) none _ none := .whole rfl (stop.mpr last)
        (by simpa using offset) (total.trans (congrArg List.length bytes).symm) room (valid _)
      simpa [fragment, bytes] using taken
    · have open_ : (fragment kind message 0 (chunk message 0)).end = false := by simpa using mt stop.mp last
      have bytes : message.take ((0 + 1) * recordDataMax) = chunk message 0 := by simpa using next.symm
      rw [if_neg last, underWay_some (by omega) last, bytes]
      exact .first rfl open_ (by simpa using offset) (by rw [total]; omega)
        (by rw [total]; simpa [fragment] using sizes) room
  · have start : (fragment kind message piece (chunk message piece)).start = false := by simp [fragment, first]
    have undeclared : (fragment kind message piece (chunk message piece)).totalLen = 0 := by simp [fragment, first]
    have before : (message.take (piece * recordDataMax)).length = piece * recordDataMax := by
      rw [List.length_take, min_eq_left begins.le]
    rw [underWay_some first (by omega)]
    by_cases last : piece + 1 = fragmentCount message
    · rw [if_pos last, last, underWay_all]
      have complete : (message.take (piece * recordDataMax)).length + (chunk message piece).length = message.length := by
        rw [← List.length_append, whole last]
      have taken : Accepted cap (fragment kind message piece (chunk message piece)) _ _ none := .last start (stop.mpr last) undeclared offset complete (valid _)
      simpa [fragment, whole last] using taken
    · have open_ : (fragment kind message piece (chunk message piece)).end = false := by simpa using mt stop.mp last
      rw [if_neg last, underWay_some (by omega) last, ← next]
      exact Accepted.next start open_ undeclared offset (by rw [before]; exact sizes)

theorem fragmentCount_le (small : message.length < 2 ^ 32) : fragmentCount message ≤ 2 ^ 17 := by
  unfold fragmentCount recordDataMax
  omega

/-- Some of the fragments, from the first on: the answers and the state they
    leave. By induction on how many; the limits are far away. -/
theorem fragments_fed (cap : Nat) {pieces : Nat} (notClose : kind ≠ .close) (small : message.length < 2 ^ 32)
    (room : message.length ≤ cap) (h : pieces ≤ fragmentCount message) :
    Runs.final RecordReassembler.accept { cap } ((fragments kind message).take pieces) =
        { cap, active := underWay kind message pieces, records := pieces
          bytes := pieces * recordHeaderLen + (message.take (pieces * recordDataMax)).length } ∧
      Runs.outputs RecordReassembler.accept { cap } ((fragments kind message).take pieces) =
        (List.range pieces).map fun piece =>
          .ok (if piece + 1 = fragmentCount message then some (kind, message) else none) := by
  induction pieces with
  | zero => simp [underWay_zero]
  | succ piece ih =>
      obtain ⟨state, answers⟩ := ih (by omega)
      have few := fragmentCount_le small
      have upTo : (message.take (piece * recordDataMax)).length + (chunk message piece).length ≤ message.length := by
        rw [← List.length_append, take_append_chunk]
        exact List.length_take_le' _ _
      have charged : (message.take ((piece + 1) * recordDataMax)).length =
          (message.take (piece * recordDataMax)).length + (chunk message piece).length := by
        rw [← take_append_chunk, List.length_append]
      have taken := RecordReassembler.accept_of
        (r := { cap, active := underWay kind message piece, records := piece
                bytes := piece * recordHeaderLen + (message.take (piece * recordDataMax)).length })
        (fragment_accepted cap notClose small room h) rfl (by simp only [recordLimit]; omega)
        (by simp only [byteLimit, recordHeaderLen, fragment]; omega)
      rw [fragments_take_succ h, Runs.final_append, Runs.outputs_append, state, answers, List.range_succ, List.map_append]
      simp only [Runs.final_cons, Runs.final_nil, Runs.outputs_cons, Runs.outputs_nil, taken, List.map_cons, List.map_nil,
        and_true]
      rw [charged, Nat.add_mul]
      simp only [fragment, Nat.one_mul, RecordReassembler.mk.injEq, true_and, and_true]
      omega

/-! ## In no other arrangement -/

/-- Records of a whole message that are all fragments of one message are all its
    fragments: each stands at the offset it was cut at. -/
theorem whole_fragments {cap : Nat} {kind' : RecordKind} {message' : Bytes} {records : List Record}
    (small : message.length < 2 ^ 32) (whole : Whole cap kind' message' records)
    (among : ∀ record ∈ records, record ∈ fragments kind message) : records = fragments kind message := by
  have placed : ∀ front back, records = front ++ back →
      front.length ≤ fragmentCount message ∧ front = (fragments kind message).take front.length := by
    intro front
    induction front using List.reverseRecOn with
    | nil => exact fun _ _ => ⟨Nat.zero_le _, rfl⟩
    | append_singleton front record ih =>
        intro back split
        rw [List.append_assoc, List.singleton_append] at split
        obtain ⟨bound, earlier⟩ := ih _ split
        obtain ⟨piece, inside, rfl⟩ := List.mem_map.mp (among record (by simp [split]))
        have inside : piece < fragmentCount message := List.mem_range.mp inside
        have offset := whole.offsets _ _ _ split
        have begins := piece_begins inside
        rw [earlier, joined_fragments bound, List.length_take] at offset
        have cut : (fragment kind message piece (chunk message piece)).offset = piece * recordDataMax :=
          Nat.mod_eq_of_lt (by omega)
        have same : piece = front.length := by
          rw [cut] at offset
          rcases Nat.lt_or_ge (front.length * recordDataMax) message.length with within | beyond
          · rw [min_eq_left within.le] at offset
            exact Nat.eq_of_mul_eq_mul_right (by decide) offset
          · rw [min_eq_right beyond] at offset
            omega
        subst same
        rw [List.length_append, List.length_singleton, fragments_take_succ inside, ← earlier]
        exact ⟨inside, rfl⟩
  obtain ⟨front, last, split, stop, -⟩ := whole.ended
  obtain ⟨bound, all⟩ := placed records [] (by simp)
  obtain ⟨-, earlier⟩ := placed front [last] split
  have size : records.length = front.length + 1 := by rw [split, List.length_append, List.length_singleton]
  rw [size, fragments_take_succ (by omega), ← earlier, split] at all
  obtain ⟨-, ⟨⟩⟩ := List.append_inj' all rfl
  have every := (fragment_end_iff kind (by omega)).mp stop
  obtain ⟨-, all⟩ := placed records [] (by simp)
  rw [all, size, every, ← fragments_length kind, List.take_length]

/-- Offers of records alone are answered as the records are. -/
theorem offered_records (r : RecordReassembler) (records : List Record) :
    offered (Runs.trace RecordReassembler.offer r (records.map .record)) =
      records.zip (Runs.outputs RecordReassembler.accept r records) := by
  induction records generalizing r with
  | nil => rfl
  | cons record records ih =>
      have rest := ih (r.accept record).2
      simp only [offered] at rest
      simp [Runs.trace, offered, RecordReassembler.offer, rest]

/-- Some of the fragments, or all in another order, never give a message. -/
theorem rearranged_silent {cap : Nat} {r : RecordReassembler} {others : List Record}
    (small : message.length < 2 ^ 32) (created : RecordReassembler.new cap = .ok r)
    (among : ∀ record ∈ others, record ∈ fragments kind message) (few : others.length ≤ (fragments kind message).length)
    (different : others ≠ fragments kind message) :
    ∀ answer ∈ Runs.outputs RecordReassembler.accept r others, ∀ message, answer ≠ .ok (some message) := by
  rintro answer member delivered rfl
  obtain ⟨rest, ⟨deliveries, split, wholes, quiet⟩, -⟩ := RecordReassembler.run_holds created (others.map .record)
  rw [offered_records] at split
  have listed : others = deliveries.flatMap (·.records) ++ rest.map Prod.fst := by
    have firsts := congrArg (List.map Prod.fst) split
    rw [List.map_fst_zip (Runs.outputs_length _ _ _).ge, List.map_append, List.map_flatMap] at firsts
    simpa only [Delivery.answers_records] using firsts
  -- a message was answered inside some delivery, whose records are all the fragments
  obtain ⟨d, here⟩ : ∃ d, d ∈ deliveries := by
    have answered : Except.ok (some delivered) ∈ (others.zip (Runs.outputs RecordReassembler.accept r others)).map Prod.snd := by
      rw [List.map_snd_zip (Runs.outputs_length _ _ _).le]
      exact member
    obtain ⟨entry, among, same⟩ := List.mem_map.mp answered
    rw [split] at among
    rcases List.mem_append.mp among with inside | outside
    · obtain ⟨d, here, -⟩ := List.mem_flatMap.mp inside
      exact ⟨d, here⟩
    · exact absurd same (quiet entry outside delivered)
  have part : d.records.Sublist others := by
    rw [listed, List.flatMap_def]
    exact (List.sublist_flatten_of_mem (List.mem_map_of_mem here)).trans (List.sublist_append_left _ _)
  have all := whole_fragments small (wholes d here) fun record member => among record (part.subset member)
  rw [all] at part
  exact different (part.eq_of_length_le few).symm

end

/-! ## The round trip -/

theorem filterMap_of_mapM {α β ε : Type} {f : α → Except ε β} {xs : List α} {ys : List β} (all : xs.mapM f = .ok ys) :
    xs.filterMap (fun x => (f x).toOption) = ys := by
  induction xs generalizing ys with
  | nil =>
      cases all
      rfl
  | cons x xs ih =>
      rw [List.mapM_cons] at all
      cases first : f x with
      | error error => simp [first, bind, Except.bind] at all
      | ok y =>
          cases others : xs.mapM f with
          | error error => simp [first, others, bind, Except.bind] at all
          | ok rest =>
              simp only [first, others, bind, Except.bind, pure, Except.pure, Except.ok.injEq] at all
              rw [← all, List.filterMap_cons, first, ← ih others]
              rfl

theorem decode_wires {records : List Record} (encodable : ∀ record ∈ records, record.Encodable) :
    (records.map Record.wire).mapM Record.decode = .ok records := by
  induction records with
  | nil => rfl
  | cons record records ih =>
      rw [List.map_cons, List.mapM_cons, Record.decode_wire (encodable record (by simp)),
        ih fun other member => encodable other (by simp [member])]
      rfl

/-- Encoding inverts decoding on the encodings of some records. -/
theorem wires_of_decodes {records : List Record} (encodable : ∀ record ∈ records, record.Encodable) {others : List Bytes}
    (among : ∀ piece ∈ others, piece ∈ records.map Record.wire) {decoded : List Record}
    (all : others.mapM Record.decode = .ok decoded) : decoded.map Record.wire = others := by
  rw [← filterMap_of_mapM all]
  clear all
  induction others with
  | nil => rfl
  | cons piece others ih =>
      obtain ⟨record, inside, rfl⟩ := List.mem_map.mp (among piece (by simp))
      rw [List.filterMap_cons, Record.decode_wire (encodable record inside)]
      simpa [Except.toOption] using ih fun piece member => among piece (by simp [member])

/-- Fragmenting and reassembling gives the message back, within the sizes of
    both layers; and no part of the fragments, nor another order of them, gives any. -/
theorem fragments_round_trip {kind : RecordKind} {payload : Bytes} (notClose : kind ≠ .close) (nonempty : payload ≠ [])
    (small : payload.length ≤ 2 ^ 32 - 1) :
    ∃ pieces records, fragmentRecords kind payload = .ok pieces ∧ pieces.mapM Record.decode = .ok records ∧
      (∀ piece ∈ pieces, piece.length ≤ 65519 ∧
        (∀ ciphertext : Bytes, ciphertext.length = piece.length + 16 →
          encodeOuter ciphertext ≠ .error (.new .oversize)) ∧
        ∃ record, Record.decode piece = .ok record ∧ record.encode = .ok piece) ∧
      ∀ cap r, payload.length ≤ cap → RecordReassembler.new cap = .ok r →
        Runs.outputs RecordReassembler.accept r records =
          List.replicate (records.length - 1) (.ok none) ++ [.ok (some (kind, payload))] ∧
        ∀ others offered, (others.Sublist pieces ∨ others.Perm pieces) → others ≠ pieces →
          others.mapM Record.decode = .ok offered →
          ∀ answer ∈ Runs.outputs RecordReassembler.accept r offered, ∀ message, answer ≠ .ok (some message) := by
  have small : payload.length < 2 ^ 32 := by omega
  have encodable := fragments_encodable kind small
  have decoded := decode_wires encodable
  refine ⟨(fragments kind payload).map Record.wire, fragments kind payload, ?_, decoded, ?_, ?_⟩
  · rw [fragmentRecords_eq, if_neg (by simpa [nonempty] using by omega)]
  · intro piece member
    obtain ⟨record, among, rfl⟩ := List.mem_map.mp member
    have fits := encodable record among
    have size : record.wire.length ≤ 65519 := by
      have := fits.data
      rw [Record.wire_length]
      unfold recordHeaderLen
      unfold recordDataMax at this
      omega
    refine ⟨size, fun ciphertext sealed => ?_, record, Record.decode_wire fits, Record.encode_of fits.data⟩
    have inside : ciphertext.length ≤ outerMax := by
      unfold outerMax
      omega
    have some : ciphertext ≠ [] := by
      rintro rfl
      simp at sealed
    simp [encodeOuter_of some inside]
  · intro cap r room created
    refine ⟨?_, ?_⟩
    · have fresh : r = { cap } := RecordReassembler.new_ok created
      have fed := (fragments_fed cap notClose small room le_rfl).2
      obtain ⟨count, more⟩ : ∃ count, fragmentCount payload = count + 1 := ⟨fragmentCount payload - 1, by
        have := fragmentCount_pos nonempty
        omega⟩
      rw [← fragments_length kind, List.take_length, fragments_length, more, List.range_succ, List.map_append] at fed
      rw [fresh, fed, fragments_length, more]
      congr 1
      · refine List.ext_getElem (by simp) fun piece inside _ => ?_
        have inside : piece < count := by simpa using inside
        simp [inside.ne]
      · simp
    · intro others offered rearranged different unwrapped
      have again := filterMap_of_mapM decoded
      have opened := filterMap_of_mapM unwrapped
      have among : ∀ piece ∈ others, piece ∈ (fragments kind payload).map Record.wire := fun piece member =>
        rearranged.elim (fun part => part.subset member) fun same => same.subset member
      have few : offered.length ≤ (fragments kind payload).length ∧
          ∀ record ∈ offered, record ∈ fragments kind payload := by
        rw [← opened, ← again]
        rcases rearranged with part | same
        · have part := part.filterMap fun piece => (Record.decode piece).toOption
          exact ⟨part.length_le, fun record member => part.subset member⟩
        · have same := same.filterMap fun piece => (Record.decode piece).toOption
          exact ⟨same.length_eq.le, fun record member => same.subset member⟩
      refine rearranged_silent small created few.2 few.1 ?_
      intro same
      have other := wires_of_decodes encodable among unwrapped
      rw [same] at other
      exact different other.symm

/-- A message one byte longer than a record can carry. -/
theorem two_pieces_round_trip :
    RecordKind.application ≠ .close ∧ List.replicate 65508 (7 : UInt8) ≠ [] ∧
      (List.replicate 65508 (7 : UInt8)).length ≤ 2 ^ 32 - 1 ∧
      ∃ pieces records, fragmentRecords .application (List.replicate 65508 7) = .ok pieces ∧
        pieces.mapM Record.decode = .ok records ∧
        ∀ cap r, 65508 ≤ cap → RecordReassembler.new cap = .ok r →
          Runs.outputs RecordReassembler.accept r records =
            List.replicate (records.length - 1) (.ok none) ++ [.ok (some (.application, List.replicate 65508 7))] := by
  have notClose : RecordKind.application ≠ .close := by decide
  have nonempty : List.replicate 65508 (7 : UInt8) ≠ [] := by
    rw [Ne, List.replicate_eq_nil_iff]
    omega
  have small : (List.replicate 65508 (7 : UInt8)).length ≤ 2 ^ 32 - 1 := by
    rw [List.length_replicate]
    omega
  obtain ⟨pieces, records, cut, decoded, -, fed⟩ := fragments_round_trip notClose nonempty small
  refine ⟨notClose, nonempty, small, pieces, records, cut, decoded, fun cap r room created => ?_⟩
  exact (fed cap r (List.length_replicate ▸ room) created).1

end AppPilotKit.Transport
