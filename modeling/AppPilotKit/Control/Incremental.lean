import AppPilotKit.Control.Fields
import AppPilotKit.Lib.Runs

/-! # Reading one request from a connection

The bytes of a request arrive in pieces. Before a packet is complete its first 64 bytes already
say how long it may be. What the decoder holds between two pushes is what it has been given, so
the pieces do not matter: it ends where the whole packet ends, and it refuses early only what
cannot become a request.
-/

namespace AppPilotKit.Control

open Wire Transport Cbor
open Broker (ControlFailure saturatingAdd)

/-! ## The decoder -/

structure ControlPacketDecoder where
  pending : Bytes
  expectedTotal : Option Nat
  finished : Bool
  deriving DecidableEq

def requestOperationPrefix (cbor : Bytes) : Option Nat :=
  let reader : StateT Bytes Option Nat := do
    guard ((← readMap) = some 5)
    guard ((← readU8) = 0)
    guard ((← readU8) = 1)
    guard ((← readU8) = 1)
    guard ((← readBytes).length = 16)
    guard ((← readU8) = 2)
    let _ ← readU64
    guard ((← readU8) = 3)
    readU8
  reader.run' cbor

/-- The cap for the operation that the first bytes name. -/
def operationCap : Nat → Option Nat
  | 1 => some openSessionCborCap
  | 2 => some exchangeRequestCborCap
  | 0 | 3 | 4 => some nonExchangeCborCap
  | _ => none

namespace ControlPacketDecoder

abbrev Answer := Except ControlFailure (Option ControlRequest)

def new : ControlPacketDecoder := { pending := [], expectedTotal := none, finished := false }

def reject (d : ControlPacketDecoder) (reason : CloseReason) : Answer × ControlPacketDecoder :=
  (.error (ipc reason), { d with pending := [], finished := true })

/-- The end of a push, after the first bytes have been looked at. -/
def extend (d : ControlPacketDecoder) (input : Bytes) : Answer × ControlPacketDecoder :=
  let d := { d with pending := d.pending ++ input }
  match d.expectedTotal with
  | none => (.ok none, d)
  | some expected =>
      if d.pending.length < expected then (.ok none, d)
      else if d.pending.length ≠ expected then d.reject .malformed
      else ((decodeRequestPacket d.pending).map some, { d with finished := true })

def push (d : ControlPacketDecoder) (input : Bytes) : Answer × ControlPacketDecoder :=
  if d.finished then (.error (ipc .sequenceViolation), d)
  else
    let prospective := saturatingAdd d.pending.length input.length
    let start := d.pending.take 64
    let start := if start.length < 64 then start ++ input.take (64 - start.length) else start
    if 4 ≤ start.length then
      let declared := beNat (start.take 4)
      if declared = 0 then d.reject .malformed
      else if exchangeRequestCborCap < declared then d.reject .oversize
      else
        let d := { d with expectedTotal := some (declared + 4) }
        if declared + 4 < prospective then d.reject .malformed
        else
          match requestOperationPrefix (start.drop 4) with
          | some operation =>
              match operationCap operation with
              | some cap => if cap < declared then d.reject .oversize else d.extend input
              | none => d.reject .malformed
          | none => if start.length = 64 then d.reject .malformed else d.extend input
    else if 64 < prospective then d.reject .malformed
    else d.extend input

end ControlPacketDecoder

/-! ## The envelope of an accepted packet -/

/-- A reader that more input does not disturb. -/
structure Stable {α : Type} (reader : StateT Bytes Option α) : Prop where
  more {input rest : Bytes} {a : α} (read : reader input = some (a, rest)) (more : Bytes) :
    reader (input ++ more) = some (a, rest ++ more)

namespace Stable

variable {α β : Type}

theorem bind {reader : StateT Bytes Option α} {next : α → StateT Bytes Option β} (first : Stable reader)
    (rest : ∀ a, Stable (next a)) : Stable (reader >>= next) := by
  constructor
  intro input left b read more
  obtain ⟨⟨a, middle⟩, found, after⟩ := Option.bind_eq_some_iff.mp read
  exact Option.bind_eq_some_iff.mpr ⟨(a, middle ++ more), first.more found more, (rest a).more after more⟩

theorem guarded {holds : Prop} [Decidable holds] {next : Unit → StateT Bytes Option β} (rest : Stable (next ())) :
    Stable (guard holds >>= next) := by
  by_cases held : holds
  · rw [guard, if_pos held]
    exact rest
  · rw [guard, if_neg held]
    exact ⟨nofun⟩

end Stable

/-- The operation that some bytes name stays the one that the whole packet names. -/
theorem requestOperationPrefix_more {cbor : Bytes} {operation : Nat} (named : requestOperationPrefix cbor = some operation)
    (more : Bytes) : requestOperationPrefix (cbor ++ more) = some operation := by
  obtain ⟨⟨found, rest⟩, read, rfl⟩ := Option.map_eq_some_iff.mp named
  refine Option.map_eq_some_iff.mpr ⟨(found, rest ++ more), Stable.more ?_ read more, rfl⟩
  have u8 : Stable readU8 := ⟨readUInt_more⟩
  have u64 : Stable readU64 := ⟨readUInt_more⟩
  refine Stable.bind ⟨readMap_more⟩ fun _ => .guarded ?_
  refine u8.bind fun _ => .guarded ?_
  refine u8.bind fun _ => .guarded ?_
  refine u8.bind fun _ => .guarded ?_
  refine Stable.bind ⟨readBytes_more⟩ fun _ => .guarded ?_
  refine u8.bind fun _ => .guarded ?_
  refine u64.bind fun _ => u8.bind fun _ => .guarded u8

section
variable {α β : Type} {reader : StateT Bytes Option α} {next : α → StateT Bytes Option β} {s m : Bytes} {a : α}

theorem run'_bind (read : reader s = some (a, m)) : (reader >>= next).run' s = (next a).run' m := by
  have unfolded : (reader >>= next) s = (reader s).bind fun found => next found.1 found.2 := rfl
  rw [StateT.run', StateT.run', unfolded, read]
  rfl

theorem run'_guard {holds : Prop} [Decidable holds] {next : Unit → StateT Bytes Option β} (held : holds) :
    (guard holds >>= next).run' s = (next ()).run' s := by
  rw [guard, if_pos held]
  rfl

end

theorem requestOperationPrefix_envelope {requestId : Bytes} {deadline operation : Nat} (size : requestId.length = 16)
    (safe : safeInteger deadline) (known : operation ≤ 4) (more : Bytes) :
    requestOperationPrefix (encodeAll (envelope requestId deadline operation) ++ more) = some operation := by
  have small := safeInteger_small safe
  unfold requestOperationPrefix envelope
  simp only [encodeAll_cons, encodeAll_nil, Token.encode, List.append_assoc, List.nil_append]
  rw [run'_bind (readMap_map (by decide) _), run'_guard rfl, run'_bind (readU8_uint (by decide) _), run'_guard rfl,
    run'_bind (readU8_uint (by decide) _), run'_guard rfl, run'_bind (readU8_uint (by decide) _), run'_guard rfl,
    run'_bind (readBytes_bytes (by omega) _), run'_guard size, run'_bind (readU8_uint (by decide) _), run'_guard rfl,
    run'_bind (readU64_uint small _), run'_bind (readU8_uint (by decide) _), run'_guard rfl]
  rw [StateT.run', readU8_uint (by omega)]
  rfl

/-- An item that may be the request of an operation, as one sees it who has only its beginning. -/
structure Names (cbor : Bytes) (operation : Nat) : Prop where
  positive : cbor ≠ []
  known : operation ≤ 4
  capped : cbor.length ≤ requestCap operation
  whole : requestOperationPrefix cbor = some operation
  early : ∀ seen, seen <+: cbor → 33 ≤ seen.length → requestOperationPrefix seen = some operation

theorem requestCap_le (operation : Nat) : requestCap operation ≤ exchangeRequestCborCap := by
  unfold requestCap
  split <;> decide

theorem names_of_decode {packet : Bytes} {request : ControlRequest} (accepted : decodeRequestPacket packet = .ok request) :
    ∃ cbor operation, packet = be 4 cbor.length ++ cbor ∧ Names cbor operation := by
  obtain ⟨cbor, operation, framed, checked, named, capped, -⟩ := decodeRequestPacket_ok.mp accepted
  obtain ⟨split, positive, small⟩ := unframe_ok.mp framed
  obtain ⟨tokens, -, fits, rfl⟩ := (validateDeterministicCbor_ok (by unfold globalCborCap at small; omega)).mp checked
  obtain ⟨requestId, deadline, left, rfl, size, safe, known⟩ := requestOperation_ok fits named
  rw [encodeAll_append] at *
  have short : (encodeAll (envelope requestId deadline operation)).length ≤ 33 := by
    have := headLength_le_nine deadline
    rw [envelope_length size known]
    omega
  have named' := requestOperationPrefix_envelope size safe known
  refine ⟨_, operation, split, positive, known, capped, named' _, ?_⟩
  intro seen before long
  have start := List.prefix_of_prefix_length_le (List.prefix_append _ (encodeAll left)) before (short.trans long)
  obtain ⟨more, rfl⟩ := start
  exact named' more

theorem Names.seen {cbor seen : Bytes} {operation found : Nat} (names : Names cbor operation) (before : seen <+: cbor)
    (named : requestOperationPrefix seen = some found) : found = operation := by
  obtain ⟨more, rfl⟩ := before
  have whole := requestOperationPrefix_more named more
  rw [names.whole] at whole
  exact Option.some.inj whole.symm

theorem operationCap_known {operation : Nat} (known : operation ≤ 4) : operationCap operation = some (requestCap operation) := by
  interval_cases operation <;> rfl

/-! ## One push -/

namespace ControlPacketDecoder

/-- What a packet that begins like this has in all. -/
def expecting (seen : Bytes) : Option Nat :=
  if 4 ≤ seen.length then some (beNat (seen.take 4) + 4) else none

/-- The decoder that has been given these bytes and waits for more. -/
def holding (seen : Bytes) : ControlPacketDecoder := { pending := seen, expectedTotal := expecting seen, finished := false }

/-- How a push can end, by all the bytes given. -/
inductive Outcome (total : Bytes) : Answer × ControlPacketDecoder → Prop where
  | waiting : Outcome total (.ok none, holding total)
  | done {request : ControlRequest} {d : ControlPacketDecoder} (accepted : decodeRequestPacket total = .ok request)
      (ended : d.finished = true) : Outcome total (.ok (some request), d)
  | failed {failure : ControlFailure} {d : ControlPacketDecoder} (ended : d.finished = true) : Outcome total (.error failure, d)

section
variable {seen input : Bytes}

theorem reject_outcome {total : Bytes} (d : ControlPacketDecoder) (reason : CloseReason) : Outcome total (d.reject reason) :=
  .failed rfl

/-- Once the first bytes are in order, only the length counts. -/
theorem extend_outcome (seen input : Bytes) :
    Outcome (seen ++ input) ({ holding seen with expectedTotal := expecting (seen ++ input) }.extend input) := by
  unfold extend
  dsimp only [holding]
  split
  · exact .waiting
  · split
    · exact .waiting
    · split
      · exact reject_outcome ..
      · cases answer : decodeRequestPacket (seen ++ input) with
        | ok request => exact .done answer rfl
        | error failure => exact .failed rfl

/-- The first bytes that a push looks at. -/
theorem start_eq (seen input : Bytes) :
    (if (seen.take 64).length < 64 then seen.take 64 ++ input.take (64 - (seen.take 64).length) else seen.take 64) =
      (seen ++ input).take 64 := by
  rw [List.take_append, List.length_take]
  split
  · rw [show 64 - min 64 seen.length = 64 - seen.length by omega]
  · rw [show 64 - seen.length = 0 by omega, List.take_zero, List.append_nil]

theorem prospective_lt (seen input : Bytes) {bound : Nat} (small : bound < 2 ^ 64 - 1) :
    bound < saturatingAdd seen.length input.length ↔ bound < (seen ++ input).length := by
  unfold saturatingAdd
  rw [List.length_append]
  omega

/-- With fewer than four bytes there is nothing to look at. -/
theorem push_few (few : (seen ++ input).length < 4) : (holding seen).push input = (.ok none, holding (seen ++ input)) := by
  have size : ((seen ++ input).take 64).length = (seen ++ input).length := by
    rw [List.length_take]
    omega
  have fewer : seen.length < 4 := by
    rw [List.length_append] at few
    omega
  unfold push
  rw [show (holding seen).finished = false from rfl, if_neg (by decide)]
  dsimp only
  rw [show (holding seen).pending = seen from rfl, start_eq, if_neg (by omega),
    if_neg (by rw [prospective_lt _ _ (by decide)]; omega)]
  simp only [holding, extend, expecting, if_neg (show ¬ 4 ≤ seen.length by omega), if_neg (show ¬ 4 ≤ (seen ++ input).length by omega)]

/-- With four bytes the length is known, and what the next 60 say can be compared with it. -/
theorem push_enough (enough : 4 ≤ (seen ++ input).length) :
    (holding seen).push input =
      let declared := beNat ((seen ++ input).take 4)
      let d := { holding seen with expectedTotal := expecting (seen ++ input) }
      if declared = 0 then (holding seen).reject .malformed
      else if exchangeRequestCborCap < declared then (holding seen).reject .oversize
      else if declared + 4 < (seen ++ input).length then d.reject .malformed
      else
        match requestOperationPrefix (((seen ++ input).take 64).drop 4) with
        | some operation =>
            match operationCap operation with
            | some cap => if cap < declared then d.reject .oversize else d.extend input
            | none => d.reject .malformed
        | none => if 64 ≤ (seen ++ input).length then d.reject .malformed else d.extend input := by
  have size : ((seen ++ input).take 64).length = min 64 (seen ++ input).length := List.length_take
  have first : ((seen ++ input).take 64).take 4 = (seen ++ input).take 4 := by
    rw [List.take_take]
    rfl
  have expected : expecting (seen ++ input) = some (beNat ((seen ++ input).take 4) + 4) := if_pos enough
  have full : ((seen ++ input).take 64).length = 64 ↔ 64 ≤ (seen ++ input).length := by omega
  unfold push
  rw [show (holding seen).finished = false from rfl, if_neg (by decide)]
  dsimp only
  rw [show (holding seen).pending = seen from rfl, start_eq, if_pos (by omega), first, expected]
  by_cases large : exchangeRequestCborCap < beNat ((seen ++ input).take 4)
  · rw [if_pos large, if_pos large]
  · have bound : beNat ((seen ++ input).take 4) + 4 < 2 ^ 64 - 1 := by
      unfold exchangeRequestCborCap at large
      omega
    simp only [if_neg large, prospective_lt seen input bound, full]
    rfl

/-- Every push on a decoder that waits ends in one of three ways. -/
theorem push_outcome (seen input : Bytes) : Outcome (seen ++ input) ((holding seen).push input) := by
  by_cases enough : 4 ≤ (seen ++ input).length
  · rw [push_enough enough]
    dsimp only
    split
    · exact reject_outcome ..
    split
    · exact reject_outcome ..
    split
    · exact reject_outcome ..
    split
    · split
      · split
        · exact reject_outcome ..
        · exact extend_outcome ..
      · exact reject_outcome ..
    · split
      · exact reject_outcome ..
      · exact extend_outcome ..
  · rw [push_few (by omega)]
    exact .waiting

/-- While what has been given may still become an accepted packet, the decoder waits; when the
    packet is complete it returns the request. -/
theorem push_accepted {packet : Bytes} {request : ControlRequest} (accepted : decodeRequestPacket packet = .ok request)
    (before : seen ++ input <+: packet) :
    (holding seen).push input =
      if seen ++ input = packet then (.ok (some request), { holding (seen ++ input) with finished := true })
      else (.ok none, holding (seen ++ input)) := by
  obtain ⟨cbor, operation, framed, names⟩ := names_of_decode accepted
  have small := names.capped.trans (requestCap_le operation)
  have four : (be 4 cbor.length).length = 4 := be_length ..
  have positive := List.length_pos_of_ne_nil names.positive
  have whole : packet.length = cbor.length + 4 := by
    rw [framed, List.length_append, four, Nat.add_comm]
  have atMost := before.length_le
  by_cases enough : 4 ≤ (seen ++ input).length
  · -- the length prefix has arrived
    have declared : beNat ((seen ++ input).take 4) = cbor.length := by
      obtain ⟨more, joined⟩ := before
      have first := congrArg (List.take 4) (joined.trans framed)
      rw [List.take_append_of_le_length enough, List.take_left' four] at first
      rw [first]
      exact beNat_be 4 _ (by unfold exchangeRequestCborCap at small; omega)
    have inside : ((seen ++ input).take 64).drop 4 <+: cbor := by
      have start := ((List.take_prefix 64 _).trans before).drop 4
      rwa [framed, List.drop_left' four] at start
    rw [push_enough enough, declared]
    have last : ({ holding seen with expectedTotal := expecting (seen ++ input) } : ControlPacketDecoder).extend input =
        if seen ++ input = packet then (.ok (some request), { holding (seen ++ input) with finished := true })
        else (.ok none, holding (seen ++ input)) := by
      unfold extend
      dsimp only [holding]
      rw [show expecting (seen ++ input) = some (cbor.length + 4) by rw [expecting, if_pos enough, declared]]
      dsimp only
      by_cases complete : seen ++ input = packet
      · rw [if_pos complete, if_neg (by rw [complete]; omega), if_neg (by rw [complete]; omega), complete, accepted]
        rfl
      · have short : (seen ++ input).length ≠ packet.length := fun same => complete (before.eq_of_length same)
        rw [if_neg complete, if_pos (by omega)]
    dsimp only
    rw [if_neg (by omega), if_neg (by omega), if_neg (by omega), last]
    split
    · rename_i found named
      rw [names.seen inside named, operationCap_known names.known]
      dsimp only
      exact if_neg (by have := names.capped; omega)
    · rename_i unknown
      refine if_neg fun full => ?_
      have long : 33 ≤ (((seen ++ input).take 64).drop 4).length := by
        rw [List.length_drop, List.length_take]
        omega
      rw [names.early _ inside long] at unknown
      cases unknown
  · rw [push_few (by omega), if_neg]
    intro same
    rw [same] at enough
    omega

end

/-! ## Any cut of a stream -/

/-- No packet that begins with these bytes is accepted. -/
def Hopeless (seen : Bytes) : Prop := ∀ more request, decodeRequestPacket (seen ++ more) ≠ .ok request

theorem Hopeless.append {seen : Bytes} (hopeless : Hopeless seen) (more : Bytes) : Hopeless (seen ++ more) := by
  intro further request
  rw [List.append_assoc]
  exact hopeless (more ++ further) request

/-- An accepted packet ends where its length says. -/
theorem hopeless_beyond {packet more : Bytes} {request : ControlRequest} (accepted : decodeRequestPacket packet = .ok request)
    (nonempty : more ≠ []) : Hopeless (packet ++ more) := by
  intro further other accepted'
  obtain ⟨cbor, operation, framed, names⟩ := names_of_decode accepted
  obtain ⟨cbor', operation', framed', names'⟩ := names_of_decode accepted'
  have small := names.capped.trans (requestCap_le operation)
  have small' := names'.capped.trans (requestCap_le operation')
  unfold exchangeRequestCborCap at small small'
  rw [framed, List.append_assoc, List.append_assoc] at framed'
  obtain ⟨digits, rest⟩ := List.append_inj framed' (by rw [be_length, be_length])
  have same : cbor.length = cbor'.length := by
    rw [← beNat_be 4 cbor.length (by omega), digits, beNat_be 4 cbor'.length (by omega)]
  have positive := List.length_pos_of_ne_nil nonempty
  have sizes := congrArg List.length rest
  simp only [List.length_append] at sizes
  omega

/-- What holds after some pushes. -/
inductive Reached (seen : Bytes) : ControlPacketDecoder → Prop where
  | waiting : Reached seen (holding seen)
  | stopped {d : ControlPacketDecoder} (ended : d.finished = true) (beyond : ∀ more, more ≠ [] → Hopeless (seen ++ more)) :
      Reached seen d

theorem push_finished {d : ControlPacketDecoder} (ended : d.finished = true) (input : Bytes) :
    d.push input = (.error (ipc .sequenceViolation), d) := if_pos ended

section
variable {seen input : Bytes} {d : ControlPacketDecoder}

/-- A push that fails has seen enough: no request can begin like this. -/
theorem Reached.failed (reached : Reached seen d) (nonempty : input ≠ []) {failure : ControlFailure}
    (answer : (d.push input).1 = .error failure) : Hopeless (seen ++ input) := by
  cases reached with
  | waiting =>
      intro more request accepted
      rw [push_accepted accepted (List.prefix_append _ _)] at answer
      split at answer <;> cases answer
  | stopped _ beyond => exact beyond input nonempty

theorem Reached.returned (reached : Reached seen d) {request : ControlRequest} (answer : (d.push input).1 = .ok (some request)) :
    decodeRequestPacket (seen ++ input) = .ok request := by
  cases reached with
  | waiting =>
      have outcome := push_outcome seen input
      generalize (holding seen).push input = result at answer outcome
      cases outcome with
      | waiting => cases answer
      | done accepted _ =>
          cases answer
          exact accepted
      | failed _ => cases answer
  | stopped ended _ =>
      rw [push_finished ended] at answer
      cases answer

theorem Reached.push (reached : Reached seen d) (nonempty : input ≠ []) : Reached (seen ++ input) (d.push input).2 := by
  cases reached with
  | waiting =>
      have outcome := push_outcome seen input
      have failed (failure : ControlFailure) (answer : ((holding seen).push input).1 = .error failure) : Hopeless (seen ++ input) :=
        Reached.failed .waiting nonempty answer
      generalize (holding seen).push input = result at failed outcome
      cases outcome with
      | waiting => exact .waiting
      | done accepted ended => exact .stopped ended fun _ some => hopeless_beyond accepted some
      | failed ended => exact .stopped ended fun more _ => (failed _ rfl).append more
  | stopped ended beyond =>
      rw [push_finished ended]
      exact .stopped ended fun more _ => (beyond input nonempty).append more

/-- After a result or an error the decoder is finished. -/
theorem Reached.ended (reached : Reached seen d) (answer : (d.push input).1 ≠ .ok none) : (d.push input).2.finished = true := by
  cases reached with
  | waiting =>
      have outcome := push_outcome seen input
      generalize (holding seen).push input = result at answer outcome
      cases outcome with
      | waiting => exact absurd rfl answer
      | done _ ended => exact ended
      | failed ended => exact ended
  | stopped ended _ =>
      rw [push_finished ended]
      exact ended

end

theorem reached_final {chunks : List Bytes} (nonempty : ∀ chunk ∈ chunks, chunk ≠ []) :
    Reached chunks.flatten (Runs.final push new chunks) := by
  induction chunks using List.reverseRecOn with
  | nil => exact .waiting
  | append_singleton chunks chunk ih =>
      rw [Runs.final_append, List.flatten_append, List.flatten_singleton]
      exact (ih fun c member => nonempty c (by simp [member])).push (nonempty chunk (by simp))

theorem final_finished {d : ControlPacketDecoder} (ended : d.finished = true) (chunks : List Bytes) : Runs.final push d chunks = d := by
  induction chunks with
  | nil => rfl
  | cons chunk chunks ih => rw [Runs.final_cons, push_finished ended, ih]

/-- The pieces of an accepted packet: by induction on them, what has been given and what is
    still to come make up the packet. -/
theorem outputs_accepted {packet seen : Bytes} {request : ControlRequest} {chunks : List Bytes}
    (accepted : decodeRequestPacket packet = .ok request) (nonempty : ∀ chunk ∈ chunks, chunk ≠ [])
    (joined : seen ++ chunks.flatten = packet) (short : seen ≠ packet) :
    Runs.outputs push (holding seen) chunks = List.replicate (chunks.length - 1) (.ok none) ++ [.ok (some request)] := by
  induction chunks generalizing seen with
  | nil => exact absurd (by simpa using joined) short
  | cons chunk chunks ih =>
      rw [List.flatten_cons, ← List.append_assoc] at joined
      have before : seen ++ chunk <+: packet := ⟨_, joined⟩
      have pushed := push_accepted accepted before
      have others : ∀ c ∈ chunks, c ≠ [] := fun c member => nonempty c (by simp [member])
      rw [Runs.outputs_cons, pushed]
      by_cases complete : seen ++ chunk = packet
      · have last : chunks = [] := by
          rw [complete] at joined
          cases chunks with
          | nil => rfl
          | cons next more =>
              have empty := List.append_right_eq_self.mp joined
              exact absurd (List.append_eq_nil_iff.mp (List.flatten_cons ▸ empty)).1 (others next (by simp))
        rw [if_pos complete, last]
        rfl
      · rw [if_neg complete, ih others joined complete]
        cases chunks with
        | nil => exact absurd (by simpa using joined) complete
        | cons next more => rfl

/-- The pieces of a packet do not matter. A complete packet returns its request, whatever may
    follow; a push that fails has seen what no request begins with; and both end it all. -/
theorem any_cut (chunks : List Bytes) (nonempty : ∀ chunk ∈ chunks, chunk ≠ []) :
    let answers : List Answer := Runs.outputs push new chunks
    (∀ request, decodeRequestPacket chunks.flatten = .ok request →
        answers = List.replicate (chunks.length - 1) (.ok none) ++ [.ok (some request)]) ∧
      (∀ (n : Nat) request, answers[n]? = some (.ok (some request)) → decodeRequestPacket (chunks.take (n + 1)).flatten = .ok request) ∧
      (∀ (n : Nat) failure, answers[n]? = some (.error failure) →
        ∀ more request, decodeRequestPacket ((chunks.take (n + 1)).flatten ++ more) ≠ .ok request) ∧
      ∀ (n m : Nat) answer later, n < m → answers[n]? = some answer → answer ≠ .ok none → answers[m]? = some later →
        later = .error (ipc .sequenceViolation) := by
  intro answers
  -- the state before each push, and what the push makes of it
  have before {n : Nat} {answer : Answer} (given : answers[n]? = some answer) :
      ∃ chunk, chunks[n]? = some chunk ∧ chunk ≠ [] ∧ (chunks.take (n + 1)).flatten = (chunks.take n).flatten ++ chunk ∧
        Reached (chunks.take n).flatten (Runs.final push new (chunks.take n)) ∧
        ((Runs.final push new (chunks.take n)).push chunk).1 = answer := by
    obtain ⟨chunk, here, same⟩ := Option.map_eq_some_iff.mp ((Runs.outputs_getElem? new chunks n).symm.trans given)
    have member := List.mem_of_getElem? here
    refine ⟨chunk, here, nonempty chunk member, ?_, reached_final fun c taken => nonempty c (List.mem_of_mem_take taken), same⟩
    rw [List.take_add_one, here, List.flatten_append]
    simp
  refine ⟨?_, ?_, ?_, ?_⟩
  · intro request accepted
    refine outputs_accepted accepted nonempty (List.nil_append _) ?_
    rintro none
    rw [← none] at accepted
    obtain ⟨cbor, operation, framed, names⟩ := names_of_decode accepted
    exact names.positive (List.append_eq_nil_iff.mp framed.symm).2
  · intro n request given
    obtain ⟨chunk, -, -, split, reached, same⟩ := before given
    rw [split]
    exact reached.returned same
  · intro n failure given
    obtain ⟨chunk, -, some, split, reached, same⟩ := before given
    rw [split]
    exact reached.failed some same
  · intro n m answer later earlier given ends given'
    obtain ⟨chunk, here, -, -, reached, same⟩ := before given
    obtain ⟨chunk', -, -, -, -, same'⟩ := before given'
    have ended := reached.ended (same ▸ ends)
    have after : chunks.take m = (chunks.take n ++ [chunk]) ++ (chunks.take m).drop (n + 1) := by
      have front : chunks.take n ++ [chunk] = (chunks.take m).take (n + 1) := by
        rw [List.take_take, min_eq_left (by omega), List.take_add_one, here]
        rfl
      rw [front, List.take_append_drop]
    rw [after, Runs.final_append, Runs.final_append] at same'
    rw [← same', Runs.final_cons, Runs.final_nil, final_finished ended, push_finished ended]

/-- A request to close a lease. -/
def closing : Bytes :=
  [0, 0, 0, 64, 0xa5, 0, 1, 1, 0x50] ++ List.replicate 16 7 ++ [2, 1, 3, 4, 4, 0xa2, 0, 0x58, 0x20] ++ List.replicate 32 9 ++ [1, 0]

def closingRequest : ControlRequest :=
  .closeLease ⟨⟨List.replicate 16 7, rfl⟩, 1, ⟨⟨List.replicate 32 9, rfl⟩, .normal⟩⟩

theorem closing_accepted : decodeRequestPacket closing = .ok closingRequest := by
  decide

theorem any_cut_closing :
    Runs.outputs push new [closing.take 20, closing.drop 20] = [.ok none, .ok (some closingRequest)] :=
  (any_cut [closing.take 20, closing.drop 20] (by decide)).1 closingRequest closing_accepted

/-- A decoder that has the whole packet does not wait for what may follow it. -/
theorem more_after_packet :
    ∃ chunks : List Bytes, (∀ chunk ∈ chunks, chunk ≠ []) ∧ (∀ request, decodeRequestPacket chunks.flatten ≠ .ok request) ∧
      ∃ request, .ok (some request) ∈ Runs.outputs push new chunks := by
  refine ⟨[closing, [0]], by decide, ?_, closingRequest, ?_⟩
  · intro request
    have hopeless : Hopeless (closing ++ [0]) := hopeless_beyond closing_accepted (by decide)
    simpa using hopeless [] request
  · have before : [] ++ closing <+: closing := List.prefix_rfl
    have pushed := push_accepted closing_accepted before
    rw [Runs.outputs_cons, show new = holding [] from rfl, pushed, if_pos (List.nil_append _)]
    exact List.mem_cons_self ..

end ControlPacketDecoder

end AppPilotKit.Control
