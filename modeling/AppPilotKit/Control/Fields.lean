import AppPilotKit.Control.Items

/-! # Fields of a checked item

Once an item has been checked, each field that a decoder reads is the next token of its stream.
-/

namespace AppPilotKit.Control

open Wire Transport Cbor
open Broker (ControlFailure)
open Raw (Text)

theorem decoded_ok {α : Type} {read : Bytes → Option (α × Bytes)} {s s' : Bytes} {a : α} :
    decoded read s = .ok (a, s') ↔ read s = some (a, s') := by
  unfold decoded
  split
  · rename_i found known
    rw [known]
    constructor
    · intro h
      cases h
      rfl
    · intro h
      cases h
      rfl
  · rename_i none
    rw [none]
    exact ⟨nofun, nofun⟩

theorem run'_ok {σ α : Type} {x : Reader σ α} {s : σ} {a : α} : x.run' s = .ok a ↔ ∃ s', x s = .ok (a, s') := by
  have unfolded : x.run' s = (x s).map Prod.fst := rfl
  rw [unfolded, Checks.map_ok]
  constructor
  · rintro ⟨⟨a, s'⟩, h, rfl⟩
    exact ⟨s', h⟩
  · rintro ⟨s', h⟩
    exact ⟨(a, s'), h, rfl⟩

/-! ## Steps on a stream -/

section
variable {α β σ : Type} {tokens : List Token} {rest : Bytes} {b : β} {s s' : σ}

theorem require_step {holds : Prop} [Decidable holds] {reason : CloseReason} {f : Unit → Reader σ β}
    (h : (require holds reason >>= f) s = .ok (b, s')) : holds ∧ f () s = .ok (b, s') := by
  obtain ⟨_, m, required, next⟩ := bind_ok.mp h
  obtain ⟨held, rfl⟩ := require_ok.mp required
  exact ⟨held, next⟩

theorem fixed_step {n : Nat} {value s s' : Bytes} {f : FixedBytes n → Reader Bytes β}
    (h : (fixed n value >>= f) s = .ok (b, s')) : ∃ array : FixedBytes n, array.bytes = value ∧ f array s = .ok (b, s') := by
  obtain ⟨array, m, found, next⟩ := bind_ok.mp h
  unfold fixed at found
  cases sized : FixedBytes.ofBytes? n value with
  | none =>
      rw [sized] at found
      exact absurd found reject_ok
  | some known =>
      rw [sized] at found
      obtain ⟨rfl, rfl⟩ := pure_ok.mp found
      exact ⟨array, FixedBytes.bytes_of_ofBytes? sized, next⟩

theorem named_step {of : Nat → Option α} {code : Nat} {s s' : Bytes} {f : α → Reader Bytes β}
    (h : (named of code >>= f) s = .ok (b, s')) : ∃ a, of code = some a ∧ f a s = .ok (b, s') := by
  obtain ⟨a, m, found, next⟩ := bind_ok.mp h
  unfold named at found
  cases which : of code with
  | none =>
      rw [which] at found
      exact absurd found reject_ok
  | some known =>
      rw [which] at found
      obtain ⟨rfl, rfl⟩ := pure_ok.mp found
      exact ⟨a, rfl, next⟩

variable (fits : ∀ t ∈ tokens, t.Fits)
include fits

theorem u8_step {f : Nat → Reader Bytes β} (h : (decoded readU8 >>= f) (encodeAll tokens) = .ok (b, rest)) :
    ∃ n left, n < 2 ^ 8 ∧ tokens = .uint n :: left ∧ (∀ t ∈ left, t.Fits) ∧ f n (encodeAll left) = .ok (b, rest) := by
  obtain ⟨n, m, found, next⟩ := bind_ok.mp h
  obtain ⟨small, left, rfl, rfl⟩ := readUInt_stream fits (decoded_ok.mp found)
  exact ⟨n, left, small, rfl, (List.forall_mem_cons.mp fits).2, next⟩

theorem u64_step {f : Nat → Reader Bytes β} (h : (decoded readU64 >>= f) (encodeAll tokens) = .ok (b, rest)) :
    ∃ n left, tokens = .uint n :: left ∧ (∀ t ∈ left, t.Fits) ∧ f n (encodeAll left) = .ok (b, rest) := by
  obtain ⟨n, m, found, next⟩ := bind_ok.mp h
  obtain ⟨-, left, rfl, rfl⟩ := readUInt_stream fits (decoded_ok.mp found)
  exact ⟨n, left, rfl, (List.forall_mem_cons.mp fits).2, next⟩

theorem bytes_step {f : Bytes → Reader Bytes β} (h : (decoded readBytes >>= f) (encodeAll tokens) = .ok (b, rest)) :
    ∃ value left, tokens = .bytes value :: left ∧ (∀ t ∈ left, t.Fits) ∧ f value (encodeAll left) = .ok (b, rest) := by
  obtain ⟨value, m, found, next⟩ := bind_ok.mp h
  obtain ⟨left, rfl, rfl⟩ := readBytes_stream fits (decoded_ok.mp found)
  exact ⟨value, left, rfl, (List.forall_mem_cons.mp fits).2, next⟩

theorem text_step {f : Text → Reader Bytes β} (h : (decoded readText >>= f) (encodeAll tokens) = .ok (b, rest)) :
    ∃ value left, tokens = .text value.bytes :: left ∧ (∀ t ∈ left, t.Fits) ∧ f value (encodeAll left) = .ok (b, rest) := by
  obtain ⟨value, m, found, next⟩ := bind_ok.mp h
  have found := decoded_ok.mp found
  unfold readText at found
  split at found
  · rename_i bytes after read
    cases found
    obtain ⟨left, rfl, rfl⟩ := readStr_stream fits read
    exact ⟨_, left, rfl, (List.forall_mem_cons.mp fits).2, next⟩
  · cases found

theorem bool_step {f : Bool → Reader Bytes β} (h : (decoded readBool >>= f) (encodeAll tokens) = .ok (b, rest)) :
    ∃ value left, tokens = .bool value :: left ∧ (∀ t ∈ left, t.Fits) ∧ f value (encodeAll left) = .ok (b, rest) := by
  obtain ⟨value, m, found, next⟩ := bind_ok.mp h
  obtain ⟨left, rfl, rfl⟩ := readBool_stream (decoded_ok.mp found)
  exact ⟨value, left, rfl, (List.forall_mem_cons.mp fits).2, next⟩

theorem array_step {f : Option Nat → Reader Bytes β} (h : (decoded readArray >>= f) (encodeAll tokens) = .ok (b, rest)) :
    ∃ n left, tokens = .array n :: left ∧ (∀ t ∈ left, t.Fits) ∧ f (some n) (encodeAll left) = .ok (b, rest) := by
  obtain ⟨count, m, found, next⟩ := bind_ok.mp h
  obtain ⟨n, left, rfl, rfl, rfl⟩ := readArray_stream fits (decoded_ok.mp found)
  exact ⟨n, left, rfl, (List.forall_mem_cons.mp fits).2, next⟩

theorem map_step {f : Option Nat → Reader Bytes β} (h : (decoded readMap >>= f) (encodeAll tokens) = .ok (b, rest)) :
    ∃ n left, tokens = .map n :: left ∧ (∀ t ∈ left, t.Fits) ∧ f (some n) (encodeAll left) = .ok (b, rest) := by
  obtain ⟨count, m, found, next⟩ := bind_ok.mp h
  obtain ⟨n, left, rfl, rfl, rfl⟩ := readMap_stream fits (decoded_ok.mp found)
  exact ⟨n, left, rfl, (List.forall_mem_cons.mp fits).2, next⟩

theorem key_step {key : Nat} {f : Unit → Reader Bytes β} (h : (requireKey key >>= f) (encodeAll tokens) = .ok (b, rest)) :
    ∃ left, tokens = .uint key :: left ∧ (∀ t ∈ left, t.Fits) ∧ f () (encodeAll left) = .ok (b, rest) := by
  rw [requireKey, bind_assoc] at h
  obtain ⟨n, left, -, rfl, fits', checked⟩ := u8_step fits h
  obtain ⟨rfl, next⟩ := require_step checked
  exact ⟨left, rfl, fits', next⟩

theorem entries_step {n : Nat} {f : Unit → Reader Bytes β} (h : (requireMap n >>= f) (encodeAll tokens) = .ok (b, rest)) :
    ∃ left, tokens = .map n :: left ∧ (∀ t ∈ left, t.Fits) ∧ f () (encodeAll left) = .ok (b, rest) := by
  rw [requireMap, bind_assoc] at h
  obtain ⟨m, left, rfl, fits', checked⟩ := map_step fits h
  obtain ⟨same, next⟩ := require_step checked
  cases same
  exact ⟨left, rfl, fits', next⟩

end

/-! ## Steps on a stream that has the field -/

section
variable {α β σ : Type} {left : List Token}

theorem bind_run {x : Reader σ α} {f : α → Reader σ β} {s m : σ} {a : α} (first : x s = .ok (a, m)) : (x >>= f) s = f a m := by
  have unfolded : (x >>= f) s = (x s >>= fun found => f found.1 found.2) := rfl
  rw [unfolded, first]
  rfl

theorem require_then {holds : Prop} [Decidable holds] {reason : CloseReason} {f : Unit → Reader σ β} {s : σ} (held : holds) :
    (require holds reason >>= f) s = f () s :=
  bind_run (require_ok.mpr ⟨held, rfl⟩)

theorem fixed_then {n : Nat} (value : FixedBytes n) {f : FixedBytes n → Reader Bytes β} {s : Bytes} :
    (fixed n value.bytes >>= f) s = f value s := by
  refine bind_run ?_
  rw [fixed, FixedBytes.ofBytes?_bytes]
  rfl

theorem named_then {of : Nat → Option α} {code : Nat} {a : α} (which : of code = some a) {f : α → Reader Bytes β} {s : Bytes} :
    (named of code >>= f) s = f a s := by
  refine bind_run ?_
  rw [named, which]
  rfl

theorem u8_then {n : Nat} (small : n < 2 ^ 8) {f : Nat → Reader Bytes β} :
    (decoded readU8 >>= f) (encodeAll (.uint n :: left)) = f n (encodeAll left) :=
  bind_run (decoded_ok.mpr (readU8_uint small _))

theorem u64_then {n : Nat} (small : n < 2 ^ 64) {f : Nat → Reader Bytes β} :
    (decoded readU64 >>= f) (encodeAll (.uint n :: left)) = f n (encodeAll left) :=
  bind_run (decoded_ok.mpr (readU64_uint small _))

theorem bytes_then {value : Bytes} (small : value.length < 2 ^ 64) {f : Bytes → Reader Bytes β} :
    (decoded readBytes >>= f) (encodeAll (.bytes value :: left)) = f value (encodeAll left) :=
  bind_run (decoded_ok.mpr (readBytes_bytes small _))

theorem text_then {value : Text} (small : value.bytes.length < 2 ^ 64) {f : Text → Reader Bytes β} :
    (decoded readText >>= f) (encodeAll (.text value.bytes :: left)) = f value (encodeAll left) := by
  refine bind_run (decoded_ok.mpr ?_)
  have read := readStr_text value.valid small (encodeAll left)
  unfold readText
  split
  · rename_i bytes after found
    rw [encodeAll_cons, Token.encode, read] at found
    cases found
    rfl
  · rename_i none
    rw [encodeAll_cons, Token.encode, read] at none
    cases none

theorem bool_then {value : Bool} {f : Bool → Reader Bytes β} :
    (decoded readBool >>= f) (encodeAll (.bool value :: left)) = f value (encodeAll left) := by
  refine bind_run (decoded_ok.mpr ?_)
  cases value with
  | false => rfl
  | true => rfl

theorem array_then {n : Nat} (small : n < 2 ^ 64) {f : Option Nat → Reader Bytes β} :
    (decoded readArray >>= f) (encodeAll (.array n :: left)) = f (some n) (encodeAll left) :=
  bind_run (decoded_ok.mpr (readArray_array small _))

theorem map_then {n : Nat} (small : n < 2 ^ 64) {f : Option Nat → Reader Bytes β} :
    (decoded readMap >>= f) (encodeAll (.map n :: left)) = f (some n) (encodeAll left) :=
  bind_run (decoded_ok.mpr (readMap_map small _))

theorem key_then {key : Nat} (small : key < 2 ^ 8) {f : Unit → Reader Bytes β} :
    (requireKey key >>= f) (encodeAll (.uint key :: left)) = f () (encodeAll left) := by
  rw [requireKey, bind_assoc, u8_then small, require_then rfl]

theorem entries_then {n : Nat} (small : n < 2 ^ 64) {f : Unit → Reader Bytes β} :
    (requireMap n >>= f) (encodeAll (.map n :: left)) = f () (encodeAll left) := by
  rw [requireMap, bind_assoc, map_then small, require_then rfl]

end

/-! ## The envelope of a request -/

theorem safeInteger_small {value : Nat} (safe : safeInteger value) : value < 2 ^ 64 := by
  simp only [safeInteger, Bool.and_eq_true, decide_eq_true_eq] at safe
  unfold maxSafeInteger at safe
  omega

/-- What comes before the body: the version, the request, its deadline and its operation. -/
def envelope (requestId : Bytes) (deadline operation : Nat) : List Token :=
  [.map 5, .uint 0, .uint 1, .uint 1, .bytes requestId, .uint 2, .uint deadline, .uint 3, .uint operation]

theorem envelope_length {requestId : Bytes} {deadline operation : Nat} (size : requestId.length = 16) (known : operation ≤ 4) :
    (encodeAll (envelope requestId deadline operation)).length = 24 + headLength deadline := by
  have code : headLength operation = 1 := if_pos (by omega)
  rw [encodeAll_length]
  simp only [envelope, List.map_cons, List.map_nil, List.sum_cons, List.sum_nil, Token.size, Token.headArgument, Token.payload, size, code,
    List.length_nil, show headLength 5 = 1 from rfl, show headLength 0 = 1 from rfl, show headLength 1 = 1 from rfl,
    show headLength 16 = 1 from rfl, show headLength 2 = 1 from rfl, show headLength 3 = 1 from rfl]
  omega

theorem requestOperation_ok {tokens : List Token} {operation : Nat} (fits : ∀ t ∈ tokens, t.Fits)
    (h : requestOperation (encodeAll tokens) = .ok operation) :
    ∃ requestId deadline left, tokens = envelope requestId deadline operation ++ left ∧ requestId.length = 16 ∧
      safeInteger deadline ∧ operation ≤ 4 := by
  obtain ⟨rest, read⟩ := run'_ok.mp h
  obtain ⟨t₁, rfl, fits₁, h₁⟩ := entries_step fits read
  obtain ⟨t₂, rfl, fits₂, h₂⟩ := key_step fits₁ h₁
  obtain ⟨t₃, rfl, fits₃, h₃⟩ := key_step fits₂ h₂
  obtain ⟨t₄, rfl, fits₄, h₄⟩ := key_step fits₃ h₃
  obtain ⟨requestId, t₅, rfl, fits₅, h₅⟩ := bytes_step fits₄ h₄
  obtain ⟨size, h₆⟩ := require_step h₅
  obtain ⟨t₆, rfl, fits₆, h₇⟩ := key_step fits₅ h₆
  obtain ⟨deadline, t₇, rfl, fits₇, h₈⟩ := u64_step fits₆ h₇
  obtain ⟨safe, h₉⟩ := require_step h₈
  obtain ⟨t₈, rfl, fits₈, h₁₀⟩ := key_step fits₇ h₉
  obtain ⟨found, left, -, rfl, fits₉, h₁₁⟩ := u8_step fits₈ h₁₀
  obtain ⟨known, h₁₂⟩ := require_step h₁₁
  obtain ⟨rfl, -⟩ := pure_ok.mp h₁₂
  exact ⟨requestId, deadline, left, rfl, size, safe, known⟩

/-! ## Packets that are accepted -/

/-- A packet is its length, in four bytes, and an item. -/
theorem unframe_ok {packet cbor : Bytes} :
    unframe packet = .ok cbor ↔ packet = be 4 cbor.length ++ cbor ∧ cbor ≠ [] ∧ cbor.length ≤ globalCborCap := by
  unfold unframe
  constructor
  · intro h
    split at h
    · cases h
    rename_i long
    generalize value : beNat (packet.take 4) = declared at h
    dsimp only at h
    split_ifs at h with zero large whole
    cases h
    have four : (packet.take 4).length = 4 := List.length_take_of_le (by omega)
    have size : (packet.drop 4).length = declared := by
      rw [List.length_drop]
      omega
    refine ⟨?_, ?_, by omega⟩
    · have digits := be_beNat (packet.take 4)
      rw [four, value] at digits
      rw [size, digits, List.take_append_drop]
    · intro none
      rw [none] at size
      exact zero size.symm
  · rintro ⟨rfl, some, small⟩
    have four : (be 4 cbor.length).length = 4 := be_length ..
    have positive := List.length_pos_of_ne_nil some
    have declared : beNat (be 4 cbor.length) = cbor.length := beNat_be 4 _ (by unfold globalCborCap at small; omega)
    rw [List.take_left' four, List.drop_left' four, List.length_append, four, declared, if_neg (by omega), if_neg (by omega),
      if_neg (by unfold globalPacketCap; unfold globalCborCap at small ⊢; omega), if_neg (by omega)]

theorem decodeRequestPacket_ok {packet : Bytes} {request : ControlRequest} :
    decodeRequestPacket packet = .ok request ↔
      ∃ cbor operation, unframe packet = .ok cbor ∧ validateDeterministicCbor cbor = .ok () ∧
        requestOperation cbor = .ok operation ∧ cbor.length ≤ requestCap operation ∧ decodeRequest cbor operation = .ok request := by
  unfold decodeRequestPacket
  constructor
  · intro h
    obtain ⟨cbor, framed, h₁⟩ := Checks.bind_ok.mp h
    obtain ⟨⟨⟩, checked, h₂⟩ := Checks.bind_ok.mp h₁
    obtain ⟨operation, named, h₃⟩ := Checks.bind_ok.mp h₂
    split at h₃
    · cases h₃
    · exact ⟨cbor, operation, framed, checked, named, by omega, h₃⟩
  · rintro ⟨cbor, operation, framed, checked, named, small, decoded⟩
    refine Checks.bind_ok.mpr ⟨cbor, framed, Checks.bind_ok.mpr ⟨(), checked, Checks.bind_ok.mpr ⟨operation, named, ?_⟩⟩⟩
    rw [if_neg (by omega)]
    exact decoded

end AppPilotKit.Control
