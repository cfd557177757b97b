import AppPilotKit.Lib.Checks
import AppPilotKit.Raw.Reader
import AppPilotKit.Target.Descriptor

/-! # The launch descriptor on both sides

The Host writes the descriptor with an encoder of its own; the Target reads it with a decoder
that encodes what it has read and compares. The two encoders agree byte for byte.
-/

namespace AppPilotKit.Raw

open Wire Transport Target
open Broker (TransportFailure Platform)

/-! ## The endpoint of a launch -/

/-- A Rust string, by its bytes. -/
structure Text where
  bytes : Bytes
  valid : Cbor.validUtf8 bytes
  deriving DecidableEq

inductive LaunchEndpoint where
  | iosLoopback (port : Nat)
  | androidLocalAbstract (name : Text)
  deriving DecidableEq

namespace LaunchEndpoint

def newIosLoopback (port : Nat) : Except PlatformFailureKind LaunchEndpoint :=
  if 49152 ≤ port ∧ port ≤ 65535 then .ok (iosLoopback port) else .error .rejected

def newAndroidLocalAbstract (name : Text) : Except PlatformFailureKind LaunchEndpoint :=
  if 32 ≤ name.bytes.length ∧ name.bytes.length ≤ 96 then .ok (androidLocalAbstract name) else .error .rejected

def iosPort : LaunchEndpoint → Option Nat
  | iosLoopback port => some port
  | androidLocalAbstract _ => none

def androidName : LaunchEndpoint → Option Text
  | iosLoopback _ => none
  | androidLocalAbstract name => some name

end LaunchEndpoint

/-! ## The encoder of the Host -/

/-- `value as u8`, `value as u16` and so on keep the low bytes. -/
def cborMajorLen (major : UInt8) (value : Nat) : Bytes :=
  if value ≤ 23 then [(major <<< 5) ||| UInt8.ofNat value]
  else if value ≤ 0xff then [(major <<< 5) ||| 24, UInt8.ofNat value]
  else if value ≤ 0xffff then ((major <<< 5) ||| 25) :: be 2 (value % 2 ^ 16)
  else if value ≤ 0xffffffff then ((major <<< 5) ||| 26) :: be 4 (value % 2 ^ 32)
  else ((major <<< 5) ||| 27) :: be 8 value

def cborUint (value : Nat) : Bytes := cborMajorLen 0 value
def cborBytes (bytes : Bytes) : Bytes := cborMajorLen 2 bytes.length ++ bytes
def cborText (value : Bytes) : Bytes := cborMajorLen 3 value.length ++ value

def endpointMatchesPlatform (platform : Platform) (endpoint : LaunchEndpoint) : Bool :=
  match platform with
  | .iosSimulator => endpoint.iosPort.isSome
  | .androidEmulator => endpoint.androidName.isSome

/-- What an endpoint contributes, once it matches the platform. -/
def encodeEndpoint : LaunchEndpoint → Bytes
  | .iosLoopback port => [0xa2] ++ cborUint 0 ++ cborText loopback ++ cborUint 1 ++ cborUint port
  | .androidLocalAbstract name => [0xa1] ++ cborUint 0 ++ cborText name.bytes

def encodeLaunchDescriptor (platform : Platform) (endpoint : LaunchEndpoint) (leaseId : FixedBytes 16)
    (targetNonce appArtifactDigest brokerStaticPublic : FixedBytes 32) (expiryMs : Nat)
    (targetReferenceDigest : FixedBytes 32) : Except TransportFailure Bytes :=
  if expiryMs = 0 ∨ ¬ endpointMatchesPlatform platform endpoint then .error (transportFailure .bindingMismatch)
  else
    let platformCode := match platform with
      | .iosSimulator => 0
      | .androidEmulator => 1
    .ok ([0xa9] ++ cborUint 0 ++ cborUint 1 ++ cborUint 1 ++ cborUint platformCode
      ++ cborUint 2 ++ cborBytes leaseId.bytes
      ++ cborUint 3 ++ cborBytes targetNonce.bytes
      ++ cborUint 4 ++ cborBytes appArtifactDigest.bytes
      ++ cborUint 5 ++ cborBytes brokerStaticPublic.bytes
      ++ cborUint 6 ++ encodeEndpoint endpoint
      ++ cborUint 7 ++ cborUint expiryMs
      ++ cborUint 8 ++ cborBytes targetReferenceDigest.bytes)

/-! ## Both encoders write the same bytes -/

theorem shifted {major low : Nat} (known : major < 8) (small : low < 32) :
    (UInt8.ofNat major <<< 5) ||| UInt8.ofNat low = UInt8.ofNat (major * 32 + low) := by
  have all : ∀ major : Fin 8, ∀ low : Fin 32,
      (UInt8.ofNat major.val <<< 5) ||| UInt8.ofNat low.val = UInt8.ofNat (major.val * 32 + low.val) := by decide
  exact all ⟨major, known⟩ ⟨low, small⟩

theorem cborMajorLen_eq {major : Nat} (known : major < 8) (value : Nat) :
    cborMajorLen (UInt8.ofNat major) value = Cbor.head major value := by
  unfold cborMajorLen Cbor.head
  by_cases tiny : value < 24
  · rw [if_pos (by omega), if_pos tiny, shifted known (by omega)]
  rw [if_neg (by omega), if_neg tiny]
  by_cases one : value < 256 ^ 1
  · rw [if_pos (by omega), if_pos one]
    have byte : be 1 value = [UInt8.ofNat value] := by
      rw [be, be, List.nil_append, Nat.mod_eq_of_lt (by omega)]
    rw [byte, ← shifted known (show 24 < 32 by decide)]
    rfl
  rw [if_neg (by omega), if_neg one]
  by_cases two : value < 256 ^ 2
  · rw [if_pos (by omega), if_pos two, Nat.mod_eq_of_lt (by omega), ← shifted known (show 25 < 32 by decide)]
    rfl
  rw [if_neg (by omega), if_neg two]
  by_cases four : value < 256 ^ 4
  · rw [if_pos (by omega), if_pos four, Nat.mod_eq_of_lt (by omega), ← shifted known (show 26 < 32 by decide)]
    rfl
  rw [if_neg (by omega), if_neg four, ← shifted known (show 27 < 32 by decide)]
  rfl

theorem cborUint_eq (value : Nat) : cborUint value = Cbor.uint value := cborMajorLen_eq (by decide) value

theorem cborBytes_eq (bytes : Bytes) : cborBytes bytes = Cbor.bytes bytes :=
  congrArg (· ++ bytes) (cborMajorLen_eq (by decide) bytes.length)

theorem cborText_eq (value : Bytes) : cborText value = text value :=
  congrArg (· ++ value) (cborMajorLen_eq (by decide) value.length)

/-- The endpoint as the Target reads it. -/
def LaunchEndpoint.endpoint : LaunchEndpoint → Target.Endpoint
  | iosLoopback port => .ios port
  | androidLocalAbstract name => .android name.bytes

theorem encodeEndpoint_eq (endpoint : LaunchEndpoint) : encodeEndpoint endpoint = Target.encodeEndpoint endpoint.endpoint := by
  have two : Cbor.map 2 = [0xa2] := by decide
  have one : Cbor.map 1 = [0xa1] := by decide
  cases endpoint with
  | iosLoopback port => simp only [encodeEndpoint, Target.encodeEndpoint, LaunchEndpoint.endpoint, cborUint_eq, cborText_eq, two]
  | androidLocalAbstract name =>
      simp only [encodeEndpoint, Target.encodeEndpoint, LaunchEndpoint.endpoint, cborUint_eq, cborText_eq, one]

section
variable {platform : Platform} {endpoint : LaunchEndpoint} {leaseId : FixedBytes 16}
  {targetNonce appArtifactDigest brokerStaticPublic targetReferenceDigest : FixedBytes 32} {expiryMs : Nat}

/-- What a descriptor says. -/
def described (endpoint : LaunchEndpoint) (leaseId : FixedBytes 16)
    (targetNonce appArtifactDigest brokerStaticPublic : FixedBytes 32) (expiryMs : Nat)
    (targetReferenceDigest : FixedBytes 32) : ParsedDescriptor :=
  { binding := { targetReferenceDigest, leaseId, targetNonce, appArtifactDigest, expiryMs }
    brokerPublicKey := brokerStaticPublic, endpoint := endpoint.endpoint }

/-- The Host writes what the Target would write. -/
theorem encodeLaunchDescriptor_eq (positive : expiryMs ≠ 0) (matching : endpointMatchesPlatform platform endpoint) :
    encodeLaunchDescriptor platform endpoint leaseId targetNonce appArtifactDigest brokerStaticPublic expiryMs
        targetReferenceDigest =
      .ok (encodeDescriptor (described endpoint leaseId targetNonce appArtifactDigest brokerStaticPublic expiryMs
        targetReferenceDigest)) := by
  have code : endpoint.endpoint.platform = match platform with
      | .iosSimulator => 0
      | .androidEmulator => 1 := by
    cases platform with
    | iosSimulator =>
        cases endpoint with
        | iosLoopback => rfl
        | androidLocalAbstract => cases matching
    | androidEmulator =>
        cases endpoint with
        | iosLoopback => cases matching
        | androidLocalAbstract => rfl
  have nine : Cbor.map 9 = [0xa9] := by decide
  unfold encodeLaunchDescriptor
  rw [if_neg (by simp [positive, matching])]
  simp only [encodeDescriptor, described, code, nine, cborUint_eq, cborBytes_eq, encodeEndpoint_eq]
  cases platform with
  | iosSimulator => rfl
  | androidEmulator => rfl

end

/-! ## The Target reads what it would write -/

/-- The values that the Target accepts. -/
def Endpoint.Valid : Target.Endpoint → Prop
  | .ios port => 49152 ≤ port ∧ port ≤ 65535
  | .android name => 32 ≤ name.length ∧ name.length ≤ 96 ∧ (0 : UInt8) ∉ name ∧ Cbor.validUtf8 name

structure Valid (parsed : ParsedDescriptor) : Prop where
  endpoint : Endpoint.Valid parsed.endpoint
  expiry : 1 ≤ parsed.binding.expiryMs ∧ parsed.binding.expiryMs ≤ jsonSafeMax

section
variable {b x : Bytes} {parsed : ParsedDescriptor}

theorem expectKey_uint {key : Nat} (small : key < 2 ^ 8) (x : Bytes) : expectKey key (Cbor.uint key ++ x) = .ok x := by
  unfold expectKey
  rw [Cbor.readU8_uint small]
  simp [field, requireField, bind, Except.bind, pure, Except.pure]

theorem fixedBytes_bytes {n : Nat} (small : n < 2 ^ 64) (value : FixedBytes n) (x : Bytes) :
    fixedBytes n (Cbor.bytes value.bytes ++ x) = .ok (value, x) := by
  unfold fixedBytes
  rw [Cbor.readBytes_bytes (by rw [value.size]; exact small)]
  simp [field, bind, Except.bind, pure, Except.pure]

theorem parseEndpoint_encode {endpoint : Target.Endpoint} (valid : Endpoint.Valid endpoint) (x : Bytes) :
    parseEndpoint endpoint.platform (Target.encodeEndpoint endpoint ++ x) = .ok (endpoint, x) := by
  cases endpoint with
  | ios port =>
      obtain ⟨low, high⟩ := valid
      have host := Cbor.readStr_text (b := loopback) (by decide) (by decide)
      unfold parseEndpoint Target.encodeEndpoint Target.Endpoint.platform text
      simp only [List.append_assoc, Cbor.readMap_map (show 2 < 2 ^ 64 by decide)]
      simp only [List.append_assoc] at host
      simp [field, requireField, bind, Except.bind, pure, Except.pure, host, low, high,
        expectKey_uint (show 0 < 2 ^ 8 by decide), expectKey_uint (show 1 < 2 ^ 8 by decide), Cbor.readU16_uint (show port < 2 ^ 16 by omega)]
  | android name =>
      obtain ⟨low, high, nul, utf8⟩ := valid
      have read := Cbor.readStr_text utf8 (show name.length < 2 ^ 64 by omega)
      simp only [List.append_assoc] at read
      unfold parseEndpoint Target.encodeEndpoint Target.Endpoint.platform text
      simp only [List.append_assoc, Cbor.readMap_map (show 1 < 2 ^ 64 by decide)]
      simp [field, requireField, bind, Except.bind, pure, Except.pure, read, low, high, nul, expectKey_uint (show 0 < 2 ^ 8 by decide)]

theorem text_length (b : Bytes) : (text b).length ≤ 9 + b.length := by
  have := Cbor.head_length_le 3 b.length
  simp only [text, List.length_append]
  omega

theorem bytes_length {n : Nat} (value : FixedBytes n) : (Cbor.bytes value.bytes).length ≤ 9 + n := by
  have := Cbor.head_length_le 2 value.bytes.length
  simp only [Cbor.bytes, List.length_append, value.size] at this ⊢
  omega

theorem encodeDescriptor_small (valid : Valid parsed) : (encodeDescriptor parsed).length ≤ descriptorMax := by
  have head (n : Nat) : (Cbor.uint n).length ≤ 9 := Cbor.head_length_le 0 n
  have nested (n : Nat) : (Cbor.map n).length ≤ 9 := Cbor.head_length_le 5 n
  have endpoint : (Target.encodeEndpoint parsed.endpoint).length ≤ 200 := by
    have endpoint := valid.endpoint
    cases named : parsed.endpoint with
    | ios port =>
        have host := text_length loopback
        have size : loopback.length = 9 := rfl
        have heads := (⟨nested 2, head 0, head 1, head port⟩ : _ ∧ _ ∧ _ ∧ _)
        simp only [Target.encodeEndpoint, List.length_append]
        omega
    | android name =>
        rw [named] at endpoint
        obtain ⟨-, short, -⟩ := endpoint
        have host := text_length name
        have heads := (⟨nested 1, head 0⟩ : _ ∧ _)
        simp only [Target.encodeEndpoint, List.length_append]
        omega
  have lease := bytes_length parsed.binding.leaseId
  have nonce := bytes_length parsed.binding.targetNonce
  have digest := bytes_length parsed.binding.appArtifactDigest
  have key := bytes_length parsed.brokerPublicKey
  have reference := bytes_length parsed.binding.targetReferenceDigest
  have first := (⟨nested 9, head 0, head 1, head parsed.endpoint.platform, head 2, head 3, head 4⟩ : _ ∧ _ ∧ _ ∧ _ ∧ _ ∧ _ ∧ _)
  have second := (⟨head 5, head 6, head 7, head parsed.binding.expiryMs, head 8⟩ : _ ∧ _ ∧ _ ∧ _ ∧ _)
  simp only [encodeDescriptor, List.length_append]
  unfold descriptorMax
  omega

theorem parseDescriptor_encode (valid : Valid parsed) : parseDescriptor (encodeDescriptor parsed) = .ok parsed := by
  obtain ⟨positive, safe⟩ := valid.expiry
  have small := encodeDescriptor_small valid
  have kind : parsed.endpoint.platform = 0 ∨ parsed.endpoint.platform = 1 := by
    cases parsed.endpoint with
    | ios => exact .inl rfl
    | android => exact .inr rfl
  have platform (x : Bytes) : Cbor.readU8 (Cbor.uint parsed.endpoint.platform ++ x) = some (parsed.endpoint.platform, x) :=
    Cbor.readU8_uint (by omega) x
  have expiry (x : Bytes) : Cbor.readU64 (Cbor.uint parsed.binding.expiryMs ++ x) = some (parsed.binding.expiryMs, x) :=
    Cbor.readU64_uint (by unfold jsonSafeMax at safe; omega) x
  have shape : encodeDescriptor parsed = Cbor.map 9 ++ (Cbor.uint 0 ++ (Cbor.uint 1 ++ (Cbor.uint 1 ++
      (Cbor.uint parsed.endpoint.platform ++ (Cbor.uint 2 ++ (Cbor.bytes parsed.binding.leaseId.bytes ++ (Cbor.uint 3 ++
      (Cbor.bytes parsed.binding.targetNonce.bytes ++ (Cbor.uint 4 ++ (Cbor.bytes parsed.binding.appArtifactDigest.bytes ++
      (Cbor.uint 5 ++ (Cbor.bytes parsed.brokerPublicKey.bytes ++ (Cbor.uint 6 ++ (Target.encodeEndpoint parsed.endpoint ++
      (Cbor.uint 7 ++ (Cbor.uint parsed.binding.expiryMs ++ (Cbor.uint 8 ++
      (Cbor.bytes parsed.binding.targetReferenceDigest.bytes ++ [])))))))))))))))))) := by
    simp only [encodeDescriptor, List.append_assoc, List.append_nil]
  have nonempty : encodeDescriptor parsed ≠ [] := by
    rw [shape]
    exact List.append_ne_nil_of_left_ne_nil (Cbor.head_ne_nil _ _) _
  have entries := shape ▸ Cbor.readMap_map (show 9 < 2 ^ 64 by decide) _
  unfold parseDescriptor
  simp only [entries, field, requireField, bind, Except.bind, pure, Except.pure, expectKey_uint (show 0 < 2 ^ 8 by decide),
    expectKey_uint (show 1 < 2 ^ 8 by decide), expectKey_uint (show 2 < 2 ^ 8 by decide),
    expectKey_uint (show 3 < 2 ^ 8 by decide), expectKey_uint (show 4 < 2 ^ 8 by decide),
    expectKey_uint (show 5 < 2 ^ 8 by decide), expectKey_uint (show 6 < 2 ^ 8 by decide),
    expectKey_uint (show 7 < 2 ^ 8 by decide), expectKey_uint (show 8 < 2 ^ 8 by decide), platform, expiry,
    Cbor.readU8_uint (show 1 < 2 ^ 8 by decide), fixedBytes_bytes (show 16 < 2 ^ 64 by decide),
    fixedBytes_bytes (show 32 < 2 ^ 64 by decide), parseEndpoint_encode valid.endpoint]
  simp [nonempty, small, kind, positive, safe]

theorem requireField_ok {b : Bool} {u : Unit} : requireField b = .ok u ↔ b = true := by
  unfold requireField
  cases b with
  | true => simp
  | false => simp

theorem readStr_valid {b name rest : Bytes} (read : Cbor.readStr b = some (name, rest)) : Cbor.validUtf8 name := by
  unfold Cbor.readStr at read
  split at read
  · obtain ⟨-, valid⟩ := Option.filter_eq_some_iff.mp read
    exact valid
  · cases read

theorem field_ok {α : Type} {o : Option α} {value : α} : field o = .ok value ↔ o = some value := by
  cases o with
  | none => simp [field]
  | some other => simp [field]

/-- An endpoint that is read is one that the Host can build. -/
theorem parseEndpoint_valid {platform : Nat} {endpoint : Target.Endpoint} {rest : Bytes}
    (read : parseEndpoint platform b = .ok (endpoint, rest)) : Endpoint.Valid endpoint := by
  unfold parseEndpoint at read
  obtain ⟨⟨entries, b₁⟩, -, read⟩ := Checks.bind_ok.mp read
  dsimp only at read
  split at read
  · obtain ⟨-, -, read⟩ := Checks.bind_ok.mp read
    obtain ⟨b₂, -, read⟩ := Checks.bind_ok.mp read
    obtain ⟨⟨host, b₃⟩, -, read⟩ := Checks.bind_ok.mp read
    obtain ⟨-, -, read⟩ := Checks.bind_ok.mp read
    obtain ⟨b₄, -, read⟩ := Checks.bind_ok.mp read
    obtain ⟨⟨port, b₅⟩, -, read⟩ := Checks.bind_ok.mp read
    obtain ⟨_, range, read⟩ := Checks.bind_ok.mp read
    cases read
    simpa [Endpoint.Valid] using requireField_ok.mp range
  · obtain ⟨-, -, read⟩ := Checks.bind_ok.mp read
    obtain ⟨b₂, -, read⟩ := Checks.bind_ok.mp read
    obtain ⟨⟨name, b₃⟩, text, read⟩ := Checks.bind_ok.mp read
    obtain ⟨_, range, read⟩ := Checks.bind_ok.mp read
    cases read
    have range := requireField_ok.mp range
    simp only [Bool.and_eq_true, decide_eq_true_eq, Bool.not_eq_true', List.contains_eq_mem, decide_eq_false_iff_not] at range
    exact ⟨range.1.1, range.1.2, range.2, readStr_valid (field_ok.mp text)⟩

/-- What the Target accepts is what it would write for the values it has read. -/
theorem parseDescriptor_ok (read : parseDescriptor b = .ok parsed) :
    Valid parsed ∧ b = encodeDescriptor parsed ∧ b.length ≤ descriptorMax := by
  unfold parseDescriptor at read
  obtain ⟨_, size, read⟩ := Checks.bind_ok.mp read
  have size := requireField_ok.mp size
  obtain ⟨⟨entries, b₁⟩, -, read⟩ := Checks.bind_ok.mp read
  obtain ⟨-, -, read⟩ := Checks.bind_ok.mp read
  obtain ⟨b₂, -, read⟩ := Checks.bind_ok.mp read
  obtain ⟨⟨version, b₃⟩, -, read⟩ := Checks.bind_ok.mp read
  obtain ⟨-, -, read⟩ := Checks.bind_ok.mp read
  obtain ⟨b₄, -, read⟩ := Checks.bind_ok.mp read
  obtain ⟨⟨platform, b₅⟩, -, read⟩ := Checks.bind_ok.mp read
  obtain ⟨-, -, read⟩ := Checks.bind_ok.mp read
  obtain ⟨b₆, -, read⟩ := Checks.bind_ok.mp read
  obtain ⟨⟨leaseId, b₇⟩, -, read⟩ := Checks.bind_ok.mp read
  obtain ⟨b₈, -, read⟩ := Checks.bind_ok.mp read
  obtain ⟨⟨targetNonce, b₉⟩, -, read⟩ := Checks.bind_ok.mp read
  obtain ⟨b₁₀, -, read⟩ := Checks.bind_ok.mp read
  obtain ⟨⟨appArtifactDigest, b₁₁⟩, -, read⟩ := Checks.bind_ok.mp read
  obtain ⟨b₁₂, -, read⟩ := Checks.bind_ok.mp read
  obtain ⟨⟨brokerPublicKey, b₁₃⟩, -, read⟩ := Checks.bind_ok.mp read
  obtain ⟨b₁₄, -, read⟩ := Checks.bind_ok.mp read
  obtain ⟨⟨endpoint, b₁₅⟩, kind, read⟩ := Checks.bind_ok.mp read
  obtain ⟨b₁₆, -, read⟩ := Checks.bind_ok.mp read
  obtain ⟨⟨expiryMs, b₁₇⟩, -, read⟩ := Checks.bind_ok.mp read
  obtain ⟨_, range, read⟩ := Checks.bind_ok.mp read
  obtain ⟨b₁₈, -, read⟩ := Checks.bind_ok.mp read
  obtain ⟨⟨targetReferenceDigest, b₁₉⟩, -, read⟩ := Checks.bind_ok.mp read
  obtain ⟨-, -, read⟩ := Checks.bind_ok.mp read
  obtain ⟨_, same, read⟩ := Checks.bind_ok.mp read
  cases read
  refine ⟨⟨parseEndpoint_valid kind, by simpa using requireField_ok.mp range⟩, ?_, ?_⟩
  · exact (by simpa using requireField_ok.mp same : _ = b).symm
  · simp only [Bool.and_eq_true, decide_eq_true_eq] at size
    exact size.2

end

/-! ## Agreement -/

/-- An endpoint that a constructor made, from a name without NUL bytes. -/
def Built (endpoint : LaunchEndpoint) : Prop :=
  (∃ port, LaunchEndpoint.newIosLoopback port = .ok endpoint) ∨
    ∃ name : Text, (0 : UInt8) ∉ name.bytes ∧ LaunchEndpoint.newAndroidLocalAbstract name = .ok endpoint

theorem Built.valid {endpoint : LaunchEndpoint} (built : Built endpoint) : Endpoint.Valid endpoint.endpoint := by
  rcases built with ⟨port, made⟩ | ⟨name, nul, made⟩
  · unfold LaunchEndpoint.newIosLoopback at made
    split at made
    · rename_i range
      cases made
      exact range
    · cases made
  · unfold LaunchEndpoint.newAndroidLocalAbstract at made
    split at made
    · rename_i range
      cases made
      exact ⟨range.1, range.2, nul, name.valid⟩
    · cases made

/-- The endpoint that the Target has read can be built, for its platform. -/
theorem Endpoint.Valid.built {endpoint : Target.Endpoint} (valid : Endpoint.Valid endpoint) :
    ∃ platform built, Built built ∧ endpointMatchesPlatform platform built ∧ built.endpoint = endpoint := by
  cases endpoint with
  | ios port => exact ⟨.iosSimulator, .iosLoopback port, .inl ⟨port, if_pos valid⟩, rfl, rfl⟩
  | android name =>
      obtain ⟨low, high, nul, utf8⟩ := valid
      exact ⟨.androidEmulator, .androidLocalAbstract ⟨name, utf8⟩, .inr ⟨⟨name, utf8⟩, nul, if_pos ⟨low, high⟩⟩, rfl, rfl⟩

/-- The Target reads exactly what the Host writes. For an endpoint of another platform the Host
    writes nothing. -/
theorem launch_descriptors_agree :
    (∀ (platform : Platform) (endpoint : LaunchEndpoint) (leaseId : FixedBytes 16)
      (targetNonce appArtifactDigest brokerStaticPublic targetReferenceDigest : FixedBytes 32) (expiryMs : Nat),
      Built endpoint → 1 ≤ expiryMs → expiryMs ≤ jsonSafeMax →
      if endpointMatchesPlatform platform endpoint then
        ∃ b, encodeLaunchDescriptor platform endpoint leaseId targetNonce appArtifactDigest brokerStaticPublic expiryMs
            targetReferenceDigest = .ok b ∧
          parseDescriptor b = .ok (described endpoint leaseId targetNonce appArtifactDigest brokerStaticPublic expiryMs
            targetReferenceDigest)
      else
        encodeLaunchDescriptor platform endpoint leaseId targetNonce appArtifactDigest brokerStaticPublic expiryMs
          targetReferenceDigest = .error (transportFailure .bindingMismatch)) ∧
    ∀ b parsed, parseDescriptor b = .ok parsed → b.length ≤ descriptorMax ∧
      ∃ platform endpoint, Built endpoint ∧ endpoint.endpoint = parsed.endpoint ∧
        encodeLaunchDescriptor platform endpoint parsed.binding.leaseId parsed.binding.targetNonce
          parsed.binding.appArtifactDigest parsed.brokerPublicKey parsed.binding.expiryMs
          parsed.binding.targetReferenceDigest = .ok b := by
  constructor
  · intro platform endpoint leaseId targetNonce appArtifactDigest brokerStaticPublic targetReferenceDigest expiryMs built
      positive safe
    split
    · rename_i matching
      exact ⟨_, encodeLaunchDescriptor_eq (by omega) matching, parseDescriptor_encode ⟨built.valid, positive, safe⟩⟩
    · rename_i other
      unfold encodeLaunchDescriptor
      rw [if_pos (.inr other)]
  · intro b parsed read
    obtain ⟨valid, rfl, small⟩ := parseDescriptor_ok read
    obtain ⟨platform, endpoint, built, matching, same⟩ := valid.endpoint.built
    refine ⟨small, platform, endpoint, built, same, ?_⟩
    rw [encodeLaunchDescriptor_eq (by have := valid.expiry.1; omega) matching]
    unfold described
    rw [same]

theorem loopback_descriptors_agree : ∃ b,
    encodeLaunchDescriptor .iosSimulator (.iosLoopback 50000) (.replicate 16 0) (.replicate 32 0) (.replicate 32 0)
      (.replicate 32 0) 1 (.replicate 32 0) = .ok b ∧
    parseDescriptor b = .ok (described (.iosLoopback 50000) (.replicate 16 0) (.replicate 32 0) (.replicate 32 0)
      (.replicate 32 0) 1 (.replicate 32 0)) :=
  launch_descriptors_agree.1 .iosSimulator (.iosLoopback 50000) (.replicate 16 0) (.replicate 32 0) (.replicate 32 0)
    (.replicate 32 0) (.replicate 32 0) 1 (.inl ⟨50000, rfl⟩) (by decide) (by decide)

end AppPilotKit.Raw
