import AppPilotKit.Lib.Checks
import AppPilotKit.Transport.BrokerLease

/-! # Payloads with one encoding

The payloads of a Close, of the second handshake message, of the two
confirmations and of a heartbeat are maps that a decoder reads field by field.
The decoder is lenient about the width of an integer, the parsers are not: each
encodes what it has read once more and compares.
-/

namespace AppPilotKit.Transport

open Wire

/-! ## Reading back one field -/

theorem expectMap_map {entries : Nat} (small : entries < 2 ^ 64) (rest : Bytes) :
    expectMap entries (Cbor.map entries ++ rest) = .ok rest := by
  unfold expectMap
  rw [Cbor.readMap_map small]
  exact if_pos rfl

theorem expectU8_uint {value : Nat} (small : value < 2 ^ 8) (rest : Bytes) :
    expectU8 value (Cbor.uint value ++ rest) = .ok rest := by
  unfold expectU8
  rw [Cbor.readU8_uint small]
  exact if_pos rfl

theorem decoded_u8 {value : Nat} (small : value < 2 ^ 8) (rest : Bytes) :
    decoded (Cbor.readU8 (Cbor.uint value ++ rest)) = .ok (value, rest) := by
  rw [Cbor.readU8_uint small]
  rfl

theorem decoded_u64 {value : Nat} (small : value < 2 ^ 64) (rest : Bytes) :
    decoded (Cbor.readU64 (Cbor.uint value ++ rest)) = .ok (value, rest) := by
  rw [Cbor.readU64_uint small]
  rfl

theorem readFixed_bytes {n : Nat} (small : n < 2 ^ 64) (value : FixedBytes n) (rest : Bytes) :
    readFixed n (Cbor.bytes value.bytes ++ rest) = .ok (value, rest) := by
  unfold readFixed
  rw [Cbor.readBytes_bytes (value.size.symm ▸ small)]
  refine Checks.bind_ok.mpr ⟨_, rfl, ?_⟩
  simp only [FixedBytes.ofBytes?_bytes]
  rfl

theorem readU64_lt {b rest : Bytes} {n : Nat} (h : decoded (Cbor.readU64 b) = .ok (n, rest)) : n < 2 ^ 64 := by
  unfold Cbor.readU64 Cbor.readUInt at h
  split at h
  · split at h
    · cases h
      assumption
    · cases h
  · cases h

/-! ## The five parsers -/

theorem CloseReason.fromWire_toWire (reason : CloseReason) : CloseReason.fromWire reason.toWire = .ok reason := by
  cases reason <;> rfl

theorem HandoffState.fromWire_toWire (handoff : HandoffState) :
    HandoffState.fromWire handoff.toWire = .ok handoff := by
  cases handoff <;> rfl

/-- What `parse_close` accepts, `close_payload` writes … -/
theorem parseClose_ok {b : Bytes} {reason : CloseReason} {handoff : HandoffState}
    (h : parseClose b = .ok (reason, handoff)) : b = closePayload reason handoff := by
  unfold parseClose at h
  obtain ⟨_, -, h⟩ := Checks.bind_ok.mp h
  obtain ⟨_, -, h⟩ := Checks.bind_ok.mp h
  obtain ⟨_, -, h⟩ := Checks.bind_ok.mp h
  obtain ⟨_, -, h⟩ := Checks.bind_ok.mp h
  obtain ⟨_, -, h⟩ := Checks.bind_ok.mp h
  obtain ⟨_, -, h⟩ := Checks.bind_ok.mp h
  obtain ⟨_, -, h⟩ := Checks.bind_ok.mp h
  obtain ⟨_, -, h⟩ := Checks.bind_ok.mp h
  obtain ⟨_, -, h⟩ := Checks.bind_ok.mp h
  dsimp only at h
  split at h
  · cases h
  · rename_i canonical
    cases h
    push Not at canonical
    exact canonical.2.symm

/-- … and the other way round. -/
theorem parseClose_of {b : Bytes} {reason : CloseReason} {handoff : HandoffState}
    (same : b = closePayload reason handoff) : parseClose b = .ok (reason, handoff) := by
  have reasonFits := reason.toWire_le
  have handoffFits := handoff.toWire_le
  have shape : b = Cbor.map 3 ++ (Cbor.uint 0 ++ (Cbor.uint 1 ++ (Cbor.uint 1 ++ (Cbor.uint reason.toWire
      ++ (Cbor.uint 2 ++ (Cbor.uint handoff.toWire ++ [])))))) := by simp [same, closePayload]
  unfold parseClose
  refine Checks.bind_ok.mpr ⟨_, (congrArg _ shape).trans (expectMap_map (by decide) _), ?_⟩
  refine Checks.bind_ok.mpr ⟨_, expectU8_uint (by decide) _, ?_⟩
  refine Checks.bind_ok.mpr ⟨_, expectU8_uint (by decide) _, ?_⟩
  refine Checks.bind_ok.mpr ⟨_, expectU8_uint (by decide) _, ?_⟩
  refine Checks.bind_ok.mpr ⟨_, decoded_u8 (by omega) _, ?_⟩
  refine Checks.bind_ok.mpr ⟨_, reason.fromWire_toWire, ?_⟩
  refine Checks.bind_ok.mpr ⟨_, expectU8_uint (by decide) _, ?_⟩
  refine Checks.bind_ok.mpr ⟨_, decoded_u8 (by omega) _, ?_⟩
  refine Checks.bind_ok.mpr ⟨_, handoff.fromWire_toWire, ?_⟩
  dsimp only
  rw [if_neg (by simp [same])]
  rfl

/-- What `parse_m2` accepts, `expected_m2` writes … -/
theorem parseM2_ok {b : Bytes} {binding : BootstrapBinding} {secret : FixedBytes 32}
    (h : parseM2 binding b = .ok secret) : b = binding.expectedM2 secret := by
  unfold parseM2 at h
  obtain ⟨_, -, h⟩ := Checks.bind_ok.mp h
  obtain ⟨_, -, h⟩ := Checks.bind_ok.mp h
  obtain ⟨⟨version, _⟩, -, h⟩ := Checks.bind_ok.mp h
  obtain ⟨_, -, h⟩ := Checks.bind_ok.mp h
  obtain ⟨⟨read, _⟩, -, h⟩ := Checks.bind_ok.mp h
  obtain ⟨_, -, h⟩ := Checks.bind_ok.mp h
  obtain ⟨⟨digest, _⟩, -, h⟩ := Checks.bind_ok.mp h
  obtain ⟨_, -, h⟩ := Checks.bind_ok.mp h
  obtain ⟨⟨lease, _⟩, -, h⟩ := Checks.bind_ok.mp h
  obtain ⟨_, -, h⟩ := Checks.bind_ok.mp h
  obtain ⟨⟨nonce, _⟩, -, h⟩ := Checks.bind_ok.mp h
  obtain ⟨_, -, h⟩ := Checks.bind_ok.mp h
  obtain ⟨⟨until_, _⟩, -, h⟩ := Checks.bind_ok.mp h
  obtain ⟨_, -, h⟩ := Checks.bind_ok.mp h
  obtain ⟨⟨artifact, _⟩, -, h⟩ := Checks.bind_ok.mp h
  dsimp only at h
  split at h
  · cases h
  split at h
  · cases h
  split at h
  · cases h
  · rename_i canonical
    cases h
    exact (not_not.mp canonical).symm

/-- … and the other way round. -/
theorem parseM2_of {b : Bytes} {binding : BootstrapBinding} {secret : FixedBytes 32}
    (expiry : binding.expiryMs < 2 ^ 64) (same : b = binding.expectedM2 secret) : parseM2 binding b = .ok secret := by
  have shape : b = Cbor.map 7 ++ (Cbor.uint 0 ++ (Cbor.uint 1 ++ (Cbor.uint 1 ++ (Cbor.bytes secret.bytes
      ++ (Cbor.uint 2 ++ (Cbor.bytes binding.targetReferenceDigest.bytes ++ (Cbor.uint 3
      ++ (Cbor.bytes binding.leaseId.bytes ++ (Cbor.uint 4 ++ (Cbor.bytes binding.targetNonce.bytes
      ++ (Cbor.uint 5 ++ (Cbor.uint binding.expiryMs ++ (Cbor.uint 6
      ++ (Cbor.bytes binding.appArtifactDigest.bytes ++ [])))))))))))))) := by
    simp [same, BootstrapBinding.expectedM2]
  unfold parseM2
  refine Checks.bind_ok.mpr ⟨_, (congrArg _ shape).trans (expectMap_map (by decide) _), ?_⟩
  refine Checks.bind_ok.mpr ⟨_, expectU8_uint (by decide) _, ?_⟩
  refine Checks.bind_ok.mpr ⟨_, decoded_u8 (by decide) _, ?_⟩
  refine Checks.bind_ok.mpr ⟨_, expectU8_uint (by decide) _, ?_⟩
  refine Checks.bind_ok.mpr ⟨_, readFixed_bytes (by decide) _ _, ?_⟩
  refine Checks.bind_ok.mpr ⟨_, expectU8_uint (by decide) _, ?_⟩
  refine Checks.bind_ok.mpr ⟨_, readFixed_bytes (by decide) _ _, ?_⟩
  refine Checks.bind_ok.mpr ⟨_, expectU8_uint (by decide) _, ?_⟩
  refine Checks.bind_ok.mpr ⟨_, readFixed_bytes (by decide) _ _, ?_⟩
  refine Checks.bind_ok.mpr ⟨_, expectU8_uint (by decide) _, ?_⟩
  refine Checks.bind_ok.mpr ⟨_, readFixed_bytes (by decide) _ _, ?_⟩
  refine Checks.bind_ok.mpr ⟨_, expectU8_uint (by decide) _, ?_⟩
  refine Checks.bind_ok.mpr ⟨_, decoded_u64 expiry _, ?_⟩
  refine Checks.bind_ok.mpr ⟨_, expectU8_uint (by decide) _, ?_⟩
  refine Checks.bind_ok.mpr ⟨_, readFixed_bytes (by decide) _ _, ?_⟩
  dsimp only
  rw [if_neg (by simp), if_neg (by simp), if_neg (by simp [same])]
  rfl

theorem validGeneration_iff {value : Nat} :
    validGeneration value = true ↔ 1 ≤ value ∧ value ≤ 2 ^ 53 - 1 := by
  unfold validGeneration jsonSafeMax
  simp only [Bool.and_eq_true, decide_eq_true_eq]
  norm_num

/-- An acknowledgement that fits a binding and a handshake. -/
structure TargetBootstrapAck.Fits (ack : TargetBootstrapAck) (binding : BootstrapBinding) (hash : FixedBytes 32) :
    Prop where
  targetReferenceDigest : ack.targetReferenceDigest = binding.targetReferenceDigest
  leaseId : ack.leaseId = binding.leaseId
  nkHandshakeHash : ack.nkHandshakeHash = hash
  processGeneration : 1 ≤ ack.processGeneration ∧ ack.processGeneration ≤ 2 ^ 53 - 1
  listenerEpoch : ack.listenerEpoch = 1

/-- What `parse_bootstrap_ack` accepts, `bootstrap_ack_payload` writes for this binding … -/
theorem parseBootstrapAck_ok {b : Bytes} {binding : BootstrapBinding} {hash : FixedBytes 32}
    {ack : TargetBootstrapAck} (h : parseBootstrapAck b binding hash = .ok ack) :
    b = bootstrapAckPayload ack ∧ ack.Fits binding hash := by
  unfold parseBootstrapAck at h
  obtain ⟨_, -, h⟩ := Checks.bind_ok.mp h
  obtain ⟨_, -, h⟩ := Checks.bind_ok.mp h
  obtain ⟨_, -, h⟩ := Checks.bind_ok.mp h
  obtain ⟨_, -, h⟩ := Checks.bind_ok.mp h
  obtain ⟨⟨digest, _⟩, -, h⟩ := Checks.bind_ok.mp h
  obtain ⟨_, -, h⟩ := Checks.bind_ok.mp h
  obtain ⟨⟨lease, _⟩, -, h⟩ := Checks.bind_ok.mp h
  obtain ⟨_, -, h⟩ := Checks.bind_ok.mp h
  obtain ⟨⟨generation, _⟩, -, h⟩ := Checks.bind_ok.mp h
  obtain ⟨_, -, h⟩ := Checks.bind_ok.mp h
  obtain ⟨⟨epoch, _⟩, -, h⟩ := Checks.bind_ok.mp h
  obtain ⟨_, -, h⟩ := Checks.bind_ok.mp h
  obtain ⟨⟨received, _⟩, -, h⟩ := Checks.bind_ok.mp h
  dsimp only at h
  split at h
  · cases h
  split at h
  · cases h
  rename_i bound
  split at h
  · cases h
  · rename_i canonical
    cases h
    push Not at bound
    obtain ⟨digestSame, leaseSame, -, valid, epochSame⟩ := bound
    exact ⟨(not_not.mp canonical).symm, digestSame, leaseSame, rfl, validGeneration_iff.mp (by simpa using valid),
      epochSame⟩

/-- … and the other way round. -/
theorem parseBootstrapAck_of {b : Bytes} {binding : BootstrapBinding} {hash : FixedBytes 32}
    {ack : TargetBootstrapAck} (same : b = bootstrapAckPayload ack) (fits : ack.Fits binding hash) :
    parseBootstrapAck b binding hash = .ok ack := by
  obtain ⟨digest, lease, rfl, generation, epoch⟩ := fits
  have shape : b = Cbor.map 6 ++ (Cbor.uint 0 ++ (Cbor.uint 1 ++ (Cbor.uint 1
      ++ (Cbor.bytes ack.targetReferenceDigest.bytes ++ (Cbor.uint 2 ++ (Cbor.bytes ack.leaseId.bytes
      ++ (Cbor.uint 3 ++ (Cbor.uint ack.processGeneration ++ (Cbor.uint 4 ++ (Cbor.uint ack.listenerEpoch
      ++ (Cbor.uint 5 ++ (Cbor.bytes ack.nkHandshakeHash.bytes ++ [])))))))))))) := by
    simp [same, bootstrapAckPayload]
  unfold parseBootstrapAck
  refine Checks.bind_ok.mpr ⟨_, (congrArg _ shape).trans (expectMap_map (by decide) _), ?_⟩
  refine Checks.bind_ok.mpr ⟨_, expectU8_uint (by decide) _, ?_⟩
  refine Checks.bind_ok.mpr ⟨_, expectU8_uint (by decide) _, ?_⟩
  refine Checks.bind_ok.mpr ⟨_, expectU8_uint (by decide) _, ?_⟩
  refine Checks.bind_ok.mpr ⟨_, readFixed_bytes (by decide) _ _, ?_⟩
  refine Checks.bind_ok.mpr ⟨_, expectU8_uint (by decide) _, ?_⟩
  refine Checks.bind_ok.mpr ⟨_, readFixed_bytes (by decide) _ _, ?_⟩
  refine Checks.bind_ok.mpr ⟨_, expectU8_uint (by decide) _, ?_⟩
  refine Checks.bind_ok.mpr ⟨_, decoded_u64 (by omega) _, ?_⟩
  refine Checks.bind_ok.mpr ⟨_, expectU8_uint (by decide) _, ?_⟩
  refine Checks.bind_ok.mpr ⟨_, decoded_u64 (by omega) _, ?_⟩
  refine Checks.bind_ok.mpr ⟨_, expectU8_uint (by decide) _, ?_⟩
  refine Checks.bind_ok.mpr ⟨_, readFixed_bytes (by decide) _ _, ?_⟩
  have valid := validGeneration_iff.mpr generation
  dsimp only
  rw [if_neg (by simp), if_neg (by simp [digest, lease, valid, epoch]), if_neg (by simp [same])]
  rfl

/-- What `parse_finished` accepts, `finished` writes for one of the two roles … -/
theorem parseFinished_ok {b : Bytes} {binding : SessionBinding} {hash : FixedBytes 32} {role : Nat}
    (h : parseFinished b binding hash = .ok role) : b = finished binding role hash ∧ (role = 0 ∨ role = 1) := by
  unfold parseFinished at h
  obtain ⟨_, -, h⟩ := Checks.bind_ok.mp h
  obtain ⟨_, -, h⟩ := Checks.bind_ok.mp h
  obtain ⟨_, -, h⟩ := Checks.bind_ok.mp h
  obtain ⟨_, -, h⟩ := Checks.bind_ok.mp h
  obtain ⟨⟨read, _⟩, -, h⟩ := Checks.bind_ok.mp h
  obtain ⟨_, -, h⟩ := Checks.bind_ok.mp h
  obtain ⟨⟨lease, _⟩, -, h⟩ := Checks.bind_ok.mp h
  dsimp only at h
  split at h
  · cases h
  obtain ⟨_, -, h⟩ := Checks.bind_ok.mp h
  obtain ⟨⟨ofProcess, _⟩, -, h⟩ := Checks.bind_ok.mp h
  dsimp only at h
  split at h
  · cases h
  obtain ⟨_, -, h⟩ := Checks.bind_ok.mp h
  obtain ⟨⟨ofListener, _⟩, -, h⟩ := Checks.bind_ok.mp h
  dsimp only at h
  split at h
  · cases h
  obtain ⟨_, -, h⟩ := Checks.bind_ok.mp h
  obtain ⟨⟨received, _⟩, -, h⟩ := Checks.bind_ok.mp h
  dsimp only at h
  split at h
  · cases h
  split at h
  · cases h
  rename_i canonical
  push Not at canonical
  split at h
  · rename_i known
    cases h
    exact ⟨canonical.2.symm, known⟩
  · cases h

/-- … and the other way round. -/
theorem parseFinished_of {b : Bytes} {binding : SessionBinding} {hash : FixedBytes 32} {role : Nat}
    (generation : binding.processGeneration < 2 ^ 64) (epoch : binding.listenerEpoch < 2 ^ 64)
    (same : b = finished binding role hash) (known : role = 0 ∨ role = 1) :
    parseFinished b binding hash = .ok role := by
  have shape : b = Cbor.map 6 ++ (Cbor.uint 0 ++ (Cbor.uint 1 ++ (Cbor.uint 1 ++ (Cbor.uint role ++ (Cbor.uint 2
      ++ (Cbor.bytes binding.leaseId.bytes ++ (Cbor.uint 3 ++ (Cbor.uint binding.processGeneration
      ++ (Cbor.uint 4 ++ (Cbor.uint binding.listenerEpoch ++ (Cbor.uint 5
      ++ (Cbor.bytes hash.bytes ++ [])))))))))))) := by
    simp [same, finished]
  unfold parseFinished
  refine Checks.bind_ok.mpr ⟨_, (congrArg _ shape).trans (expectMap_map (by decide) _), ?_⟩
  refine Checks.bind_ok.mpr ⟨_, expectU8_uint (by decide) _, ?_⟩
  refine Checks.bind_ok.mpr ⟨_, expectU8_uint (by decide) _, ?_⟩
  refine Checks.bind_ok.mpr ⟨_, expectU8_uint (by decide) _, ?_⟩
  refine Checks.bind_ok.mpr ⟨_, decoded_u8 (by omega) _, ?_⟩
  refine Checks.bind_ok.mpr ⟨_, expectU8_uint (by decide) _, ?_⟩
  refine Checks.bind_ok.mpr ⟨_, readFixed_bytes (by decide) _ _, ?_⟩
  dsimp only
  rw [if_neg (by simp)]
  refine Checks.bind_ok.mpr ⟨_, expectU8_uint (by decide) _, ?_⟩
  refine Checks.bind_ok.mpr ⟨_, decoded_u64 generation _, ?_⟩
  dsimp only
  rw [if_neg (by simp)]
  refine Checks.bind_ok.mpr ⟨_, expectU8_uint (by decide) _, ?_⟩
  refine Checks.bind_ok.mpr ⟨_, decoded_u64 epoch _, ?_⟩
  dsimp only
  rw [if_neg (by simp)]
  refine Checks.bind_ok.mpr ⟨_, expectU8_uint (by decide) _, ?_⟩
  refine Checks.bind_ok.mpr ⟨_, readFixed_bytes (by decide) _ _, ?_⟩
  dsimp only
  rw [if_neg (by simp), if_neg (by simp [same]), if_pos known]
  rfl

/-- What `parse_heartbeat` accepts, `heartbeat_payload` writes for this role … -/
theorem parseHeartbeat_ok {b : Bytes} {binding : LeaseBinding} {role counter : Nat}
    (h : parseHeartbeat b role binding = .ok counter) :
    heartbeatPayload role binding counter = .ok b ∧ 1 ≤ counter ∧ counter < 2 ^ 64 := by
  unfold parseHeartbeat at h
  obtain ⟨_, -, h⟩ := Checks.bind_ok.mp h
  obtain ⟨_, -, h⟩ := Checks.bind_ok.mp h
  obtain ⟨_, -, h⟩ := Checks.bind_ok.mp h
  obtain ⟨_, -, h⟩ := Checks.bind_ok.mp h
  obtain ⟨⟨leaseId, _⟩, -, h⟩ := Checks.bind_ok.mp h
  obtain ⟨_, -, h⟩ := Checks.bind_ok.mp h
  obtain ⟨⟨ofProcess, _⟩, -, h⟩ := Checks.bind_ok.mp h
  obtain ⟨_, -, h⟩ := Checks.bind_ok.mp h
  obtain ⟨⟨ofListener, _⟩, -, h⟩ := Checks.bind_ok.mp h
  obtain ⟨_, -, h⟩ := Checks.bind_ok.mp h
  obtain ⟨⟨value, rest⟩, read, h⟩ := Checks.bind_ok.mp h
  dsimp only at h
  split at h
  · cases h
  split at h
  · cases h
  rename_i positive
  obtain ⟨canonical, payload, h⟩ := Checks.bind_ok.mp h
  split at h
  · cases h
  · rename_i same
    cases h
    rw [← not_not.mp same]
    exact ⟨payload, by omega, readU64_lt read⟩

/-- … and the other way round. -/
theorem parseHeartbeat_of {b : Bytes} {binding : LeaseBinding} {role counter : Nat}
    (generation : binding.processGeneration < 2 ^ 64) (epoch : binding.listenerEpoch < 2 ^ 64)
    (payload : heartbeatPayload role binding counter = .ok b) (positive : 1 ≤ counter) (small : counter < 2 ^ 64) :
    parseHeartbeat b role binding = .ok counter := by
  have written := payload
  unfold heartbeatPayload at written
  split at written
  · cases written
  rename_i known
  push Not at known
  have shape : b = Cbor.map 5 ++ (Cbor.uint 0 ++ (Cbor.uint role ++ (Cbor.uint 1 ++ (Cbor.bytes binding.leaseId.bytes
      ++ (Cbor.uint 2 ++ (Cbor.uint binding.processGeneration ++ (Cbor.uint 3
      ++ (Cbor.uint binding.listenerEpoch ++ (Cbor.uint 4 ++ (Cbor.uint counter ++ [])))))))))) := by
    rw [← Except.ok.inj written]
    simp
  unfold parseHeartbeat
  refine Checks.bind_ok.mpr ⟨_, (congrArg _ shape).trans (expectMap_map (by decide) _), ?_⟩
  refine Checks.bind_ok.mpr ⟨_, expectU8_uint (by decide) _, ?_⟩
  refine Checks.bind_ok.mpr ⟨_, expectU8_uint (by omega) _, ?_⟩
  refine Checks.bind_ok.mpr ⟨_, expectU8_uint (by decide) _, ?_⟩
  refine Checks.bind_ok.mpr ⟨_, readFixed_bytes (by decide) _ _, ?_⟩
  refine Checks.bind_ok.mpr ⟨_, expectU8_uint (by decide) _, ?_⟩
  refine Checks.bind_ok.mpr ⟨_, decoded_u64 generation _, ?_⟩
  refine Checks.bind_ok.mpr ⟨_, expectU8_uint (by decide) _, ?_⟩
  refine Checks.bind_ok.mpr ⟨_, decoded_u64 epoch _, ?_⟩
  refine Checks.bind_ok.mpr ⟨_, expectU8_uint (by decide) _, ?_⟩
  refine Checks.bind_ok.mpr ⟨_, decoded_u64 small _, ?_⟩
  dsimp only
  rw [if_neg (by simp), if_neg (by simp; omega)]
  refine Checks.bind_ok.mpr ⟨_, payload, ?_⟩
  rw [if_neg (by simp)]
  rfl

/-- The five parsers accept the canonical encodings and nothing else, so each
    value has one encoding. -/
theorem parsers_accept_canonical (b : Bytes) :
    (∀ reason handoff, parseClose b = .ok (reason, handoff) ↔ b = closePayload reason handoff) ∧
    (∀ binding : BootstrapBinding, binding.expiryMs < 2 ^ 64 →
      ∀ secret, parseM2 binding b = .ok secret ↔ b = binding.expectedM2 secret) ∧
    (∀ binding hash ack, parseBootstrapAck b binding hash = .ok ack ↔
      b = bootstrapAckPayload ack ∧ ack.Fits binding hash) ∧
    (∀ binding : SessionBinding, binding.processGeneration < 2 ^ 64 → binding.listenerEpoch < 2 ^ 64 →
      ∀ hash role, parseFinished b binding hash = .ok role ↔
        b = finished binding role hash ∧ (role = 0 ∨ role = 1)) ∧
    (∀ binding : LeaseBinding, binding.processGeneration < 2 ^ 64 → binding.listenerEpoch < 2 ^ 64 →
      ∀ role counter, parseHeartbeat b role binding = .ok counter ↔
        heartbeatPayload role binding counter = .ok b ∧ 1 ≤ counter ∧ counter < 2 ^ 64) ∧
    ∀ other, b ≠ other →
      (∀ close, parseClose b = .ok close → parseClose other ≠ .ok close) ∧
      (∀ binding secret, parseM2 binding b = .ok secret → parseM2 binding other ≠ .ok secret) ∧
      (∀ binding hash ack, parseBootstrapAck b binding hash = .ok ack →
        parseBootstrapAck other binding hash ≠ .ok ack) ∧
      (∀ binding hash role, parseFinished b binding hash = .ok role →
        parseFinished other binding hash ≠ .ok role) ∧
      ∀ role binding counter, parseHeartbeat b role binding = .ok counter →
        parseHeartbeat other role binding ≠ .ok counter := by
  refine ⟨?_, ?_, ?_, ?_, ?_, ?_⟩
  · exact fun reason handoff => ⟨parseClose_ok, parseClose_of⟩
  · exact fun binding expiry secret => ⟨parseM2_ok, parseM2_of expiry⟩
  · exact fun binding hash ack => ⟨parseBootstrapAck_ok, fun ⟨same, fits⟩ => parseBootstrapAck_of same fits⟩
  · exact fun binding generation epoch hash role =>
      ⟨parseFinished_ok, fun ⟨same, known⟩ => parseFinished_of generation epoch same known⟩
  · exact fun binding generation epoch role counter => ⟨parseHeartbeat_ok, fun ⟨payload, positive, small⟩ =>
      parseHeartbeat_of generation epoch payload positive small⟩
  · intro other different
    refine ⟨?_, ?_, ?_, ?_, ?_⟩
    · exact fun close one two => different ((parseClose_ok one).trans (parseClose_ok two).symm)
    · exact fun binding secret one two => different ((parseM2_ok one).trans (parseM2_ok two).symm)
    · exact fun binding hash ack one two =>
        different ((parseBootstrapAck_ok one).1.trans (parseBootstrapAck_ok two).1.symm)
    · exact fun binding hash role one two => different ((parseFinished_ok one).1.trans (parseFinished_ok two).1.symm)
    · intro role binding counter one two
      have same := (parseHeartbeat_ok one).1.symm.trans (parseHeartbeat_ok two).1
      exact different (Except.ok.inj same)

/-- A Close and a heartbeat that are accepted. -/
theorem close_and_heartbeat_accepted :
    parseClose (closePayload .peerClosed .notHandedOff) = .ok (.peerClosed, .notHandedOff) ∧
      (1 < 2 ^ 64 ∧ ∃ b, heartbeatPayload 1 ⟨.replicate 16 7, 1, 1⟩ 5 = .ok b ∧
        parseHeartbeat b 1 ⟨.replicate 16 7, 1, 1⟩ = .ok 5) := by
  refine ⟨((parsers_accept_canonical _).1 _ _).mpr rfl, by decide, _, rfl, ?_⟩
  obtain ⟨-, -, -, -, heartbeat, -⟩ := parsers_accept_canonical
    (Cbor.map 5 ++ Cbor.uint 0 ++ Cbor.uint 1 ++ Cbor.uint 1 ++ Cbor.bytes (FixedBytes.replicate 16 7).bytes
      ++ Cbor.uint 2 ++ Cbor.uint 1 ++ Cbor.uint 3 ++ Cbor.uint 1 ++ Cbor.uint 4 ++ Cbor.uint 5)
  exact (heartbeat ⟨.replicate 16 7, 1, 1⟩ (by decide) (by decide) 1 5).mpr ⟨rfl, by decide, by decide⟩

end AppPilotKit.Transport
