import Mathlib

/-! # Byte strings and big-endian integers

Byte strings are lists of `UInt8`. The fixed-width integers of wire headers are
written most significant byte first; `beNat` reads back what `be` writes.
-/

namespace Wire

abbrev Bytes := List UInt8

/-- A byte array of a fixed length, as `[u8; n]`. -/
structure FixedBytes (n : Nat) where
  bytes : Bytes
  size : bytes.length = n
  deriving DecidableEq

namespace FixedBytes

/-- `try_into` on a slice: the length decides. -/
def ofBytes? (n : Nat) (b : Bytes) : Option (FixedBytes n) :=
  if h : b.length = n then some ⟨b, h⟩ else none

def replicate (n : Nat) (v : UInt8) : FixedBytes n :=
  ⟨List.replicate n v, List.length_replicate⟩

@[simp] theorem ofBytes?_bytes {n} (b : FixedBytes n) : ofBytes? n b.bytes = some b := by
  simp [ofBytes?, b.size]

theorem bytes_of_ofBytes? {n b v} (h : ofBytes? n b = some v) : v.bytes = b := by
  unfold ofBytes? at h
  split at h
  · cases h; rfl
  · cases h

end FixedBytes

/-- The `width` low bytes of `n`, most significant first. -/
def be : (width : Nat) → Nat → Bytes
  | 0, _ => []
  | width + 1, n => be width (n / 256) ++ [UInt8.ofNat (n % 256)]

/-- The number a big-endian byte string denotes. -/
def beNat (b : Bytes) : Nat :=
  b.foldl (fun acc byte => acc * 256 + byte.toNat) 0

@[simp] theorem be_length (width n : Nat) : (be width n).length = width := by
  induction width generalizing n with
  | zero => rfl
  | succ width ih => simp [be, ih]

theorem beNat_append_byte (b : Bytes) (v : UInt8) : beNat (b ++ [v]) = beNat b * 256 + v.toNat := by
  simp [beNat, List.foldl_append]

theorem beNat_be (width n : Nat) (h : n < 256 ^ width) : beNat (be width n) = n := by
  induction width generalizing n with
  | zero =>
      have : n = 0 := by simpa using h
      subst this
      rfl
  | succ width ih =>
      have quotient : n / 256 < 256 ^ width := by
        rw [Nat.div_lt_iff_lt_mul (by decide)]
        simpa [pow_succ] using h
      rw [be, beNat_append_byte, ih _ quotient]
      have low : (UInt8.ofNat (n % 256)).toNat = n % 256 := by simp
      rw [low]
      omega

theorem be_beNat (b : Bytes) : be b.length (beNat b) = b := by
  induction b using List.reverseRecOn with
  | nil => rfl
  | append_singleton b v ih =>
      have small : v.toNat < 256 := v.toNat_lt
      rw [beNat_append_byte, List.length_append, List.length_singleton, be]
      have quotient : (beNat b * 256 + v.toNat) / 256 = beNat b := by omega
      have remainder : (beNat b * 256 + v.toNat) % 256 = v.toNat := by omega
      rw [quotient, remainder, ih]
      simp

theorem beNat_lt (b : Bytes) : beNat b < 256 ^ b.length := by
  induction b using List.reverseRecOn with
  | nil => simp [beNat]
  | append_singleton b v ih =>
      have small : v.toNat < 256 := v.toNat_lt
      rw [beNat_append_byte, List.length_append, List.length_singleton, pow_succ]
      omega

end Wire
