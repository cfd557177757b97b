import AppPilotKit.Transport.Record

/-! # The Noise library behind the core

Handshake and transport states come from an external Noise library. They are a
parameter: `R` is the randomness a state is built from, `H` the handshake
states and `T` the transport states. A failed call leaves nothing behind, since
every caller drops the state it failed on.
-/

namespace AppPilotKit.Transport

open Wire

structure Noise (R H T : Type) where
  /-- `Noise_NK` initiator from the remote static key and the prologue. -/
  nkInitiator : R → Bytes → Bytes → Option H
  /-- `Noise_NNpsk0` initiator from the pre-shared key and the prologue. -/
  pskInitiator : R → Bytes → Bytes → Option H
  /-- `Noise_NNpsk0` responder from the pre-shared key and the prologue. -/
  pskResponder : R → Bytes → Bytes → Option H
  writeHandshake : H → Bytes → Option (Bytes × H)
  readHandshake : H → Bytes → Option (Bytes × H)
  handshakeHash : H → FixedBytes 32
  intoTransport : H → Option T
  writeMessage : T → Bytes → Option (Bytes × T)
  readMessage : T → Bytes → Option (Bytes × T)

/-- `checked_add` on `u64`. -/
def checkedAdd (a b : Nat) : Option Nat := if a + b < 2 ^ 64 then some (a + b) else none

theorem checkedAdd_of {a b : Nat} (h : a + b < 2 ^ 64) : checkedAdd a b = some (a + b) := if_pos h

theorem checkedAdd_eq {a b c : Nat} (h : checkedAdd a b = some c) : c = a + b := by
  unfold checkedAdd at h
  split at h <;> simp_all

variable {R H T : Type}

/-- `snow` results become `AuthenticationFailed`. -/
def core {α : Type} : Option α → Except Error α
  | some value => .ok value
  | none => .error (.new .authenticationFailed)

namespace Noise

def writeHandshakeFrame (noise : Noise R H T) (state : H) (payload : Bytes) : Except Error (Bytes × H) :=
  match core (noise.writeHandshake state payload) with
  | .error error => .error error
  | .ok (message, state) => (encodeOuter message).map (·, state)

def readHandshakeFrame (noise : Noise R H T) (state : H) (outer : Bytes) : Except Error (Bytes × H) :=
  match oneOuter outer with
  | .error error => .error error
  | .ok payload => core (noise.readHandshake state payload)

def encryptTransport (noise : Noise R H T) (state : T) (plaintext : Bytes) : Except Error (Bytes × T) :=
  match core (noise.writeMessage state plaintext) with
  | .error error => .error error
  | .ok (ciphertext, state) => (encodeOuter ciphertext).map (·, state)

def decryptTransport (noise : Noise R H T) (state : T) (outer : Bytes) : Except Error (Bytes × T) :=
  match oneOuter outer with
  | .error error => .error error
  | .ok ciphertext => core (noise.readMessage state ciphertext)

/-- The bytes an AEAD tag adds to a plaintext. -/
def tagLen : Nat := 16

/-- Encryption that never fails: any plaintext a record can have is sealed, and
    the ciphertext is the plaintext length and a tag long. -/
def SealsRecords (noise : Noise R H T) : Prop :=
  ∀ state plaintext, plaintext.length ≤ recordHeaderLen + recordDataMax →
    ∃ ciphertext state', noise.writeMessage state plaintext = some (ciphertext, state') ∧
      ciphertext.length = plaintext.length + tagLen

/-- The frame a sealed plaintext travels in is its length, two bytes and a tag. -/
theorem encryptTransport_of {noise : Noise R H T} (seals : noise.SealsRecords) (state : T)
    {plaintext : Bytes} (small : plaintext.length ≤ recordHeaderLen + recordDataMax) :
    ∃ frame state', noise.encryptTransport state plaintext = .ok (frame, state') ∧
      frame.length = plaintext.length + tagLen + 2 := by
  obtain ⟨ciphertext, state', sealed, size⟩ := seals state plaintext small
  have nonempty : ciphertext ≠ [] := by
    intro empty
    simp [empty, tagLen] at size
  have fits : ciphertext.length ≤ outerMax := by
    simp only [recordHeaderLen, recordDataMax, tagLen, outerMax] at *
    omega
  refine ⟨be 2 ciphertext.length ++ ciphertext, state', ?_, ?_⟩
  · simp [encryptTransport, core, sealed, encodeOuter_of nonempty fits, Except.map]
  · simp [size]
    omega

end Noise

end AppPilotKit.Transport
