import AppPilotKit.Transport.Noise

/-! # A Noise instance that tags with the nonce

The smallest instance with the shape of the real library: a transport counts
the messages of each direction, a message carries its nonce as a sixteen-byte
tag, and only the next nonce is accepted. It serves as the concrete instance of
results that assume a Noise library.
-/

namespace AppPilotKit.Transport

open Wire

structure NonceTransport where
  sendNonce : Nat
  receiveNonce : Nat
  deriving Repr, DecidableEq

/-- What a handshake message adds to its payload: an ephemeral key and a tag. -/
def handshakeOverhead : Nat := 48

def nonceNoise : Noise Unit Unit NonceTransport where
  nkInitiator _ _ _ := some ()
  pskInitiator _ _ _ := some ()
  pskResponder _ _ _ := some ()
  writeHandshake _ payload := some (payload ++ List.replicate handshakeOverhead 0, ())
  readHandshake _ message :=
    if message.length < handshakeOverhead then none
    else some (message.take (message.length - handshakeOverhead), ())
  handshakeHash _ := FixedBytes.replicate 32 0
  intoTransport _ := some ⟨0, 0⟩
  writeMessage t plaintext := some (plaintext ++ be 16 t.sendNonce, { t with sendNonce := t.sendNonce + 1 })
  readMessage t message :=
    if message.length < Noise.tagLen ∨ message.drop (message.length - Noise.tagLen) ≠ be 16 t.receiveNonce then none
    else some (message.take (message.length - Noise.tagLen), { t with receiveNonce := t.receiveNonce + 1 })

theorem nonceNoise_seals : nonceNoise.SealsRecords := by
  intro state plaintext _
  exact ⟨_, _, rfl, by simp [Noise.tagLen]⟩

/-- The frame that carries a plaintext under a nonce. -/
def nonceFrame (nonce : Nat) (plaintext : Bytes) : Bytes :=
  be 2 (plaintext.length + Noise.tagLen) ++ (plaintext ++ be 16 nonce)

section

variable {plaintext : Bytes}

theorem encodeOuter_tagged (small : plaintext.length ≤ recordHeaderLen + recordDataMax) (nonce : Nat) :
    encodeOuter (plaintext ++ be 16 nonce) = .ok (nonceFrame nonce plaintext) := by
  have size : (plaintext ++ be 16 nonce).length = plaintext.length + Noise.tagLen := by simp [Noise.tagLen]
  have nonempty : plaintext ++ be 16 nonce ≠ [] := by
    intro empty
    rw [empty] at size
    simp [Noise.tagLen] at size
  have fits : (plaintext ++ be 16 nonce).length ≤ outerMax := by
    rw [size]
    simp only [recordHeaderLen, recordDataMax, Noise.tagLen, outerMax] at *
    omega
  rw [encodeOuter_of nonempty fits, size]
  rfl

theorem encrypt_nonce (small : plaintext.length ≤ recordHeaderLen + recordDataMax) (t : NonceTransport) :
    nonceNoise.encryptTransport t plaintext =
      .ok (nonceFrame t.sendNonce plaintext, { t with sendNonce := t.sendNonce + 1 }) := by
  simp only [Noise.encryptTransport, nonceNoise, core, encodeOuter_tagged small, Except.map]

theorem decrypt_nonce (small : plaintext.length ≤ recordHeaderLen + recordDataMax) (t : NonceTransport) :
    nonceNoise.decryptTransport t (nonceFrame t.receiveNonce plaintext) =
      .ok (plaintext, { t with receiveNonce := t.receiveNonce + 1 }) := by
  have opened := oneOuter_encodeOuter (encodeOuter_tagged small t.receiveNonce)
  have size : (plaintext ++ be 16 t.receiveNonce).length = plaintext.length + Noise.tagLen := by
    simp [Noise.tagLen]
  simp only [Noise.decryptTransport, opened, nonceNoise, size]
  simp [core]

end

end AppPilotKit.Transport
