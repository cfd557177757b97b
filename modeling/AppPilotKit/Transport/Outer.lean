import AppPilotKit.Transport.Basic

/-! # The outer envelope

Every frame on a stream is a two-byte big-endian length followed by that many
payload bytes. `OuterFrameDecoder` is the incremental parser both sides use.
-/

namespace AppPilotKit.Transport

open Wire

def outerMax : Nat := 65535

def encodeOuter (payload : Bytes) : Except Error Bytes :=
  if payload.isEmpty then .error (.new .malformed)
  else if payload.length > outerMax then .error (.new .oversize)
  else .ok (be 2 payload.length ++ payload)

/-- The payload of a byte string that is exactly one frame. -/
def oneOuter : Bytes → Except Error Bytes
  | high :: low :: payload =>
      let n := beNat [high, low]
      if n = 0 ∨ payload.length ≠ n then .error (.new .malformed) else .ok payload
  | _ => .error (.new .malformed)

/-- Incremental parser for the outer envelope. -/
structure OuterFrameDecoder where
  pending : Bytes := []
  expected : Option Nat := none
  failed : Bool := false
  deriving Repr, DecidableEq

namespace OuterFrameDecoder

def new : OuterFrameDecoder := {}

def clear (d : OuterFrameDecoder) : OuterFrameDecoder := { d with pending := [], expected := none }

/-- The loop of `push` once the input is in `pending`. The length header and
    each frame body shorten `pending`, so as many rounds as there are pending
    bytes, and one to stop, are enough. -/
def drain : (fuel : Nat) → OuterFrameDecoder → List Bytes → Except Error (List Bytes) × OuterFrameDecoder
  | 0, d, frames => (.ok frames, d)
  | fuel + 1, d, frames =>
      match d.expected with
      | none =>
          match d.pending with
          | high :: low :: rest =>
              let n := beNat [high, low]
              if n = 0 then
                (.error (.new .malformed), { d with pending := [], expected := none, failed := true })
              else drain fuel { d with pending := rest, expected := some n } frames
          | _ => (.ok frames, d)
      | some n =>
          if d.pending.length < n then (.ok frames, d)
          else
            match encodeOuter (d.pending.take n) with
            | .error error => (.error error, { d with pending := d.pending.drop n })
            | .ok frame =>
                drain fuel { d with pending := d.pending.drop n, expected := none } (frames ++ [frame])

def push (d : OuterFrameDecoder) (input : Bytes) : Except Error (List Bytes) × OuterFrameDecoder :=
  if d.failed then (.error (.new .sequenceViolation), d)
  else
    let d := { d with pending := d.pending ++ input }
    drain (2 * d.pending.length + 2) d []

def isIncomplete (d : OuterFrameDecoder) : Bool := d.expected.isSome || !d.pending.isEmpty

def timeout (d : OuterFrameDecoder) : Except Error Unit × OuterFrameDecoder :=
  if d.failed then (.error (.new .sequenceViolation), d)
  else if d.isIncomplete then (.error (.new .timeout), { d.clear with failed := true })
  else (.ok (), d)

def eof (d : OuterFrameDecoder) : Except Error Unit × OuterFrameDecoder :=
  if d.failed then (.error (.new .sequenceViolation), d)
  else if d.isIncomplete then (.error (.new .malformed), { d.clear with failed := true })
  else (.ok (), d)

end OuterFrameDecoder

theorem encodeOuter_ok {payload frame} (h : encodeOuter payload = .ok frame) :
    payload ≠ [] ∧ payload.length ≤ outerMax ∧ frame = be 2 payload.length ++ payload := by
  unfold encodeOuter at h
  split at h
  · cases h
  · rename_i nonempty
    split at h
    · cases h
    · rename_i small
      cases h
      exact ⟨by simpa using nonempty, by omega, rfl⟩

theorem encodeOuter_of {payload : Bytes} (nonempty : payload ≠ []) (small : payload.length ≤ outerMax) :
    encodeOuter payload = .ok (be 2 payload.length ++ payload) := by
  unfold encodeOuter
  rw [if_neg (by simpa using nonempty), if_neg (by omega)]

/-- A frame is its own envelope: reading it back gives the payload. -/
theorem oneOuter_encodeOuter {payload frame} (h : encodeOuter payload = .ok frame) :
    oneOuter frame = .ok payload := by
  obtain ⟨nonempty, small, rfl⟩ := encodeOuter_ok h
  have header : ∃ high low, be 2 payload.length = [high, low] := by
    simp [be]
  obtain ⟨high, low, shape⟩ := header
  have value : beNat [high, low] = payload.length := by
    rw [← shape]
    exact beNat_be 2 _ (by unfold outerMax at small; omega)
  have positive : payload.length ≠ 0 := by simpa using nonempty
  rw [shape]
  simp only [List.cons_append, List.nil_append, oneOuter, value]
  rw [if_neg (by simp [positive])]

/-- A decoder at rest takes one whole frame and is at rest again. -/
theorem push_frame {payload frame : Bytes} (h : encodeOuter payload = .ok frame) :
    OuterFrameDecoder.new.push frame = (.ok [frame], .new) := by
  obtain ⟨nonempty, small, shape⟩ := encodeOuter_ok h
  obtain ⟨high, low, header⟩ : ∃ high low, be 2 payload.length = [high, low] := by simp [be]
  have value : beNat [high, low] = payload.length := by
    rw [← header]
    exact beNat_be 2 _ (by unfold outerMax at small; omega)
  have positive : payload.length ≠ 0 := by simpa using nonempty
  have listed : frame = high :: low :: payload := by
    rw [shape, header]
    rfl
  have rounds : 2 * frame.length + 2 = 2 * payload.length + 3 + 1 + 1 + 1 := by
    rw [listed]
    simp only [List.length_cons]
    omega
  unfold OuterFrameDecoder.push
  simp only [OuterFrameDecoder.new, Bool.false_eq_true, if_false, List.nil_append, rounds]
  simp only [OuterFrameDecoder.drain, listed, value, positive, if_false, lt_self_iff_false, List.take_length,
    List.drop_length, h, List.nil_append]

end AppPilotKit.Transport
