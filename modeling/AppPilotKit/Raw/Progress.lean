import AppPilotKit.Raw.FrameDeadlines
import AppPilotKit.Transport.Framed

/-! # Two accounts of one frame

The decoder buffers a stream and drains whole frames; the account of progress counts one byte
after another. Between two chunks they have the same bytes of the same frame in hand.
-/

namespace AppPilotKit.Raw

open Wire Transport

/-- The account has the frame of the decoder: its length and the bytes of its payload so far,
    or as much of the header. -/
structure Agrees (p : OuterProgress) (d : OuterFrameDecoder) : Prop where
  expected : p.expected = d.expected
  header : p.header = if d.expected.isSome then [] else d.pending
  payloadLen : p.payloadLen = if d.expected.isSome then d.pending.length else 0

section
variable {p : OuterProgress} {d d' : OuterFrameDecoder}

theorem Agrees.isIncomplete (agrees : Agrees p d) : p.isIncomplete = d.isIncomplete := by
  unfold OuterProgress.isIncomplete OuterFrameDecoder.isIncomplete
  rw [agrees.header, agrees.expected]
  cases d.expected with
  | none => simp
  | some n => simp

/-- A decoder that waits for a header has less than a header. -/
theorem drain_waits {fuel : Nat} {frames frames' : List Bytes} (positive : ∀ n, d.expected = some n → 0 < n)
    (enough : d.pending.length < fuel) (drained : OuterFrameDecoder.drain fuel d frames = (.ok frames', d')) :
    (d'.expected = none → d'.pending.length < 2) ∧ ∀ n, d'.expected = some n → 0 < n := by
  induction fuel generalizing d frames with
  | zero => exact absurd enough (Nat.not_lt_zero _)
  | succ fuel ih =>
      unfold OuterFrameDecoder.drain at drained
      cases expected : d.expected with
      | none =>
          rw [expected] at drained
          dsimp only at drained
          split at drained
          · rename_i high low rest pending
            rw [pending] at enough
            split at drained
            · cases drained
            · rename_i nonzero
              refine ih (fun n same => ?_) ?_ drained
              · cases same
                exact Nat.pos_of_ne_zero nonzero
              · simp only [List.length_cons] at enough
                dsimp only
                omega
          · rename_i few
            cases drained
            refine ⟨fun _ => ?_, positive⟩
            by_contra long
            obtain ⟨high, low, rest, pending⟩ : ∃ high low rest, d'.pending = high :: low :: rest := by
              match d'.pending, long with
              | high :: low :: rest, _ => exact ⟨high, low, rest, rfl⟩
              | [_], long => simp at long
              | [], long => simp at long
            exact few high low rest pending
      | some n =>
          have some := positive n expected
          rw [expected] at drained
          dsimp only at drained
          split at drained
          · cases drained
            exact ⟨fun none => absurd (none.symm.trans expected) nofun, positive⟩
          · split at drained
            · cases drained
            · refine ih (fun _ same => ?_) ?_ drained
              · cases same
              · rw [List.length_drop]
                omega

theorem push_waits {chunk : Bytes} {frames : List Bytes} (positive : ∀ n, d.expected = some n → 0 < n)
    (pushed : d.push chunk = (.ok frames, d')) :
    (d'.expected = none → d'.pending.length < 2) ∧ ∀ n, d'.expected = some n → 0 < n := by
  unfold OuterFrameDecoder.push at pushed
  split at pushed
  · cases pushed
  · have same : ∀ n, { d with pending := d.pending ++ chunk }.expected = some n → 0 < n := positive
    refine drain_waits same ?_ pushed
    dsimp only
    omega

theorem pushByte_idle (idle : p.expected = none → p.payloadLen = 0) (byte : UInt8) :
    (p.pushByte byte).expected = none → (p.pushByte byte).payloadLen = 0 := by
  unfold OuterProgress.pushByte
  cases expected : p.expected with
  | none =>
      dsimp only
      split
      · exact nofun
      · exact fun _ => idle expected
  | some n =>
      dsimp only
      split
      · exact fun _ => rfl
      · exact nofun

theorem push_idle (idle : p.expected = none → p.payloadLen = 0) (chunk : Bytes) :
    (p.push chunk).expected = none → (p.push chunk).payloadLen = 0 := by
  induction chunk generalizing p with
  | nil => exact idle
  | cons byte chunk ih => exact ih (pushByte_idle idle byte)

/-- What holds between two chunks: both have the same bytes of an incomplete frame. -/
structure InHand (held : List (Unit × UInt8)) (p : OuterProgress) (d : OuterFrameDecoder) : Prop where
  tracks : Tracks p held
  idle : p.expected = none → p.payloadLen = 0
  buffers : Buffers d held
  waits : d.expected = none → d.pending.length < 2
  positive : ∀ n, d.expected = some n → 0 < n

theorem InHand.agrees {held : List (Unit × UInt8)} (inHand : InHand held p d) : Agrees p d := by
  have tracks := inHand.tracks
  have bytes := inHand.buffers.bytes
  unfold Tracks at tracks
  unfold Represents at bytes
  cases counted : p.expected with
  | none =>
      rw [counted] at tracks
      obtain ⟨header, short⟩ := tracks
      cases waited : d.expected with
      | none =>
          rw [waited] at bytes
          exact ⟨counted.trans waited.symm, by rw [header, waited, bytes]; rfl, by rw [inHand.idle counted, waited]; rfl⟩
      | some n =>
          rw [waited] at bytes
          obtain ⟨-, high, low, rest, rfl, -⟩ := bytes
          simp at short
  | some n =>
      rw [counted] at tracks
      obtain ⟨header, -, high, low, rest, rfl, rfl, size⟩ := tracks
      cases waited : d.expected with
      | none =>
          have few := inHand.waits waited
          rw [waited] at bytes
          rw [bytes] at few
          simp at few
      | some n =>
          rw [waited] at bytes
          obtain ⟨-, high', low', rest', same, rfl, pending⟩ := bytes
          cases same
          exact ⟨counted.trans waited.symm, by rw [header, waited]; rfl, by
            rw [size, waited, pending]
            exact (List.length_map _).symm⟩

/-- A chunk that the decoder takes. -/
theorem InHand.push {held : List (Unit × UInt8)} {chunk : Bytes} {frames : List Bytes} (inHand : InHand held p d)
    (pushed : d.push chunk = (.ok frames, d')) : InHand (incomplete (held ++ stamped () chunk)) (p.push chunk) d' := by
  obtain ⟨buffers, nonempty⟩ := push_buffers () inHand.buffers pushed
  obtain ⟨waits, positive⟩ := push_waits inHand.positive pushed
  have tracks := inHand.tracks.push nonempty
  rw [stamped_bytes] at tracks
  exact ⟨tracks, push_idle inHand.idle chunk, buffers, waits, positive⟩

theorem inHand_new : InHand [] {} .new := ⟨tracks_new, fun _ => rfl, new_buffers, fun _ => by decide, nofun⟩

/-- By induction on the chunks: after each they have the same bytes in hand. -/
theorem InHand.pushes {held : List (Unit × UInt8)} {chunks : List Bytes} (inHand : InHand held p d)
    (taken : ∀ answer ∈ (d.pushes chunks).1, ∃ frames, answer = .ok frames) :
    ∃ held', InHand held' (chunks.foldl OuterProgress.push p) (d.pushes chunks).2 := by
  induction chunks generalizing p d held with
  | nil => exact ⟨held, inHand⟩
  | cons chunk chunks ih =>
      unfold OuterFrameDecoder.pushes at taken ⊢
      obtain ⟨first, others⟩ := List.forall_mem_cons.mp taken
      obtain ⟨frames, answer⟩ := first
      exact ih (inHand.push (Prod.ext answer rfl)) others

end

/-- As long as no push has failed, the account of progress agrees with the decoder. -/
theorem progress_agrees (chunks : List Bytes) (taken : ∀ answer ∈ (OuterFrameDecoder.new.pushes chunks).1, ∃ frames, answer = .ok frames) :
    let p := chunks.foldl OuterProgress.push {}
    let d := (OuterFrameDecoder.new.pushes chunks).2
    p.isIncomplete = d.isIncomplete ∧ p.expected = d.expected ∧
      p.payloadLen = (if d.expected.isSome then d.pending.length else 0) ∧ p.header = if d.expected.isSome then [] else d.pending := by
  obtain ⟨held, inHand⟩ := inHand_new.pushes taken
  have agrees := inHand.agrees
  exact ⟨agrees.isIncomplete, agrees.expected, agrees.payloadLen, agrees.header⟩

/-- A frame and the header and one byte of the next, cut inside both headers. -/
theorem progress_agrees_cut :
    (OuterFrameDecoder.new.pushes [[0], [1, 7, 0], [2, 8]]).2.isIncomplete = true ∧
      ([[0], [1, 7, 0], [2, 8]].foldl OuterProgress.push {}).isIncomplete = true ∧
      ([[0], [1, 7, 0], [2, 8]].foldl OuterProgress.push {}).payloadLen = 1 := by
  obtain ⟨incomplete, expected, payload, -⟩ := progress_agrees [[0], [1, 7, 0], [2, 8]] (by
    have answers : (OuterFrameDecoder.new.pushes [[0], [1, 7, 0], [2, 8]]).1 = [.ok [], .ok [[0, 1, 7]], .ok []] := by decide
    rw [answers]
    simp)
  have left : (OuterFrameDecoder.new.pushes [[0], [1, 7, 0], [2, 8]]).2.isIncomplete = true := by decide
  exact ⟨left, incomplete.trans left, payload.trans (by decide)⟩

end AppPilotKit.Raw
