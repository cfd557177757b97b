import AppPilotKit.Transport.Outer

/-! # What of a stream of frames is incomplete

A stream is a list of bytes, each with the stamp of the chunk that brought it. Its incomplete
frame is what whole frames leave over, and the decoder holds exactly that.
-/

namespace AppPilotKit.Transport

open Wire

variable {σ : Type}

/-- A chunk of bytes that arrive under one stamp. -/
def stamped (stamp : σ) (chunk : Bytes) : List (σ × UInt8) := chunk.map (stamp, ·)

@[simp] theorem stamped_bytes (stamp : σ) (chunk : Bytes) : (stamped stamp chunk).map (·.2) = chunk := by
  simp [stamped]

/-- The bytes after the last whole frame. -/
def incomplete : List (σ × UInt8) → List (σ × UInt8)
  | high :: low :: rest =>
      if beNat [high.2, low.2] ≤ rest.length then incomplete (rest.drop (beNat [high.2, low.2])) else high :: low :: rest
  | short => short
termination_by stream => stream.length
decreasing_by
  simp only [List.length_drop, List.length_cons]
  omega

/-- No frame of the stream is empty. -/
def NoEmptyFrame : List (σ × UInt8) → Prop
  | high :: low :: rest =>
      0 < beNat [high.2, low.2] ∧
        (beNat [high.2, low.2] ≤ rest.length → NoEmptyFrame (rest.drop (beNat [high.2, low.2])))
  | _ => True
termination_by stream => stream.length
decreasing_by
  simp only [List.length_drop, List.length_cons]
  omega

/-- The chunk completes the frame that is held, and leaves another one incomplete. -/
def Overruns (held chunk : List (σ × UInt8)) : Prop :=
  incomplete (held ++ chunk) ≠ [] ∧ incomplete (held ++ chunk) ≠ held ++ chunk

theorem incomplete_long {high low : σ × UInt8} {rest : List (σ × UInt8)} (whole : beNat [high.2, low.2] ≤ rest.length) :
    incomplete (high :: low :: rest) = incomplete (rest.drop (beNat [high.2, low.2])) := by
  rw [incomplete, if_pos whole]

theorem incomplete_missing {high low : σ × UInt8} {rest : List (σ × UInt8)} (missing : rest.length < beNat [high.2, low.2]) :
    incomplete (high :: low :: rest) = high :: low :: rest := by
  rw [incomplete, if_neg (Nat.not_le.mpr missing)]

theorem incomplete_short {stream : List (σ × UInt8)} (short : stream.length < 2) : incomplete stream = stream := by
  match stream with
  | [] => rw [incomplete]; exact nofun
  | [byte] => rw [incomplete]; exact nofun
  | _ :: _ :: _ => simp at short

theorem incomplete_suffix (stream : List (σ × UInt8)) : incomplete stream <:+ stream := by
  induction stream using incomplete.induct with
  | case1 high low rest whole ih =>
      rw [incomplete_long whole]
      exact ih.trans ((List.drop_suffix _ _).trans ⟨[high, low], rfl⟩)
  | case2 high low rest missing =>
      rw [incomplete_missing (Nat.not_le.mp missing)]
  | case3 short other =>
      rw [incomplete]
      exact other

theorem incomplete_append (front back : List (σ × UInt8)) :
    incomplete (front ++ back) = incomplete (incomplete front ++ back) := by
  induction front using incomplete.induct with
  | case1 high low rest whole ih =>
      have longer : beNat [high.2, low.2] ≤ (rest ++ back).length := by
        rw [List.length_append]
        omega
      rw [List.cons_append, List.cons_append, incomplete_long longer, List.drop_append_of_le_length whole, ih,
        incomplete_long whole]
  | case2 high low rest missing => rw [incomplete_missing (Nat.not_le.mp missing)]
  | case3 short other =>
      have unchanged : incomplete short = short := by
        rw [incomplete]
        exact other
      rw [unchanged]

theorem NoEmptyFrame.split {front back : List (σ × UInt8)} (whole : NoEmptyFrame (front ++ back)) :
    NoEmptyFrame front ∧ NoEmptyFrame (incomplete front ++ back) := by
  induction front using incomplete.induct with
  | case1 high low rest long ih =>
      rw [List.cons_append, List.cons_append, NoEmptyFrame] at whole
      obtain ⟨positive, later⟩ := whole
      have later := later (long.trans (by simp))
      rw [List.drop_append_of_le_length long] at later
      rw [incomplete_long long, NoEmptyFrame]
      exact ⟨⟨positive, fun _ => (ih later).1⟩, (ih later).2⟩
  | case2 high low rest missing =>
      rw [incomplete_missing (Nat.not_le.mp missing), NoEmptyFrame]
      refine ⟨⟨?_, fun there => absurd there missing⟩, whole⟩
      rw [List.cons_append, List.cons_append, NoEmptyFrame] at whole
      exact whole.1
  | case3 short other =>
      rw [incomplete, NoEmptyFrame]
      · exact ⟨trivial, whole⟩
      · exact other
      · exact other

/-! ## The decoder -/

/-- The decoder holds these bytes. -/
def Represents (d : OuterFrameDecoder) (stream : List (σ × UInt8)) : Prop :=
  match d.expected with
  | none => d.pending = stream.map (·.2)
  | some n => 0 < n ∧ ∃ high low rest, stream = high :: low :: rest ∧ n = beNat [high.2, low.2] ∧ d.pending = rest.map (·.2)

/-- … and they are an incomplete frame. -/
structure Buffers (d : OuterFrameDecoder) (stream : List (σ × UInt8)) : Prop where
  bytes : Represents d stream
  partial_ : incomplete stream = stream

theorem Buffers.isIncomplete {d : OuterFrameDecoder} {stream : List (σ × UInt8)} (buffers : Buffers d stream) :
    d.isIncomplete = true ↔ stream ≠ [] := by
  have bytes := buffers.bytes
  unfold Represents at bytes
  unfold OuterFrameDecoder.isIncomplete
  cases expected : d.expected with
  | none =>
      rw [expected] at bytes
      simp [bytes]
  | some n =>
      rw [expected] at bytes
      obtain ⟨-, high, low, rest, rfl, -⟩ := bytes
      simp

theorem drain_buffers {fuel : Nat} {d d' : OuterFrameDecoder} {frames frames' : List Bytes} {stream : List (σ × UInt8)}
    (bytes : Represents d stream) (enough : d.pending.length < fuel)
    (drained : OuterFrameDecoder.drain fuel d frames = (.ok frames', d')) :
    Buffers d' (incomplete stream) ∧ NoEmptyFrame stream := by
  induction fuel generalizing d frames stream with
  | zero => exact absurd enough (Nat.not_lt_zero _)
  | succ fuel ih =>
      have held := bytes
      unfold Represents at held
      unfold OuterFrameDecoder.drain at drained
      cases expected : d.expected with
      | none =>
          rw [expected] at held drained
          dsimp only at held drained
          cases pending : d.pending with
          | nil =>
              rw [pending] at drained
              cases drained
              have short : stream = [] := by simpa [pending] using held.symm
              subst short
              have unchanged : incomplete ([] : List (σ × UInt8)) = [] := incomplete_short (by simp)
              rw [unchanged, NoEmptyFrame]
              · exact ⟨⟨bytes, unchanged⟩, trivial⟩
              · exact fun _ _ _ long => by cases long
          | cons first more =>
              cases more with
              | nil =>
                  rw [pending] at drained
                  cases drained
                  obtain ⟨byte, rfl⟩ : ∃ byte, stream = [byte] := by
                    rw [pending] at held
                    exact List.length_eq_one_iff.mp (by simpa using congrArg List.length held.symm)
                  have unchanged : incomplete [byte] = [byte] := incomplete_short (by simp)
                  rw [unchanged, NoEmptyFrame]
                  · exact ⟨⟨bytes, unchanged⟩, trivial⟩
                  · exact fun _ _ _ long => by cases long
              | cons second rest =>
                  rw [pending] at drained held enough
                  dsimp only at drained
                  split at drained
                  · cases drained
                  · rename_i positive
                    obtain ⟨high, low, others, rfl, rfl, rfl, rfl⟩ : ∃ high low others, stream = high :: low :: others ∧
                        first = high.2 ∧ second = low.2 ∧ rest = others.map (·.2) := by
                      rcases stream with _ | ⟨high, _ | ⟨low, others⟩⟩
                      · simp at held
                      · simp at held
                      · simp only [List.map_cons, List.cons.injEq] at held
                        exact ⟨high, low, others, rfl, held.1, held.2.1, held.2.2⟩
                    refine ih ?_ ?_ drained
                    · exact ⟨Nat.pos_of_ne_zero positive, high, low, others, rfl, rfl, rfl⟩
                    · simp only [List.length_cons] at enough
                      dsimp only
                      omega
      | some n =>
          rw [expected] at held drained
          dsimp only at held drained
          obtain ⟨positive, high, low, rest, rfl, rfl, pending⟩ := held
          have size : d.pending.length = rest.length := by rw [pending, List.length_map]
          split at drained
          · rename_i missing
            cases drained
            have missing : rest.length < beNat [high.2, low.2] := size ▸ missing
            have unchanged := incomplete_missing missing
            rw [unchanged, NoEmptyFrame]
            exact ⟨⟨bytes, unchanged⟩, positive, fun whole => absurd missing (Nat.not_lt.mpr whole)⟩
          · rename_i there
            have whole : beNat [high.2, low.2] ≤ rest.length := by omega
            split at drained
            · cases drained
            · have rest_ : Represents { d with pending := d.pending.drop (beNat [high.2, low.2]), expected := none }
                  (rest.drop (beNat [high.2, low.2])) := by
                unfold Represents
                simp only [pending, List.map_drop]
              have shorter : (d.pending.drop (beNat [high.2, low.2])).length < fuel := by
                rw [List.length_drop]
                omega
              obtain ⟨buffers, nonempty⟩ := ih rest_ shorter drained
              rw [incomplete_long whole, NoEmptyFrame]
              exact ⟨buffers, positive, fun _ => nonempty⟩

/-- A chunk that the decoder takes. -/
theorem push_buffers {d d' : OuterFrameDecoder} {chunk : Bytes} {frames : List Bytes} {stream : List (σ × UInt8)} (stamp : σ)
    (buffers : Buffers d stream) (pushed : d.push chunk = (.ok frames, d')) :
    Buffers d' (incomplete (stream ++ stamped stamp chunk)) ∧ NoEmptyFrame (stream ++ stamped stamp chunk) := by
  unfold OuterFrameDecoder.push at pushed
  split at pushed
  · cases pushed
  · refine drain_buffers ?_ ?_ pushed
    · have bytes := buffers.bytes
      unfold Represents at bytes ⊢
      cases expected : d.expected with
      | none =>
          rw [expected] at bytes
          simp only [bytes, List.map_append, stamped_bytes]
      | some n =>
          rw [expected] at bytes
          obtain ⟨positive, high, low, rest, rfl, same, pending⟩ := bytes
          exact ⟨positive, high, low, rest ++ stamped stamp chunk, rfl, same, by
            simp only [pending, List.map_append, stamped_bytes]⟩
    · dsimp only
      omega

theorem new_buffers : Buffers .new ([] : List (σ × UInt8)) := ⟨rfl, incomplete_short (by simp)⟩

end AppPilotKit.Transport
