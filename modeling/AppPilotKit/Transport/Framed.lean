import AppPilotKit.Transport.Outer

/-! # The outer envelope on a stream

A stream is cut into pushes anywhere: inside a header, inside a body, across
several frames. What the decoder holds between two pushes is computed from the
bytes of the unfinished frame alone, and that is all it carries over. So the
frames it returns do not depend on the cut.
-/

namespace AppPilotKit.Transport

open Wire

/-- The bytes of one whole frame. -/
def IsFrame (frame : Bytes) : Prop := ∃ payload, encodeOuter payload = .ok frame

/-- A frame that has not arrived whole, perhaps not at all. -/
def Unfinished (held : Bytes) : Prop := ∃ frame, IsFrame frame ∧ held <+: frame ∧ held ≠ frame

namespace OuterFrameDecoder

/-- One push after another, with the answer of each. -/
def pushes (d : OuterFrameDecoder) : List Bytes → List (Except Error (List Bytes)) × OuterFrameDecoder
  | [] => ([], d)
  | input :: inputs =>
      let (answer, d) := d.push input
      let (answers, d) := d.pushes inputs
      (answer :: answers, d)

/-- The decoder that has been given the bytes of an unfinished frame. -/
def holding : Bytes → OuterFrameDecoder
  | high :: low :: body => { pending := body, expected := some (beNat [high, low]) }
  | few => { pending := few }

end OuterFrameDecoder

/-- A frame has a header of two bytes that gives the length of its body, which is not zero. -/
theorem IsFrame.shape {frame : Bytes} (whole : IsFrame frame) :
    ∃ high low body, frame = high :: low :: body ∧ beNat [high, low] = body.length ∧ body.length ≠ 0 ∧
      encodeOuter body = .ok frame := by
  obtain ⟨payload, encoded⟩ := whole
  obtain ⟨nonempty, small, listed⟩ := encodeOuter_ok encoded
  obtain ⟨high, low, header⟩ : ∃ high low, be 2 payload.length = [high, low] := by simp [be]
  have value : beNat [high, low] = payload.length := by
    rw [← header]
    exact beNat_be 2 _ (by unfold outerMax at small; omega)
  refine ⟨high, low, payload, ?_, value, by simpa using nonempty, encoded⟩
  rw [listed, header]
  rfl

theorem IsFrame.three {frame : Bytes} (whole : IsFrame frame) : 3 ≤ frame.length := by
  obtain ⟨high, low, body, rfl, -, positive, -⟩ := whole.shape
  simp only [List.length_cons]
  omega

theorem frames_length {frames : List Bytes} (whole : ∀ frame ∈ frames, IsFrame frame) :
    3 * frames.length ≤ frames.flatten.length := by
  induction frames with
  | nil => simp
  | cons frame frames ih =>
      have first := (whole frame (by simp)).three
      have others := ih fun f member => whole f (by simp [member])
      simp only [List.length_cons, List.flatten_cons, List.length_append]
      omega

/-- Every frame of one to 65535 bytes exists. -/
theorem frames_of_payloads {payloads : List Bytes}
    (sizes : ∀ payload ∈ payloads, 1 ≤ payload.length ∧ payload.length ≤ 65535) :
    ∃ frames, payloads.mapM encodeOuter = .ok frames ∧ ∀ frame ∈ frames, IsFrame frame := by
  induction payloads with
  | nil => exact ⟨[], rfl, by simp⟩
  | cons payload payloads ih =>
      obtain ⟨frames, encoded, whole⟩ := ih fun p member => sizes p (by simp [member])
      obtain ⟨atLeast, atMost⟩ := sizes payload (by simp)
      have nonempty : payload ≠ [] := by
        rintro rfl
        simp at atLeast
      have first := encodeOuter_of nonempty atMost
      refine ⟨(be 2 payload.length ++ payload) :: frames, ?_, ?_⟩
      · rw [List.mapM_cons, first, encoded]
        rfl
      · intro frame member
        rcases List.mem_cons.mp member with rfl | member
        · exact ⟨payload, first⟩
        · exact whole frame member

namespace Unfinished

theorem of_begun {held frame : Bytes} (whole : IsFrame frame) (before : held <+: frame) (short : held ≠ frame) :
    Unfinished held := ⟨frame, whole, before, short⟩

theorem shorter {held more : Bytes} (unfinished : Unfinished more) (before : held <+: more) : Unfinished held := by
  obtain ⟨frame, whole, start, short⟩ := unfinished
  refine ⟨frame, whole, before.trans start, ?_⟩
  rintro rfl
  exact short (start.eq_of_length_le before.length_le)

/-- The body of an unfinished frame is shorter than its header says. -/
theorem header {high low : UInt8} {body : Bytes} (unfinished : Unfinished (high :: low :: body)) :
    beNat [high, low] ≠ 0 ∧ body.length < beNat [high, low] := by
  obtain ⟨frame, whole, start, short⟩ := unfinished
  obtain ⟨high', low', full, rfl, value, positive, -⟩ := whole.shape
  obtain ⟨missing, joined⟩ := start
  simp only [List.cons_append, List.cons.injEq] at joined
  obtain ⟨rfl, rfl, rfl⟩ := joined
  rw [value]
  refine ⟨positive, ?_⟩
  have more : missing ≠ [] := by
    rintro rfl
    simp at short
  have := List.length_pos_of_ne_nil more
  simp only [List.length_append]
  omega

/-- No frame is the beginning of an unfinished one. -/
theorem no_frame {frame more : Bytes} (whole : IsFrame frame) : ¬ Unfinished (frame ++ more) := by
  intro unfinished
  obtain ⟨high, low, body, rfl, value, -, -⟩ := whole.shape
  have inside := (header (by simpa using unfinished)).2
  rw [value, List.length_append] at inside
  omega

/-- The first byte of a zero length header can still begin a frame. -/
theorem zero : Unfinished [0] := by
  refine ⟨[0, 1, 0], ⟨[0], by decide⟩, ⟨[1, 0], rfl⟩, by decide⟩

end Unfinished

/-- A beginning of a stream of frames is some of the frames and an unfinished one. -/
theorem prefix_of_frames {frames : List Bytes} {tail seen : Bytes} (whole : ∀ frame ∈ frames, IsFrame frame)
    (unfinished : Unfinished tail) (before : seen <+: frames.flatten ++ tail) :
    ∃ arrived left held, frames = arrived ++ left ∧ seen = arrived.flatten ++ held ∧ Unfinished held := by
  induction frames generalizing seen with
  | nil => exact ⟨[], [], seen, rfl, rfl, unfinished.shorter (by simpa using before)⟩
  | cons frame frames ih =>
      rw [List.flatten_cons, List.append_assoc] at before
      rcases List.prefix_or_prefix_of_prefix before (List.prefix_append frame _) with short | long
      · by_cases all : seen = frame
        · have none : Unfinished [] := .of_begun (whole frame (by simp)) List.nil_prefix
            (by
              have := (whole frame (by simp)).three
              rintro rfl
              simp at this)
          exact ⟨[frame], frames, [], rfl, by simp [all], none⟩
        · exact ⟨[], frame :: frames, seen, rfl, rfl, .of_begun (whole frame (by simp)) short all⟩
      · obtain ⟨more, rfl⟩ := long
        have rest : more <+: frames.flatten ++ tail := (List.prefix_append_right_inj frame).mp before
        obtain ⟨arrived, left, held, split, listed, open'⟩ := ih (fun f member => whole f (by simp [member])) rest
        exact ⟨frame :: arrived, left, held, by simp [split], by simp [listed], open'⟩

namespace OuterFrameDecoder

/-! ## The loop of a push -/

theorem drain_frame {frame : Bytes} (whole : IsFrame frame) (fuel : Nat) (rest : Bytes) (frames : List Bytes) :
    drain (fuel + 2) { pending := frame ++ rest } frames = drain fuel { pending := rest } (frames ++ [frame]) := by
  obtain ⟨high, low, body, rfl, value, positive, encoded⟩ := whole.shape
  have enough : ¬ (body ++ rest).length < body.length := by
    rw [List.length_append]
    omega
  simp only [drain, List.cons_append, value, if_neg positive, if_neg enough, List.take_left, List.drop_left, encoded]

theorem drain_frames {frames : List Bytes} (whole : ∀ frame ∈ frames, IsFrame frame) (fuel : Nat) (rest : Bytes)
    (returned : List Bytes) :
    drain (fuel + 2 * frames.length) { pending := frames.flatten ++ rest } returned =
      drain fuel { pending := rest } (returned ++ frames) := by
  induction frames generalizing returned with
  | nil => simp
  | cons frame frames ih =>
      have rounds : fuel + 2 * (frame :: frames).length = fuel + 2 * frames.length + 2 := by
        rw [List.length_cons]
        omega
      rw [rounds, List.flatten_cons, List.append_assoc, drain_frame (whole frame (by simp)),
        ih fun f member => whole f (by simp [member])]
      simp

theorem drain_unfinished {held : Bytes} (unfinished : Unfinished held) (fuel : Nat) (frames : List Bytes) :
    drain (fuel + 2) { pending := held } frames = (.ok frames, holding held) := by
  match held, unfinished with
  | [], _ => rfl
  | [_], _ => rfl
  | high :: low :: body, unfinished =>
      obtain ⟨positive, short⟩ := unfinished.header
      simp only [drain, if_neg positive, if_pos short, holding]

theorem drain_zero (fuel : Nat) (rest : Bytes) (frames : List Bytes) :
    drain (fuel + 1) { pending := 0 :: 0 :: rest } frames = (.error (.new .malformed), { failed := true }) := by
  have zero : beNat [0, 0] = 0 := by decide
  simp only [drain, zero, if_true]

/-- A push on an unfinished frame is the loop on all its bytes and the new ones,
    with rounds to spare. -/
theorem push_holding {held : Bytes} (unfinished : Unfinished held) (input : Bytes) :
    ∃ fuel, 2 ≤ fuel ∧ 2 * (held ++ input).length ≤ fuel + 1 ∧
      (holding held).push input = drain fuel { pending := held ++ input } [] := by
  match held, unfinished with
  | [], _ => exact ⟨2 * input.length + 2, by omega, by simp only [List.nil_append]; omega, rfl⟩
  | [first], _ => exact ⟨2 * ([first] ++ input).length + 2, by omega, by omega, rfl⟩
  | high :: low :: body, unfinished =>
      obtain ⟨positive, -⟩ := unfinished.header
      refine ⟨2 * (body ++ input).length + 2 + 1, by omega, ?_, ?_⟩
      · simp only [List.cons_append, List.length_cons]
        omega
      · rw [List.cons_append, List.cons_append, drain]
        simp only [if_neg positive]
        rfl

/-- A push that completes some frames returns these and holds the next. -/
theorem push_frames {held input tail : Bytes} {frames : List Bytes} (unfinished : Unfinished held)
    (whole : ∀ frame ∈ frames, IsFrame frame) (next : Unfinished tail) (joined : held ++ input = frames.flatten ++ tail) :
    (holding held).push input = (.ok frames, holding tail) := by
  obtain ⟨fuel, atLeast, enough, pushed⟩ := push_holding unfinished input
  have size := frames_length whole
  have long : (held ++ input).length = frames.flatten.length + tail.length := by rw [joined, List.length_append]
  obtain ⟨spare, rfl⟩ : ∃ spare, fuel = spare + 2 + 2 * frames.length := ⟨fuel - 2 - 2 * frames.length, by omega⟩
  rw [pushed, joined, drain_frames whole, drain_unfinished next, List.nil_append]

/-- A push that reaches a zero length header fails and leaves nothing behind. -/
theorem push_zero {held input : Bytes} {frames : List Bytes} (unfinished : Unfinished held)
    (whole : ∀ frame ∈ frames, IsFrame frame) (reached : frames.flatten ++ [0, 0] <+: held ++ input) :
    (holding held).push input = (.error (.new .malformed), { failed := true }) := by
  obtain ⟨rest, joined⟩ := reached
  obtain ⟨fuel, atLeast, enough, pushed⟩ := push_holding unfinished input
  have size := frames_length whole
  have long : frames.flatten.length + 2 + rest.length = (held ++ input).length := by
    rw [← joined, List.length_append, List.length_append]
    rfl
  obtain ⟨spare, rfl⟩ : ∃ spare, fuel = spare + 1 + 2 * frames.length := ⟨fuel - 1 - 2 * frames.length, by omega⟩
  rw [pushed, ← joined, List.append_assoc, drain_frames whole]
  exact drain_zero spare rest _

/-! ## Any cut of a stream -/

theorem pushes_append (d : OuterFrameDecoder) (inputs others : List Bytes) :
    d.pushes (inputs ++ others) =
      ((d.pushes inputs).1 ++ ((d.pushes inputs).2.pushes others).1, ((d.pushes inputs).2.pushes others).2) := by
  induction inputs generalizing d with
  | nil => rfl
  | cons input inputs ih => simp [pushes, ih]

/-- Pushes that bring some frames and the beginning of another: by induction on
    the pushes, what is held and what is still to come make up what is missing. -/
theorem pushes_frames {inputs frames : List Bytes} {held tail : Bytes} (unfinished : Unfinished held)
    (whole : ∀ frame ∈ frames, IsFrame frame) (next : Unfinished tail)
    (joined : held ++ inputs.flatten = frames.flatten ++ tail) :
    ∃ parts : List (List Bytes), (holding held).pushes inputs = (parts.map .ok, holding tail) ∧ parts.flatten = frames := by
  induction inputs generalizing held frames with
  | nil =>
      rw [List.flatten_nil, List.append_nil] at joined
      cases frames with
      | nil => exact ⟨[], by simp [pushes, joined], rfl⟩
      | cons frame frames =>
          rw [joined, List.flatten_cons, List.append_assoc] at unfinished
          exact absurd unfinished (Unfinished.no_frame (whole frame (by simp)))
  | cons input inputs ih =>
      rw [List.flatten_cons, ← List.append_assoc] at joined
      obtain ⟨arrived, left, more, rfl, seen, still⟩ := prefix_of_frames whole next ⟨_, joined⟩
      have pushed := push_frames unfinished (fun f member => whole f (by simp [member])) still seen
      rw [seen, List.flatten_append, List.append_assoc, List.append_assoc, List.append_cancel_left_eq] at joined
      obtain ⟨parts, later, returned⟩ := ih still (fun f member => whole f (by simp [member])) joined
      exact ⟨arrived :: parts, by simp [pushes, pushed, later], by simp [returned]⟩

theorem isIncomplete_holding (held : Bytes) : (holding held).isIncomplete = !held.isEmpty := by
  match held with
  | [] => rfl
  | [_] => rfl
  | _ :: _ :: _ => rfl

theorem failed_holding (held : Bytes) : (holding held).failed = false := by
  match held with
  | [] => rfl
  | [_] => rfl
  | _ :: _ :: _ => rfl

/-- A failed decoder refuses every push. -/
theorem pushes_failed {d : OuterFrameDecoder} (failed : d.failed = true) (inputs : List Bytes) :
    d.pushes inputs = (List.replicate inputs.length (.error (.new .sequenceViolation)), d) := by
  induction inputs with
  | nil => rfl
  | cons input inputs ih => simp [pushes, push, failed, ih, List.replicate_succ]

theorem pushes_length (d : OuterFrameDecoder) (inputs : List Bytes) : (d.pushes inputs).1.length = inputs.length := by
  induction inputs generalizing d with
  | nil => rfl
  | cons input inputs ih => simp [pushes, ih]

/-- Up to a zero length header the frames come out as they are, and the push
    that completes the header ends it all. -/
theorem pushes_until_zero {frames before after : List Bytes} {input rest : Bytes}
    (whole : ∀ frame ∈ frames, IsFrame frame)
    (joined : (before ++ input :: after).flatten = frames.flatten ++ 0 :: 0 :: rest)
    (early : before.flatten.length < frames.flatten.length + 2)
    (reached : frames.flatten.length + 2 ≤ before.flatten.length + input.length) :
    ∃ parts : List (List Bytes), (holding []).pushes before = (parts.map .ok, ((holding []).pushes before).2) ∧
      parts.flatten <+: frames ∧
      ((holding []).pushes before).2.push input = (.error (.new .malformed), { failed := true }) := by
  have stream : frames.flatten ++ [0, 0] <+: before.flatten ++ (input ++ after.flatten) := by
    refine ⟨rest, ?_⟩
    rw [← List.flatten_cons, ← List.flatten_append, joined]
    simp
  -- the pushes before it have brought at most the first byte of the header
  have seen : before.flatten <+: frames.flatten ++ [0] := by
    refine List.prefix_of_prefix_length_le (List.prefix_append _ _)
      (List.IsPrefix.trans ⟨[0], by simp⟩ stream) ?_
    simp only [List.length_append, List.length_singleton]
    omega
  obtain ⟨arrived, left, held, rfl, split, still⟩ := prefix_of_frames whole Unfinished.zero seen
  have first : ∀ frame ∈ arrived, IsFrame frame := fun f member => whole f (by simp [member])
  have last : ∀ frame ∈ left, IsFrame frame := fun f member => whole f (by simp [member])
  have begun : [] ++ before.flatten = arrived.flatten ++ held := by rw [List.nil_append, split]
  obtain ⟨parts, pushed, returned⟩ := pushes_frames (Unfinished.zero.shorter List.nil_prefix) first still begun
  rw [pushed]
  refine ⟨parts, rfl, returned ▸ List.prefix_append _ _, push_zero still last ?_⟩
  have sizes := congrArg List.length split
  simp only [List.flatten_append, List.length_append] at sizes reached
  rw [List.flatten_append, split, List.append_assoc, List.append_assoc, List.prefix_append_right_inj,
    ← List.append_assoc] at stream
  refine List.prefix_of_prefix_length_le stream (List.prefix_append _ _) ?_
  simp only [List.length_append, List.length_cons, List.length_nil]
  omega

/-- The frames come out the same however the stream is cut; what is left over
    decides `isIncomplete`, `timeout` and `eof`; and a zero length header ends
    the stream at the push that completes it. -/
theorem pushes_any_cut {payloads : List Bytes}
    (sizes : ∀ payload ∈ payloads, 1 ≤ payload.length ∧ payload.length ≤ 65535) :
    ∃ frames, payloads.mapM encodeOuter = .ok frames ∧
      (∀ further frame tail inputs, encodeOuter further = .ok frame → tail <+: frame → tail ≠ frame →
        inputs.flatten = frames.flatten ++ tail →
        ∃ (parts : List (List Bytes)) (d : OuterFrameDecoder), OuterFrameDecoder.new.pushes inputs = (parts.map .ok, d) ∧
          parts.flatten = frames ∧ (d.isIncomplete = true ↔ tail ≠ []) ∧
          (d.timeout.1 ≠ .ok () ↔ tail ≠ []) ∧ (d.eof.1 ≠ .ok () ↔ tail ≠ [])) ∧
      (∀ rest before input after, (before ++ input :: after).flatten = frames.flatten ++ 0 :: 0 :: rest →
        before.flatten.length < frames.flatten.length + 2 →
        frames.flatten.length + 2 ≤ before.flatten.length + input.length →
        ∃ (parts : List (List Bytes)) (failures : List (Except Error (List Bytes))),
          (OuterFrameDecoder.new.pushes (before ++ input :: after)).1 =
            parts.map .ok ++ .error (.new .malformed) :: failures ∧
          parts.length = before.length ∧ parts.flatten <+: frames ∧
          ∀ answer ∈ failures, answer = .error (.new .sequenceViolation)) := by
  obtain ⟨frames, encoded, whole⟩ := frames_of_payloads sizes
  refine ⟨frames, encoded, ?_, ?_⟩
  · intro further frame tail inputs isFrame start short joined
    have next : Unfinished tail := .of_begun ⟨further, isFrame⟩ start short
    obtain ⟨parts, pushed, returned⟩ := pushes_frames (Unfinished.zero.shorter List.nil_prefix) whole next joined
    have left := isIncomplete_holding tail
    have fine := failed_holding tail
    refine ⟨parts, holding tail, pushed, returned, by simp [left], ?_, ?_⟩
    · cases tail <;> simp [timeout, left, fine]
    · cases tail <;> simp [eof, left, fine]
  · intro rest before input after joined early reached
    obtain ⟨parts, pushed, returned, stopped⟩ := pushes_until_zero whole joined early reached
    have count := pushes_length (holding []) before
    rw [pushed, List.length_map] at count
    refine ⟨parts, List.replicate after.length (.error (.new .sequenceViolation)), ?_, count, returned, ?_⟩
    · have new : OuterFrameDecoder.new = holding [] := rfl
      rw [new, pushes_append, congrArg Prod.fst pushed]
      simp only [pushes, stopped, pushes_failed]
    · intro answer member
      exact List.eq_of_mem_replicate member

/-- Two frames and the header of a third, cut in the middle of a header and of a body. -/
theorem two_frames_any_cut :
    (∀ payload ∈ ([[7], [8, 9]] : List Bytes), 1 ≤ payload.length ∧ payload.length ≤ 65535) ∧
      ∃ frames, [[7], [8, 9]].mapM encodeOuter = .ok frames ∧
        ∃ (parts : List (List Bytes)) (d : OuterFrameDecoder),
          OuterFrameDecoder.new.pushes [[0], [1, 7, 0, 2, 8], [9, 0]] = (parts.map .ok, d) ∧ parts.flatten = frames := by
  have small : ∀ payload ∈ ([[7], [8, 9]] : List Bytes), 1 ≤ payload.length ∧ payload.length ≤ 65535 := by decide
  obtain ⟨frames, encoded, cut, -⟩ := pushes_any_cut small
  refine ⟨small, frames, encoded, ?_⟩
  have listed : [[7], [8, 9]].mapM encodeOuter = .ok [[0, 1, 7], [0, 2, 8, 9]] := by decide
  obtain rfl : [[0, 1, 7], [0, 2, 8, 9]] = frames := Except.ok.inj (listed.symm.trans encoded)
  obtain ⟨parts, d, pushed, returned, -⟩ := cut [5] [0, 1, 5] [0] [[0], [1, 7, 0, 2, 8], [9, 0]] (by decide)
    ⟨[1, 5], rfl⟩ (by decide) (by decide)
  exact ⟨parts, d, pushed, returned⟩

end OuterFrameDecoder

end AppPilotKit.Transport
