import AppPilotKit.Lib.Runs
import AppPilotKit.Raw.Reader
import AppPilotKit.Target.FrameTimers

/-! # The deadline of an incomplete frame

Calls on one reader take turns with the raw stream. The reader and its account of progress
agree on what is incomplete; the deadline is that of the first incomplete frame since nothing
was, and never later than the command under which it was set.
-/

namespace AppPilotKit.Raw

open Wire Transport

/-! ## The account of progress -/

section
variable {σ : Type} {held chunk : List (σ × UInt8)} {p : OuterProgress}

/-- The account of progress has seen these bytes of an incomplete frame. -/
def Tracks (p : OuterProgress) (held : List (σ × UInt8)) : Prop :=
  match p.expected with
  | none => p.header = held.map (·.2) ∧ held.length < 2
  | some n => p.header = [] ∧ p.payloadLen < n ∧
      ∃ high low rest, held = high :: low :: rest ∧ n = beNat [high.2, low.2] ∧ p.payloadLen = rest.length

theorem Tracks.isIncomplete (tracks : Tracks p held) : p.isIncomplete = true ↔ held ≠ [] := by
  unfold Tracks at tracks
  unfold OuterProgress.isIncomplete
  cases expected : p.expected with
  | none =>
      rw [expected] at tracks
      simp [tracks.1]
  | some n =>
      rw [expected] at tracks
      obtain ⟨-, -, high, low, rest, rfl, -⟩ := tracks
      simp

theorem Tracks.partial_ (tracks : Tracks p held) : incomplete held = held := by
  unfold Tracks at tracks
  split at tracks
  · exact incomplete_short tracks.2
  · obtain ⟨-, missing, high, low, rest, rfl, rfl, size⟩ := tracks
    exact incomplete_missing (size ▸ missing)

theorem Tracks.pushByte (tracks : Tracks p held) (byte : σ × UInt8) (nonempty : NoEmptyFrame (held ++ [byte])) :
    Tracks (p.pushByte byte.2) (incomplete (held ++ [byte])) := by
  have before := tracks
  unfold Tracks at before
  unfold OuterProgress.pushByte
  cases expected : p.expected with
  | none =>
      rw [expected] at before
      obtain ⟨header, short⟩ := before
      dsimp only
      match held with
      | [] =>
          have start : incomplete [byte] = [byte] := incomplete_short (by simp)
          rw [header, List.nil_append, start]
          exact ⟨rfl, by simp⟩
      | [high] =>
          rw [List.singleton_append, NoEmptyFrame] at nonempty
          have missing : ([] : List (σ × UInt8)).length < beNat [high.2, byte.2] := nonempty.1
          rw [header, List.singleton_append, incomplete_missing missing]
          exact ⟨rfl, missing, high, byte, [], rfl, rfl, rfl⟩
      | _ :: _ :: _ => simp at short
  | some n =>
      rw [expected] at before
      obtain ⟨header, missing, high, low, rest, rfl, rfl, size⟩ := before
      dsimp only
      split
      · rename_i last
        have whole : beNat [high.2, low.2] ≤ (rest ++ [byte]).length := by
          rw [List.length_append, List.length_singleton, ← size]
          exact last.symm.le
        have nothing : (rest ++ [byte]).drop (beNat [high.2, low.2]) = [] := by
          apply List.drop_eq_nil_of_le
          rw [List.length_append, List.length_singleton, ← size]
          exact last.le
        rw [List.cons_append, List.cons_append, incomplete_long whole, nothing, incomplete_short (by simp)]
        exact ⟨header, by simp⟩
      · rename_i further
        have missing' : (rest ++ [byte]).length < beNat [high.2, low.2] := by
          rw [List.length_append, List.length_singleton, ← size]
          omega
        rw [List.cons_append, List.cons_append, incomplete_missing missing']
        unfold Tracks
        dsimp only
        refine ⟨header, ?_, high, low, rest ++ [byte], rfl, rfl, ?_⟩
        · omega
        · rw [List.length_append, List.length_singleton, ← size]

theorem Tracks.push (tracks : Tracks p held) (nonempty : NoEmptyFrame (held ++ chunk)) :
    Tracks (p.push (chunk.map (·.2))) (incomplete (held ++ chunk)) := by
  induction chunk generalizing p held with
  | nil =>
      rw [List.append_nil, tracks.partial_]
      exact tracks
  | cons byte rest ih =>
      have apart : held ++ byte :: rest = (held ++ [byte]) ++ rest := by simp
      rw [apart] at nonempty ⊢
      rw [incomplete_append]
      exact ih (tracks.pushByte byte nonempty.split.1) nonempty.split.2

theorem tracks_new : Tracks {} ([] : List (σ × UInt8)) := ⟨rfl, by simp⟩

end

/-! ## Calls on one reader -/

/-- What happens at a reader: a call begins, or the call that runs takes a turn. Each comes
    with the clock readings that it takes. -/
inductive Move where
  | call (owner : Owner) (command : AbsoluteDeadline) (current : Nat)
  | turn (current : Nat) (read : AbsoluteDeadline → Except PlatformFailureKind Bytes) (after : Nat)

/-- A reader, and the call that runs on it. -/
structure Desk where
  reader : RawFrameReader
  running : Option (Owner × AbsoluteDeadline)

/-- A call that has its result runs no longer. -/
def settle (running : Owner × AbsoluteDeadline) (r : Option (Except ReadFailure Bytes) × RawFrameReader) :
    Option (Except ReadFailure Bytes) × Desk :=
  (r.1, { reader := r.2, running := if r.1.isSome then none else some running })

/-- One call at a time: the reader is borrowed for the whole of it. -/
def move (d : Desk) : Move → Option (Except ReadFailure Bytes) × Desk
  | .call owner command current =>
      match d.running with
      | some _ => (none, d)
      | none => settle (owner, command) (d.reader.begin_ command (some current))
  | .turn current read after =>
      match d.running with
      | none => (none, d)
      | some (owner, command) =>
          settle (owner, command) (d.reader.turn owner command { current := some current, read, after := some after })

abbrev MoveStep := Runs.Step Desk Move (Option (Except ReadFailure Bytes))

/-- A new reader. -/
def Desk.new : Desk := { reader := .new, running := none }

/-- The bytes that a turn takes from the raw stream. -/
def takes (r : RawFrameReader) (command : AbsoluteDeadline) (current : Nat)
    (read : AbsoluteDeadline → Except PlatformFailureKind Bytes) : Option Bytes :=
  match r.check command (some current) with
  | (.error _, _) => none
  | (.ok (), r) =>
      match r.readDeadline command with
      | .error _ => none
      | .ok deadline =>
          match read deadline with
          | .error _ => none
          | .ok input => if input.length > chunkLength ∨ input = [] then none else some input

/-- The chunk that a step receives, the clock after it and the deadline of its command. -/
def receives (step : MoveStep) : Option (Bytes × Nat × AbsoluteDeadline) :=
  match step.before.running, step.input with
  | some (_, command), .turn current read after =>
      (takes step.before.reader command current read).map fun input => (input, after, command)
  | _, _ => none

/-- The bytes of the incomplete frame after one more step, each with the time of its receipt. -/
def nextHeld (held : List (Nat × UInt8)) (step : MoveStep) : List (Nat × UInt8) :=
  match receives step with
  | some (input, after, _) => incomplete (held ++ stamped after input)
  | none => held

def heldBytes (steps : List MoveStep) : List (Nat × UInt8) := steps.foldl nextHeld []

/-- The step completes a frame that was incomplete and leaves the next one incomplete, or it
    begins an incomplete frame under a command that ends sooner than the frame may take. -/
def Mistimes (past : List MoveStep) (step : MoveStep) : Prop :=
  ∃ input after command, receives step = some (input, after, command) ∧
    ((heldBytes past ≠ [] ∧ Overruns (heldBytes past) (stamped after input)) ∨
      (heldBytes past = [] ∧ incomplete (stamped after input) ≠ [] ∧ command.value < after + incompleteOuterMs))

/-- `expire_incomplete_at` raises `Timeout` only for a frame of which the first byte was
    received at least two seconds before. -/
def ExpiresInTime (steps : List MoveStep) : Prop :=
  ∀ past b rest now failure, steps = past ++ b :: rest → b.output = some (.error (.expired now failure)) →
    failure.closeReason = .timeout →
    ∃ received byte more, heldBytes past = (received, byte) :: more ∧ received + incompleteOuterMs ≤ now

section
variable {held : List (Nat × UInt8)} {r r' : RawFrameReader} {steps : List MoveStep} {now : Nat} {command : AbsoluteDeadline}

/-- The reader holds what is incomplete, and its deadline is that of the first byte. -/
structure Keeps (r : RawFrameReader) (held : List (Nat × UInt8)) : Prop where
  buffers : Buffers r.decoder held
  tracks : Tracks r.outerProgress held
  unset : r.incompleteDeadline = none → held = []
  set : ∀ deadline, r.incompleteDeadline = some deadline →
    ∃ received byte more, held = (received, byte) :: more ∧ received + incompleteOuterMs ≤ deadline.value

/-- … until it has failed for good. -/
def KeepsOpen (r : RawFrameReader) (held : List (Nat × UInt8)) : Prop := r.terminal = none → Keeps r held

theorem expireIncompleteAt_cases (r : RawFrameReader) (now : Nat) :
    (∃ failure, r.terminal = some failure ∧ r.expireIncompleteAt now = (.error (.other failure), r)) ∨
    (∃ deadline failure r', r.terminal = none ∧ r.incompleteDeadline = some deadline ∧ deadline.value ≤ now ∧
      r.expireIncompleteAt now = (.error (.expired now failure), r') ∧ r'.terminal = some failure) ∨
    r.terminal = none ∧ r.expireIncompleteAt now = (.ok (), r) := by
  unfold RawFrameReader.expireIncompleteAt RawFrameReader.ensureNotTerminal
  cases terminal : r.terminal with
  | some failure => exact .inl ⟨failure, rfl, rfl⟩
  | none =>
      cases set : r.incompleteDeadline with
      | none => exact .inr (.inr ⟨rfl, rfl⟩)
      | some deadline =>
          dsimp only [Option.any_some]
          split
          · rename_i late
            exact .inr (.inl ⟨deadline, _, _, rfl, rfl, by simpa [deadlineExpiredAt] using late, rfl, rfl⟩)
          · exact .inr (.inr ⟨rfl, rfl⟩)

theorem check_cases (r : RawFrameReader) (command : AbsoluteDeadline) (now : Nat) :
    (∃ failure, r.check command (some now) = (.error (.other failure), r)) ∨
    (∃ deadline failure r', r.terminal = none ∧ r.incompleteDeadline = some deadline ∧ deadline.value ≤ now ∧
      r.check command (some now) = (.error (.expired now failure), r') ∧ r'.terminal = some failure) ∨
    r.terminal = none ∧ r.check command (some now) = (.ok (), r) := by
  unfold RawFrameReader.check nowUnixMs
  dsimp only
  rcases expireIncompleteAt_cases r now with ⟨failure, -, same⟩ | ⟨deadline, failure, r', open_, set, late, same, ended⟩ |
    ⟨open_, same⟩
  · rw [same]
    exact .inl ⟨failure, rfl⟩
  · rw [same]
    exact .inr (.inl ⟨deadline, failure, r', open_, set, late, rfl, ended⟩)
  · rw [same]
    unfold ensureDeadlineAt
    dsimp only
    split
    · exact .inl ⟨_, rfl⟩
    · exact .inr (.inr ⟨open_, rfl⟩)

theorem phaseDeadline_ok (command : AbsoluteDeadline) (started budgetMs : Nat) (positive : 0 < budgetMs) :
    ∃ deadline, phaseDeadline command started budgetMs = .ok deadline ∧
      deadline.value = phaseDeadlineValue command.value started budgetMs := by
  have nonzero : phaseDeadlineValue command.value started budgetMs ≠ 0 := by
    have given := command.nonzero
    unfold phaseDeadlineValue saturatingAdd
    dsimp only
    split
    · exact given
    · omega
  unfold phaseDeadline AbsoluteDeadline.new
  rw [dif_neg nonzero]
  exact ⟨_, rfl, rfl⟩

/-- What the account of a chunk does to the reader. -/
theorem trackOuterProgress_cases (r : RawFrameReader) (input : Bytes) (command : AbsoluteDeadline) (now : Nat) :
    ∃ incompleteDeadline, r.trackOuterProgress input command now =
        (.ok (), { r with outerProgress := r.outerProgress.push input, incompleteDeadline }) ∧
      (if (r.outerProgress.push input).isIncomplete then
        match r.incompleteDeadline with
        | some deadline => incompleteDeadline = some deadline
        | none => ∃ deadline, incompleteDeadline = some deadline ∧
            deadline.value = phaseDeadlineValue command.value now incompleteOuterMs
      else incompleteDeadline = none) := by
  unfold RawFrameReader.trackOuterProgress
  dsimp only
  split
  · cases set : r.incompleteDeadline with
    | some deadline =>
        refine ⟨some deadline, ?_, rfl⟩
        rw [if_neg (by simp), ← set]
    | none =>
        obtain ⟨deadline, made, value⟩ := phaseDeadline_ok command now incompleteOuterMs (by decide)
        refine ⟨some deadline, ?_, deadline, rfl, value⟩
        rw [if_pos (by simp), made]
  · exact ⟨none, rfl, rfl⟩

/-- The result does not come from `expire_incomplete_at`. -/
def Unexpired (result : Option (Except ReadFailure Bytes)) : Prop := ∀ now failure, result ≠ some (.error (.expired now failure))

/-- How a step of a reader goes. -/
inductive Goes (r : RawFrameReader) (command : AbsoluteDeadline) (after : Nat) :
    Option Bytes → Option (Except ReadFailure Bytes) → RawFrameReader → Prop
  | expired {deadline failure r'} {now : Nat} : r.terminal = none → r.incompleteDeadline = some deadline → deadline.value ≤ now →
      r'.terminal = some failure → Goes r command after none (some (.error (.expired now failure))) r'
  | rested {result} {ready : List Bytes} : Unexpired result → Goes r command after none result { r with ready }
  | failed {taken result r'} : Unexpired result → r'.terminal.isSome → Goes r command after taken result r'
  | took {input frames decoder result incompleteDeadline} {ready : List Bytes} : r.terminal = none → Unexpired result →
      r.decoder.push input = (.ok frames, decoder) →
      (if (r.outerProgress.push input).isIncomplete then
        match r.incompleteDeadline with
        | some deadline => incompleteDeadline = some deadline
        | none => ∃ deadline, incompleteDeadline = some deadline ∧
            deadline.value = phaseDeadlineValue command.value after incompleteOuterMs
      else incompleteDeadline = none) →
      Goes r command after (some input) result
        { r with decoder, outerProgress := r.outerProgress.push input, incompleteDeadline, ready }

theorem begin_goes (r : RawFrameReader) (command : AbsoluteDeadline) (now after : Nat) :
    Goes r command after none (r.begin_ command (some now)).1 (r.begin_ command (some now)).2 := by
  unfold RawFrameReader.begin_
  split
  · exact .rested (by rintro _ _ ⟨⟩)
  · rcases check_cases r command now with ⟨failure, same⟩ | ⟨deadline, failure, r', open_, set, late, same, ended⟩ |
      ⟨open_, same⟩
    · rw [same]
      exact .rested (by rintro _ _ ⟨⟩)
    · rw [same]
      exact .expired open_ set late ended
    · rw [same]
      dsimp only
      split
      · exact .rested (by rintro _ _ ⟨⟩)
      · exact .rested (by rintro _ _ ⟨⟩)

theorem readDeadline_ok (r : RawFrameReader) (command : AbsoluteDeadline) : ∃ deadline, r.readDeadline command = .ok deadline := by
  unfold RawFrameReader.readDeadline AbsoluteDeadline.new
  cases set : r.incompleteDeadline with
  | none => exact ⟨command, rfl⟩
  | some incomplete =>
      have nonzero : min command.value incomplete.value ≠ 0 := by
        have first := command.nonzero
        have second := incomplete.nonzero
        omega
      dsimp only
      rw [dif_neg nonzero]
      exact ⟨_, rfl⟩

theorem eof_terminal (r : RawFrameReader) (owner : Owner) : (r.eof owner).2.terminal.isSome := rfl

theorem turn_goes (r : RawFrameReader) (owner : Owner) (command : AbsoluteDeadline) (current : Nat)
    (read : AbsoluteDeadline → Except PlatformFailureKind Bytes) (after : Nat) :
    Goes r command after (takes r command current read)
      (r.turn owner command { current := some current, read, after := some after }).1
      (r.turn owner command { current := some current, read, after := some after }).2 := by
  obtain ⟨deadline, readable⟩ := readDeadline_ok r command
  unfold RawFrameReader.turn takes
  rcases check_cases r command current with ⟨failure, same⟩ | ⟨deadline, failure, r', open_, set, late, same, ended⟩ |
    ⟨open_, same⟩
  · rw [same]
    exact .rested nofun
  · rw [same]
    exact .expired open_ set late ended
  · rw [same]
    dsimp only
    rw [readable]
    dsimp only [nowUnixMs]
    cases read deadline with
    | error kind =>
        dsimp only
        rcases expireIncompleteAt_cases r after with ⟨failure, -, same⟩ | ⟨deadline, failure, r', open_, set, late, same, ended⟩ |
          ⟨open_, same⟩
        · rw [same]
          exact .rested nofun
        · rw [same]
          exact .expired open_ set late ended
        · rw [same]
          dsimp only
          split
          · exact .failed nofun (eof_terminal r owner)
          · exact .rested nofun
    | ok input =>
        dsimp only
        by_cases long : input.length > chunkLength
        · rw [if_pos long, if_pos (.inl long)]
          exact .failed nofun rfl
        · by_cases empty : input = []
          · rw [if_neg long, if_pos empty, if_pos (.inr empty)]
            exact .failed nofun (eof_terminal r owner)
          · rw [if_neg long, if_neg empty, if_neg (not_or.mpr ⟨long, empty⟩)]
            cases pushed : r.decoder.push input with
            | mk result decoder =>
                cases result with
                | error error => exact .failed nofun rfl
                | ok frames =>
                    dsimp only
                    obtain ⟨incompleteDeadline, tracked, which⟩ :=
                      trackOuterProgress_cases { r with decoder } input command after
                    rw [tracked]
                    dsimp only
                    split
                    · exact .took open_ nofun pushed which
                    · exact .took open_ nofun pushed which

/-- The bytes that a step leaves incomplete. -/
theorem Goes.keeps {taken : Option Bytes} {after : Nat} {result : Option (Except ReadFailure Bytes)}
    (goes : Goes r command after taken result r') (keeps : KeepsOpen r held)
    (timely : ∀ input, taken = some input → ¬ ((held ≠ [] ∧ Overruns held (stamped after input)) ∨
      (held = [] ∧ incomplete (stamped after input) ≠ [] ∧ command.value < after + incompleteOuterMs))) :
    KeepsOpen r' (match taken with
      | some input => incomplete (held ++ stamped after input)
      | none => held) := by
  cases goes with
  | expired _ _ _ ended =>
      intro open_
      rw [ended] at open_
      cases open_
  | rested =>
      intro open_
      obtain ⟨buffers, tracks, unset, set⟩ := keeps open_
      exact ⟨buffers, tracks, unset, set⟩
  | failed _ ended =>
      intro open_
      rw [open_] at ended
      cases ended
  | @took input frames decoder _ incompleteDeadline _ open_ _ pushed which =>
      intro _
      obtain ⟨buffers, tracks, unset, set⟩ := keeps open_
      have timely := timely input rfl
      obtain ⟨buffers', nonempty⟩ := push_buffers after buffers pushed
      have tracks' := tracks.push nonempty
      rw [stamped_bytes] at tracks'
      have partial_ := tracks'.isIncomplete
      dsimp only
      refine ⟨buffers', tracks', fun none => ?_, fun deadline some_ => ?_⟩
      · dsimp only at none
        by_contra held'
        rw [if_pos (partial_.mpr held')] at which
        split at which
        · rw [none] at which
          cases which
        · obtain ⟨_, made, -⟩ := which
          rw [none] at made
          cases made
      · dsimp only at some_
        split at which
        · rename_i incomplete_
          have held' := partial_.mp incomplete_
          split at which
          · -- the deadline of the frame that the chunk goes on with
            rename_i earlier was
            rw [some_] at which
            cases which
            obtain ⟨received, byte, more, began, within⟩ := set _ was
            have grows : incomplete (held ++ stamped after input) = held ++ stamped after input := by
              by_contra differs
              refine timely (.inl ⟨?_, held', differs⟩)
              rw [began]
              exact nofun
            exact ⟨received, byte, _, by rw [grows, began]; rfl, within⟩
          · -- a new deadline for a frame that begins with the chunk
            rename_i was
            obtain ⟨_, made, value⟩ := which
            rw [some_] at made
            cases made
            have nothing := unset was
            rw [nothing, List.nil_append] at held' ⊢
            have room : after + incompleteOuterMs ≤ command.value := by
              by_contra short
              exact timely (.inr ⟨nothing, held', by omega⟩)
            cases began : incomplete (stamped after input) with
            | nil => exact absurd began held'
            | cons head more =>
                have member : head ∈ stamped after input := by
                  refine (incomplete_suffix _).subset (?_ : head ∈ incomplete (stamped after input))
                  rw [began]
                  exact List.mem_cons_self
                obtain ⟨byte, -, rfl⟩ := List.mem_map.mp member
                refine ⟨after, byte, more, rfl, ?_⟩
                have small := command.small
                rw [value]
                unfold phaseDeadlineValue saturatingAdd
                dsimp only
                split
                · exact room
                · omega
        · rw [some_] at which
          cases which

theorem keeps_new : KeepsOpen .new [] := fun _ => ⟨new_buffers, tracks_new, fun _ => rfl, nofun⟩

theorem heldBytes_snoc (steps : List MoveStep) (step : MoveStep) :
    heldBytes (steps ++ [step]) = nextHeld (heldBytes steps) step := by
  unfold heldBytes
  rw [List.foldl_append]
  rfl

/-- How a move goes: the reader is left alone, or it goes on as it can. -/
theorem move_goes (d : Desk) (m : Move) {step : MoveStep} (is_ : step = ⟨d, m, (move d m).1, (move d m).2⟩) :
    ((move d m).1 = none ∧ (move d m).2 = d ∧ receives step = none) ∨
      ∃ command after, Goes d.reader command after ((receives step).map (·.1)) (move d m).1 (move d m).2.reader ∧
        ∀ input after' command', receives step = some (input, after', command') → after' = after ∧ command' = command := by
  subst is_
  unfold move receives
  cases m with
  | call owner command current =>
      cases running : d.running with
      | some other => exact .inl ⟨rfl, rfl, rfl⟩
      | none => exact .inr ⟨command, 0, begin_goes d.reader command current 0, nofun⟩
  | turn current read after =>
      cases running : d.running with
      | none => exact .inl ⟨rfl, rfl, rfl⟩
      | some call =>
          obtain ⟨owner, command⟩ := call
          have goes := turn_goes d.reader owner command current read after
          refine .inr ⟨command, after, ?_, fun input after' command' given => ?_⟩
          · dsimp only
            rw [Option.map_map, show ((·.1) ∘ fun input => (input, after, command)) = (id : Bytes → Bytes) from rfl, Option.map_id]
            exact goes
          · dsimp only at given
            obtain ⟨_, -, same⟩ := Option.map_eq_some_iff.mp given
            cases same
            exact ⟨rfl, rfl⟩

theorem move_keeps (past : List MoveStep) (d : Desk) (m : Move) (keeps : KeepsOpen d.reader (heldBytes past))
    (timely : ¬ Mistimes past ⟨d, m, (move d m).1, (move d m).2⟩) :
    KeepsOpen (move d m).2.reader (heldBytes (past ++ [⟨d, m, (move d m).1, (move d m).2⟩])) := by
  rw [heldBytes_snoc]
  unfold nextHeld
  rcases move_goes d m rfl with ⟨-, same, nothing⟩ | ⟨command, after, goes, of_⟩
  · rw [nothing, same]
    exact keeps
  · unfold Mistimes at timely
    generalize receives _ = received at goes of_ timely ⊢
    cases received with
    | none => exact goes.keeps keeps nofun
    | some chunk =>
        obtain ⟨input, after', command'⟩ := chunk
        obtain ⟨rfl, rfl⟩ := of_ input after' command' rfl
        refine goes.keeps keeps fun input' same wrong => ?_
        cases same
        exact timely ⟨input, _, _, rfl, wrong⟩

/-- Every run of a reader in which no step mistimes a frame. -/
theorem expires_in_time {moves : List Move}
    (timely : ∀ past b rest, Runs.trace move .new moves = past ++ b :: rest → ¬ Mistimes past b) :
    ExpiresInTime (Runs.trace move .new moves) := by
  intro past b rest now failure split output _
  obtain ⟨first, m, last, -, front, rfl, -⟩ := Runs.trace_split split
  have earlier : ∀ before step after, Runs.trace move .new first = before ++ step :: after → ¬ Mistimes before step :=
    fun before step after same => timely before step _ (by rw [split, front, same, List.append_assoc, List.cons_append])
  have keeps : KeepsOpen (Runs.final move .new first).reader (heldBytes (Runs.trace move .new first)) :=
    Runs.guarded_invariant (fun past d => KeepsOpen d.reader (heldBytes past)) (fun past b => ¬ Mistimes past b)
      (fun past d m keeps timely => move_keeps past d m keeps timely) .new first keeps_new earlier
  rw [front]
  generalize Runs.final move .new first = d at keeps output
  dsimp only at output
  rcases move_goes d m rfl with ⟨none, -, -⟩ | ⟨command, after, goes, -⟩
  · rw [none] at output
    cases output
  · rw [output] at goes
    generalize Option.map _ (receives _) = taken at goes
    generalize (move d m).2.reader = reader at goes
    cases goes with
    | expired open_ set late _ =>
        obtain ⟨received, byte, more, began, within⟩ := (keeps open_).set _ set
        exact ⟨received, byte, more, began, within.trans late⟩
    | rested unexpired => exact absurd rfl (unexpired now failure)
    | failed unexpired => exact absurd rfl (unexpired now failure)
    | took _ unexpired => exact absurd rfl (unexpired now failure)

end

/-! ## Both sides -/

section
open Target LimitRounds
variable {R H T : Type} {noise : Noise R H T} {descriptor : Bytes} {draws : List Nat} {t₀ : TargetTransport H T} {ready : Outcome}

/-- On both sides an incomplete frame is charged for its own time only, in every run that never
    completes a frame together with the start of the next, and where the Broker never begins a
    frame under a command that ends sooner than the frame may take. -/
theorem incomplete_frames_own_deadline (made : TargetTransport.create descriptor draws = .ok (t₀, ready))
    (inputs : List (R × Event)) (moves : List Move)
    (timely : ∀ past b rest, Runs.trace move .new moves = past ++ b :: rest → ¬ Mistimes past b)
    (apart : ∀ past b rest, history noise t₀ inputs = past ++ b :: rest → ¬ Coalesces past b) :
    ExpiresInTime (Runs.trace move .new moves) ∧ FiresForFrame (history noise t₀ inputs) :=
  ⟨expires_in_time timely, fires_for_frame made apart⟩

/-- A command with ten seconds left. -/
def patient : AbsoluteDeadline := { value := 10000, nonzero := by decide, small := by decide }

/-- The first byte of a frame arrives, and then nothing for two seconds. -/
def stalled : List Move :=
  [.call .outer patient 1000, .turn 1000 (fun _ => .ok [0]) 1000, .turn 1000 (fun _ => .error .timedOut) 3000]

theorem stalled_timely : ∀ past b rest, Runs.trace move .new stalled = past ++ b :: rest → ¬ Mistimes past b := by
  rintro past b rest split ⟨input, after, command, given, wrong⟩
  obtain ⟨first, m, last, moves, rfl, rfl, -⟩ := Runs.trace_split split
  match first, moves with
  | [], moves =>
      cases moves
      cases given
  | [_], moves =>
      cases moves
      cases given
      rcases wrong with ⟨held, -⟩ | ⟨-, -, short⟩
      · exact held rfl
      · exact absurd short (by decide)
  | [_, _], moves =>
      cases moves
      cases given
  | _ :: _ :: _ :: _, moves =>
      have long := congrArg List.length moves
      simp [stalled] at long

theorem waiting_apart : ∀ past b rest, history nonceNoise start (waiting ++ [begun] ++ [expiring]) = past ++ b :: rest →
    ¬ Coalesces past b := by
  rintro past b rest split ⟨feeds, held, -⟩
  obtain ⟨first, input, last, inputs, rfl, rfl, -⟩ := Runs.trace_split split
  have once : (waiting ++ [begun] ++ [expiring]).Pairwise fun a b =>
      a.2.tag = .streamBytes → b.2.tag = .streamBytes → a.2.streamId ≠ b.2.streamId := by decide
  rw [inputs] at once
  refine held (inFlight_unfed fun step member tag => ?_)
  obtain ⟨front, back, split⟩ := List.append_of_mem member
  obtain ⟨before, input', after, inputs', -, rfl, -⟩ := Runs.trace_split split
  exact (List.pairwise_append.mp once).2.2 input' (by simp [inputs']) input (by simp) tag feeds.2.1

theorem stalled_own_deadline : ExpiresInTime (Runs.trace move .new stalled) ∧
    FiresForFrame (history nonceNoise start (waiting ++ [begun] ++ [expiring])) :=
  incomplete_frames_own_deadline created _ stalled stalled_timely waiting_apart

/-- A frame arrives in two chunks, the second with the first byte of the next, and another call begins. -/
def overrun : List Move :=
  [.call .outer patient 1000, .turn 1000 (fun _ => .ok [0]) 1000, .turn 1000 (fun _ => .ok [1, 7, 0]) 2999,
    .call .outer patient 3000]

/-- The second frame, one millisecond old, is ended by the deadline of the first, on both sides. -/
theorem overrun_inherits_deadline : ¬ ExpiresInTime (Runs.trace move .new overrun) ∧
    TargetTransport.create (encodeDescriptor LimitRounds.descriptor) [0] =
      .ok (start, (Outcome.new .endpointReady).values 0 50000) ∧
    ¬ FiresForFrame (history nonceNoise start (waiting ++ [begun] ++ [coalesced] ++ [expiring])) := by
  refine ⟨fun own => ?_, coalesced_inherits⟩
  have split : Runs.trace move .new overrun = Runs.trace move .new (overrun.take 3) ++
      [⟨Runs.final move .new (overrun.take 3), .call .outer patient 3000, some (.error (.expired 3000 (transportFailure .timeout))),
        (move (Runs.final move .new (overrun.take 3)) (.call .outer patient 3000)).2⟩] := rfl
  obtain ⟨received, byte, more, began, within⟩ := own _ _ [] 3000 _ split rfl rfl
  have received_ : heldBytes (Runs.trace move .new (overrun.take 3)) =
      incomplete (incomplete (stamped 1000 [0]) ++ stamped 2999 [1, 7, 0]) := rfl
  have header : incomplete (stamped 1000 [(0 : UInt8)]) = [(1000, 0)] := incomplete_short (by simp [stamped])
  have whole : incomplete ([(1000, (0 : UInt8))] ++ stamped 2999 [1, 7, 0]) = incomplete [(2999, 0)] :=
    incomplete_long (by decide)
  have next : incomplete [(2999, (0 : UInt8))] = [(2999, 0)] := incomplete_short (by simp)
  rw [received_, header, whole, next] at began
  cases began
  exact absurd within (by decide)

end

end AppPilotKit.Raw
