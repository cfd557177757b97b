import AppPilotKit.Target.Writes

/-! # Runs never have two writes on one stream

The host keeps the pending write of a stream until it is committed or the stream ends. The
supervisor keeps the same account, so the check that a host makes before a write holds.
-/

namespace AppPilotKit.Target

open Wire Transport LimitRounds

variable {R H T : Type}

/-- The write of `s` that the host has pending after one more step. -/
def nextWrite (s : Nat) (pending : Option Nat) (step : ServeStep R H T) : Option Nat :=
  match step.output with
  | .ok o =>
      if o.kind = .writeFrames ∧ o.streamId = s then some o.writeToken
      else if o.kind = .leaseTerminal ∨ o.kind = .sessionTerminal ∧ o.streamId = s then none
      else if step.input.2.tag = .fullWriteCommitted ∧ step.input.2.streamId = s then none
      else pending
  | .error error =>
      if step.input.2.tag = .fullWriteCommitted ∧ step.input.2.streamId = s ∧ error = .internal then none else pending

def pendingWrite (s : Nat) (steps : List (ServeStep R H T)) : Option Nat := steps.foldl (nextWrite s) none

/-- The step writes frames on `s` under this token. -/
def WritesOn (s token : Nat) (step : ServeStep R H T) : Prop :=
  ∃ o, step.output = .ok o ∧ o.kind = .writeFrames ∧ o.streamId = s ∧ o.writeToken = token

section
variable {noise : Noise R H T} {own s token : Nat} {t : TargetTransport H T} {input : R × Event} {r : Answer H T}
  {descriptor : Bytes} {draws : List Nat} {t₀ : TargetTransport H T} {ready : Outcome}

/-- The account of the host and that of the supervisor move together. -/
theorem Flown.nextWrite (flown : Flown own input.2 t r) (s : Nat) :
    nextWrite s (outstanding t s) ⟨t, input, r.1, r.2⟩ = outstanding r.2 s := by
  unfold Target.nextWrite
  cases flown with
  | wrote commits kind stream _ _ after _ _ _ others =>
      simp only [kind, stream, true_and]
      by_cases same : own = s
      · rw [if_pos same, ← same, after]
      · rw [if_neg same, if_neg (by simp), if_neg (by simp [commits]), others s (Ne.symm same)]
  | committed commits before after carried others =>
      rw [commits]
      simp only [committing, true_and]
      by_cases same : own = s
      · subst same
        rw [after]
        obtain ⟨rfl, -⟩ | ⟨o, rfl, kind⟩ := carried
        · simp
        · obtain kind | kind | ⟨kind, stream⟩ := kind
          all_goals simp [kind]
      · rw [others s (Ne.symm same)]
        obtain ⟨rfl, -⟩ | ⟨o, rfl, kind⟩ := carried
        · simp [same]
        · obtain kind | kind | ⟨kind, stream⟩ := kind
          · simp [kind, same]
          · simp [kind, same]
          · simp [kind, stream, same]
  | ended commits kind stream after others =>
      simp only [kind, stream]
      by_cases same : own = s
      · subst same
        simp [after]
      · rw [others s (Ne.symm same)]
        simp [same, commits]
  | finished commits kind ended =>
      simp [kind, outstanding_ended ended s]
  | @rested r t' same silent declined =>
      rw [same]
      cases r with
      | ok o =>
          obtain ⟨writes, ends, finishes⟩ := silent o rfl
          have commits : input.2.tag ≠ .fullWriteCommitted := by
            intro tag
            obtain ⟨refused | refused, -⟩ := declined tag
            all_goals cases refused
          simp [writes, ends, finishes, commits]
      | error error =>
          simp only
          split
          · rename_i commits
            obtain ⟨tag, -, rfl⟩ := commits
            obtain ⟨refused | refused, -⟩ := declined tag
            all_goals cases refused
          · rfl

theorem reached_write (made : TargetTransport.create descriptor draws = .ok (t₀, ready)) (inputs : List (R × Event)) (s : Nat) :
    pendingWrite s (history noise t₀ inputs) = outstanding (reached noise t₀ inputs) s := by
  induction inputs using List.reverseRecOn with
  | nil =>
      obtain ⟨_, _, phase, -⟩ := create_phase made
      rw [show reached noise t₀ [] = t₀ from rfl]
      unfold outstanding
      rw [phase]
      rfl
  | append_singleton first input ih =>
      have sound := reached_sound noise made first
      have positive := reached_positive noise made first
      unfold history reached pendingWrite at *
      rw [Runs.trace_append, Runs.final_append, List.foldl_append, ih]
      generalize Runs.final (serve noise) t₀ first = t at sound positive ⊢
      change nextWrite s (outstanding t s) ⟨t, input, (t.drive noise input.1 input.2).1, (t.drive noise input.1 input.2).2⟩ =
        outstanding (t.drive noise input.1 input.2).2 s
      by_cases serving : Ended t
      · have rests := drive_ended noise input.1 serving input.2
        obtain ⟨terminal, phase⟩ := id serving
        rw [rests, outstanding_ended serving]
        unfold nextWrite TargetTransport.drive
        simp only [phase]
        rfl
      · obtain ⟨own, flown⟩ := drive_flown noise input.1 sound positive serving input.2
        exact flown.nextWrite s

/-- What is pending was written by some step. -/
theorem pendingWrite_written {steps : List (ServeStep R H T)} {pending : Option Nat}
    (found : steps.foldl (nextWrite s) pending = some token) :
    pending = some token ∨ ∃ step ∈ steps, WritesOn s token step := by
  induction steps generalizing pending with
  | nil => exact .inl found
  | cons step rest ih =>
      rcases ih found with here | ⟨later, member, writes⟩
      · by_cases writes : WritesOn s token step
        · exact .inr ⟨step, List.mem_cons_self, writes⟩
        · refine .inl ?_
          unfold nextWrite at here
          cases out : step.output with
          | ok o =>
              rw [out] at here
              dsimp only at here
              split at here
              · rename_i written
                exact absurd ⟨o, out, written.1, written.2, Option.some.inj here⟩ writes
              · split at here
                · cases here
                · split at here
                  · cases here
                  · exact here
          | error error =>
              rw [out] at here
              dsimp only at here
              split at here
              · cases here
              · exact here
      · exact .inr ⟨later, List.mem_cons_of_mem _ member, writes⟩

/-- A deadline token was given out by its step. -/
theorem deadlineToken_given (noise : Noise R H T) (entropy : R) (positive : 0 < t.clock.nextToken) {event : Event} {o : Outcome}
    (ok : (t.drive noise entropy event).1 = .ok o) (announced : o.deadlineToken = some token) :
    token < (t.drive noise entropy event).2.clock.nextToken := by
  by_cases untold : Untold noise t event
  · have missed := (drive_missed noise entropy positive untold).untold o ok
    rw [announced] at missed
    cases missed.1
  · have told := drive_told noise entropy positive untold
    rw [ok] at told
    cases told with
    | silent none _ =>
        rw [none o rfl] at announced
        cases announced
    | announced same _ adds =>
        rw [announced] at same
        cases same
        exact adds.new.2

/-- The step gives the token to a write or to a timer. -/
def Uses (token : Nat) (step : ServeStep R H T) : Prop :=
  ∃ o, step.output = .ok o ∧ (o.kind = .writeFrames ∧ o.writeToken = token ∨ o.deadlineToken = some token)

/-- Tokens that were used are behind the counter. -/
theorem used_older (made : TargetTransport.create descriptor draws = .ok (t₀, ready)) (inputs : List (R × Event)) :
    ∀ step ∈ history noise t₀ inputs, Uses token step → token < (reached noise t₀ inputs).clock.nextToken := by
  induction inputs using List.reverseRecOn with
  | nil =>
      intro step member
      cases member
  | append_singleton first input ih =>
      have sound := reached_sound noise made first
      have positive := reached_positive noise made first
      unfold history reached at *
      rw [Runs.trace_append, Runs.final_append]
      generalize Runs.final (serve noise) t₀ first = t at sound positive ih ⊢
      have ages := (drive_ages noise input.1 t input.2).tokens
      intro step member uses
      rcases List.mem_append.mp member with before | here
      · exact (ih step before uses).trans_le ages
      · cases List.mem_singleton.mp here
        obtain ⟨o, ok, use⟩ := uses
        change (t.drive noise input.1 input.2).1 = .ok o at ok
        change token < (t.drive noise input.1 input.2).2.clock.nextToken
        rcases use with ⟨kind, rfl⟩ | announced
        · by_cases serving : Ended t
          · obtain ⟨terminal, phase⟩ := serving
            unfold TargetTransport.drive at ok
            simp only [phase] at ok
            cases ok
            cases kind
          · obtain ⟨own, flown⟩ := drive_flown noise input.1 sound positive serving input.2
            generalize t.drive noise input.1 input.2 = r at ok flown ⊢
            obtain ⟨_, after⟩ := r
            cases ok
            cases flown with
            | wrote _ _ _ _ _ _ _ _ given _ => exact given
            | committed _ _ _ carried _ =>
                obtain ⟨carried, -⟩ | ⟨o, carried, kinds⟩ := carried
                · cases carried
                · cases carried
                  rw [kind] at kinds
                  simp at kinds
            | ended _ other _ _ _ =>
                rw [kind] at other
                cases other
            | finished _ other _ =>
                rw [kind] at other
                cases other
            | rested _ silent _ => exact absurd kind (silent o rfl).1
        · exact deadlineToken_given noise input.1 positive ok announced

/-- The supervisor takes a commit exactly when it is that of the write in flight. It answers it,
    unless the counter has no token left for the next timer. -/
theorem Flown.commits {event : Event} (flown : Flown own event t r) (commits : event = committing s token) (nonzero : s ≠ 0)
    (given : token ≠ 0) :
    (¬ Declined r.1 ↔ outstanding t s = some token) ∧
      (¬ Declined r.1 → (∃ o, r.1 = .ok o) ∨ Spent t.clock) ∧ (¬ Declined r.1 → outstanding r.2 s = none) := by
  subst commits
  cases flown with
  | wrote other => exact absurd rfl other
  | ended other => exact absurd rfl other
  | finished other => exact absurd rfl other
  | @committed r t' _ same before after carried _ =>
      cases same
      have taken (refused : Declined r) : False := by
        obtain ⟨carried, -⟩ | ⟨o, carried, -⟩ := carried
        all_goals
          rw [carried] at refused
          obtain refused | refused := refused
          all_goals cases refused
      refine ⟨⟨fun _ => before, fun _ => taken⟩, fun _ => ?_, fun _ => after⟩
      obtain ⟨-, spent⟩ | ⟨o, carried, -⟩ := carried
      · exact .inr spent
      · exact .inl ⟨o, carried⟩
  | rested _ _ declined =>
      obtain ⟨refused, nothing⟩ := declined rfl
      exact ⟨⟨fun taken => absurd refused taken, fun waits => absurd waits (nothing s token rfl nonzero given)⟩,
        fun taken => absurd refused taken, fun taken => absurd refused taken⟩

/-- A write finds its stream free and takes a new token. -/
theorem drive_writes (noise : Noise R H T) (sound : Sound t) (positive : 0 < t.clock.nextToken)
    (writes : WritesOn s token ⟨t, input, (t.drive noise input.1 input.2).1, (t.drive noise input.1 input.2).2⟩) :
    outstanding t s = none ∧ (s ≠ 0 ∧ 0 < token) ∧ t.clock.nextToken ≤ token := by
  obtain ⟨o, ok, kind, rfl, rfl⟩ := writes
  change (t.drive noise input.1 input.2).1 = .ok o at ok
  by_cases serving : Ended t
  · obtain ⟨terminal, phase⟩ := serving
    unfold TargetTransport.drive at ok
    simp only [phase] at ok
    cases ok
    cases kind
  · obtain ⟨own, flown⟩ := drive_flown noise input.1 sound positive serving input.2
    generalize t.drive noise input.1 input.2 = r at ok flown ⊢
    obtain ⟨_, after⟩ := r
    cases ok
    cases flown with
    | wrote _ _ stream own idle _ nonzero fresh _ _ => exact ⟨stream ▸ idle, ⟨stream ▸ own, nonzero⟩, fresh⟩
    | committed _ _ _ carried _ =>
        obtain ⟨carried, -⟩ | ⟨o, carried, kinds⟩ := carried
        · cases carried
        · cases carried
          rw [kind] at kinds
          simp at kinds
    | ended _ other _ _ _ =>
        rw [kind] at other
        cases other
    | finished _ other _ =>
        rw [kind] at other
        cases other
    | rested _ silent _ => exact absurd kind (silent o rfl).1

theorem stays_ended (noise : Noise R H T) (ended : Ended t) (inputs : List (R × Event)) : Ended (reached noise t inputs) := by
  have preserved : ∀ t input, Ended t → Ended (serve noise t input).2 := by
    intro t input ended
    have same := drive_ended noise input.1 ended input.2
    unfold serve
    rw [same]
    exact ended
  exact Runs.invariant preserved t inputs ended

/-- A write that is pending was not committed before. -/
theorem committed_once (made : TargetTransport.create descriptor draws = .ok (t₀, ready)) (inputs : List (R × Event))
    (nonzero : s ≠ 0) (given : token ≠ 0) (pending : outstanding (reached noise t₀ inputs) s = some token) :
    ∀ a ∈ history noise t₀ inputs, a.input.2 = committing s token → Declined a.output := by
  intro a member commits
  by_contra taken
  obtain ⟨front, back, split⟩ := List.append_of_mem member
  obtain ⟨first, input, others, joined, rfl, rfl, rfl⟩ := Runs.trace_split split
  have sound := reached_sound noise made first
  have positive := reached_positive noise made first
  by_cases serving : Ended (reached noise t₀ first)
  · have over_ := stays_ended noise serving (input :: others)
    unfold reached at over_ pending
    rw [joined, Runs.final_append, outstanding_ended over_] at pending
    cases pending
  · obtain ⟨own, flown⟩ := drive_flown noise input.1 sound positive serving input.2
    obtain ⟨took, -, after⟩ := flown.commits commits nonzero given
    -- the token was written before the commit …
    have before := took.mp taken
    rw [← reached_write made first s] at before
    obtain none | ⟨old, earlier, wrote⟩ := pendingWrite_written before
    · cases none
    -- … and again after it
    have again := pending
    rw [← reached_write made inputs s, split] at again
    unfold pendingWrite at again before
    rw [List.foldl_append, List.foldl_cons, before] at again
    have emptied := flown.nextWrite s
    rw [took.mp taken, after taken] at emptied
    obtain none | ⟨later, further, writes⟩ := pendingWrite_written again
    · cases emptied.symm.trans none
    · obtain ⟨pre, post, back⟩ := List.append_of_mem further
      rw [back, ← List.cons_append, ← List.append_assoc] at split
      obtain ⟨second, input', _, -, whole, rfl, -⟩ := Runs.trace_split split
      have fresh := (drive_writes noise (reached_sound noise made second) (reached_positive noise made second) writes).2.2
      obtain ⟨o, ok, kind, -, same⟩ := wrote
      have older := used_older made second old (whole ▸ List.mem_append_left _ earlier) ⟨o, ok, .inl ⟨kind, same⟩⟩
      exact absurd older (Nat.not_lt.mpr fresh)

/-- A pending write has a stream and a token. -/
theorem pendingWrite_nonzero (made : TargetTransport.create descriptor draws = .ok (t₀, ready)) (inputs : List (R × Event))
    (pending : pendingWrite s (history noise t₀ inputs) = some token) : s ≠ 0 ∧ token ≠ 0 := by
  obtain none | ⟨step, member, writes⟩ := pendingWrite_written pending
  · cases none
  · obtain ⟨front, back, split⟩ := List.append_of_mem member
    obtain ⟨first, input, _, -, -, rfl, -⟩ := Runs.trace_split split
    obtain ⟨-, ⟨nonzero, given⟩, -⟩ := drive_writes noise (reached_sound noise made first) (reached_positive noise made first) writes
    exact ⟨nonzero, given.ne'⟩

/-- A commit without a stream or a token is malformed. -/
theorem malformed_declined (noise : Noise R H T) (entropy : R) (serving : ¬ Ended t) (zero : s = 0 ∨ token = 0) :
    Declined (t.drive noise entropy (committing s token)).1 := by
  unfold TargetTransport.drive
  split
  · rename_i terminal phase
    exact absurd ⟨terminal, phase⟩ serving
  · have malformed : (committing s token).streamId = 0 ∨ (committing s token).writeToken = 0 ∨
        (committing s token).bytes ≠ [] := by
      simpa [committing] using zero
    have flags : ¬ (committing s token).flags ≠ 0 := by simp [committing]
    have tag : (committing s token).tag = .fullWriteCommitted := rfl
    rw [if_neg flags, tag]
    unfold TargetTransport.fullWriteCommitted
    dsimp only
    rw [if_pos malformed]
    exact .inr rfl

/-- Every write of a run finds its stream free and has a token that was never used; and a commit
    is taken exactly when it is that of the pending write of its stream, so at most once. -/
theorem one_write_in_flight (made : TargetTransport.create descriptor draws = .ok (t₀, ready)) (inputs : List (R × Event)) :
    ∀ past b rest, history noise t₀ inputs = past ++ b :: rest →
      (∀ s token, WritesOn s token b → pendingWrite s past = none ∧ token ≠ 0 ∧ ∀ step ∈ past, ¬ Uses token step) ∧
      ∀ s token, b.input.2 = committing s token → ¬ Ended b.before →
        (¬ Declined b.output ↔ pendingWrite s past = some token) ∧
        (¬ Declined b.output → (∃ o, b.output = .ok o) ∨ Spent b.before.clock) ∧
        (¬ Declined b.output → ∀ a ∈ past, a.input.2 = committing s token → Declined a.output) := by
  intro past b rest split
  obtain ⟨first, input, others, -, rfl, rfl, -⟩ := Runs.trace_split split
  have sound := reached_sound noise made first
  have positive := reached_positive noise made first
  refine ⟨fun s token writes => ?_, fun s token commits serving => ?_⟩
  · obtain ⟨idle, ⟨-, nonzero⟩, fresh⟩ := drive_writes noise sound positive writes
    refine ⟨(reached_write made first s).trans idle, nonzero.ne', fun step member uses => ?_⟩
    exact absurd (used_older made first step member uses) (Nat.not_lt.mpr fresh)
  · by_cases zero : s = 0 ∨ token = 0
    · have declined := malformed_declined noise input.1 serving zero
      rw [← show input.2 = committing s token from commits] at declined
      refine ⟨⟨fun taken => absurd declined taken, fun pending => ?_⟩, fun taken => absurd declined taken,
        fun taken => absurd declined taken⟩
      obtain ⟨nonzero, given⟩ := pendingWrite_nonzero made first pending
      exact absurd zero (not_or.mpr ⟨nonzero, given⟩)
    · obtain ⟨nonzero, given⟩ := not_or.mp zero
      obtain ⟨own, flown⟩ := drive_flown noise input.1 sound positive serving input.2
      obtain ⟨taken, answered, -⟩ := flown.commits commits nonzero given
      rw [reached_write made first s]
      exact ⟨taken, answered, fun takes => committed_once made first nonzero given (taken.mp takes)⟩

end

theorem opening_writes : TargetTransport.create (encodeDescriptor descriptor) [0] =
      .ok (start, (Outcome.new .endpointReady).values 0 50000) ∧
    ∀ past b rest, history nonceNoise start opening = past ++ b :: rest →
      ∀ s token, WritesOn s token b → pendingWrite s past = none ∧ token ≠ 0 ∧ ∀ step ∈ past, ¬ Uses token step :=
  ⟨created, fun past b rest split => (one_write_in_flight created opening past b rest split).1⟩

end AppPilotKit.Target
