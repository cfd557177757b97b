import AppPilotKit.Target.LimitRounds

/-! # What the supervisor promises about a child

Its events stay with it; an end that follows a delivered message reports that the
message may have been handed off; its end is final. The last two have one
exception, the commit of a Close frame.
-/

namespace AppPilotKit.Target

open Wire Transport

section
variable {R H T : Type} {noise : Noise R H T} {descriptorCbor : Bytes} {draws : List Nat}
  {t₀ : TargetTransport H T} {ready : Outcome}

/-! ## Isolation -/

/-- An event for one child leaves every other child, the lease and their timers
    as they are, whatever the outcome. -/
theorem child_events_isolated (noise : Noise R H T) (made : TargetTransport.create descriptorCbor draws = .ok (t₀, ready)) (inputs : List (R × Event))
    {e : Eligible H T} (eligible : (reached noise t₀ inputs).phase = .eligible e) (entropy : R) (event : Event) (s : Nat)
    (addressed : Addressed s (reached noise t₀ inputs) event)
    (child : (e.children.lookup s).isSome ∨ event.tag = .timerFired) :
    ((reached noise t₀ inputs).drive noise entropy event).2.generation = (reached noise t₀ inputs).generation ∧
    (∃ children, ((reached noise t₀ inputs).drive noise entropy event).2.phase = .eligible { e with children } ∧
      ∀ other, other ≠ s → children.lookup other = e.children.lookup other) ∧
    Only s (reached noise t₀ inputs).clock ((reached noise t₀ inputs).drive noise entropy event).2.clock := by
  have sound := reached_sound noise made inputs
  have registered : ∃ there, e.children.lookup s = some there := by
    cases found : e.children.lookup s with
    | some there => exact ⟨there, rfl⟩
    | none =>
        -- only a timer may come without a child, and then its stream has one
        rcases addressed with ⟨-, kind⟩ | ⟨-, action, fires, names⟩
        · rw [found] at child
          rcases child with child | child
          · cases child
          · rw [child] at kind
            simp at kind
        · exact absurd names (sound.unnamed s ((registered_eligible eligible s).trans found) _ _ fires)
  obtain ⟨there, found⟩ := registered
  have answer := drive_child noise entropy sound eligible found addressed
  obtain ⟨children, phase, others, fate⟩ := answer.phase
  exact ⟨answer.generation, ⟨children, phase, others⟩, fate.only⟩

open LimitRounds in
theorem request_isolated : ∃ e, (reached nonceNoise start opening).phase = .eligible e ∧
    Addressed 2 (reached nonceNoise start opening) (request 0).2 ∧
    ∃ children, ((reached nonceNoise start opening).drive nonceNoise () (request 0).2).2.phase =
      .eligible { e with children } ∧ ∀ other, other ≠ 2 → children.lookup other = e.children.lookup other := by
  obtain ⟨e, child, eligible, -, found, -⟩ := opening_holds
  have addressed : Addressed 2 (reached nonceNoise start opening) (request 0).2 := .inl ⟨rfl, by decide⟩
  have isolated := child_events_isolated nonceNoise created opening eligible () (request 0).2 2 addressed
    (.inl (by rw [found]; rfl))
  exact ⟨e, eligible, addressed, isolated.2.1⟩

/-! ## Handoff -/

/-- Once a child has delivered a message, its end and the end of the lease say
    that the message may have been handed off. -/
def HandoffConservative (steps : List (ServeStep R H T)) : Prop :=
  ∀ past b rest s, steps = past ++ b :: rest → Delivered s past → ∀ o, b.output = .ok o →
    (o.kind = .sessionTerminal ∧ o.streamId = s ∨ o.kind = .leaseTerminal ∧ (b.before.registered s).isSome) →
    o.handoff = .handoffPossibleOrConfirmed

/-- No step commits the Close frame of a child that has delivered a message. -/
def NoLateClose (steps : List (ServeStep R H T)) : Prop :=
  ∀ past b rest, steps = past ++ b :: rest → Delivered b.input.2.streamId past → ¬ CommitsClose b.before b.input.2

/-- The step of a run at which the property is decided. -/
theorem terminal_handoff (made : TargetTransport.create descriptorCbor draws = .ok (t₀, ready)) {inputs : List (R × Event)}
    {past rest : List (ServeStep R H T)} {b : ServeStep R H T} (split : history noise t₀ inputs = past ++ b :: rest)
    {s : Nat} (delivered : Delivered s past) (other : ¬ (CommitsClose b.before b.input.2 ∧ b.input.2.streamId = s))
    {o : Outcome} (answer : b.output = .ok o)
    (terminal : o.kind = .sessionTerminal ∧ o.streamId = s ∨ o.kind = .leaseTerminal ∧ (b.before.registered s).isSome) :
    o.handoff = .handoffPossibleOrConfirmed := by
  obtain ⟨first, input, last, -, rfl, rfl, -⟩ := Runs.trace_split split
  obtain ⟨sound, counted⟩ := reached_counted noise made first
  have passage := drive_passage noise input.1 sound input.2 s
  change (TargetTransport.drive noise input.1 _ input.2).1 = .ok o at answer
  rw [answer] at passage
  cases passage with
  | elsewhere _ _ quiet leaseGoes =>
      rcases terminal with ⟨kind, stream⟩ | ⟨kind, -⟩
      · exact absurd ⟨o, rfl, kind, stream⟩ quiet
      · exact absurd kind (leaseGoes o rfl)
  | accepted _ ok _ =>
      obtain ⟨o', same, kind'⟩ := ok
      cases same
      simp [kind'] at terminal
  | kept _ plain _ _ =>
      have quiet := plain o rfl
      simp [quiet.1.2.1, quiet.1.2.2] at terminal
  | applied _ applies _ _ =>
      obtain ⟨o', same, kind', -⟩ := applies
      cases same
      simp [kind'] at terminal
  | ended there ends _ _ _ =>
      obtain ⟨o', same, -, -, handoff⟩ := ends
      cases same
      rw [handoff, Child.handoff, if_pos (counted s _ delivered there)]
  | slipped _ commits stream _ _ => exact absurd ⟨commits, stream⟩ other
  | leaseEnded kind' counts _ =>
      rcases terminal with ⟨kind, -⟩ | ⟨-, registered⟩
      · rw [kind'] at kind
        cases kind
      · obtain ⟨child, there⟩ := Option.isSome_iff_exists.mp registered
        exact counts child there (counted s child delivered there)

/-- The handoff is told conservatively in exactly the runs that never commit the
    Close frame of a child that has delivered a message. -/
theorem handoff_conservative_iff (made : TargetTransport.create descriptorCbor draws = .ok (t₀, ready))
    (inputs : List (R × Event)) :
    HandoffConservative (history noise t₀ inputs) ↔ NoLateClose (history noise t₀ inputs) := by
  constructor
  · intro conservative past b rest split delivered commits
    have said := conservative past b rest b.input.2.streamId split delivered
    obtain ⟨first, input, last, -, rfl, rfl, -⟩ := Runs.trace_split split
    obtain ⟨⟨o, answer, kind, stream, handoff⟩, -⟩ :=
      commit_slips noise input.1 (reached_sound noise made first) commits
    have wrong := said o answer (.inl ⟨kind, stream⟩)
    rw [handoff] at wrong
    cases wrong
  · intro free past b rest s split delivered o answer terminal
    refine terminal_handoff made split delivered ?_ answer terminal
    rintro ⟨commits, rfl⟩
    exact free past b rest split delivered commits

open LimitRounds in
theorem opening_handoff : TargetTransport.create (encodeDescriptor descriptor) [0] =
      .ok (start, (Outcome.new .endpointReady).values 0 50000) ∧
    (HandoffConservative (history nonceNoise start opening) ↔ NoLateClose (history nonceNoise start opening)) :=
  ⟨created, handoff_conservative_iff created opening⟩

open LimitRounds in
/-- The commit of the Close frame of a child that served to its limit reports `NotHandedOff`. -/
theorem closing_not_handed_off : TargetTransport.create (encodeDescriptor descriptor) [0] =
      .ok (start, (Outcome.new .endpointReady).values 0 50000) ∧
    ¬ HandoffConservative (history nonceNoise start (before last ++ [closing last])) := by
  have general : ∀ n, n = last → ¬ HandoffConservative (history nonceNoise start (before n ++ [closing n])) := by
    intro n limit conservative
    obtain ⟨b, split, ⟨o, answer, kind, stream, handoff⟩, -⟩ := closing_slips limit
    have said := conservative _ b [] 2 split (before_delivers limit).1 o answer (.inl ⟨kind, stream⟩)
    rw [handoff] at said
    cases said
  exact ⟨created, general last rfl⟩

/-! ## The end of a child -/

/-- The end of a child leaves nothing of it, does not come twice, and frees its stream. -/
structure EndsCleanly (noise : Noise R H T) (steps : List (ServeStep R H T)) : Prop where
  cleared : ∀ step ∈ steps, ∀ s, Terminates s step.output →
    step.after.registered s = none ∧ Unnamed s step.after.clock
  once : ∀ past a between b rest s, steps = past ++ a :: between ++ b :: rest → Terminates s a.output →
    Terminates s b.output → ∃ step ∈ between, Accepts s step
  again : ∀ step ∈ steps, ∀ s, Terminates s step.output → Acceptable noise step.after s

/-- Children end cleanly in exactly the runs that commit no Close frame. -/
theorem ends_cleanly_iff (made : TargetTransport.create descriptorCbor draws = .ok (t₀, ready))
    (inputs : List (R × Event)) :
    EndsCleanly noise (history noise t₀ inputs) ↔
      ∀ step ∈ history noise t₀ inputs, ¬ CommitsClose step.before step.input.2 := by
  -- a step of the run, from the state it was taken in
  have taken : ∀ step ∈ history noise t₀ inputs, Sound step.before ∧
      step.output = (serve noise step.before step.input).1 ∧ step.after = (serve noise step.before step.input).2 := by
    intro step member
    obtain ⟨past, rest, split⟩ := List.append_of_mem member
    obtain ⟨first, input, last, -, -, rfl, -⟩ := Runs.trace_split split
    exact ⟨reached_sound noise made first, rfl, rfl⟩
  constructor
  · intro clean step member commits
    obtain ⟨sound, output, after⟩ := taken step member
    obtain ⟨⟨o, answer, kind, stream, -⟩, child, still⟩ := commit_slips noise step.input.1 sound commits
    have gone := (clean.cleared step member step.input.2.streamId ⟨o, output.trans answer, kind, stream⟩).1
    rw [after] at gone
    cases still.symm.trans gone
  · intro free
    have ending : ∀ step ∈ history noise t₀ inputs, ∀ s, Terminates s step.output →
        Free s step.after ∧ Unnamed s step.after.clock := by
      intro step member s terminates
      obtain ⟨sound, output, after⟩ := taken step member
      rw [output] at terminates
      rw [after]
      exact (terminates_cases sound step.input terminates).2.resolve_left (free step member)
    refine ⟨fun step member s terminates => ?_, ?_, fun step member s terminates => ?_⟩
    · exact ⟨(ending step member s terminates).1.registered, (ending step member s terminates).2⟩
    · intro past a between b rest s split terminates again
      by_contra unaccepted
      push Not at unaccepted
      have ended := (ending a (by simp [split]) s terminates).1
      obtain ⟨first, input, last, -, front, rfl, -⟩ := Runs.trace_split split
      obtain ⟨early, input', late, rfl, rfl, rfl, rfl⟩ := Runs.trace_split front.symm
      have sound := reached_sound noise made early
      have after := drive_sound noise input'.1 sound input'.2
      -- from the first end to the second the stream has no child
      have absent := absent_until_accepted after ended.registered late unaccepted
      have there := (terminates_cases (reached_sound noise made (early ++ input' :: late)) input again).1
      obtain ⟨child, found⟩ := there
      rw [reached, Runs.final_append, Runs.final_cons] at found
      cases absent.symm.trans found
    · exact (ending step member s terminates).1.acceptable noise

open LimitRounds in
theorem opening_ends : TargetTransport.create (encodeDescriptor descriptor) [0] =
      .ok (start, (Outcome.new .endpointReady).values 0 50000) ∧
    (EndsCleanly nonceNoise (history nonceNoise start opening) ↔
      ∀ step ∈ history nonceNoise start opening, ¬ CommitsClose step.before step.input.2) :=
  ⟨created, ends_cleanly_iff created opening⟩

open LimitRounds in
/-- The commit of a Close frame leaves the child it reported to have ended. -/
theorem closing_leaves_child : TargetTransport.create (encodeDescriptor descriptor) [0] =
      .ok (start, (Outcome.new .endpointReady).values 0 50000) ∧
    ¬ EndsCleanly nonceNoise (history nonceNoise start (before last ++ [closing last])) := by
  have general : ∀ n, n = last → ¬ EndsCleanly nonceNoise (history nonceNoise start (before n ++ [closing n])) := by
    intro n limit clean
    obtain ⟨b, split, ⟨o, answer, kind, stream, -⟩, child, still⟩ := closing_slips limit
    have gone := clean.cleared b (by simp [split]) 2 ⟨o, answer, kind, stream⟩
    cases still.symm.trans gone.1
  exact ⟨created, general last rfl⟩

end

end AppPilotKit.Target
