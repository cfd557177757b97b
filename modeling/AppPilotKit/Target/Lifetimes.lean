import AppPilotKit.Lib.Runs
import AppPilotKit.Target.Registry

/-! # The lives of children

A run of the supervisor seen from one stream: each event is a passage of its
child, and what a run delivered is counted by the child for as long as it is
registered.
-/

namespace AppPilotKit.Target

open Wire Transport

variable {R H T : Type}

/-- One event, with the randomness it may use. -/
def serve (noise : Noise R H T) (t : TargetTransport H T) (input : R × Event) :
    Except SupervisorError Outcome × TargetTransport H T :=
  t.drive noise input.1 input.2

abbrev ServeStep (R H T : Type) := Runs.Step (TargetTransport H T) (R × Event) (Except SupervisorError Outcome)

/-- The steps of a run. -/
abbrev history (noise : Noise R H T) (t : TargetTransport H T) (inputs : List (R × Event)) : List (ServeStep R H T) :=
  Runs.trace (serve noise) t inputs

/-- The state a run reaches. -/
abbrev reached (noise : Noise R H T) (t : TargetTransport H T) (inputs : List (R × Event)) : TargetTransport H T :=
  Runs.final (serve noise) t inputs

/-- The answer ends the child of `s`. -/
def Terminates (s : Nat) (r : Except SupervisorError Outcome) : Prop :=
  ∃ o, r = .ok o ∧ o.kind = .sessionTerminal ∧ o.streamId = s

/-- The step accepts a child under `s`. -/
def Accepts (s : Nat) (step : ServeStep R H T) : Prop :=
  Joins step.input.2 s ∧ ∃ o, step.output = .ok o ∧ o.kind = .writeFrames

theorem reached_sound (noise : Noise R H T) {descriptor : Bytes} {draws : List Nat} {t : TargetTransport H T}
    {ready : Outcome} (made : TargetTransport.create descriptor draws = .ok (t, ready)) (inputs : List (R × Event)) :
    Sound (reached noise t inputs) := by
  have keeps : ∀ t input, Sound t → Sound (serve noise t input).2 :=
    fun _ input sound => drive_sound noise input.1 sound input.2
  exact Runs.invariant keeps t inputs (create_sound made)

/-! ## One stream -/

/-- The lease is there and `s` is free for a new child. -/
def Free (s : Nat) (t : TargetTransport H T) : Prop :=
  ∃ e, t.phase = .eligible e ∧ s ≠ 0 ∧ e.leaseStream ≠ s ∧ e.children.lookup s = none

theorem Free.registered {s : Nat} {t : TargetTransport H T} (free : Free s t) : t.registered s = none := by
  obtain ⟨e, eligible, -, -, absent⟩ := free
  exact (registered_eligible eligible s).trans absent

/-- What an event means for the stream `s`: the child before, the answer, and the
    child and the clock after. -/
inductive Passage (s : Nat) (t : TargetTransport H T) (event : Event) :
    Except SupervisorError Outcome → TargetTransport H T → Prop where
  | elsewhere {r t'} : t'.registered s = t.registered s → ¬ Applies s r → ¬ Terminates s r →
      (∀ o, r = .ok o → o.kind ≠ .leaseTerminal) → Passage s t event r t'
  | accepted {r t' child} : Joins event s → (∃ o, r = .ok o ∧ o.kind = .writeFrames) → t'.registered s = some child →
      Passage s t event r t'
  | kept {r t' child child'} : t.registered s = some child → Plain s r → t'.registered s = some child' →
      child.applications ≤ child'.applications → Passage s t event r t'
  | applied {r t' child child'} : t.registered s = some child → Applies s r → t'.registered s = some child' →
      0 < child'.applications → Passage s t event r t'
  | ended {r t' child} : t.registered s = some child → Ends s child.handoff r → ¬ CommitsClose t event → Free s t' →
      Unnamed s t'.clock → Passage s t event r t'
  | slipped {r t' child} : t.registered s = some child → CommitsClose t event → event.streamId = s →
      Ends s .notHandedOff r → t'.registered s = some { child with phase := .terminal } → Passage s t event r t'
  | leaseEnded {o t'} : o.kind = .leaseTerminal →
      (∀ child, t.registered s = some child → 0 < child.applications → o.handoff = .handoffPossibleOrConfirmed) →
      t'.registered s = none → Passage s t event (.ok o) t'

/-- The commit of a Close frame reports an end and keeps the child. -/
theorem commit_slips (noise : Noise R H T) (entropy : R) {t : TargetTransport H T} (sound : Sound t) {event : Event}
    (commits : CommitsClose t event) :
    Ends event.streamId .notHandedOff (t.drive noise entropy event).1 ∧
      ∃ child, (t.drive noise entropy event).2.registered event.streamId = some child := by
  obtain ⟨tag, flags, ⟨stream, token, bytes⟩, child, terminal, found, pending⟩ := commits
  obtain ⟨e, eligible, there⟩ := registered_some found
  have registered := (sound.streams e event.streamId child eligible there).2
  unfold TargetTransport.drive TargetTransport.fullWriteCommitted TargetTransport.commitChildWrite
  simp only [eligible, flags, tag, stream, token, bytes, registered, there, pending, ne_eq, not_true, if_false, or_self,
    if_true]
  exact ⟨⟨_, rfl, rfl, rfl, rfl⟩, _, AList.lookup_insert _⟩

theorem Plain.not_applies {own : Nat} {r : Except SupervisorError Outcome} (plain : Plain own r) (s : Nat) : ¬ Applies s r := by
  rintro ⟨o, rfl, kind, -⟩
  exact (plain o rfl).1.1 kind

theorem Plain.not_terminates {own : Nat} {r : Except SupervisorError Outcome} (plain : Plain own r) (s : Nat) :
    ¬ Terminates s r := by
  rintro ⟨o, rfl, kind, -⟩
  exact (plain o rfl).1.2.1 kind

theorem Plain.not_leaseTerminal {own : Nat} {r : Except SupervisorError Outcome} (plain : Plain own r) (o : Outcome)
    (ok : r = .ok o) : o.kind ≠ .leaseTerminal := (plain o ok).1.2.2

/-- An answer about the child of one stream, seen from another. -/
theorem ChildAnswer.elsewhere {s other : Nat} {t : TargetTransport H T} {e : Eligible H T} {child : Child H T}
    {slip : Prop} {r : Answer H T} {event : Event} (answer : ChildAnswer s t e child slip r)
    (eligible : t.phase = .eligible e) (differs : other ≠ s) : Passage other t event r.1 r.2 := by
  obtain ⟨children, phase, others, fate⟩ := answer.phase
  have same : r.2.registered other = t.registered other := by
    rw [registered_eligible phase, registered_eligible eligible, others other differs]
  generalize children.lookup s = after at fate
  generalize r.2.clock = clock at fate
  generalize r.1 = result at fate ⊢
  cases fate with
  | kept plain _ _ => exact .elsewhere same (plain.not_applies other) (plain.not_terminates other) plain.not_leaseTerminal
  | applied applies _ _ =>
      obtain ⟨o, rfl, kind, stream⟩ := applies
      refine .elsewhere same ?_ ?_ ?_
      · rintro ⟨o', ok, -, stream'⟩
        cases ok
        exact differs (stream'.symm.trans stream)
      · rintro ⟨o', ok, kind', -⟩
        cases ok
        rw [kind] at kind'
        cases kind'
      · rintro o' ok kind'
        cases ok
        rw [kind] at kind'
        cases kind'
  | ended ends _ | slipped _ ends _ =>
      obtain ⟨o, rfl, kind, stream, -⟩ := ends
      refine .elsewhere same ?_ ?_ ?_
      · rintro ⟨o', ok, kind', -⟩
        cases ok
        rw [kind] at kind'
        cases kind'
      · rintro ⟨o', ok, -, stream'⟩
        cases ok
        exact differs (stream'.symm.trans stream)
      · rintro o' ok kind'
        cases ok
        rw [kind] at kind'
        cases kind'

/-- Every event is one of these passages for every stream. -/
theorem drive_passage (noise : Noise R H T) (entropy : R) {t : TargetTransport H T} (sound : Sound t) (event : Event)
    (s : Nat) : Passage s t event (t.drive noise entropy event).1 (t.drive noise entropy event).2 := by
  rcases drive_cases noise entropy sound event with ⟨own, e, child, eligible, found, addressed, answer⟩ | answer
  · by_cases same : s = own
    · subst same
      have before : t.registered s = some child := (registered_eligible eligible s).trans found
      have stream : CommitsClose t event → event.streamId = s := by
        intro commits
        rcases addressed with ⟨stream, -⟩ | ⟨tag, -⟩
        · exact stream
        · rw [commits.1] at tag
          cases tag
      have remains : CommitsClose t event → ∃ child, (t.drive noise entropy event).2.registered s = some child := by
        intro commits
        rw [← stream commits]
        exact (commit_slips noise entropy sound commits).2
      obtain ⟨children, phase, -, fate⟩ := answer.phase
      have after := registered_eligible phase s
      generalize there_eq : children.lookup s = there at fate
      replace after := after.trans there_eq
      generalize clock_eq : (t.drive noise entropy event).2.clock = clock at fate
      generalize (t.drive noise entropy event).1 = result at fate ⊢
      cases fate with
      | kept plain grows _ => exact .kept before plain after grows
      | applied applies grows _ => exact .applied before applies after (by rw [grows]; exact Nat.succ_pos _)
      | ended ends tended =>
          obtain ⟨nonzero, other⟩ := sound.streams e s child eligible found
          refine .ended before ends ?_ ⟨_, phase, nonzero, other, there_eq⟩ (clock_eq ▸ tended.clocked.unnamed)
          intro commits
          obtain ⟨child, still⟩ := remains commits
          rw [after] at still
          cases still
      | slipped commits ends _ => exact .slipped before commits (stream commits) ends after
    · exact answer.elsewhere eligible same
  · generalize t.drive noise entropy event = r at answer
    cases answer with
    | kept plain same _ =>
        exact .elsewhere (same s) (plain.not_applies s) (plain.not_terminates s) plain.not_leaseTerminal
    | @accepted o t' own child joins kind stream absent there zero others _ =>
        by_cases same : s = own
        · subst same
          exact .accepted joins ⟨_, rfl, kind⟩ there
        · have plain : Plain own (.ok o) := plain_of .writeFrames kind (by decide) (.inl stream)
          exact .elsewhere (others s same) (plain.not_applies s) (plain.not_terminates s) plain.not_leaseTerminal
    | finished kind counts gone _ => exact .leaseEnded kind (counts s) (gone s)

/-- A timer asks for nothing on a stream. -/
theorem timerFired_named {t : TargetTransport H T} {event : Event} {o : Outcome} (answer : (t.timerFired event).1 = .ok o)
    (goesOn : o.kind ≠ .sessionTerminal ∧ o.kind ≠ .leaseTerminal) : o.streamId = 0 := by
  have child (u : TargetTransport H T) (s : Nat) (reason : CloseReason) (answer : (u.childTimerFired s reason).1 = .ok o) :
      o.streamId = 0 := by
    unfold TargetTransport.childTimerFired at answer
    split at answer
    · split at answer
      · unfold TargetTransport.childTerminal TargetTransport.answer at answer
        split at answer
        · split at answer
          · cases answer
            exact absurd rfl goesOn.1
          · cases answer
            exact absurd rfl goesOn.1
        · cases answer
          exact absurd rfl goesOn.1
      · cases answer
        rfl
    · cases answer
      rfl
  unfold TargetTransport.timerFired at answer
  split at answer
  · cases answer
  · split at answer
    · cases answer
      rfl
    · dsimp only at answer
      split at answer
      · cases answer
        exact absurd rfl goesOn.2
      · cases answer
        exact absurd rfl goesOn.2
      · cases answer
        exact absurd rfl goesOn.2
      · unfold TargetTransport.leaseTickFired at answer
        split at answer
        · split at answer
          · cases answer
            rfl
          · dsimp only at answer
            split at answer
            · cases answer
              exact absurd rfl goesOn.2
            · split at answer
              · cases answer
                exact absurd rfl goesOn.2
              · split at answer
                · cases answer
                · cases answer
                  exact Outcome.deadline_streamId _ _ _
        · cases answer
          rfl
      · exact child _ _ _ answer
      · exact child _ _ _ answer
      · exact child _ _ _ answer

/-- An outcome that ends nothing names the stream of its event, or none. -/
theorem drive_named (noise : Noise R H T) (entropy : R) {t : TargetTransport H T} (sound : Sound t) {event : Event}
    {o : Outcome} (answer : (t.drive noise entropy event).1 = .ok o)
    (goesOn : o.kind ≠ .sessionTerminal ∧ o.kind ≠ .leaseTerminal) : o.streamId = event.streamId ∨ o.streamId = 0 := by
  rcases drive_cases noise entropy sound event with ⟨s, e, child, eligible, found, addressed, childAnswer⟩ | lease
  · rcases addressed with ⟨rfl, -⟩ | ⟨tag, -⟩
    · obtain ⟨children, phase, -, fate⟩ := childAnswer.phase
      rw [answer] at fate
      generalize children.lookup event.streamId = after at fate
      generalize (t.drive noise entropy event).2.clock = clock at fate
      cases fate with
      | kept plain _ _ => exact (plain o rfl).2
      | applied applies _ _ =>
          obtain ⟨o', same, -, stream⟩ := applies
          cases same
          exact .inl stream
      | ended ends _ | slipped _ ends _ =>
          obtain ⟨o', same, kind, -⟩ := ends
          cases same
          exact absurd kind goesOn.1
    · right
      unfold TargetTransport.drive at answer
      simp only [eligible, tag] at answer
      split at answer
      · cases answer
      · exact timerFired_named answer goesOn
  · generalize t.drive noise entropy event = r at answer lease
    cases lease with
    | kept plain _ _ => exact (plain o answer).2
    | accepted joins _ stream _ _ _ _ _ =>
        cases answer
        exact .inl (stream.trans joins.2.symm)
    | finished kind _ _ _ =>
        cases answer
        exact absurd kind goesOn.2

/-! ## Runs -/

section
variable {noise : Noise R H T} {descriptor : Bytes} {draws : List Nat} {t₀ : TargetTransport H T} {ready : Outcome}

/-- The child now registered under `s` produced an application in these steps. -/
def Delivered (s : Nat) (steps : List (ServeStep R H T)) : Prop :=
  ∃ before a since, steps = before ++ a :: since ∧ Applies s a.output ∧ ∀ step ∈ since, ¬ Accepts s step

theorem delivered_snoc {s : Nat} {past : List (ServeStep R H T)} {step : ServeStep R H T}
    (delivered : Delivered s (past ++ [step])) : Applies s step.output ∨ Delivered s past ∧ ¬ Accepts s step := by
  obtain ⟨before, a, since, split, applies, quiet⟩ := delivered
  rcases List.eq_nil_or_concat since with rfl | ⟨init, last, rfl⟩
  · obtain ⟨-, same⟩ := List.append_inj' split rfl
    cases same
    exact .inl applies
  · rw [List.concat_eq_append, ← List.cons_append, ← List.append_assoc] at split
    obtain ⟨rfl, same⟩ := List.append_inj' split rfl
    cases same
    refine .inr ⟨⟨before, a, init, rfl, applies, fun step member => ?_⟩, ?_⟩
    · exact quiet step (by simp [member])
    · exact quiet step (by simp)

/-- The registry is sound and every child that produced an application counts it. -/
def Counted (past : List (ServeStep R H T)) (t : TargetTransport H T) : Prop :=
  Sound t ∧ ∀ s child, Delivered s past → t.registered s = some child → 0 < child.applications

theorem serve_counted (noise : Noise R H T) (past : List (ServeStep R H T)) (t : TargetTransport H T) (input : R × Event)
    (counted : Counted past t) :
    Counted (past ++ [⟨t, input, (serve noise t input).1, (serve noise t input).2⟩]) (serve noise t input).2 := by
  obtain ⟨sound, counted⟩ := counted
  refine ⟨drive_sound noise input.1 sound input.2, fun s child delivered found => ?_⟩
  have passage : Passage s t input.2 (serve noise t input).1 (serve noise t input).2 :=
    drive_passage noise input.1 sound input.2 s
  have earlier := delivered_snoc delivered
  generalize serve noise t input = r at passage earlier found
  obtain ⟨result, t'⟩ := r
  cases passage with
  | elsewhere same quiet _ _ =>
      rcases earlier with applies | ⟨before, -⟩
      · exact absurd applies quiet
      · rw [same] at found
        exact counted s child before found
  | accepted joins ok _ =>
      rcases earlier with ⟨o, answer, kind, -⟩ | ⟨-, other⟩
      · obtain ⟨o', answer', kind'⟩ := ok
        cases answer.symm.trans answer'
        rw [kind] at kind'
        cases kind'
      · exact absurd ⟨joins, ok⟩ other
  | kept there plain after grows =>
      rcases earlier with applies | ⟨before, -⟩
      · exact absurd applies (plain.not_applies s)
      · cases after.symm.trans found
        exact (counted s _ before there).trans_le grows
  | applied _ _ after positive =>
      cases after.symm.trans found
      exact positive
  | ended _ _ _ free _ => cases free.registered.symm.trans found
  | slipped there _ _ ends after =>
      rcases earlier with ⟨o, answer, kind, -⟩ | ⟨before, -⟩
      · obtain ⟨o', answer', kind', -⟩ := ends
        cases answer.symm.trans answer'
        rw [kind] at kind'
        cases kind'
      · have positive := counted s _ before there
        cases after.symm.trans found
        exact positive
  | leaseEnded _ _ after => cases after.symm.trans found

theorem reached_counted (noise : Noise R H T) (made : TargetTransport.create descriptor draws = .ok (t₀, ready))
    (inputs : List (R × Event)) :
    Counted (history noise t₀ inputs) (reached noise t₀ inputs) := by
  refine Runs.invariant_trace Counted (serve_counted noise) [] t₀ inputs ⟨create_sound made, ?_⟩
  rintro s child ⟨before, a, since, split, -⟩
  simp at split

/-! ## The end of a child is final -/

/-- Nothing but a failure to set up a session keeps `s` from being accepted. -/
def Acceptable (noise : Noise R H T) (t : TargetTransport H T) (s : Nat) : Prop :=
  ∀ entropy, (t.drive noise entropy { tag := .sessionAccepted, streamId := s }).1 = .error .internal ∨
    ∃ o, (t.drive noise entropy { tag := .sessionAccepted, streamId := s }).1 = .ok o ∧ o.kind = .writeFrames

theorem Free.acceptable {s : Nat} {t : TargetTransport H T} (free : Free s t) (noise : Noise R H T) :
    Acceptable noise t s := by
  obtain ⟨e, eligible, nonzero, other, absent⟩ := free
  intro entropy
  unfold TargetTransport.drive TargetTransport.sessionAccepted
  simp only [eligible, ne_eq, not_true, if_false, nonzero, or_self, absent, Option.isSome_none, Bool.false_eq_true,
    Ne.symm other]
  split
  · exact .inl rfl
  · split
    · exact .inl rfl
    · split
      · rename_i eq
        exact .inl (congrArg Except.error (Clock.allocateToken_error eq))
      · split
        · rename_i eq
          exact .inl (congrArg Except.error (Clock.scheduleTimer_error eq))
        · exact .inr ⟨_, rfl, Outcome.deadline_kind _ _ _⟩

/-- A step that ends the child of `s` had that child; unless it commits a Close
    frame, it frees the stream. -/
theorem terminates_cases {t : TargetTransport H T} (sound : Sound t) (input : R × Event) {s : Nat}
    (terminates : Terminates s (serve noise t input).1) :
    (∃ child, t.registered s = some child) ∧ (CommitsClose t input.2 ∨
      Free s (serve noise t input).2 ∧ Unnamed s (serve noise t input).2.clock) := by
  have passage : Passage s t input.2 (serve noise t input).1 (serve noise t input).2 :=
    drive_passage noise input.1 sound input.2 s
  obtain ⟨o, answer, kind, stream⟩ := terminates
  rw [answer] at passage
  cases passage with
  | elsewhere _ _ quiet _ => exact absurd ⟨o, rfl, kind, stream⟩ quiet
  | accepted _ ok _ =>
      obtain ⟨o', same, kind'⟩ := ok
      cases same
      rw [kind] at kind'
      cases kind'
  | kept _ plain _ _ => exact absurd kind (plain o rfl).1.2.1
  | applied _ applies _ _ =>
      obtain ⟨o', same, kind', -⟩ := applies
      cases same
      rw [kind] at kind'
      cases kind'
  | ended there _ _ free unnamed => exact ⟨⟨_, there⟩, .inr ⟨free, unnamed⟩⟩
  | slipped there commits _ _ _ => exact ⟨⟨_, there⟩, .inl commits⟩
  | leaseEnded kind' _ _ =>
      rw [kind] at kind'
      cases kind'

/-- A stream without a child stays without one until a child is accepted. -/
theorem absent_until_accepted {t : TargetTransport H T} (sound : Sound t) {s : Nat} (absent : t.registered s = none)
    (inputs : List (R × Event)) (unaccepted : ∀ step ∈ history noise t inputs, ¬ Accepts s step) :
    (reached noise t inputs).registered s = none := by
  induction inputs generalizing t with
  | nil => exact absent
  | cons input rest ih =>
      have passage : Passage s t input.2 (serve noise t input).1 (serve noise t input).2 :=
        drive_passage noise input.1 sound input.2 s
      have head : ¬ Accepts s (⟨t, input, (serve noise t input).1, (serve noise t input).2⟩ : ServeStep R H T) :=
        unaccepted _ (List.mem_cons_self ..)
      refine ih (drive_sound noise input.1 sound input.2) ?_ fun step member =>
        unaccepted step (List.mem_cons_of_mem _ member)
      change (serve noise t input).2.registered s = none
      generalize serve noise t input = r at passage head
      obtain ⟨result, t'⟩ := r
      cases passage with
      | elsewhere same _ _ _ => exact same.trans absent
      | accepted joins ok _ => exact absurd ⟨joins, ok⟩ head
      | kept there _ _ _ => cases absent.symm.trans there
      | applied there _ _ _ => cases absent.symm.trans there
      | ended _ _ _ free _ => exact free.registered
      | slipped there _ _ _ _ => cases absent.symm.trans there
      | leaseEnded _ _ gone => exact gone

end

end AppPilotKit.Target
