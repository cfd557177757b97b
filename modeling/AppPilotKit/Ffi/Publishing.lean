import AppPilotKit.Ffi.Arbitration

/-! # What a call publishes

A call publishes one outcome. It has produced more than one when it fired the timer of
another call besides its own event, and then one of the two is lost unless the lease has
ended.
-/

namespace AppPilotKit.Ffi

open Transport Target

variable {R H T : Type}

/-- Firing the timer loses no outcome: it ends the lease; or the call has no outcome yet, and
    the timer ends a child or is a lease tick that is refused a token. -/
def Spares (t : TargetTransport H T) (outcome : Except SupervisorError Outcome) (timer : Nat) : Prop :=
  Ended t ∨
  (timer ∈ t.terminalTimerTokens ∧ ∃ action, t.clock.timers.lookup timer = some action ∧ action.stream = none) ∨
  (outcome.toOption = none ∧ (timer ∈ t.terminalTimerTokens ∨
    Spent t.clock ∧ t.clock.timers.lookup timer = some .leaseTick ∧
      ∃ e, t.phase = .eligible e ∧ e.leaseTickTimer = some timer))

/-- The step of the call loses no outcome. -/
def Lossless (entry : SupervisorEntry H T) (call : Call) (input : Input R) : Prop :=
  match call.point with
  | .applyTimer _ _ outcome timer => Spares entry.transport outcome timer
  | .publish (.ok value) => ¬ (value.bytes.isSome = true ∧ input.full = true)
  | _ => True

/-- The outcome a call has in hand. -/
def Point.outcome : Point → Option (Except SupervisorError Outcome)
  | .refresh _ outcome | .swapTerminal _ _ outcome | .swapTimer _ _ outcome | .applyTimer _ _ outcome _
  | .lockGate _ outcome | .publish outcome => some outcome
  | _ => none

/-- What a call has produced is what it has in hand or has published. -/
def Ledger (call : Call) : Prop :=
  match call.point with
  | .applyTerminal _ _ _ => True
  | .releaseBusy | .returned => call.published = call.produced
  | point =>
      call.published = [] ∧ call.produced = match point.outcome with
        | some outcome => outcome.toOption.toList
        | none => []

/-- A timer that a call is about to fire has a token. -/
def Timely (call : Call) : Prop :=
  ∀ second onEntry outcome timer, call.point = .applyTimer second onEntry outcome timer → timer ≠ 0

/-- The invariant of all calls. -/
def publishing : Threads.Parts (SupervisorEntry H T) Call where
  shared := Coherent
  own _ entry call := Carries entry call ∧ Timely call ∧ (Ended entry.transport ∨ Ledger call)
  apart _ _ := True

section
variable {noise : Noise R H T} {entry : SupervisorEntry H T} {call : Call} {t : TargetTransport H T}

theorem drive_fired (noise : Noise R H T) (entropy : R) (going : ¬ Ended t) (timer : Nat) :
    t.drive noise entropy (fired timer) = t.timerFired (fired timer) := by
  unfold TargetTransport.drive
  split
  · rename_i terminal phase
    exact absurd ⟨terminal, phase⟩ going
  · rfl

/-- A timer that does not belong to a child and ends something ends the lease. -/
theorem fired_ends_lease (noise : Noise R H T) (entropy : R) (going : ¬ Ended t) {timer : Nat} (nonzero : timer ≠ 0)
    {action : TimerAction} (found : t.clock.timers.lookup timer = some action) (unnamed : action.stream = none)
    (terminal : timer ∈ t.terminalTimerTokens) : Ended (t.drive noise entropy (fired timer)).2 := by
  obtain ⟨action', found', due⟩ := mem_terminalTimerTokens.mp terminal
  rw [found] at found'
  cases found'
  rw [drive_fired noise entropy going]
  unfold TargetTransport.timerFired
  simp only [fired, ne_eq, not_true, nonzero, or_self, if_false, found]
  cases action with
  | bootstrap | bootstrapFrame | leaseFrame => exact leaseTerminal_ended _ _ _
  | leaseTick =>
      obtain ⟨e, phase, held, ticks⟩ := due rfl
      unfold TargetTransport.leaseTickFired
      simp only [phase, held, ne_eq, not_true_eq_false, if_false]
      split
      · exact ⟨_, rfl⟩
      · rename_i early
        rw [if_pos (ticks.resolve_left early)]
        exact ⟨_, rfl⟩
  | sessionPhase s | sessionIdle s | sessionFrame s => cases unnamed

/-- A lease tick that finds no token left is refused. -/
theorem fired_refused (noise : Noise R H T) (entropy : R) (going : ¬ Ended t) {timer : Nat} (nonzero : timer ≠ 0)
    (spent : Spent t.clock) (found : t.clock.timers.lookup timer = some .leaseTick) {e : Eligible H T}
    (phase : t.phase = .eligible e) (held : e.leaseTickTimer = some timer) :
    Ended (t.drive noise entropy (fired timer)).2 ∨ (t.drive noise entropy (fired timer)).1.toOption = none := by
  rw [drive_fired noise entropy going]
  unfold TargetTransport.timerFired
  simp only [fired, ne_eq, not_true, nonzero, or_self, if_false, found]
  unfold TargetTransport.leaseTickFired
  simp only [phase, held, ne_eq, not_true_eq_false, if_false]
  split
  · exact .inl ⟨_, rfl⟩
  · split
    · exact .inl ⟨_, rfl⟩
    · unfold Spent at spent
      have full : ¬ (t.clock.cancel (some timer)).nextToken + 1 < 2 ^ 64 := by
        rw [Clock.cancel_nextToken]
        omega
      unfold Clock.scheduleTimer Clock.allocateToken
      simp only [if_neg full]
      exact .inr rfl

/-- What is left of the two outcomes. -/
theorem spares_outcome (noise : Noise R H T) (entropy : R) {outcome : Except SupervisorError Outcome} {timer : Nat}
    (sound : Sound t) (nonzero : timer ≠ 0) (spares : Spares t outcome timer) :
    Ended (t.drive noise entropy (fired timer)).2 ∨
      (timerOutcome outcome (t.drive noise entropy (fired timer)).1).toOption.toList =
        outcome.toOption.toList ++ (t.drive noise entropy (fired timer)).1.toOption.toList := by
  by_cases ended : Ended t
  · exact .inl (drive_ended noise entropy ended _)
  rcases spares with before | ⟨terminal, action, found, unnamed⟩ | ⟨none, terminal | ⟨spent, found, e, phase, held⟩⟩
  · exact absurd before ended
  · exact .inl (fired_ends_lease noise entropy ended nonzero found unnamed terminal)
  · obtain ⟨o, ok, kind⟩ := (terminalTimerTokens_iff noise entropy sound
      (fun terminal phase => ended ⟨terminal, phase⟩) (.inl nonzero)).mp terminal
    right
    rw [ok, none]
    simp only [timerOutcome, if_pos kind]
    rfl
  · rcases fired_refused noise entropy ended nonzero spent found phase held with after | refused
    · exact .inl after
    · right
      rw [refused, none]
      cases result : (t.drive noise entropy (fired timer)).1 with
      | ok o =>
          rw [result] at refused
          cases refused
      | error error => rfl

theorem advance_timely (input : Input R) : Timely (advance noise entry call input).2 := by
  intro second onEntry outcome timer after
  cases point : call.point with
  | swapTimer second' onEntry' outcome' =>
      simp only [advance, point, Call.goto, arbitrated] at after
      split at after
      · split at after
        all_goals cases after
      · rename_i armed
        push Not at armed
        cases after
        exact armed.1
  | swapTerminal second' onEntry' outcome' =>
      simp only [advance, point, Call.goto] at after
      split at after
      · split at after
        all_goals cases after
      · cases after
  | record request timer' | takeBusy | lockGate onEntry' outcome' =>
      simp only [advance, point] at after
      split at after
      all_goals
        first
        | cases after; done
        | rw [point] at after; cases after
  | probeTimer request | checkRetired =>
      simp only [advance, point, Call.goto] at after
      split at after
      all_goals cases after
  | applyTerminal second' onEntry' request =>
      simp only [advance, point, Call.goto, arbitrated] at after
      split at after
      all_goals cases after
  | applyTimer second' onEntry' outcome' timer' =>
      simp only [advance, point, Call.goto, arbitrated] at after
      split at after
      all_goals cases after
  | classify | readReason | drive onEntry' | refresh onEntry' outcome' | publish outcome' | releaseBusy | returned =>
      simp [advance, point, Call.goto, Call.note] at after

/-- A step that loses nothing keeps the ledger. -/
theorem advance_ledger (input : Input R) (coherent : Coherent entry) (carries : Carries entry call) (timely : Timely call)
    (ledger : Ledger call) (lossless : Lossless entry call input) :
    Ended (advance noise entry call input).1.transport ∨ Ledger (advance noise entry call input).2 := by
  cases point : call.point with
  | applyTerminal second onEntry request =>
      left
      have carried : request = .leaseStream → entry.leaseStream ≠ 0 := by
        rintro rfl
        exact carries (by rw [point]; rfl)
      simp only [advance, point]
      split
      · exact drive_ended noise input.entropy (terminateInternalError_ended entry.transport) _
      · obtain ⟨-, -, -, ended⟩ := requestEvent_ends noise input.entropy request carried coherent.stream
        exact ended
  | applyTimer second onEntry outcome timer =>
      simp only [Lossless, point] at lossless
      simp only [Ledger, point, Point.outcome] at ledger
      rcases spares_outcome noise input.entropy coherent.sound (timely _ _ _ _ point) lossless with ended | both
      · left
        simpa only [advance, point] using ended
      · right
        simp only [advance, point, arbitrated]
        cases second with
        | false =>
            refine ⟨ledger.1, ?_⟩
            simp only [Call.goto, Call.note, ledger.2, Point.outcome]
            exact both.symm
        | true =>
            refine ⟨ledger.1, ?_⟩
            simp only [Call.goto, Call.note, ledger.2, Point.outcome]
            exact both.symm
  | drive onEntry =>
      right
      simp only [Ledger, point, Point.outcome] at ledger
      simp only [advance, point]
      refine ⟨ledger.1, ?_⟩
      simp only [Call.goto, Call.note, ledger.2, Point.outcome, List.nil_append]
  | publish outcome =>
      right
      simp only [Ledger, point, Point.outcome] at ledger
      simp only [advance, point, Ledger]
      cases outcome with
      | ok value =>
          simp only [Lossless, point] at lossless
          simp only [if_neg lossless, ledger]
          rfl
      | error error =>
          simp only [ledger]
          rfl
  | swapTimer second onEntry outcome =>
      right
      simp only [Ledger, point, Point.outcome] at ledger
      simp only [advance, point, arbitrated]
      split
      · cases second with
        | false => exact ledger
        | true => exact ledger
      · exact ledger
  | swapTerminal second onEntry outcome =>
      right
      simp only [Ledger, point, Point.outcome] at ledger
      simp only [advance, point]
      split
      · split
        · exact ledger
        · trivial
      · exact ledger
  | record request timer | lockGate onEntry outcome =>
      right
      have before := ledger
      simp only [Ledger, point, Point.outcome] at ledger
      simp only [advance, point]
      split
      · exact before
      · exact ledger
  | takeBusy =>
      right
      simp only [Ledger, point, Point.outcome] at ledger
      simp only [advance, point]
      split
      · exact ledger.1.trans ledger.2.symm
      · exact ledger
  | checkRetired =>
      right
      simp only [Ledger, point, Point.outcome] at ledger
      simp only [advance, point]
      split
      · exact ledger.1.trans ledger.2.symm
      · exact ledger
  | probeTimer request =>
      right
      simp only [Ledger, point, Point.outcome] at ledger
      simp only [advance, point]
      split
      all_goals exact ledger
  | classify | readReason | refresh onEntry outcome | releaseBusy =>
      right
      simp only [Ledger, point, Point.outcome] at ledger
      simp only [advance, point]
      exact ledger
  | returned =>
      right
      simpa only [advance, point] using ledger

/-- Every step that loses nothing keeps the invariant. -/
theorem publishing_kept (noise : Noise R H T) : publishing.Kept (handle noise) Lossless := by
  refine ⟨fun i entry event _ coherent => ?_, fun i entry call input coherent own lossless => ?_,
    fun i j entry call input other distinct coherent own others _ _ lossless => ?_⟩
  · have carries : Carries entry (Call.start event) := fun request => by cases request
    have timely : Timely (Call.start event) := fun second onEntry outcome timer point => by cases point
    exact ⟨⟨carries, timely, .inr ⟨rfl, rfl⟩⟩, fun _ => ⟨trivial, trivial⟩⟩
  · obtain ⟨carries, timely, ledger⟩ := own
    refine ⟨advance_coherent input coherent carries, advance_carries input coherent carries, advance_timely input, ?_⟩
    rcases ledger with ended | ledger
    · exact .inl (advance_ended input ended)
    · exact advance_ledger input coherent carries timely ledger lossless
  · obtain ⟨carries, timely, ledger⟩ := others
    refine ⟨⟨fun request => ?_, timely, ?_⟩, trivial, trivial⟩
    · exact advance_leaseStream input coherent (carries request)
    · exact ledger.imp_left (advance_ended input)

/-- In a run whose steps lose nothing, a call that has returned has published what it
    produced, unless the lease has ended. -/
theorem outcomes_published {descriptor : Wire.Bytes} {draws : List Nat} {t₀ : TargetTransport H T} {ready : Outcome}
    (made : TargetTransport.create descriptor draws = .ok (t₀, ready)) (moves : List (Threads.Move Event (Input R)))
    (lossless : ∀ step ∈ (handle noise).taken (opened t₀) moves, Lossless step.1 step.2.1 step.2.2) :
    ∀ call ∈ ((handle noise).run (opened t₀) moves).calls, call.point = .returned →
      Ended ((handle noise).run (opened t₀) moves).shared.transport ∨ call.published = call.produced := by
  have start : publishing.Hold (opened t₀) := by
    refine ⟨le_rfl, opened_coherent made, fun i call found => ?_, fun _ _ _ _ _ _ _ => trivial⟩
    simp [opened] at found
  have after := Threads.Parts.Hold.run (publishing_kept noise) start moves lossless
  intro call member returned
  obtain ⟨i, inside, rfl⟩ := List.mem_iff_getElem.mp member
  obtain ⟨-, -, ledger⟩ := after.own i _ (List.getElem?_eq_getElem inside)
  refine ledger.imp_right fun ledger => ?_
  simpa only [Ledger, returned] using ledger

end

section
open LimitRounds

/-- A call that runs alone on the handle, as its `n`-th. -/
def alone (n : Nat) (event : Event) : List (Threads.Move Event (Input Unit)) :=
  .enter event :: List.replicate 15 (.advance n ⟨(), false⟩)

/-- Calls that do not overlap. -/
def oneByOne (events : List (Unit × Event)) : List (Threads.Move Event (Input Unit)) :=
  (events.zipIdx.map fun (input, n) => alone n input.2).flatten

/-- The point of a call that fires a pending timer. -/
def Point.firing : Point → Bool
  | .applyTimer _ _ _ _ => true
  | _ => false

theorem lossless_of {entry : SupervisorEntry H T} {call : Call} {input : Input R} (quiet : call.point.firing = false)
    (room : input.full = false) : Lossless entry call input := by
  unfold Lossless
  split
  · rename_i point
    rw [point] at quiet
    cases quiet
  · simp [room]
  · trivial

set_option maxRecDepth 40000 in
/-- The calls of the opening publish what they produce. -/
theorem opening_published : TargetTransport.create (encodeDescriptor LimitRounds.descriptor) [0] =
      .ok (start, (Outcome.new .endpointReady).values 0 50000) ∧
    ∀ call ∈ ((handle nonceNoise).run (opened start) (oneByOne opening)).calls, call.point = .returned →
      Ended ((handle nonceNoise).run (opened start) (oneByOne opening)).shared.transport ∨
        call.published = call.produced := by
  refine ⟨created, outcomes_published created (oneByOne opening) fun step member => ?_⟩
  have quiet : ((handle nonceNoise).taken (opened start) (oneByOne opening)).all
      (fun step => !step.2.1.point.firing && !step.2.2.full) = true := rfl
  have both := List.all_eq_true.mp quiet step member
  simp only [Bool.and_eq_true, Bool.not_eq_true'] at both
  exact lossless_of both.1 both.2

/-- A second child is accepted. While a request of the first is driven, the timer of the
    second is recorded. -/
def racing : List (Threads.Move Event (Input Unit)) :=
  oneByOne (opening ++ [((), { tag := .sessionAccepted, streamId := 3 })]) ++
    .enter (request 0).2 :: List.replicate 7 (.advance 12 ⟨(), false⟩) ++
    .enter (fired 12) :: List.replicate 4 (.advance 13 ⟨(), false⟩) ++ List.replicate 9 (.advance 12 ⟨(), false⟩)

set_option maxRecDepth 40000 in
/-- The request of the first child is handed over to nobody. -/
theorem application_lost : TargetTransport.create (encodeDescriptor LimitRounds.descriptor) [0] =
      .ok (start, (Outcome.new .endpointReady).values 0 50000) ∧
    ¬ Ended ((handle nonceNoise).run (opened start) racing).shared.transport ∧
    ∃ call ∈ ((handle nonceNoise).run (opened start) racing).calls, call.point = .returned ∧
      ∃ o ∈ call.produced, o.kind = .application ∧ o.streamId = 2 ∧
        ∀ other ∈ ((handle nonceNoise).run (opened start) racing).calls, o ∉ other.published := by
  have calls : ((handle nonceNoise).run (opened start) racing).calls.length = 14 := rfl
  refine ⟨created, ?_, ((handle nonceNoise).run (opened start) racing).calls[12], List.getElem_mem _, rfl, ?_⟩
  · rintro ⟨terminal, phase⟩
    cases phase
  · have produced : (((handle nonceNoise).run (opened start) racing).calls[12].produced.map
        fun o => (o.kind, o.streamId, o.writeToken)) = [(.application, 2, 13), (.sessionTerminal, 3, 0)] := rfl
    have tokens : ((handle nonceNoise).run (opened start) racing).calls.flatMap
        (fun other => other.published.map (·.writeToken)) = [1, 0, 3, 4, 5, 0, 7, 0, 8, 9, 10, 11, 0] := rfl
    have lost : (OutcomeKind.application, 2, 13) ∈ ((handle nonceNoise).run (opened start) racing).calls[12].produced.map
        fun o => (o.kind, o.streamId, o.writeToken) := by simp [produced]
    obtain ⟨o, member, same⟩ := List.mem_map.mp lost
    simp only [Prod.mk.injEq] at same
    refine ⟨o, member, same.1, same.2.1, fun other there published => ?_⟩
    have token : o.writeToken ∈ ((handle nonceNoise).run (opened start) racing).calls.flatMap
        (fun other => other.published.map (·.writeToken)) :=
      List.mem_flatMap.mpr ⟨other, there, List.mem_map_of_mem published⟩
    rw [tokens, same.2.2] at token
    revert token
    decide

end

end AppPilotKit.Ffi
