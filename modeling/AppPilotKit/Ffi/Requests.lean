import AppPilotKit.Ffi.Publishing

/-! # What becomes of a recorded request

A request that is in its slot while a call holds the busy flag, before that call arbitrates
under the publish gate, is applied by that call. The exception is a call that fires a timer
of its own: it clears the timer slot without looking at what it clears.
-/

namespace AppPilotKit.Ffi

open Transport Target

variable {R H T : Type}

/-- The timer would still do something: nothing fires in a lease that has ended. -/
def Armed (t : TargetTransport H T) (timer : Nat) : Prop := ¬ Ended t ∧ (t.clock.timers.lookup timer).isSome = true

/-- A call that fires a timer clears no slot with an armed timer. -/
def Heeds (entry : SupervisorEntry H T) (call : Call) (_ : Input R) : Prop :=
  ∀ second onEntry outcome, call.point = .swapTimer second onEntry outcome → call.event.tag = .timerFired →
    entry.pendingTimer = 0 ∨ ¬ Armed entry.transport entry.pendingTimer

/-- The call holds the busy flag. -/
def Point.Holding : Point → Prop
  | .classify | .probeTimer _ | .record _ _ | .takeBusy | .returned => False
  | _ => True

/-- The call has not yet arbitrated under the publish gate. -/
def Point.Unpublished : Point → Prop
  | .checkRetired | .readReason | .drive _ | .refresh _ _ | .swapTerminal _ _ _ | .applyTerminal false _ _
  | .swapTimer false _ _ | .applyTimer false _ _ _ | .lockGate _ _ => True
  | _ => False

/-- The outcome reports the end of the lease. -/
def Settled (entry : SupervisorEntry H T) (outcome : Except SupervisorError Outcome) : Prop :=
  Ended entry.transport ∧ ∃ o, outcome = .ok o ∧ o.kind = .leaseTerminal ∧ o.bytes = none

/-- The call will publish the end of the lease, or has done so. -/
def Owes (entry : SupervisorEntry H T) (call : Call) : Prop :=
  match call.point with
  | .checkRetired | .readReason | .drive _ => entry.pendingTerminal.isSome
  | .refresh _ outcome | .swapTerminal _ _ outcome | .swapTimer false _ outcome | .applyTimer false _ outcome _
  | .lockGate _ outcome => entry.pendingTerminal.isSome ∨ Settled entry outcome
  | .applyTerminal _ _ _ => True
  | .swapTimer true _ outcome | .applyTimer true _ outcome _ | .publish outcome => Settled entry outcome
  | .releaseBusy | .returned => ∃ o, call.published = [o] ∧ o.kind = .leaseTerminal
  | .classify | .probeTimer _ | .record _ _ | .takeBusy => False

/-- The call will fire the timer, or it is not armed any more. -/
def OwesTimer (timer : Nat) (entry : SupervisorEntry H T) (call : Call) : Prop :=
  timer < entry.transport.clock.nextToken ∧ (¬ Armed entry.transport timer ∨
    match call.point with
    | .checkRetired | .readReason | .drive _ | .refresh _ _ | .swapTerminal _ _ _ | .applyTerminal _ _ _ | .swapTimer _ _ _
    | .lockGate _ _ => entry.pendingTimer = timer
    | .applyTimer second _ _ fires => fires = timer ∨ second = false ∧ entry.pendingTimer = timer
    | .publish _ | .releaseBusy | .returned | .classify | .probeTimer _ | .record _ _ | .takeBusy => False)

/-- What the shared entry keeps. -/
structure Tidy (entry : SupervisorEntry H T) : Prop extends Coherent entry where
  unretired : entry.retired = false
  listed : ∀ k ∈ entry.terminalTimers, k < entry.transport.clock.nextToken
  slot : entry.pendingTimer ≠ 0 → entry.pendingTimer < entry.transport.clock.nextToken

/-- What a call keeps. -/
structure Orderly (entry : SupervisorEntry H T) (call : Call) : Prop where
  carries : Carries entry call
  timely : Timely call
  concluded : ∀ o, call.point.outcome = some (.ok o) → o.kind = .leaseTerminal → Ended entry.transport ∧ o.bytes = none
  unpublished : call.point ≠ .releaseBusy → call.point ≠ .returned → call.published = []
  busy : call.point.Holding → entry.busy = true
  token : ∀ request, call.point = .record request true → call.event.writeToken < entry.transport.clock.nextToken

section
variable {noise : Noise R H T} {entry : SupervisorEntry H T} {call : Call} {t : TargetTransport H T}

theorem advance_ages (noise : Noise R H T) (entry : SupervisorEntry H T) (call : Call) (input : Input R) :
    Ages entry.transport.clock (advance noise entry call input).1.transport.clock := by
  cases point : call.point with
  | drive onEntry =>
      simp only [advance, point]
      exact drive_ages noise input.entropy entry.transport call.event
  | applyTimer second onEntry outcome timer =>
      simp only [advance, point]
      exact drive_ages noise input.entropy entry.transport _
  | applyTerminal second onEntry request =>
      simp only [advance, point]
      split
      · have cleared : Ages entry.transport.clock (terminateInternalError entry.transport).clock := (Ages.refl _).clear
        exact cleared.trans (drive_ages noise input.entropy _ _)
      · exact drive_ages noise input.entropy entry.transport _
  | record request timer | takeBusy | lockGate onEntry outcome =>
      simp only [advance, point]
      split
      all_goals exact .refl _
  | classify | probeTimer request | checkRetired | readReason | refresh onEntry outcome
  | swapTerminal second onEntry outcome | swapTimer second onEntry outcome | publish outcome | releaseBusy | returned =>
      simp only [advance, point]
      exact .refl _

/-- A timer that is not armed is never armed again. -/
theorem advance_unarmed {timer : Nat} (input : Input R) (older : timer < entry.transport.clock.nextToken)
    (unarmed : ¬ Armed entry.transport timer) : ¬ Armed (advance noise entry call input).1.transport timer := by
  rintro ⟨going, armed⟩
  refine unarmed ⟨fun ended => going (advance_ended input ended), ?_⟩
  obtain ⟨action, found⟩ := Option.isSome_iff_exists.mp armed
  have before := ((advance_ages noise entry call input).timers timer action found).resolve_right (not_le.mpr older)
  rw [before]
  rfl

theorem armed_of_ended {timer : Nat} (ended : Ended t) : ¬ Armed t timer := fun armed => armed.1 ended

/-- A timer that has fired is not armed. -/
theorem fired_unarmed (noise : Noise R H T) (entropy : R) {timer : Nat} (nonzero : timer ≠ 0)
    (older : timer < t.clock.nextToken) : ¬ Armed (t.drive noise entropy (fired timer)).2 timer := by
  by_cases ended : Ended t
  · exact armed_of_ended (drive_ended noise entropy ended _)
  have gone (c : Clock) (ages : Ages (t.clock.cancel (some timer)) c) : c.timers.lookup timer = none := by
    cases found : c.timers.lookup timer with
    | none => rfl
    | some action =>
        rcases ages.timers timer action found with kept | later
        · have erased : (t.clock.cancel (some timer)).timers.lookup timer = none := AList.lookup_erase _ _
          rw [erased] at kept
          cases kept
        · rw [Clock.cancel_nextToken] at later
          omega
  have unarmed (u : TargetTransport H T) (ages : Ages (t.clock.cancel (some timer)) u.clock) : ¬ Armed u timer := by
    rintro ⟨-, armed⟩
    rw [gone u.clock ages] at armed
    cases armed
  rw [drive_fired noise entropy ended]
  unfold TargetTransport.timerFired
  simp only [fired, ne_eq, not_true, nonzero, or_self, if_false]
  cases found : t.clock.timers.lookup timer with
  | none =>
      rintro ⟨-, armed⟩
      rw [found] at armed
      cases armed
  | some action =>
      cases action with
      | bootstrap | bootstrapFrame | leaseFrame => exact armed_of_ended ⟨_, rfl⟩
      | leaseTick =>
          apply unarmed
          exact leaseTickFired_ages (t := { t with clock := t.clock.cancel (some timer) }) (.refl _) timer
      | sessionPhase s | sessionIdle s | sessionFrame s =>
          apply unarmed
          exact childTimerFired_ages (t := { t with clock := t.clock.cancel (some timer) }) (.refl _) s _

/-- What a call without the busy flag does to the entry. -/
structure Waits (entry entry' : SupervisorEntry H T) : Prop where
  transport : entry'.transport = entry.transport
  leaseStream : entry'.leaseStream = entry.leaseStream
  busy : entry.busy = true → entry'.busy = true
  terminal : entry.pendingTerminal.isSome → entry'.pendingTerminal = entry.pendingTerminal
  timer : entry.pendingTimer ≠ 0 → entry'.pendingTimer = entry.pendingTimer

theorem advance_waits (input : Input R) (waiting : ¬ call.point.Holding) :
    Waits entry (advance noise entry call input).1 := by
  have same : Waits entry entry := ⟨rfl, rfl, id, fun _ => rfl, fun _ => rfl⟩
  cases point : call.point with
  | record request timer =>
      simp only [advance, point]
      split
      · exact same
      · refine ⟨rfl, rfl, id, fun pending => ?_, fun pending => ?_⟩
        · obtain ⟨there, some⟩ := Option.isSome_iff_exists.mp pending
          simp [some]
        · simp [pending]
  | takeBusy =>
      simp only [advance, point]
      split
      · exact same
      · exact ⟨rfl, rfl, fun _ => rfl, fun _ => rfl, fun _ => rfl⟩
  | classify | probeTimer request | returned =>
      simp only [advance, point]
      exact same
  | checkRetired | readReason | drive onEntry | refresh onEntry outcome | swapTerminal second onEntry outcome
  | applyTerminal second onEntry request | swapTimer second onEntry outcome | applyTimer second onEntry outcome timer
  | lockGate onEntry outcome | publish outcome | releaseBusy =>
      rw [point] at waiting
      exact absurd trivial waiting

/-- A call that waits gets the flag only when it is free. -/
theorem advance_takes (input : Input R) (waiting : ¬ call.point.Holding)
    (holding : (advance noise entry call input).2.point.Holding) : entry.busy = false := by
  cases point : call.point with
  | takeBusy =>
      simp only [advance, point] at holding
      split at holding
      · exact holding.elim
      · rename_i free
        simpa using free
  | record request timer =>
      simp only [advance, point] at holding
      split at holding
      · rw [point] at holding
        exact holding.elim
      · exact holding.elim
  | probeTimer request =>
      simp only [advance, point, Call.goto] at holding
      split at holding
      all_goals exact holding.elim
  | classify | returned =>
      simp only [advance, point] at holding
      first
      | exact holding.elim
      | exact absurd holding waiting
  | checkRetired | readReason | drive onEntry | refresh onEntry outcome | swapTerminal second onEntry outcome
  | applyTerminal second onEntry request | swapTimer second onEntry outcome | applyTimer second onEntry outcome timer
  | lockGate onEntry outcome | publish outcome | releaseBusy =>
      rw [point] at waiting
      exact absurd trivial waiting

/-- The timer slot after a step: as it was, the token that was recorded, or empty. -/
theorem advance_slot (input : Input R) : (advance noise entry call input).1.pendingTimer = entry.pendingTimer ∨
    (∃ request, call.point = .record request true ∧
      (advance noise entry call input).1.pendingTimer = call.event.writeToken) ∨
    (advance noise entry call input).1.pendingTimer = 0 := by
  cases point : call.point with
  | record request timer =>
      simp only [advance, point]
      split
      · exact .inl rfl
      · dsimp only
        split
        · rename_i free
          rw [free.1]
          exact .inr (.inl ⟨request, rfl, rfl⟩)
        · exact .inl rfl
  | swapTimer second onEntry outcome =>
      right
      right
      simp only [advance, point]
  | takeBusy | lockGate onEntry outcome =>
      left
      simp only [advance, point]
      split
      all_goals rfl
  | classify | probeTimer request | checkRetired | readReason | drive onEntry | refresh onEntry outcome
  | swapTerminal second onEntry outcome | applyTerminal second onEntry request
  | applyTimer second onEntry outcome timer | publish outcome | releaseBusy | returned =>
      left
      simp only [advance, point]

/-- Every step keeps the entry tidy. -/
theorem advance_tidy (input : Input R) (tidy : Tidy entry) (orderly : Orderly entry call) :
    Tidy (advance noise entry call input).1 := by
  have coherent : Coherent (advance noise entry call input).1 := advance_coherent input tidy.toCoherent orderly.carries
  have tokens := (advance_ages noise entry call input).tokens
  have listed (k : Nat) (member : k ∈ entry.terminalTimers) := (tidy.listed k member).trans_le tokens
  have slot (pending : entry.pendingTimer ≠ 0) := (tidy.slot pending).trans_le tokens
  have armed {u : TargetTransport H T} (sound : Sound u) (k : Nat) (member : k ∈ u.terminalTimerTokens) :
      k < u.clock.nextToken := by
    obtain ⟨action, found, -⟩ := mem_terminalTimerTokens.mp member
    exact sound.fresh k action found
  refine ⟨coherent, ?_, fun k member => ?_, fun pending => ?_⟩
  · cases point : call.point with
    | record request timer | takeBusy | lockGate onEntry outcome =>
        simp only [advance, point]
        split
        all_goals exact tidy.unretired
    | classify | probeTimer request | checkRetired | readReason | drive onEntry | refresh onEntry outcome
    | swapTerminal second onEntry outcome | applyTerminal second onEntry request | swapTimer second onEntry outcome
    | applyTimer second onEntry outcome timer | publish outcome | releaseBusy | returned =>
        simp only [advance, point]
        exact tidy.unretired
  · cases point : call.point with
    | refresh onEntry outcome =>
        have sound := coherent.sound
        simp only [advance, point] at member sound ⊢
        exact armed sound k member
    | applyTerminal second onEntry request =>
        have sound := coherent.sound
        simp only [advance, point] at member sound ⊢
        exact armed sound k member
    | applyTimer second onEntry outcome timer =>
        have sound := coherent.sound
        simp only [advance, point] at member sound ⊢
        exact armed sound k member
    | record request timer | takeBusy | lockGate onEntry outcome =>
        refine listed k ?_
        simp only [advance, point] at member
        split at member
        all_goals exact member
    | classify | probeTimer request | checkRetired | readReason | drive onEntry
    | swapTerminal second onEntry outcome | swapTimer second onEntry outcome | publish outcome | releaseBusy | returned =>
        refine listed k ?_
        simpa only [advance, point] using member
  · rcases advance_slot input with same | ⟨request, point, token⟩ | none
    · rw [same] at pending ⊢
      exact slot pending
    · rw [token]
      exact (orderly.token request point).trans_le tokens
    · exact absurd none pending

/-- The outcome in hand after a step: the one before, or one that a drive left behind. -/
theorem advance_concluded (input : Input R) (tidy : Tidy entry) (orderly : Orderly entry call) {o : Outcome}
    (hand : (advance noise entry call input).2.point.outcome = some (.ok o)) (kind : o.kind = .leaseTerminal) :
    Ended (advance noise entry call input).1.transport ∧ o.bytes = none := by
  have kept (before : call.point.outcome = some (.ok o)) :
      Ended (advance noise entry call input).1.transport ∧ o.bytes = none := by
    obtain ⟨ended, plain⟩ := orderly.concluded o before kind
    exact ⟨advance_ended input ended, plain⟩
  cases point : call.point with
  | drive onEntry =>
      simp only [advance, point, Call.goto, Point.outcome, Option.some.injEq] at hand ⊢
      exact (drive_concludes noise input.entropy tidy.sound call.event).ends o hand kind
  | applyTerminal second onEntry request =>
      simp only [advance, point, Call.goto, arbitrated] at hand ⊢
      have same : (TargetTransport.drive noise input.entropy
          (if request = .internalError ∧ onEntry.isNone = true then terminateInternalError entry.transport
            else entry.transport) (requestEvent entry.leaseStream request)).1 = .ok o := by
        cases second with
        | false => exact Option.some.inj hand
        | true => exact Option.some.inj hand
      refine (drive_concludes noise input.entropy ?_ _).ends o same kind
      split
      · exact terminateInternalError_sound _
      · exact tidy.sound
  | applyTimer second onEntry outcome timer =>
      have same : timerOutcome outcome (entry.transport.drive noise input.entropy (fired timer)).1 = .ok o := by
        simp only [advance, point, Call.goto, arbitrated] at hand
        cases second with
        | false => exact Option.some.inj hand
        | true => exact Option.some.inj hand
      cases result : (entry.transport.drive noise input.entropy (fired timer)).1 with
      | error error =>
          rw [result] at same
          cases same
      | ok value =>
          rw [result] at same
          simp only [timerOutcome] at same
          split at same
          · cases same
            simp only [advance, point]
            exact (drive_concludes noise input.entropy tidy.sound (fired timer)).ends o result kind
          · refine kept ?_
            rw [point, same]
            rfl
  | swapTerminal second onEntry outcome =>
      refine kept ?_
      simp only [advance, point, Call.goto] at hand
      split at hand
      · split at hand
        · rw [point]
          exact hand
        · cases hand
      · rw [point]
        exact hand
  | swapTimer second onEntry outcome =>
      refine kept ?_
      simp only [advance, point, Call.goto, arbitrated] at hand
      split at hand
      · split at hand
        all_goals
          rw [point]
          exact hand
      · rw [point]
        exact hand
  | lockGate onEntry outcome | record request timer | takeBusy =>
      refine kept ?_
      simp only [advance, point] at hand
      split at hand
      all_goals
        first
        | exact hand
        | rw [point]; exact hand
        | cases hand
  | refresh onEntry outcome =>
      refine kept ?_
      rw [point]
      simpa only [advance, point, Call.goto, Point.outcome] using hand
  | probeTimer request | checkRetired =>
      simp only [advance, point, Call.goto] at hand
      split at hand
      all_goals cases hand
  | classify | readReason | publish outcome | releaseBusy | returned =>
      simp [advance, point, Call.goto, Point.outcome] at hand

/-- Only its last steps publish. -/
theorem advance_unpublished (input : Input R)
    (unpublished : call.point ≠ .releaseBusy → call.point ≠ .returned → call.published = [])
    (before : (advance noise entry call input).2.point ≠ .releaseBusy)
    (notReturned : (advance noise entry call input).2.point ≠ .returned) :
    (advance noise entry call input).2.published = [] := by
  cases point : call.point with
  | publish outcome =>
      simp only [advance, point] at before
      exact absurd rfl before
  | releaseBusy =>
      simp only [advance, point] at notReturned
      exact absurd rfl notReturned
  | returned =>
      simp only [advance, point] at notReturned
      exact absurd rfl notReturned
  | record request timer | takeBusy | lockGate onEntry outcome =>
      have none := unpublished (by simp [point]) (by simp [point])
      simp only [advance, point]
      split
      all_goals exact none
  | classify | probeTimer request | checkRetired | readReason | drive onEntry | refresh onEntry outcome
  | swapTerminal second onEntry outcome | applyTerminal second onEntry request | swapTimer second onEntry outcome
  | applyTimer second onEntry outcome timer =>
      have none := unpublished (by simp [point]) (by simp [point])
      simp only [advance, point]
      exact none

/-- The flag of a call that goes on. -/
theorem advance_busy (input : Input R) (busy : call.point.Holding → entry.busy = true)
    (holding : (advance noise entry call input).2.point.Holding) : (advance noise entry call input).1.busy = true := by
  cases point : call.point with
  | releaseBusy =>
      simp only [advance, point] at holding
      exact holding.elim
  | takeBusy =>
      simp only [advance, point] at holding ⊢
      split at holding
      · exact holding.elim
      · rename_i free
        rw [if_neg free]
  | lockGate onEntry outcome =>
      have held := busy (by rw [point]; trivial)
      simp only [advance, point]
      split
      all_goals exact held
  | record request timer =>
      simp only [advance, point] at holding
      split at holding
      · rw [point] at holding
        exact holding.elim
      · exact holding.elim
  | probeTimer request =>
      simp only [advance, point, Call.goto] at holding
      split at holding
      all_goals exact holding.elim
  | classify =>
      simp only [advance, point] at holding
      exact holding.elim
  | returned =>
      simp only [advance, point] at holding
      exact holding.elim
  | checkRetired | readReason | drive onEntry | refresh onEntry outcome | swapTerminal second onEntry outcome
  | applyTerminal second onEntry request | swapTimer second onEntry outcome | applyTimer second onEntry outcome timer
  | publish outcome =>
      have held := busy (by rw [point]; trivial)
      simp only [advance, point]
      exact held

/-- A token that is to be recorded was listed. -/
theorem advance_token (input : Input R) (tidy : Tidy entry) (orderly : Orderly entry call)
    {request : Option TerminalRequest} (recording : (advance noise entry call input).2.point = .record request true) :
    (advance noise entry call input).2.event.writeToken < (advance noise entry call input).1.transport.clock.nextToken := by
  have tokens := (advance_ages noise entry call input).tokens
  cases point : call.point with
  | probeTimer asked =>
      simp only [advance, point, Call.goto] at recording ⊢
      split at recording
      · simp only [Point.record.injEq] at recording
        have asked := recording.2
        unfold timerRequest at asked
        simp only [decide_eq_true_eq] at asked
        exact tidy.listed _ asked.2.2.2.2.2
      · cases recording
  | record asked timer =>
      simp only [advance, point] at recording tokens ⊢
      split at recording
      · rename_i gate
        simp only [gate, if_true]
        exact orderly.token request recording
      · cases recording
  | takeBusy | checkRetired | lockGate onEntry outcome =>
      simp only [advance, point, Call.goto] at recording
      split at recording
      all_goals
        first
        | cases recording; done
        | rw [point] at recording; cases recording
  | swapTerminal second onEntry outcome =>
      simp only [advance, point, Call.goto] at recording
      split at recording
      · split at recording
        all_goals cases recording
      · cases recording
  | swapTimer second onEntry outcome =>
      simp only [advance, point, Call.goto, arbitrated] at recording
      split at recording
      · split at recording
        all_goals cases recording
      · cases recording
  | applyTerminal second onEntry asked =>
      simp only [advance, point, Call.goto, arbitrated] at recording
      split at recording
      all_goals cases recording
  | applyTimer second onEntry outcome timer =>
      simp only [advance, point, Call.goto, arbitrated] at recording
      split at recording
      all_goals cases recording
  | classify | readReason | drive onEntry | refresh onEntry outcome | publish outcome | releaseBusy | returned =>
      simp [advance, point, Call.goto, Call.note] at recording

theorem advance_orderly (input : Input R) (tidy : Tidy entry) (orderly : Orderly entry call) :
    Orderly (advance noise entry call input).1 (advance noise entry call input).2 where
  carries := advance_carries input tidy.toCoherent orderly.carries
  timely := advance_timely input
  concluded _ hand kind := advance_concluded input tidy orderly hand kind
  unpublished := advance_unpublished input orderly.unpublished
  busy := advance_busy input orderly.busy
  token _ recording := advance_token input tidy orderly recording

/-- Another call is not disturbed. -/
theorem advance_leaves (input : Input R) (tidy : Tidy entry) {other : Call}
    (also : Orderly entry other) (apart : ¬ (call.point.Holding ∧ other.point.Holding)) :
    Orderly (advance noise entry call input).1 other := by
  have tokens := (advance_ages noise entry call input).tokens
  refine ⟨fun request => ?_, also.timely, fun o hand kind => ?_, also.unpublished, fun holding => ?_,
    fun request recording => (also.token request recording).trans_le tokens⟩
  · exact advance_leaseStream input tidy.toCoherent (also.carries request)
  · obtain ⟨ended, plain⟩ := also.concluded o hand kind
    exact ⟨advance_ended input ended, plain⟩
  · have waiting : ¬ call.point.Holding := fun held => apart ⟨held, holding⟩
    exact (advance_waits input waiting).busy (also.busy holding)

/-- … nor does it get the flag while the other holds it. -/
theorem advance_apart (input : Input R) {other : Call} (also : Orderly entry other)
    (apart : ¬ (call.point.Holding ∧ other.point.Holding)) :
    ¬ ((advance noise entry call input).2.point.Holding ∧ other.point.Holding) := by
  rintro ⟨holding, held⟩
  have waiting : ¬ call.point.Holding := fun before => apart ⟨before, held⟩
  have free := advance_takes input waiting holding
  rw [also.busy held] at free
  cases free

/-! ## The debt of the holder -/

/-- A drive in a lease that has ended settles the outcome again. -/
theorem settled_ended (noise : Noise R H T) (entropy : R) (ended : Ended t) (event : Event) :
    ∃ o, (t.drive noise entropy event).1 = .ok o ∧ o.kind = .leaseTerminal ∧ o.bytes = none := by
  obtain ⟨o, driven, plain⟩ := drive_terminal noise entropy ended event
  exact ⟨o, by rw [driven], plain⟩

/-- The holder keeps its debt until it has published. -/
theorem advance_owes (input : Input R) (tidy : Tidy entry) (orderly : Orderly entry call) (owes : Owes entry call) :
    Owes (advance noise entry call input).1 (advance noise entry call input).2 := by
  cases point : call.point with
  | checkRetired =>
      simp only [Owes, point] at owes
      simp only [advance, point, tidy.unretired]
      exact owes
  | readReason =>
      simp only [Owes, point] at owes
      simp only [advance, point]
      exact owes
  | drive onEntry =>
      simp only [Owes, point] at owes
      simp only [advance, point]
      exact .inl owes
  | refresh onEntry outcome =>
      simp only [Owes, point] at owes
      simp only [advance, point]
      exact owes
  | swapTerminal second onEntry outcome =>
      simp only [Owes, point] at owes
      simp only [advance, point]
      have settled (o : Outcome) (same : outcome = .ok o) (kind : o.kind = .leaseTerminal) : Settled entry outcome := by
        obtain ⟨ended, plain⟩ := orderly.concluded o (by rw [point, ← same]; rfl) kind
        exact ⟨ended, o, same, kind, plain⟩
      have hand (done : Settled entry outcome) :
          Owes { entry with pendingTerminal := none } (call.goto (.swapTimer second onEntry outcome)) := by
        cases second with
        | false => exact .inr done
        | true => exact done
      split
      · rename_i pending found
        split
        · rename_i applied
          refine hand ?_
          unfold currentAlreadyApplied at applied
          split at applied
          all_goals
            first
            | cases applied; done
            | simp only [decide_eq_true_eq] at applied
              exact settled _ rfl applied.1
        · trivial
      · rename_i none
        refine hand (owes.resolve_left ?_)
        simp [none]
  | applyTerminal second onEntry request =>
      have carried : request = .leaseStream → entry.leaseStream ≠ 0 := by
        rintro rfl
        exact orderly.carries (by rw [point]; rfl)
      simp only [advance, point, arbitrated]
      obtain ⟨o, ok, plain, ended⟩ : ∃ o, (TargetTransport.drive noise input.entropy
          (if request = .internalError ∧ onEntry.isNone = true then terminateInternalError entry.transport
            else entry.transport) (requestEvent entry.leaseStream request)).1 = .ok o ∧
          (o.kind = .leaseTerminal ∧ o.bytes = none) ∧ Ended (TargetTransport.drive noise input.entropy
          (if request = .internalError ∧ onEntry.isNone = true then terminateInternalError entry.transport
            else entry.transport) (requestEvent entry.leaseStream request)).2 := by
        refine requestEvent_ends noise input.entropy request carried ?_
        split
        · exact .inr (.inl (terminateInternalError_ended _))
        · exact tidy.stream
      cases second with
      | false => exact .inr ⟨ended, o, ok, plain⟩
      | true => exact ⟨ended, o, ok, plain⟩
  | swapTimer second onEntry outcome =>
      simp only [advance, point, arbitrated]
      cases second with
      | false =>
          simp only [Owes, point] at owes
          split
          all_goals exact owes
      | true =>
          simp only [Owes, point] at owes
          split
          all_goals exact owes
  | applyTimer second onEntry outcome timer =>
      simp only [advance, point, arbitrated]
      have fires (done : Settled entry outcome) : Settled
          { entry with
            transport := (entry.transport.drive noise input.entropy (fired timer)).2
            terminalTimers := (entry.transport.drive noise input.entropy (fired timer)).2.terminalTimerTokens }
          (timerOutcome outcome (entry.transport.drive noise input.entropy (fired timer)).1) := by
        obtain ⟨o, ok, kind, plain⟩ := settled_ended noise input.entropy done.1 (fired timer)
        refine ⟨drive_ended noise input.entropy done.1 _, o, ?_, kind, plain⟩
        rw [ok]
        simp only [timerOutcome, kind, or_true, if_true]
      cases second with
      | false =>
          simp only [Owes, point] at owes
          exact owes.imp_right fires
      | true =>
          simp only [Owes, point] at owes
          exact fires owes
  | lockGate onEntry outcome =>
      have before := owes
      simp only [Owes, point] at owes
      simp only [advance, point]
      split
      · exact before
      · exact owes
  | publish outcome =>
      simp only [Owes, point] at owes
      obtain ⟨-, o, rfl, kind, plain⟩ := owes
      simp only [advance, point]
      refine ⟨o, ?_, kind⟩
      simp [plain, orderly.unpublished (by simp [point]) (by simp [point])]
  | releaseBusy =>
      simp only [Owes, point] at owes
      simp only [advance, point]
      exact owes
  | returned =>
      simpa only [advance, point] using owes
  | classify | probeTimer request | record request timer | takeBusy =>
      simp only [Owes, point] at owes

/-- … whatever the other calls do. -/
theorem advance_owes_other (input : Input R) {other : Call} (apart : ¬ (call.point.Holding ∧ other.point.Holding))
    (owes : Owes entry other) : Owes (advance noise entry call input).1 other := by
  by_cases holding : other.point.Holding
  · have waits : Waits entry (advance noise entry call input).1 := advance_waits input fun held => apart ⟨held, holding⟩
    have pending (some : entry.pendingTerminal.isSome = true) :
        (advance noise entry call input).1.pendingTerminal.isSome = true := by
      rw [waits.terminal some]
      exact some
    have settled {outcome : Except SupervisorError Outcome} (done : Settled entry outcome) :
        Settled (advance noise entry call input).1 outcome := by
      unfold Settled
      rw [waits.transport]
      exact done
    unfold Owes at owes ⊢
    split at owes
    all_goals
      first
      | exact pending owes
      | exact owes.imp pending settled
      | exact settled owes
      | exact owes
  · unfold Owes at owes ⊢
    cases point : other.point with
    | returned =>
        rw [point] at owes
        exact owes
    | classify | probeTimer request | record request timer | takeBusy =>
        rw [point] at owes
        exact owes.elim
    | checkRetired | readReason | drive onEntry | refresh onEntry outcome | swapTerminal second onEntry outcome
    | applyTerminal second onEntry request | swapTimer second onEntry outcome | applyTimer second onEntry outcome timer
    | lockGate onEntry outcome | publish outcome | releaseBusy =>
        rw [point] at holding
        exact absurd trivial holding

/-- The holder fires the timer it owes, if it heeds the slot it clears. -/
theorem advance_owesTimer {timer : Nat} (nonzero : timer ≠ 0) (input : Input R) (tidy : Tidy entry)
    (orderly : Orderly entry call) (heeds : Heeds entry call input) (owes : OwesTimer timer entry call) :
    OwesTimer timer (advance noise entry call input).1 (advance noise entry call input).2 := by
  obtain ⟨older, owes⟩ := owes
  refine ⟨older.trans_le (advance_ages noise entry call input).tokens, ?_⟩
  rcases owes with unarmed | owes
  · exact .inl (advance_unarmed input older unarmed)
  cases point : call.point with
  | checkRetired =>
      simp only [point] at owes
      simp only [advance, point, tidy.unretired]
      exact .inr owes
  | readReason | drive onEntry | refresh onEntry outcome =>
      simp only [point] at owes
      simp only [advance, point]
      exact .inr owes
  | swapTerminal second onEntry outcome =>
      simp only [point] at owes
      right
      cases found : entry.pendingTerminal with
      | none =>
          simp only [advance, point, found]
          exact owes
      | some pending =>
          by_cases applied : currentAlreadyApplied outcome pending call.event.tag = true
          · simp only [advance, point, found, if_pos applied]
            exact owes
          · simp only [advance, point, found, if_neg applied]
            exact owes
  | applyTerminal second onEntry request =>
      left
      have carried : request = .leaseStream → entry.leaseStream ≠ 0 := by
        rintro rfl
        exact orderly.carries (by rw [point]; rfl)
      simp only [advance, point]
      split
      · exact armed_of_ended (drive_ended noise input.entropy (terminateInternalError_ended entry.transport) _)
      · obtain ⟨-, -, -, ended⟩ := requestEvent_ends noise input.entropy request carried tidy.stream
        exact armed_of_ended ended
  | swapTimer second onEntry outcome =>
      simp only [point] at owes
      by_cases fires : call.event.tag = .timerFired
      · left
        rcases heeds second onEntry outcome point fires with none | unarmed
        · exact absurd (owes.symm.trans none) nonzero
        · rw [owes] at unarmed
          simpa only [advance, point] using unarmed
      · right
        have armed : ¬ (entry.pendingTimer = 0 ∨ call.event.tag = .timerFired) := by
          rw [owes]
          exact not_or.mpr ⟨nonzero, fires⟩
        simp only [advance, point, if_neg armed]
        exact .inl owes
  | applyTimer second onEntry outcome fires =>
      simp only [point] at owes
      rcases owes with rfl | ⟨rfl, pending⟩
      · left
        simp only [advance, point]
        exact fired_unarmed noise input.entropy nonzero older
      · right
        simp only [advance, point, arbitrated]
        exact pending
  | lockGate onEntry outcome =>
      simp only [point] at owes
      right
      by_cases gate : entry.publishGate = true
      · simp only [advance, point, if_pos gate]
        exact owes
      · simp only [advance, point, if_neg gate]
        exact owes
  | publish outcome | releaseBusy | returned | classify | probeTimer request | record request timer' | takeBusy =>
      simp only [point] at owes

/-- … whatever the other calls do. -/
theorem advance_owesTimer_other {timer : Nat} (nonzero : timer ≠ 0) (input : Input R) {other : Call}
    (apart : ¬ (call.point.Holding ∧ other.point.Holding)) (owes : OwesTimer timer entry other) :
    OwesTimer timer (advance noise entry call input).1 other := by
  obtain ⟨older, owes⟩ := owes
  refine ⟨older.trans_le (advance_ages noise entry call input).tokens, ?_⟩
  rcases owes with unarmed | owes
  · exact .inl (advance_unarmed input older unarmed)
  right
  by_cases holding : other.point.Holding
  · have waits : Waits entry (advance noise entry call input).1 := advance_waits input fun held => apart ⟨held, holding⟩
    have pending (same : entry.pendingTimer = timer) : (advance noise entry call input).1.pendingTimer = timer := by
      rw [waits.timer (same ▸ nonzero)]
      exact same
    split at owes
    all_goals
      first
      | exact pending owes
      | exact owes.imp_right (And.imp_right pending)
      | exact owes
  · split at owes
    all_goals
      first
      | exact owes.elim
      | rename_i point
        rw [point] at holding
        exact absurd trivial holding

end

/-! ## Runs -/

/-- The invariant of all calls, with the debts of one of them. -/
def requests (holder : Nat) (terminal : Bool) (timer : Nat) : Threads.Parts (SupervisorEntry H T) Call where
  first := holder + 1
  shared := Tidy
  own i entry call := Orderly entry call ∧
    (i = holder → (terminal = true → Owes entry call) ∧ (timer ≠ 0 → OwesTimer timer entry call))
  apart call other := ¬ (call.point.Holding ∧ other.point.Holding)

/-- The calls as they enter. -/
def exclusive : Threads.Parts (SupervisorEntry H T) Call where
  shared := Tidy
  own _ entry call := Orderly entry call
  apart call other := ¬ (call.point.Holding ∧ other.point.Holding)

section
variable {noise : Noise R H T}

theorem start_orderly (entry : SupervisorEntry H T) (event : Event) : Orderly entry (Call.start event) where
  carries request := by cases request
  timely _ _ _ _ point := by cases point
  concluded _ hand := by cases hand
  unpublished _ _ := rfl
  busy holding := holding.elim
  token _ recording := by cases recording

theorem exclusive_kept (noise : Noise R H T) : exclusive.Kept (handle noise) fun _ _ _ => True := by
  refine ⟨fun i entry event _ tidy => ?_, fun i entry call input tidy orderly _ => ?_,
    fun i j entry call input other distinct tidy orderly also apart apart' _ => ?_⟩
  · exact ⟨start_orderly entry event, fun other => ⟨fun both => both.1, fun both => both.2⟩⟩
  · exact ⟨advance_tidy input tidy orderly, advance_orderly input tidy orderly⟩
  · have still : ¬ ((advance noise entry call input).2.point.Holding ∧ other.point.Holding) :=
      advance_apart input also apart
    exact ⟨advance_leaves input tidy also apart, still, fun both => still both.symm⟩

theorem requests_kept (noise : Noise R H T) (holder : Nat) (terminal : Bool) (timer : Nat) :
    (requests holder terminal timer).Kept (handle noise) Heeds := by
  refine ⟨fun i entry event later tidy => ?_, fun i entry call input tidy own heeds => ?_,
    fun i j entry call input other distinct tidy own also apart apart' _ => ?_⟩
  · refine ⟨⟨start_orderly entry event, fun same => ?_⟩, fun other => ⟨fun both => both.1, fun both => both.2⟩⟩
    exact absurd same (by simp only [requests] at later; omega)
  · refine ⟨advance_tidy input tidy own.1, advance_orderly input tidy own.1, fun same => ?_⟩
    obtain ⟨owes, timed⟩ := own.2 same
    exact ⟨fun asked => advance_owes input tidy own.1 (owes asked),
      fun nonzero => advance_owesTimer nonzero input tidy own.1 heeds (timed nonzero)⟩
  · have still : ¬ ((advance noise entry call input).2.point.Holding ∧ other.point.Holding) :=
      advance_apart input also.1 apart
    refine ⟨⟨advance_leaves input tidy also.1 apart, fun same => ?_⟩, still, fun both => still both.symm⟩
    obtain ⟨owes, timed⟩ := also.2 same
    exact ⟨fun asked => advance_owes_other input apart (owes asked),
      fun nonzero => advance_owesTimer_other nonzero input apart (timed nonzero)⟩

variable {descriptor : Wire.Bytes} {draws : List Nat} {t₀ : TargetTransport H T} {ready : Outcome}

theorem reached_exclusive (made : TargetTransport.create descriptor draws = .ok (t₀, ready))
    (moves : List (Threads.Move Event (Input R))) : exclusive.Hold ((handle noise).run (opened t₀) moves) := by
  have coherent := opened_coherent made
  have tidy : Tidy (SupervisorEntry.new t₀) := by
    refine ⟨coherent, rfl, fun k member => ?_, fun pending => absurd rfl pending⟩
    obtain ⟨action, found, -⟩ := mem_terminalTimerTokens.mp member
    exact coherent.sound.fresh k action found
  have start : exclusive.Hold (opened t₀) :=
    ⟨le_rfl, tidy, fun i call found => by simp [opened] at found, fun i j call other _ found => by simp [opened] at found⟩
  exact Threads.Parts.Hold.run (exclusive_kept noise) start moves fun _ _ => trivial

theorem owes_of_pending {entry : SupervisorEntry H T} {call : Call} (unpublished : call.point.Unpublished)
    (pending : entry.pendingTerminal.isSome = true) : Owes entry call := by
  unfold Point.Unpublished at unpublished
  unfold Owes
  split at unpublished
  all_goals
    first
    | exact unpublished.elim
    | rename_i point
      rw [point]
      first
      | exact pending
      | exact .inl pending
      | trivial

theorem owesTimer_of_pending {entry : SupervisorEntry H T} {call : Call} (tidy : Tidy entry)
    (clearing : call.point.Unpublished ∨ ∃ onEntry outcome, call.point = .swapTimer true onEntry outcome)
    (pending : entry.pendingTimer ≠ 0) : OwesTimer entry.pendingTimer entry call := by
  refine ⟨tidy.slot pending, .inr ?_⟩
  rcases clearing with unpublished | ⟨onEntry, outcome, point⟩
  · unfold Point.Unpublished at unpublished
    split at unpublished
    all_goals
      first
      | exact unpublished.elim
      | rename_i point
        simp [point]
  · simp only [point]

/-- The debts of a call from a point of the run on. -/
theorem requests_hold {pool : Threads.Pool (SupervisorEntry H T) Call} (hold : exclusive.Hold pool) {holder timer : Nat}
    {terminal : Bool} {caller : Call} (holding : pool.calls[holder]? = some caller)
    (owes : terminal = true → Owes pool.shared caller) (timed : timer ≠ 0 → OwesTimer timer pool.shared caller) :
    (requests holder terminal timer).Hold pool := by
  refine ⟨(List.getElem?_eq_some_iff.mp holding).1, hold.shared, fun i call found => ⟨hold.own i call found, ?_⟩, hold.apart⟩
  rintro rfl
  rw [holding] at found
  cases found
  exact ⟨owes, timed⟩

/-- A request that is in its slot while a call holds the busy flag and has not yet arbitrated
    under the publish gate is applied by that call, in every run whose calls heed the timers they
    clear: the end of the lease is published, and the timer is not armed any more. -/
theorem requests_applied (made : TargetTransport.create descriptor draws = .ok (t₀, ready))
    (before after : List (Threads.Move Event (Input R)))
    (heeds : ∀ step ∈ (handle noise).taken (opened t₀) (before ++ after), Heeds step.1 step.2.1 step.2.2)
    (holder : Nat) (caller call : Call)
    (holding : ((handle noise).run (opened t₀) before).calls[holder]? = some caller)
    (found : ((handle noise).run (opened t₀) (before ++ after)).calls[holder]? = some call)
    (returned : call.point = .returned) :
    (caller.point.Unpublished → ((handle noise).run (opened t₀) before).shared.pendingTerminal.isSome = true →
      ∃ o, call.published = [o] ∧ o.kind = .leaseTerminal) ∧
    (caller.point.Unpublished ∨ (∃ onEntry outcome, caller.point = .swapTimer true onEntry outcome) →
      ((handle noise).run (opened t₀) before).shared.pendingTimer ≠ 0 →
      ¬ Armed ((handle noise).run (opened t₀) (before ++ after)).shared.transport
        ((handle noise).run (opened t₀) before).shared.pendingTimer) := by
  have exclusive : exclusive.Hold ((handle noise).run (opened t₀) before) := reached_exclusive made before
  rw [Threads.Machine.run_append] at found ⊢
  have heeds : ∀ step ∈ (handle noise).taken ((handle noise).run (opened t₀) before) after, Heeds step.1 step.2.1 step.2.2 := by
    intro step member
    refine heeds step ?_
    rw [Threads.Machine.taken_append]
    exact List.mem_append_right _ member
  constructor
  · intro unpublished pending
    have hold : (requests holder true 0).Hold ((handle noise).run (opened t₀) before) :=
      requests_hold exclusive holding (fun _ => owes_of_pending unpublished pending) fun none => absurd rfl none
    have final := Threads.Parts.Hold.run (requests_kept noise holder true 0) hold after heeds
    have owes := ((final.own holder call found).2 rfl).1 rfl
    simpa only [Owes, returned] using owes
  · intro clearing pending
    have hold : (requests holder false _).Hold ((handle noise).run (opened t₀) before) :=
      requests_hold exclusive holding (fun asked => by cases asked) fun _ =>
        owesTimer_of_pending exclusive.shared clearing pending
    have final := Threads.Parts.Hold.run (requests_kept noise holder false _) hold after heeds
    obtain ⟨-, unarmed | owes⟩ := ((final.own holder call found).2 rfl).2 pending
    · exact unarmed
    · simp only [returned] at owes

end

section
open LimitRounds

/-- A cleanup that fails while the bootstrap is driven. -/
def failing : List (Threads.Move Event (Input Unit)) × List (Threads.Move Event (Input Unit)) :=
  (.enter { tag := .bootstrapConnected, streamId := 1 } :: List.replicate 5 (.advance 0 ⟨(), false⟩) ++
    .enter { tag := .cleanupFailed } :: List.replicate 4 (.advance 1 ⟨(), false⟩),
    List.replicate 11 (.advance 0 ⟨(), false⟩))

set_option maxRecDepth 40000 in
theorem failing_applied : TargetTransport.create (encodeDescriptor LimitRounds.descriptor) [0] =
      .ok (start, (Outcome.new .endpointReady).values 0 50000) ∧
    ((handle nonceNoise).run (opened start) failing.1).shared.pendingTerminal = some .cleanupFailed ∧
    ∃ call, ((handle nonceNoise).run (opened start) (failing.1 ++ failing.2)).calls[0]? = some call ∧
      call.point = .returned ∧ ∃ o, call.published = [o] ∧ o.kind = .leaseTerminal := by
  obtain ⟨caller, holding, unpublished⟩ : ∃ caller,
      ((handle nonceNoise).run (opened start) failing.1).calls[0]? = some caller ∧ caller.point.Unpublished :=
    ⟨_, rfl, trivial⟩
  obtain ⟨call, found, returned⟩ : ∃ call,
      ((handle nonceNoise).run (opened start) (failing.1 ++ failing.2)).calls[0]? = some call ∧ call.point = .returned :=
    ⟨_, rfl, rfl⟩
  have pending : ((handle nonceNoise).run (opened start) failing.1).shared.pendingTerminal = some .cleanupFailed := rfl
  have untimed : ((handle nonceNoise).taken (opened start) (failing.1 ++ failing.2)).all
      (fun step => step.2.1.event.tag != .timerFired) = true := rfl
  have applied := requests_applied created failing.1 failing.2 ?_ 0 caller call holding found returned
  · exact ⟨created, pending, call, found, returned, applied.1 unpublished (by rw [pending]; rfl)⟩
  · intro step member second onEntry outcome _ fires
    have other := List.all_eq_true.mp untimed step member
    simp [fires] at other

/-- Two children with a timer each. After the timer of one was driven and before the call
    publishes, that of the other is recorded. -/
def crossing : List (Threads.Move Event (Input Unit)) × List (Threads.Move Event (Input Unit)) :=
  (oneByOne (opening ++ [((), { tag := .sessionAccepted, streamId := 3 })]) ++
    .enter (fired 10) :: List.replicate 10 (.advance 12 ⟨(), false⟩) ++
    .enter (fired 12) :: List.replicate 4 (.advance 13 ⟨(), false⟩), List.replicate 5 (.advance 12 ⟨(), false⟩))

set_option maxRecDepth 40000 in
/-- The slot is cleared, and the recorded timer is still armed. -/
theorem recorded_timer_dropped : TargetTransport.create (encodeDescriptor LimitRounds.descriptor) [0] =
      .ok (start, (Outcome.new .endpointReady).values 0 50000) ∧
    ((handle nonceNoise).run (opened start) crossing.1).shared.pendingTimer = 12 ∧
    (∃ caller, ((handle nonceNoise).run (opened start) crossing.1).calls[12]? = some caller ∧ caller.point.Unpublished) ∧
    (∃ call, ((handle nonceNoise).run (opened start) (crossing.1 ++ crossing.2)).calls[12]? = some call ∧
      call.point = .returned) ∧
    ((handle nonceNoise).run (opened start) (crossing.1 ++ crossing.2)).shared.pendingTimer = 0 ∧
    Armed ((handle nonceNoise).run (opened start) (crossing.1 ++ crossing.2)).shared.transport 12 := by
  refine ⟨created, rfl, ⟨_, rfl, trivial⟩, ⟨_, rfl, rfl⟩, rfl, ?_, rfl⟩
  rintro ⟨terminal, phase⟩
  cases phase

end

end AppPilotKit.Ffi
