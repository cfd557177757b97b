import AppPilotKit.Target.LeaseTimers
import AppPilotKit.Target.LimitRounds

/-! # Timers and their slots

Every timer but the bootstrap deadline is held in exactly one slot: the frame timer or the
tick of the lease, or one of the two timers of a child. A token is given out once, and a
timer that is in no slot does nothing when it fires.
-/

namespace AppPilotKit.Target

open Wire Transport

variable {R H T : Type}

/-- The places a timer is held in. `leaseFrame` is `frame_timer` of the bootstrap phases
    and `lease_frame_timer` afterwards. -/
inductive Slot where
  | leaseFrame
  | leaseTick
  | childPhase (streamId : Nat)
  | childFrame (streamId : Nat)
  deriving DecidableEq

namespace TargetTransport

def tickSlot (t : TargetTransport H T) : Option Nat :=
  match t.phase with
  | .eligible e => e.leaseTickTimer
  | _ => none

/-- The token a slot holds. -/
def held (t : TargetTransport H T) : Slot → Option Nat
  | .leaseFrame => t.leaseSlot
  | .leaseTick => t.tickSlot
  | .childPhase streamId => (t.registered streamId).bind (·.phaseTimer)
  | .childFrame streamId => (t.registered streamId).bind (·.frameTimer)

end TargetTransport

/-- The timers of a state and its slots agree. -/
structure Bookkept (t : TargetTransport H T) : Prop where
  keys : (∀ terminal, t.phase ≠ .terminal terminal) → ∀ k,
    (∃ a, t.clock.timers.lookup k = some a ∧ a ≠ .bootstrap) ↔ ∃ slot, t.held slot = some k
  unique : ∀ slot slot' k, t.held slot = some k → t.held slot' = some k → slot = slot'
  named : ∀ s k, t.held (.childPhase s) = some k ∨ t.held (.childFrame s) = some k →
    ∃ a, t.clock.timers.lookup k = some a ∧ a.stream = some s
  given : ∀ k a, t.clock.timers.lookup k = some a → k < t.clock.nextToken
  cleared : ∀ terminal, t.phase = .terminal terminal → t.clock.timers = ∅

section
variable {t : TargetTransport H T} {s k : Nat}

/-- What is found under a token that a slot holds. -/
def Slot.Fits : Slot → TimerAction → Prop
  | .leaseFrame, a => a = .bootstrapFrame ∨ a = .leaseFrame
  | .leaseTick, a => a = .leaseTick
  | .childPhase s, a => a = .sessionPhase s ∨ a = .sessionIdle s
  | .childFrame s, a => a = .sessionFrame s

theorem Slot.Fits.eq {slot slot' : Slot} {a : TimerAction} (fits : slot.Fits a) (fits' : slot'.Fits a) :
    slot = slot' := by
  cases slot <;> cases slot' <;> simp only [Slot.Fits] at fits fits' <;> grind

theorem Slot.Fits.exists {a : TimerAction} (other : a ≠ .bootstrap) : ∃ slot : Slot, slot.Fits a := by
  cases a with
  | bootstrap => exact absurd rfl other
  | bootstrapFrame => exact ⟨.leaseFrame, .inl rfl⟩
  | leaseFrame => exact ⟨.leaseFrame, .inr rfl⟩
  | leaseTick => exact ⟨.leaseTick, rfl⟩
  | sessionPhase s => exact ⟨.childPhase s, .inl rfl⟩
  | sessionIdle s => exact ⟨.childPhase s, .inr rfl⟩
  | sessionFrame s => exact ⟨.childFrame s, rfl⟩

/-- The lease slots of a phase, with the deadline it may have. -/
theorem TargetTransport.Timed.slots (timed : t.Timed) (going : ∀ terminal, t.phase ≠ .terminal terminal) :
    ∃ deadline, LeaseClocked deadline t.leaseSlot t.tickSlot t.clock := by
  unfold TargetTransport.Timed at timed
  unfold TargetTransport.leaseSlot TargetTransport.tickSlot
  cases phase : t.phase with
  | awaitBootstrap binding key =>
      rw [phase] at timed
      exact ⟨none, timed⟩
  | bootstrapM1Pending streamId bootstrap writeToken decoder frameTimer =>
      rw [phase] at timed
      exact timed.imp' some fun _ clocked => clocked
  | bootstrapM2 streamId bootstrap decoder frameTimer =>
      rw [phase] at timed
      exact timed.imp' some fun _ clocked => clocked
  | bootstrapAckPending streamId lease pbs sessionBinding writeToken decoder frameTimer =>
      rw [phase] at timed
      exact timed.imp' some fun _ clocked => clocked
  | eligible e =>
      rw [phase] at timed
      exact ⟨none, timed⟩
  | terminal terminal => exact absurd phase (going terminal)

/-- A slot holds exactly the timers that fit it. -/
theorem held_iff (sound : Sound t) (timed : t.Timed) (going : ∀ terminal, t.phase ≠ .terminal terminal) (slot : Slot)
    (k : Nat) : t.held slot = some k ↔ ∃ a, t.clock.timers.lookup k = some a ∧ slot.Fits a := by
  obtain ⟨deadline, clocked⟩ := timed.slots going
  cases slot with
  | leaseFrame =>
      refine (clocked.frame k).trans ⟨?_, ?_⟩
      · rintro (found | found)
        · exact ⟨_, found, .inl rfl⟩
        · exact ⟨_, found, .inr rfl⟩
      · rintro ⟨a, found, rfl | rfl⟩
        · exact .inl found
        · exact .inr found
  | leaseTick =>
      refine (clocked.tick k).trans ⟨fun found => ⟨_, found, rfl⟩, ?_⟩
      rintro ⟨a, found, rfl⟩
      exact found
  | childPhase s =>
      show (t.registered s).bind (·.phaseTimer) = some k ↔ _
      cases registered : t.registered s with
      | none =>
          refine ⟨fun none => (by cases none), ?_⟩
          rintro ⟨a, found, rfl | rfl⟩
          · exact absurd rfl (sound.unnamed s registered k _ found)
          · exact absurd rfl (sound.unnamed s registered k _ found)
      | some child =>
          have own := sound.clocked s child registered
          constructor
          · intro slot
            rcases own.phase k slot with found | found
            · exact ⟨_, found, .inl rfl⟩
            · exact ⟨_, found, .inr rfl⟩
          · rintro ⟨a, found, rfl | rfl⟩
            · exact own.ownPhase k (.inl found)
            · exact own.ownPhase k (.inr found)
  | childFrame s =>
      show (t.registered s).bind (·.frameTimer) = some k ↔ _
      cases registered : t.registered s with
      | none =>
          refine ⟨fun none => (by cases none), ?_⟩
          rintro ⟨a, found, rfl⟩
          exact absurd rfl (sound.unnamed s registered k _ found)
      | some child =>
          have own := sound.clocked s child registered
          constructor
          · intro slot
            exact ⟨_, own.frame k slot, rfl⟩
          · rintro ⟨a, found, rfl⟩
            exact own.ownFrame k found

/-- Once the lease has ended nothing is held. -/
theorem held_terminal {terminal : Terminal} (phase : t.phase = .terminal terminal) (slot : Slot) : t.held slot = none := by
  cases slot with
  | leaseFrame =>
      show t.leaseSlot = none
      unfold TargetTransport.leaseSlot
      rw [phase]
  | leaseTick =>
      show t.tickSlot = none
      unfold TargetTransport.tickSlot
      rw [phase]
  | childPhase s =>
      show (t.registered s).bind _ = none
      unfold TargetTransport.registered
      rw [phase]
      rfl
  | childFrame s =>
      show (t.registered s).bind _ = none
      unfold TargetTransport.registered
      rw [phase]
      rfl

theorem table_empty {α : Type} {table : Table α} (none : ∀ k, table.lookup k = none) : table = ∅ := by
  apply AList.ext
  cases entries : table.entries with
  | nil => rfl
  | cons entry rest =>
      have member : entry ∈ table.entries := by simp [entries]
      have found := AList.mem_lookup_iff.mpr member
      rw [none entry.1] at found
      cases found

theorem bookkept (sound : Sound t) (timed : t.Timed) : Bookkept t := by
  by_cases going : ∀ terminal, t.phase ≠ .terminal terminal
  · refine ⟨fun _ k => ?_, fun slot slot' k here there => ?_, fun s k here => ?_, sound.fresh, fun terminal phase => ?_⟩
    · constructor
      · rintro ⟨a, found, other⟩
        obtain ⟨slot, fits⟩ := Slot.Fits.exists other
        exact ⟨slot, (held_iff sound timed going slot k).mpr ⟨a, found, fits⟩⟩
      · rintro ⟨slot, here⟩
        obtain ⟨a, found, fits⟩ := (held_iff sound timed going slot k).mp here
        refine ⟨a, found, ?_⟩
        rintro rfl
        cases slot <;> simp [Slot.Fits] at fits
    · obtain ⟨a, found, fits⟩ := (held_iff sound timed going slot k).mp here
      obtain ⟨a', found', fits'⟩ := (held_iff sound timed going slot' k).mp there
      cases found.symm.trans found'
      exact fits.eq fits'
    · rcases here with here | here
      · obtain ⟨a, found, rfl | rfl⟩ := (held_iff sound timed going _ k).mp here
        · exact ⟨_, found, rfl⟩
        · exact ⟨_, found, rfl⟩
      · obtain ⟨a, found, rfl⟩ := (held_iff sound timed going _ k).mp here
        exact ⟨_, found, rfl⟩
    · exact absurd phase (going terminal)
  · push Not at going
    obtain ⟨terminal, phase⟩ := going
    have held := held_terminal phase
    refine ⟨fun going => absurd phase (going terminal), fun slot slot' k here => ?_, fun s k here => ?_, sound.fresh,
      fun _ _ => ?_⟩
    · rw [held slot] at here
      cases here
    · simp [held] at here
    · unfold TargetTransport.Timed at timed
      rw [phase] at timed
      exact table_empty timed

/-- A timer that is not armed does nothing. -/
theorem drive_unarmed (noise : Noise R H T) (entropy : R) {event : Event} (tag : event.tag = .timerFired)
    (unarmed : t.clock.timers.lookup event.writeToken = none) : (t.drive noise entropy event).2 = t := by
  unfold TargetTransport.drive
  split
  · rfl
  · split
    · rfl
    · simp only [tag, TargetTransport.timerFired, unarmed]
      split
      · rfl
      · rfl

end

/-! ## Runs -/

section
variable {noise : Noise R H T} {descriptor : Bytes} {draws : List Nat} {t₀ : TargetTransport H T} {ready : Outcome}

/-- No event of a run is refused a token. -/
def Granted (noise : Noise R H T) (t : TargetTransport H T) (inputs : List (R × Event)) : Prop :=
  ∀ step ∈ history noise t inputs, ¬ Refused step.output step.after

theorem create_positive (made : TargetTransport.create descriptor draws = .ok (t₀, ready)) : 0 < t₀.clock.nextToken := by
  unfold TargetTransport.create at made
  cases parsed : parseDescriptor descriptor with
  | error error =>
      rw [parsed] at made
      cases made
  | ok descriptor =>
      rw [parsed] at made
      cases drawn : TargetTransport.generateProcessGeneration draws with
      | none =>
          simp only [bind, Except.bind, pure, Except.pure, drawn] at made
          cases made
      | some generation =>
          simp only [bind, Except.bind, pure, Except.pure, drawn] at made
          cases made
          exact Nat.one_pos

theorem create_timed (made : TargetTransport.create descriptor draws = .ok (t₀, ready)) : t₀.Timed := by
  obtain ⟨binding, key, phase, timers⟩ := create_phase made
  unfold TargetTransport.Timed
  rw [phase]
  apply LeaseClocked.empty
  intro k
  rw [timers]
  rfl

theorem reached_timed (made : TargetTransport.create descriptor draws = .ok (t₀, ready)) {inputs : List (R × Event)}
    (granted : Granted noise t₀ inputs) : (reached noise t₀ inputs).Timed := by
  induction inputs using List.reverseRecOn with
  | nil => exact create_timed made
  | append_singleton first input ih =>
      unfold Granted history at granted
      rw [Runs.trace_append] at granted
      have before := ih fun step member => granted step (List.mem_append_left _ member)
      have positive : 0 < (reached noise t₀ first).clock.nextToken :=
        (create_positive made).trans_le (reached_ages noise t₀ first).tokens
      have kept := drive_keeps noise input.1 (reached_sound noise made first) before positive input.2
      unfold reached
      rw [Runs.final_append]
      apply kept.resolve_right
      exact granted ⟨_, input, _, _⟩ (List.mem_append_right _ (List.mem_singleton.mpr rfl))

/-- A run that leaves a token unspent was refused none. -/
theorem granted_of_room {inputs : List (R × Event)} (room : (reached noise t₀ inputs).clock.nextToken + 1 < 2 ^ 64) :
    Granted noise t₀ inputs := by
  intro step member refused
  obtain ⟨front, back, split⟩ := List.append_of_mem member
  obtain ⟨first, input, rest, rfl, -, rfl, -⟩ := Runs.trace_split split
  have later := (reached_ages noise (serve noise (reached noise t₀ first) input).2 rest).tokens
  unfold reached at room later
  rw [Runs.final_append, Runs.final_cons] at room
  have spent := refused.2
  dsimp only at spent
  omega

/-- In every state of a run the timers are those of the slots, a token that was given out and
    is not armed stays so, and a timer that is neither in a slot nor the bootstrap deadline
    changes nothing. -/
theorem timers_bookkept (made : TargetTransport.create descriptor draws = .ok (t₀, ready)) (inputs : List (R × Event))
    (granted : Granted noise t₀ inputs) :
    Bookkept (reached noise t₀ inputs) ∧
    (∀ first rest, inputs = first ++ rest →
      (reached noise t₀ first).clock.nextToken ≤ (reached noise t₀ inputs).clock.nextToken ∧
      ∀ k a, k < (reached noise t₀ first).clock.nextToken →
        (reached noise t₀ inputs).clock.timers.lookup k = some a →
        (reached noise t₀ first).clock.timers.lookup k = some a) ∧
    (∀ entropy event, event.tag = .timerFired →
      (∀ slot, (reached noise t₀ inputs).held slot ≠ some event.writeToken) →
      (reached noise t₀ inputs).clock.timers.lookup event.writeToken ≠ some .bootstrap →
      ((reached noise t₀ inputs).drive noise entropy event).2 = reached noise t₀ inputs) := by
  have kept := bookkept (reached_sound noise made inputs) (reached_timed made granted)
  refine ⟨kept, fun first rest split => ?_, fun entropy event tag free other => drive_unarmed noise entropy tag ?_⟩
  · have ages := reached_ages noise (reached noise t₀ first) rest
    unfold reached at ages ⊢
    rw [split, Runs.final_append]
    refine ⟨ages.tokens, fun k a older found => ?_⟩
    exact (ages.timers k a found).resolve_right (not_le.mpr older)
  · cases armed : (reached noise t₀ inputs).clock.timers.lookup event.writeToken with
    | none => rfl
    | some a =>
        rw [armed] at other
        by_cases going : ∀ terminal, (reached noise t₀ inputs).phase ≠ .terminal terminal
        · obtain ⟨slot, here⟩ := (kept.keys going event.writeToken).mp ⟨a, armed, fun same => other (congrArg some same)⟩
          exact absurd here (free slot)
        · push Not at going
          obtain ⟨terminal, phase⟩ := going
          rw [kept.cleared terminal phase] at armed
          cases armed

end

section
open LimitRounds

theorem opening_granted : Granted nonceNoise start opening := by
  obtain ⟨e, child, -, -, -, -, -, -, -, next⟩ := opening_holds
  apply granted_of_room
  rw [next]
  decide

/-- The opening of a child. -/
theorem opening_bookkept : TargetTransport.create (encodeDescriptor LimitRounds.descriptor) [0] =
      .ok (start, (Outcome.new .endpointReady).values 0 50000) ∧ Bookkept (reached nonceNoise start opening) :=
  ⟨created, (timers_bookkept created opening opening_granted).1⟩

def connected : List (Unit × Event) := [((), { tag := .bootstrapConnected, streamId := 1 })]

set_option maxRecDepth 20000 in
/-- The bootstrap deadline is in no slot, and its firing ends the lease. -/
theorem deadline_in_no_slot : TargetTransport.create (encodeDescriptor LimitRounds.descriptor) [0] =
      .ok (start, (Outcome.new .endpointReady).values 0 50000) ∧
    (reached nonceNoise start connected).clock.nextToken = 3 ∧
    (∀ slot, (reached nonceNoise start connected).held slot ≠ some 2) ∧
    (∃ streamId bootstrap writeToken decoder frameTimer, (reached nonceNoise start connected).phase =
      .bootstrapM1Pending streamId bootstrap writeToken decoder frameTimer) ∧
    ((reached nonceNoise start connected).drive nonceNoise () { tag := .timerFired, writeToken := 2 }).2.phase =
      .terminal ⟨.timeout, .notHandedOff, none⟩ := by
  have empty (slot : Slot) : (reached nonceNoise start connected).held slot = none := by
    cases slot with
    | leaseFrame => rfl
    | leaseTick => rfl
    | childPhase s => rfl
    | childFrame s => rfl
  refine ⟨created, rfl, fun slot here => ?_, ⟨_, _, _, _, _, rfl⟩, rfl⟩
  rw [empty slot] at here
  cases here

end

end AppPilotKit.Target
