import AppPilotKit.Target.Lines

/-! # Which frame a frame timer belongs to

A stream has one slot for a frame timer, which is emptied when its decoder holds nothing. A
chunk that completes one frame and starts the next leaves the timer of the first in the slot.
-/

namespace AppPilotKit.Target

open Wire Transport LimitRounds

variable {R H T : Type}

/-! ## The frame timers of the lease -/

/-- The frame timers of the bootstrap and the lease stream are in the slot. -/
def FrameKeyed (slot : Option Nat) (c : Clock) : Prop :=
  ∀ k, c.timers.lookup k = some .bootstrapFrame ∨ c.timers.lookup k = some .leaseFrame → slot = some k

section
variable {s : Nat} {t u : TargetTransport H T} {e : Eligible H T} {child : Child H T} {event : Event}
  {slot slot' : Option Nat} {c c' : Clock}

theorem FrameKeyed.silent (keyed : FrameKeyed slot c) (silent : Silent c c') : FrameKeyed slot c' := by
  intro k found
  exact keyed k (found.imp (silent k _) (silent k _))

theorem FrameKeyed.lease (keyed : FrameKeyed slot c) (same : SameLease c c') : FrameKeyed slot c' := by
  intro k found
  exact keyed k (found.imp (same k _ rfl).mp (same k _ rfl).mp)

theorem FrameKeyed.schedule {action : TimerAction} {result : Except SupervisorError Nat} (keyed : FrameKeyed slot c)
    (eq : c.scheduleTimer action = (result, c')) (other : action ≠ .bootstrapFrame ∧ action ≠ .leaseFrame) :
    FrameKeyed slot c' := by
  cases result with
  | error error => exact keyed.silent (unscheduled (.refl c) eq)
  | ok token =>
      intro k found
      rw [LeaseClocked.insert_lookup eq, LeaseClocked.insert_lookup eq] at found
      rcases found with (⟨-, same⟩ | ⟨-, found⟩) | ⟨-, same⟩ | ⟨-, found⟩
      · exact absurd same.symm other.1
      · exact keyed k (.inl found)
      · exact absurd same.symm other.2
      · exact keyed k (.inr found)

theorem FrameKeyed.updateFrameTimer {incomplete : Bool} {action : TimerAction}
    {result : Except SupervisorError (Option Nat)} (keyed : FrameKeyed slot c)
    (eq : c.updateFrameTimer incomplete slot action = (result, slot', c')) : FrameKeyed slot' c' := by
  unfold Clock.updateFrameTimer at eq
  split at eq
  · split at eq
    · rename_i free
      rw [Option.isNone_iff_eq_none.mp free] at keyed eq
      split at eq
      · rename_i failed
        cases eq
        exact keyed.silent (unscheduled (.refl c) failed)
      · rename_i token clock made
        cases eq
        intro k found
        rw [LeaseClocked.insert_lookup made, LeaseClocked.insert_lookup made] at found
        by_cases new : k = token
        · rw [new]
        · have older : c.timers.lookup k = some .bootstrapFrame ∨ c.timers.lookup k = some .leaseFrame :=
            found.imp (fun h => (h.resolve_left fun same => new same.1).2) fun h => (h.resolve_left fun same => new same.1).2
          cases keyed k older
    · cases eq
      exact keyed
  · cases eq
    intro k found
    have held := keyed k (found.imp (Silent.cancel c slot k _) (Silent.cancel c slot k _))
    rw [Clock.lookup_cancel, if_pos held] at found
    simp at found

/-- As long as the lease lives, its frame timers are in its slot. -/
def Framed (t : TargetTransport H T) : Prop := Ended t ∨ FrameKeyed t.leaseSlot t.clock

theorem Framed.phase (framed : Framed t) (serving : ¬ Ended t) : FrameKeyed t.leaseSlot t.clock :=
  framed.resolve_left serving

theorem leaseTerminal_framed (u : TargetTransport H T) (reason : CloseReason) (peer : Option (CloseReason × HandoffState)) :
    Framed (TargetTransport.answer (u.leaseTerminal reason peer)).2 := .inl (leaseTerminal_ended u reason peer)

/-- An answer about a child leaves the slot and the timers of the lease alone. -/
theorem ChildAnswer.framed {slip : Prop} {r : Answer H T} (answer : ChildAnswer s t e child slip r)
    (phase : t.phase = .eligible e) (keyed : FrameKeyed t.leaseSlot t.clock) : Framed r.2 := by
  obtain ⟨children, after, -, fate⟩ := answer.phase
  refine .inr ?_
  rw [leaseSlot_eligible after, ← leaseSlot_eligible phase]
  exact keyed.lease fate.only.sameLease

theorem bootstrapConnected_framed (noise : Noise R H T) (entropy : R) (keyed : FrameKeyed t.leaseSlot t.clock) :
    Framed (t.bootstrapConnected noise entropy event).2 := by
  unfold TargetTransport.bootstrapConnected
  split
  · exact .inr keyed
  split
  · rename_i phase
    have keyed : FrameKeyed none t.clock := by
      unfold TargetTransport.leaseSlot at keyed
      rw [phase] at keyed
      exact keyed
    dsimp only [TargetTransport.movedOut]
    split
    · exact leaseTerminal_framed _ _ _
    · split
      · exact leaseTerminal_framed _ _ _
      · split
        · exact .inl ⟨_, rfl⟩
        · rename_i allocated
          split
          · exact .inl ⟨_, rfl⟩
          · rename_i scheduled
            exact .inr ((keyed.silent (.allocate allocated)).schedule scheduled ⟨nofun, nofun⟩)
  · exact .inr keyed

theorem fullWriteCommitted_framed (keyed : FrameKeyed t.leaseSlot t.clock)
    (missing : ∀ e, t.phase = .eligible e → e.children.lookup event.streamId = none) :
    Framed (t.fullWriteCommitted event).2 := by
  unfold TargetTransport.fullWriteCommitted
  split
  · exact .inr keyed
  split
  · rename_i phase
    split
    · refine .inr ?_
      unfold TargetTransport.leaseSlot at keyed ⊢
      rw [phase] at keyed
      exact keyed
    · exact .inr keyed
  · rename_i phase
    split
    · dsimp only
      split
      · exact .inl ⟨_, rfl⟩
      · rename_i scheduled
        refine .inr ?_
        unfold TargetTransport.leaseSlot at keyed ⊢
        rw [phase] at keyed
        refine FrameKeyed.schedule ?_ scheduled ⟨nofun, nofun⟩
        refine keyed.silent fun k a found => ?_
        exact (Table.lookup_retain.mp found).1
    · exact .inr keyed
  · rename_i e phase
    split
    · split
      · split
        · refine .inr ?_
          rw [leaseSlot_eligible phase] at keyed
          exact keyed
        · exact .inr keyed
      · exact .inr keyed
    · have absent : t.movedOut.commitChildWrite e event.streamId event.writeToken =
          ((.error .wrongPhase, t.movedOut), e) := by
        unfold TargetTransport.commitChildWrite
        simp only [missing e phase]
      rw [absent]
      rw [leaseSlot_eligible phase] at keyed
      exact .inr keyed
  · exact .inr keyed

theorem sessionAccepted_framed (noise : Noise R H T) (entropy : R) (keyed : FrameKeyed t.leaseSlot t.clock) :
    Framed (t.sessionAccepted noise entropy event).2 := by
  unfold TargetTransport.sessionAccepted
  split
  · exact .inr keyed
  split
  · rename_i e phase
    rw [leaseSlot_eligible phase] at keyed
    have same {u : TargetTransport H T} {clock : Clock} (children : Table (Child H T))
        (after : u.phase = .eligible { e with children }) (clocked : u.clock = clock)
        (keyed : FrameKeyed e.leaseFrameTimer clock) : Framed u := by
      refine .inr ?_
      rw [leaseSlot_eligible after, clocked]
      exact keyed
    split
    · exact same _ phase rfl keyed
    split
    · exact same _ phase rfl keyed
    · split
      · exact same _ phase rfl keyed
      · split
        · rename_i allocated
          exact same _ phase rfl (keyed.silent (.allocate allocated))
        · rename_i allocated
          split
          · rename_i scheduled
            exact same _ phase rfl ((keyed.silent (.allocate allocated)).schedule scheduled ⟨nofun, nofun⟩)
          · rename_i scheduled
            exact same _ rfl rfl ((keyed.silent (.allocate allocated)).schedule scheduled ⟨nofun, nofun⟩)
  · exact .inr keyed

theorem bootstrapBytes_framed (noise : Noise R H T) (keyed : FrameKeyed t.leaseSlot t.clock) :
    Framed (t.bootstrapBytes noise event).2 := by
  unfold TargetTransport.bootstrapBytes
  split
  · rename_i phase
    unfold TargetTransport.leaseSlot at keyed
    rw [phase] at keyed
    dsimp only [TargetTransport.movedOut] at keyed ⊢
    split
    · exact leaseTerminal_framed _ _ _
    · split
      · exact .inl ⟨_, rfl⟩
      · rename_i updated
        split
        · exact .inr (keyed.updateFrameTimer updated)
        · split
          · exact leaseTerminal_framed _ _ _
          · split
            · exact leaseTerminal_framed _ _ _
            · split
              · exact .inl ⟨_, rfl⟩
              · rename_i allocated
                exact .inr ((keyed.updateFrameTimer updated).silent (.allocate allocated))
        · exact leaseTerminal_framed _ _ _
  · exact .inr keyed

theorem leaseBytes_framed (noise : Noise R H T) (keyed : FrameKeyed t.leaseSlot t.clock) :
    Framed (t.leaseBytes noise event).2 := by
  unfold TargetTransport.leaseBytes
  split
  · rename_i e phase
    split
    · exact .inr keyed
    rw [leaseSlot_eligible phase] at keyed
    split
    · exact leaseTerminal_framed _ _ _
    · split
      · rename_i updated
        exact .inr (keyed.updateFrameTimer updated)
      · rename_i updated
        split
        · exact .inr (keyed.updateFrameTimer updated)
        · dsimp only
          split
          · exact leaseTerminal_framed _ _ _
          · split
            · exact leaseTerminal_framed _ _ _
            · split
              · rename_i allocated
                exact .inr ((keyed.updateFrameTimer updated).silent (.allocate allocated))
              · rename_i allocated
                exact .inr ((keyed.updateFrameTimer updated).silent (.allocate allocated))
        · exact leaseTerminal_framed _ _ _
  · exact .inr keyed

theorem streamEnd_framed (keyed : FrameKeyed t.leaseSlot t.clock)
    (missing : ∀ e, t.phase = .eligible e → e.children.lookup s = none) (reason : CloseReason) (orderly : Bool) :
    Framed (t.streamEnd s reason orderly).2 := by
  unfold TargetTransport.streamEnd
  split
  · split
    · split
      · exact leaseTerminal_framed _ _ _
      · exact leaseTerminal_framed _ _ _
    · exact .inr keyed
  · split
    · split
      · exact leaseTerminal_framed _ _ _
      · exact leaseTerminal_framed _ _ _
    · exact .inr keyed
  · split
    · split
      · exact leaseTerminal_framed _ _ _
      · exact leaseTerminal_framed _ _ _
    · exact .inr keyed
  · rename_i e phase
    split
    · split
      · exact leaseTerminal_framed _ _ _
      · exact leaseTerminal_framed _ _ _
    · rw [missing e phase]
      exact .inr keyed
  · exact .inr keyed

theorem timerFired_framed (sound : Sound t) (keyed : FrameKeyed t.leaseSlot t.clock)
    (unnamed : ∀ own, (t.registered own).isSome → ¬ Addressed own t event) (tag : event.tag = .timerFired) :
    Framed (t.timerFired event).2 := by
  have cancelled (slot : Option Nat) : FrameKeyed t.leaseSlot (t.clock.cancel slot) := keyed.silent (.cancel _ _)
  have nobody {action : TimerAction} {own : Nat} (fires : t.clock.timers.lookup event.writeToken = some action)
      (names : action.stream = some own) : False := by
    cases registered : t.registered own with
    | none => exact sound.unnamed own registered _ _ fires names
    | some _ => exact unnamed own (by rw [registered]; rfl) (.inr ⟨tag, action, fires, names⟩)
  unfold TargetTransport.timerFired
  split
  · exact .inr keyed
  · split
    · exact .inr keyed
    · rename_i action fires
      dsimp only
      split
      · exact leaseTerminal_framed _ _ _
      · exact leaseTerminal_framed _ _ _
      · exact leaseTerminal_framed _ _ _
      · unfold TargetTransport.leaseTickFired
        split
        · rename_i e phase
          have keyed := cancelled (some event.writeToken)
          rw [leaseSlot_eligible (t := t) phase] at keyed
          split
          · exact .inr (cancelled _)
          · dsimp only
            split
            · exact leaseTerminal_framed _ _ _
            · split
              · exact leaseTerminal_framed _ _ _
              · split
                · rename_i scheduled
                  exact .inr (keyed.schedule scheduled ⟨nofun, nofun⟩)
                · rename_i scheduled
                  exact .inr (keyed.schedule scheduled ⟨nofun, nofun⟩)
        · exact .inr (cancelled _)
      · exact (nobody fires rfl).elim
      · exact (nobody fires rfl).elim
      · exact (nobody fires rfl).elim

/-- Every event keeps the frame timers of the lease in their slot. -/
theorem drive_framed (noise : Noise R H T) (entropy : R) (sound : Sound t) (framed : Framed t) (event : Event) :
    Framed (t.drive noise entropy event).2 := by
  by_cases child : ∃ own, (t.registered own).isSome ∧ Addressed own t event
  · obtain ⟨own, there, addressed⟩ := child
    obtain ⟨child, registered⟩ := Option.isSome_iff_exists.mp there
    obtain ⟨e, phase, found⟩ := registered_some registered
    refine (drive_child noise entropy sound phase found addressed).framed phase (framed.phase ?_)
    rintro ⟨terminal, over_⟩
    rw [phase] at over_
    cases over_
  · push Not at child
    -- the stream of the event has no child
    have missing (tag : event.tag ∈ [.streamBytes, .fullWriteCommitted, .runtimeResponse, .streamEof, .streamIoFailed,
        .streamCloseNormal]) (e : Eligible H T) (phase : t.phase = .eligible e) : e.children.lookup event.streamId = none := by
      by_contra there
      have there : (t.registered event.streamId).isSome := by
        rw [registered_eligible phase]
        exact Option.isSome_iff_ne_none.mpr there
      exact child _ there (.inl ⟨rfl, tag⟩)
    unfold TargetTransport.drive
    split
    · rename_i terminal phase
      exact .inl ⟨terminal, phase⟩
    · rename_i serving
      have keyed := framed.phase fun ⟨terminal, phase⟩ => serving terminal phase
      split
      · exact .inr keyed
      · have ends (u : TargetTransport H T) (reason : CloseReason) :
            Framed (TargetTransport.leaseEvent event (u.leaseTerminal reason none) t).2 := by
          unfold TargetTransport.leaseEvent
          split
          · exact .inr keyed
          · exact leaseTerminal_framed _ _ _
        have closed (tag : event.tag ∈ [.streamBytes, .fullWriteCommitted, .runtimeResponse, .streamEof, .streamIoFailed,
            .streamCloseNormal]) : Framed (t.streamClosed event).2 := by
          unfold TargetTransport.streamClosed
          split
          · exact .inr keyed
          · split
            · exact streamEnd_framed keyed (missing tag) _ _
            · exact streamEnd_framed keyed (missing tag) _ _
            · exact streamEnd_framed keyed (missing tag) _ _
        cases tag : event.tag with
        | eligibilityLost =>
            obtain ⟨u, reason, same⟩ := eligibilityLost_terminal t
            dsimp only
            rw [same]
            exact ends u reason
        | cleanupFailed => exact ends t _
        | internalError => exact ends t _
        | timerFired => exact timerFired_framed sound keyed child tag
        | bootstrapConnected => exact bootstrapConnected_framed noise entropy keyed
        | fullWriteCommitted => exact fullWriteCommitted_framed keyed (missing (by rw [tag]; decide))
        | sessionAccepted => exact sessionAccepted_framed noise entropy keyed
        | runtimeResponse =>
            dsimp only
            unfold TargetTransport.runtimeResponse
            split
            · exact .inr keyed
            · split
              · rename_i e phase
                rw [missing (by rw [tag]; decide) e phase]
                exact .inr keyed
              · exact .inr keyed
        | streamBytes =>
            dsimp only
            unfold TargetTransport.streamBytes
            split
            · exact .inr keyed
            · split
              · split
                · exact bootstrapBytes_framed noise keyed
                · exact .inr keyed
              · rename_i e phase
                split
                · exact leaseBytes_framed noise keyed
                · split
                  · rename_i there
                    rw [missing (by rw [tag]; decide) e phase] at there
                    cases there
                  · exact .inr keyed
              · exact .inr keyed
        | streamEof => exact closed (by rw [tag]; decide)
        | streamIoFailed => exact closed (by rw [tag]; decide)
        | streamCloseNormal => exact closed (by rw [tag]; decide)

end

/-! ## The frame that a stream is in the middle of -/

/-- The bytes of the incomplete frame of a stream after one more step, each with the step that brought it. -/
def nextInFlight (s : Nat) (held : List (ServeStep R H T × UInt8)) (step : ServeStep R H T) : List (ServeStep R H T × UInt8) :=
  if Feeds step.before step.input.2 ∧ step.input.2.streamId = s then incomplete (held ++ stamped step step.input.2.bytes)
  else if (line step.before s).isNone then [] else held

def inFlight (s : Nat) (steps : List (ServeStep R H T)) : List (ServeStep R H T × UInt8) := steps.foldl (nextInFlight s) []

/-- The step completes the frame that its stream is in the middle of, and leaves the next one incomplete. -/
def Coalesces (past : List (ServeStep R H T)) (step : ServeStep R H T) : Prop :=
  Feeds step.before step.input.2 ∧ inFlight step.input.2.streamId past ≠ [] ∧
    Overruns (inFlight step.input.2.streamId past) (stamped step step.input.2.bytes)

/-- The stream of the bootstrap or the lease. -/
def leaseStreamId (t : TargetTransport H T) : Option Nat :=
  match t.phase with
  | .bootstrapM1Pending streamId _ _ _ _ => some streamId
  | .bootstrapM2 streamId _ _ _ => some streamId
  | .bootstrapAckPending streamId _ _ _ _ _ _ => some streamId
  | .eligible e => some e.leaseStream
  | _ => none

/-- The frame timer of stream `s` fires while the lease lives. -/
def FrameFires (s timer : Nat) (step : ServeStep R H T) : Prop :=
  ¬ Ended step.before ∧ step.input.2 = { tag := .timerFired, writeToken := timer } ∧
    (step.before.clock.timers.lookup timer = some (.sessionFrame s) ∨
      leaseStreamId step.before = some s ∧ (step.before.clock.timers.lookup timer = some .bootstrapFrame ∨
        step.before.clock.timers.lookup timer = some .leaseFrame))

section
variable {noise : Noise R H T} {s timer : Nat} {t : TargetTransport H T} {steps : List (ServeStep R H T)}
  {step : ServeStep R H T} {descriptor : Bytes} {draws : List Nat} {t₀ : TargetTransport H T} {ready : Outcome}

/-- The frame timer in the slot of a stream was armed by the step that brought the first byte
    of its incomplete frame. Without a timer nothing is incomplete, as long as there are tokens. -/
structure ArmedWith (s : Nat) (steps : List (ServeStep R H T)) (t : TargetTransport H T) : Prop where
  buffers : ∀ decoder slot, line t s = some (decoder, slot) → Buffers decoder (inFlight s steps)
  armed : ∀ decoder timer, line t s = some (decoder, some timer) →
    ∃ step byte rest, inFlight s steps = (step, byte) :: rest ∧ NewTimer step timer
  unarmed : ∀ decoder, line t s = some (decoder, none) → inFlight s steps = [] ∨ Spent t.clock

theorem inFlight_snoc (s : Nat) (steps : List (ServeStep R H T)) (step : ServeStep R H T) :
    inFlight s (steps ++ [step]) = nextInFlight s (inFlight s steps) step := by
  unfold inFlight
  rw [List.foldl_append]
  rfl

/-- A timer in the slot of a stream runs. -/
theorem line_armed (sound : Sound t) {decoder : OuterFrameDecoder} (found : line t s = some (decoder, some timer)) :
    (t.clock.timers.lookup timer).isSome := by
  have lease (held : t.leaseSlot = some timer) : (t.clock.timers.lookup timer).isSome := by
    rcases sound.slot timer held with running | running
    · rw [running]
      rfl
    · rw [running]
      rfl
  unfold line at found
  split at found
  · rename_i phase
    split at found
    · cases found
      exact lease (by unfold TargetTransport.leaseSlot; rw [phase])
    · cases found
  · rename_i phase
    split at found
    · cases found
      exact lease (by unfold TargetTransport.leaseSlot; rw [phase])
    · cases found
  · rename_i phase
    split at found
    · cases found
      exact lease (by unfold TargetTransport.leaseSlot; rw [phase])
    · cases found
  · rename_i e phase
    split at found
    · have held : e.leaseFrameTimer = some timer := congrArg Prod.snd (Option.some.inj found)
      exact lease ((leaseSlot_eligible phase).trans held)
    · obtain ⟨child, there, same⟩ := Option.map_eq_some_iff.mp found
      have held : child.frameTimer = some timer := congrArg Prod.snd same
      rw [(sound.clocked s child ((registered_eligible phase s).trans there)).frame timer held]
      rfl
  · cases found

/-- The line of the bootstrap or lease stream has the slot of the lease. -/
theorem line_lease (lease : leaseStreamId t = some s) : ∃ decoder, line t s = some (decoder, t.leaseSlot) := by
  unfold leaseStreamId at lease
  unfold line TargetTransport.leaseSlot
  cases phase : t.phase with
  | bootstrapM1Pending | bootstrapM2 | bootstrapAckPending | eligible =>
      rw [phase] at lease
      rw [← Option.some.inj lease]
      exact ⟨_, if_pos rfl⟩
  | awaitBootstrap | terminal =>
      rw [phase] at lease
      cases lease

/-- A frame timer that fires is in the slot of its stream. -/
theorem FrameFires.line (fires : FrameFires s timer step) (sound : Sound step.before) (framed : Framed step.before) :
    ∃ decoder, line step.before s = some (decoder, some timer) := by
  obtain ⟨serving, -, session | ⟨lease, running⟩⟩ := fires
  · cases registered : step.before.registered s with
    | none => exact absurd rfl (sound.unnamed s registered _ _ session)
    | some child =>
        obtain ⟨e, phase, found⟩ := registered_some registered
        have held := (sound.clocked s child registered).ownFrame timer session
        exact ⟨child.decoder, (line_child phase (sound.streams e s child phase found).2 found).trans (by rw [held])⟩
  · have held := framed.phase serving timer running
    obtain ⟨decoder, found⟩ := line_lease lease
    exact ⟨decoder, held ▸ found⟩

/-- What `update_frame_timer` does with the slot. -/
theorem updateFrameTimer_cases {incomplete : Bool} {slot slot' : Option Nat} {action : TimerAction} {c c' : Clock}
    {result : Except SupervisorError (Option Nat)} (positive : 0 < c.nextToken)
    (eq : c.updateFrameTimer incomplete slot action = (result, slot', c')) :
    incomplete = false ∧ slot' = none ∨ incomplete = true ∧ slot.isSome ∧ slot' = slot ∨
      incomplete = true ∧ slot = none ∧ (slot' = none ∧ Spent c ∨ slot' = some c.nextToken ∧ ¬ Spent c) := by
  unfold Clock.updateFrameTimer at eq
  split at eq
  · rename_i partial_
    split at eq
    · rename_i free
      have free := Option.isNone_iff_eq_none.mp free
      split at eq
      · rename_i failed
        cases eq
        exact .inr (.inr ⟨partial_, free, .inl ⟨free, (Clock.scheduleTimer_spent positive failed).2⟩⟩)
      · rename_i made
        cases eq
        rcases Clock.scheduleTimer_cases c action with ⟨error, failed⟩ | made'
        · rw [failed] at made
          cases made
        · have left : ¬ Spent c := by
            intro spent
            unfold Clock.scheduleTimer at made
            rw [allocate_spent spent] at made
            cases made
          rw [made'] at made
          cases made
          exact .inr (.inr ⟨partial_, free, .inr ⟨rfl, left⟩⟩)
    · rename_i held
      cases eq
      exact .inr (.inl ⟨partial_, by simpa [Option.isSome_iff_ne_none] using held, rfl⟩)
  · rename_i whole
    cases eq
    exact .inl ⟨by simpa using whole, rfl⟩

theorem armedWith_next (sound : Sound t) (positive : 0 < t.clock.nextToken) (held : ArmedWith s steps t) (input : R × Event)
    (apart : ¬ Coalesces steps ⟨t, input, (serve noise t input).1, (serve noise t input).2⟩) :
    ArmedWith s (steps ++ [⟨t, input, (serve noise t input).1, (serve noise t input).2⟩]) (serve noise t input).2 := by
  have sound' : Sound (serve noise t input).2 := drive_sound noise input.1 sound input.2
  have tokens : t.clock.nextToken ≤ (serve noise t input).2.clock.nextToken := (drive_ages noise input.1 t input.2).tokens
  have lined : Lined s input.2 t (serve noise t input).2 := drive_lined noise input.1 sound input.2 s
  have spends (spent : Spent t.clock) : Spent (serve noise t input).2.clock := by
    unfold Spent at spent ⊢
    omega
  generalize stepEq : (⟨t, input, (serve noise t input).1, (serve noise t input).2⟩ : ServeStep R H T) = step at apart ⊢
  have before : step.before = t := by rw [← stepEq]
  have given : step.input = input := by rw [← stepEq]
  have after : step.after = (serve noise t input).2 := by rw [← stepEq]
  generalize (serve noise t input).2 = t' at *
  have now := inFlight_snoc s steps step
  unfold nextInFlight at now
  rw [before, given] at now
  cases lined with
  | gone none =>
      exact ⟨fun _ _ found => absurd (none.symm.trans found) nofun, fun _ _ found => absurd (none.symm.trans found) nofun,
        fun _ found => absurd (none.symm.trans found) nofun⟩
  | joined quiet none fresh =>
      rw [if_neg (fun feeds => quiet feeds.1), none, Option.isNone_none, if_pos rfl] at now
      refine ⟨fun decoder slot found => ?_, fun decoder timer found => ?_, fun _ _ => .inl now⟩
      · rw [now]
        rw [fresh] at found
        cases found
        exact new_buffers
      · rw [fresh] at found
        cases found
  | kept quiet same =>
      rw [if_neg (fun feeds => quiet feeds.2 feeds.1)] at now
      have still {there} (found : line t' s = some there) : inFlight s (steps ++ [step]) = inFlight s steps := by
        rw [now, ← same, found]
        rfl
      refine ⟨fun decoder slot found => ?_, fun decoder timer found => ?_, fun decoder found => ?_⟩
      · rw [still found]
        exact held.buffers decoder slot (same ▸ found)
      · rw [still found]
        exact held.armed decoder timer (same ▸ found)
      · rw [still found]
        exact (held.unarmed decoder (same ▸ found)).imp_right spends
  | fed feeds own fed =>
      obtain ⟨decoder, slot, frames, decoder', action, result, slot', clock, was, pushed, updated, is_⟩ := fed
      rw [own] at was
      rw [if_pos ⟨feeds, own⟩] at now
      obtain ⟨buffers, -⟩ := push_buffers step (held.buffers decoder slot was) pushed
      rw [← now] at buffers
      have partial_ := buffers.isIncomplete
      have moves := updateFrameTimer_cases positive updated
      refine ⟨fun _ _ found => ?_, fun _ timer found => ?_, fun _ found => ?_⟩
      · cases is_.symm.trans found
        exact buffers
      · cases is_.symm.trans found
        rcases moves with ⟨-, none⟩ | ⟨incomplete_, there, kept⟩ | ⟨incomplete_, rfl, ⟨none, -⟩ | ⟨new, left⟩⟩
        · cases none
        · -- the timer was there before, so the chunk added to the frame that was held
          subst kept
          obtain ⟨first, byte, rest, began, armed⟩ := held.armed decoder timer was
          have grows : inFlight s (steps ++ [step]) = inFlight s steps ++ stamped step input.2.bytes := by
            rw [now]
            by_contra differs
            refine apart ⟨by rw [before, given]; exact feeds, ?_, ?_⟩
            · rw [given, own, began]
              exact nofun
            · rw [given, own]
              exact ⟨now ▸ partial_.mp incomplete_, differs⟩
          exact ⟨first, byte, _, by rw [grows, began]; rfl, armed⟩
        · cases none
        · -- a new timer, and nothing was held
          cases new
          have armed : NewTimer step t.clock.nextToken := by
            refine ⟨?_, ?_⟩
            · rw [before]
              exact sound.fresh.lookup_next
            · rw [after]
              exact line_armed sound' found
          rcases held.unarmed decoder was with nothing | spent
          · rw [nothing, List.nil_append] at now
            cases began : inFlight s (steps ++ [step]) with
            | nil => exact absurd began (partial_.mp incomplete_)
            | cons head rest =>
                have member : head ∈ stamped step input.2.bytes := by
                  refine (incomplete_suffix _).subset (?_ : head ∈ incomplete (stamped step input.2.bytes))
                  rw [← now, began]
                  exact List.mem_cons_self
                obtain ⟨byte, -, rfl⟩ := List.mem_map.mp member
                exact ⟨step, byte, rest, rfl, armed⟩
          · exact absurd spent left
      · cases is_.symm.trans found
        rcases moves with ⟨whole, -⟩ | ⟨-, there, kept⟩ | ⟨-, -, ⟨-, spent⟩ | ⟨new, -⟩⟩
        · refine .inl (by_contra fun some_ => ?_)
          rw [partial_.mpr some_] at whole
          cases whole
        · rw [← kept] at there
          cases there
        · exact .inr (spends spent)
        · cases new

/-- Every run that completes no frame together with the start of the next. -/
theorem reached_armedWith (made : TargetTransport.create descriptor draws = .ok (t₀, ready)) {inputs : List (R × Event)}
    (apart : ∀ past b rest, history noise t₀ inputs = past ++ b :: rest → ¬ Coalesces past b) :
    Framed (reached noise t₀ inputs) ∧ ∀ s, ArmedWith s (history noise t₀ inputs) (reached noise t₀ inputs) := by
  have timed := create_timed made
  obtain ⟨binding, key, phase, -⟩ := create_phase made
  have nothing (s : Nat) : line t₀ s = none := by
    unfold line
    rw [phase]
  have start : Framed t₀ := by
    refine .inr fun k found => ?_
    unfold TargetTransport.Timed at timed
    rw [phase] at timed
    cases (timed.frame k).mpr found
  have run := @Runs.guarded_invariant _ _ _ (serve noise)
    (fun past t => Sound t ∧ 0 < t.clock.nextToken ∧ Framed t ∧ ∀ s, ArmedWith s past t) (fun past b => ¬ Coalesces past b)
    (fun past t input inv meets => ⟨drive_sound noise input.1 inv.1 input.2,
      inv.2.1.trans_le (drive_ages noise input.1 t input.2).tokens, drive_framed noise input.1 inv.1 inv.2.2.1 input.2,
      fun s => armedWith_next inv.1 inv.2.1 (inv.2.2.2 s) input meets⟩)
    t₀ inputs ⟨create_sound made, create_positive made, start, fun s => ⟨fun _ _ found => absurd ((nothing s).symm.trans found) nofun,
      fun _ _ found => absurd ((nothing s).symm.trans found) nofun, fun _ found => absurd ((nothing s).symm.trans found) nofun⟩⟩
    apart
  exact ⟨run.2.2.1, run.2.2.2⟩

/-- A frame timer that fires was armed by the step that brought the first byte of the frame
    that is still incomplete. -/
def FiresForFrame (steps : List (ServeStep R H T)) : Prop :=
  ∀ past b rest s timer, steps = past ++ b :: rest → FrameFires s timer b →
    ∃ step byte more, inFlight s past = (step, byte) :: more ∧ NewTimer step timer

theorem fires_for_frame (made : TargetTransport.create descriptor draws = .ok (t₀, ready)) {inputs : List (R × Event)}
    (apart : ∀ past b rest, history noise t₀ inputs = past ++ b :: rest → ¬ Coalesces past b) :
    FiresForFrame (history noise t₀ inputs) := by
  intro past b rest s timer split fires
  obtain ⟨first, input, last, -, rfl, rfl, -⟩ := Runs.trace_split split
  have earlier : ∀ before step after, history noise t₀ first = before ++ step :: after → ¬ Coalesces before step :=
    fun before step after front => apart before step _ (by rw [split, show Runs.trace _ t₀ first = _ from front, List.append_assoc, List.cons_append])
  obtain ⟨framed, held⟩ := reached_armedWith made earlier
  obtain ⟨decoder, found⟩ := fires.line (reached_sound noise made first) framed
  exact (held s).armed decoder timer found

end

/-! ## A frame that is charged for its predecessor -/

theorem inFlight_unfed {s : Nat} {steps : List (ServeStep R H T)}
    (other : ∀ step ∈ steps, step.input.2.tag = .streamBytes → step.input.2.streamId ≠ s) : inFlight s steps = [] := by
  induction steps using List.reverseRecOn with
  | nil => rfl
  | append_singleton steps step ih =>
      have quiet : ¬ (Feeds step.before step.input.2 ∧ step.input.2.streamId = s) := by
        rintro ⟨feeds, stream⟩
        exact other step (by simp) feeds.2.1 stream
      rw [inFlight_snoc, ih fun step member => other step (by simp [member])]
      unfold nextInFlight
      rw [if_neg quiet, ite_self]

/-- The step that an input takes after a run. -/
def taken (noise : Noise R H T) (t : TargetTransport H T) (past : List (R × Event)) (input : R × Event) : ServeStep R H T :=
  ⟨reached noise t past, input, (serve noise (reached noise t past) input).1, (serve noise (reached noise t past) input).2⟩

theorem history_snoc (noise : Noise R H T) (t : TargetTransport H T) (past : List (R × Event)) (input : R × Event) :
    history noise t (past ++ [input]) = history noise t past ++ [taken noise t past input] := by
  unfold history
  rw [Runs.trace_append]
  rfl

/-- A child waits for the second message of its handshake. -/
def waiting : List (Unit × Event) := opening.take 6

/-- The first byte of the message. -/
def begun : Unit × Event := receive 2 [0]

/-- The rest of the message and the first byte of the next frame. -/
def coalesced : Unit × Event := receive 2 ((handshakeFrame []).drop 1 ++ [0])

/-- The timer that the first byte of the message has armed. -/
def expiring : Unit × Event := ((), { tag := .timerFired, writeToken := 7 })

theorem waiting_quiet : inFlight 2 (history nonceNoise start waiting) = [] := by
  refine inFlight_unfed fun step member tag => ?_
  obtain ⟨front, back, split⟩ := List.append_of_mem member
  obtain ⟨first, input, rest, inputs, -, rfl, -⟩ := Runs.trace_split split
  have given : input ∈ waiting := by
    rw [inputs]
    simp
  have streams : ∀ input ∈ waiting, input.2.tag = .streamBytes → input.2.streamId ≠ 2 := by decide
  exact streams input given tag

/-- The byte that is left over came with the second chunk. -/
theorem coalesced_bytes {σ : Type} (first second : σ) :
    incomplete (incomplete ([] ++ stamped first begun.2.bytes) ++ stamped second coalesced.2.bytes) = [(second, 0)] := by
  have held : incomplete ([] ++ stamped first begun.2.bytes) = [(first, 0)] := incomplete_short (by simp [begun, receive, stamped])
  have chunk : stamped second coalesced.2.bytes = (second, 48) :: stamped second (List.replicate 48 0 ++ [0]) := rfl
  have size : beNat [(0 : UInt8), 48] = 48 := by decide
  have whole : beNat [(0 : UInt8), 48] ≤ (stamped second (List.replicate 48 (0 : UInt8) ++ [0])).length := by
    simp [size, stamped]
  have left : (stamped second (List.replicate 48 (0 : UInt8) ++ [0])).drop (beNat [(0 : UInt8), 48]) = [(second, 0)] := by
    simp [size, stamped]
  have long : incomplete ((first, 0) :: (second, 48) :: stamped second (List.replicate 48 0 ++ [0])) = _ :=
    incomplete_long whole
  rw [left] at long
  rw [held, chunk, List.singleton_append, long]
  exact incomplete_short (by simp)

set_option maxRecDepth 20000 in
/-- The timer of the message that was completed ends the child while the next frame is incomplete. -/
theorem coalesced_inherits : TargetTransport.create (encodeDescriptor descriptor) [0] =
      .ok (start, (Outcome.new .endpointReady).values 0 50000) ∧
    ¬ FiresForFrame (history nonceNoise start (waiting ++ [begun] ++ [coalesced] ++ [expiring])) := by
  refine ⟨created, fun own => ?_⟩
  rw [history_snoc] at own
  have fires : FrameFires 2 7 (taken nonceNoise start (waiting ++ [begun] ++ [coalesced]) expiring) := by
    refine ⟨?_, rfl, .inl rfl⟩
    rintro ⟨_, phase⟩
    cases phase
  obtain ⟨step, byte, more, began, armed⟩ := own _ _ [] 2 7 rfl fires
  have begins : Feeds (reached nonceNoise start waiting) begun.2 := by decide
  have feeds : Feeds (reached nonceNoise start (waiting ++ [begun])) coalesced.2 := by decide
  -- the only byte that is in flight came with the second chunk
  rw [history_snoc, inFlight_snoc, history_snoc, inFlight_snoc, waiting_quiet] at began
  unfold nextInFlight at began
  rw [if_pos ⟨feeds, rfl⟩, if_pos ⟨begins, rfl⟩] at began
  replace began := (coalesced_bytes _ _).symm.trans began
  cases began
  exact absurd armed.1 (by decide)

end AppPilotKit.Target
