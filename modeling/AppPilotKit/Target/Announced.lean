import AppPilotKit.Target.Announcing
import AppPilotKit.Target.ChildContract

/-! # The host schedules every armed timer

The chunks of bytes that `Untold` describes are exactly the events that arm a timer behind
the back of the host. In a run without them the host has scheduled every timer that is armed.
-/

namespace AppPilotKit.Target

open Wire Transport LimitRounds

variable {R H T : Type}

section
variable {s timer : Nat} {t u : TargetTransport H T} {e : Eligible H T} {child : Child H T} {event : Event} {c c' : Clock}

/-- A timer is armed, and the answer does not announce it. -/
structure Missed (timer : Nat) (r : Answer H T) : Prop where
  armed : (r.2.clock.timers.lookup timer).isSome
  untold : ∀ o, r.1 = .ok o → o.deadlineToken = none ∧ ¬ Ended r.2

theorem Missed.error {error : SupervisorError} (armed : (u.clock.timers.lookup timer).isSome) :
    Missed timer ((.error error, u) : Answer H T) := by
  refine ⟨armed, fun o same => ?_⟩
  cases same

theorem allocate_left (positive : 0 < c.nextToken) (left : ¬ Spent c) :
    c.allocateToken = (.ok c.nextToken, { c with nextToken := c.nextToken + 1 }) :=
  allocates c positive (by unfold Spent at left; omega)

theorem allocate_spent (spent : Spent c) : c.allocateToken = (.error .internal, c) := by
  unfold Clock.allocateToken
  rw [if_neg (by unfold Spent at spent; omega)]

/-- A Close frame leaves the timers of its child armed. -/
theorem childCoreError_missed (armed : (t.clock.timers.lookup timer).isSome) (positive : 0 < t.clock.nextToken)
    (left : ¬ Spent t.clock) {error : Error} (close : error.closeFrame.isSome) :
    Missed timer (TargetTransport.answer ((t.withChild e s child).childCoreError s error)) := by
  obtain ⟨frame, close⟩ := Option.isSome_iff_exists.mp close
  have allocated := allocate_left positive left
  have found : (e.children.insert s child).lookup s = some child := AList.lookup_insert _
  unfold TargetTransport.childCoreError TargetTransport.answer
  simp only [close, allocated, TargetTransport.withChild, found]
  refine ⟨armed, fun o same => ?_⟩
  cases same
  constructor
  · simp [Outcome.deadlineToken, Outcome.write, Outcome.stream, Outcome.new]
  · rintro ⟨terminal, over_⟩
    cases over_

theorem sessionFrames_missed (noise : Noise R H T) (armed : (t.clock.timers.lookup timer).isSome)
    (positive : 0 < t.clock.nextToken) {started : Option Nat} {first : Bytes} {more : List Bytes}
    (crowds : Crowds noise child (Spent t.clock) first more) :
    Missed timer (t.sessionFrames noise e s child started first more) := by
  unfold Crowds at crowds
  unfold TargetTransport.sessionFrames
  dsimp only at crowds ⊢
  cases phase : child.phase with
  | awaitM2 session =>
      simp only [phase] at crowds ⊢
      obtain ⟨rfl, closing⟩ := crowds
      rw [if_neg (by simp)]
      simp only [frameError] at closing
      cases read : session.readM2 noise first with
      | mk result after =>
          cases result with
          | error error =>
              simp only [read] at closing
              obtain ⟨_, ⟨⟩, close, left⟩ | ⟨none, -⟩ := closing
              · exact childCoreError_missed armed positive left close
              · cases none
          | ok _ =>
              dsimp only
              cases wrote : after.writeFinished noise with
              | mk result final =>
                  cases result with
                  | error error =>
                      simp only [read, wrote] at closing
                      obtain ⟨_, ⟨⟩, close, left⟩ | ⟨none, -⟩ := closing
                      · exact childCoreError_missed armed positive left close
                      · cases none
                  | ok finished =>
                      simp only [read, wrote] at closing
                      obtain ⟨_, none, -⟩ | ⟨-, spent⟩ := closing
                      · cases none
                      · simp only [allocate_spent spent]
                        exact .error armed
  | awaitFinished session =>
      simp only [phase] at crowds ⊢
      simp only [frameError, Completes] at crowds
      cases read : session.readFinished noise first with
      | mk result after =>
          cases result with
          | error error =>
              simp only [read] at crowds
              obtain ⟨_, ⟨⟩, close, left⟩ | ⟨⟨_, _, _, done, -⟩, -⟩ := crowds
              · exact childCoreError_missed armed positive left close
              · cases done
          | ok _ =>
              simp only [read] at crowds
              dsimp only
              obtain ⟨error, failed, close, left⟩ | ⟨⟨_, final, bytes, ok, done⟩, most⟩ := crowds
              · split at failed
                · rename_i failure
                  cases failed
                  rw [failure]
                  exact childCoreError_missed armed positive left close
                · cases failed
              · cases ok
                rw [done]
                simp only [TargetTransport.finishApplications, checkedAdd, if_neg (Nat.not_lt.mpr most)]
                exact .error armed
  | awaitApplication session =>
      simp only [phase] at crowds ⊢
      simp only [frameError, Completes] at crowds
      obtain ⟨error, failed, close, left⟩ | ⟨⟨final, bytes, done⟩, most⟩ := crowds
      · split at failed
        · rename_i failure
          cases failed
          rw [failure]
          exact childCoreError_missed armed positive left close
        · cases failed
      · rw [done]
        simp only [TargetTransport.finishApplications, checkedAdd, if_neg (Nat.not_lt.mpr most)]
        exact .error armed
  | m1Pending | finishedPending | awaitRuntime | responsePending | terminalPending | terminal => exact .error armed

/-- A partial frame without a timer starts one. -/
theorem updateFrameTimer_starting (positive : 0 < c.nextToken) (left : ¬ Spent c) (action : TimerAction) :
    c.updateFrameTimer true none action = (.ok (some c.nextToken), some c.nextToken,
      { nextToken := c.nextToken + 1, timers := c.timers.insert c.nextToken action }) := by
  unfold Clock.updateFrameTimer
  simp only [if_true, Option.isNone_none, schedules c action positive (by unfold Spent at left; omega)]

/-- The event that cannot announce the frame timer it starts. -/
theorem drive_missed (noise : Noise R H T) (entropy : R) (positive : 0 < t.clock.nextToken)
    (untold : Untold noise t event) : Missed t.clock.nextToken (t.drive noise entropy event) := by
  obtain ⟨flags, tag, nonzero, token, bytes, left, first, more, crowds⟩ := untold
  have armed (action : TimerAction) : ((t.clock.timers.insert t.clock.nextToken action).lookup t.clock.nextToken).isSome := by
    rw [AList.lookup_insert]
    rfl
  have spent (last : Last t.clock) (timers : Table TimerAction) :
      Spent { nextToken := t.clock.nextToken + 1, timers } := last
  unfold TargetTransport.drive TargetTransport.streamBytes
  cases phase : t.phase with
  | bootstrapM2 streamId bootstrap decoder frameTimer =>
      simp only [phase] at crowds
      obtain ⟨rfl, ⟨rfl, decoder', pushed, incomplete⟩, rfl, last, _, _, _, _, _, read, wrote⟩ := crowds
      simp only [flags, tag, token, nonzero, bytes, phase, ne_eq, not_true_eq_false, or_self, if_false, if_true]
      simp only [TargetTransport.bootstrapBytes, phase, pushed, TargetTransport.movedOut, incomplete,
        updateFrameTimer_starting positive left, read, wrote, allocate_spent (spent last _)]
      exact .error (armed _)
  | eligible e =>
      simp only [phase] at crowds
      simp only [flags, tag, token, nonzero, bytes, ne_eq, not_true_eq_false, or_self, if_false]
      split at crowds
      · rename_i same
        obtain ⟨idle, ⟨slot, decoder', pushed, incomplete⟩, rfl, last, _, _, _, _, read, wrote⟩ := crowds
        simp only [same, if_true]
        simp only [TargetTransport.leaseBytes, phase, idle, Option.isSome_none, Bool.false_eq_true, if_false, pushed,
          incomplete, slot, updateFrameTimer_starting positive left, read, wrote, allocate_spent (spent last _)]
        exact .error (armed _)
      · rename_i other
        obtain ⟨child, found, ⟨slot, decoder', pushed, incomplete⟩, crowds⟩ := crowds
        simp only [other, found, Option.isSome_some, if_false, if_true]
        simp only [TargetTransport.sessionBytes, phase, found, pushed, incomplete, slot,
          updateFrameTimer_starting positive left]
        exact sessionFrames_missed (t := { t with clock := _ }) noise (armed _) (Nat.succ_pos _) crowds
  | awaitBootstrap | bootstrapM1Pending | bootstrapAckPending | terminal => simp only [phase] at crowds

/-- A timer that fires is spent. -/
theorem timerFired_stops (fresh : t.clock.Fresh) (wellFormed : ¬ (event.streamId ≠ 0 ∨ event.writeToken = 0 ∨ event.bytes ≠ [])) :
    (t.timerFired event).2.clock.timers.lookup event.writeToken = none := by
  unfold TargetTransport.timerFired
  rw [if_neg wellFormed]
  cases armed : t.clock.timers.lookup event.writeToken with
  | none => exact armed
  | some action =>
      have older := fresh _ _ armed
      have tokens := Clock.cancel_nextToken t.clock (some event.writeToken)
      have stopped : ∀ clock, Ages (t.clock.cancel (some event.writeToken)) clock →
          clock.timers.lookup event.writeToken = none := by
        intro clock ages
        by_contra found
        obtain ⟨action', found⟩ := Option.ne_none_iff_exists'.mp found
        rcases ages.timers _ _ found with kept | newer
        · rw [Clock.lookup_cancel, if_pos rfl] at kept
          cases kept
        · omega
      dsimp only
      refine stopped _ ?_
      split
      · exact Ages.clear (.refl _)
      · exact Ages.clear (.refl _)
      · exact Ages.clear (.refl _)
      · exact leaseTickFired_ages (t := { t with clock := t.clock.cancel (some event.writeToken) }) (.refl _) _
      · exact childTimerFired_ages (t := { t with clock := t.clock.cancel (some event.writeToken) }) (.refl _) _ _
      · exact childTimerFired_ages (t := { t with clock := t.clock.cancel (some event.writeToken) }) (.refl _) _ _
      · exact childTimerFired_ages (t := { t with clock := t.clock.cancel (some event.writeToken) }) (.refl _) _ _

end

/-! ## Runs -/

/-- A timer is armed after the step that was not armed before. -/
def NewTimer (step : ServeStep R H T) (timer : Nat) : Prop :=
  step.before.clock.timers.lookup timer = none ∧ (step.after.clock.timers.lookup timer).isSome

/-- While the lease lives, a step arms at most one timer, and its outcome announces it. -/
structure TimersAnnounced (step : ServeStep R H T) : Prop where
  single : ¬ Ended step.after → ∀ timer other, NewTimer step timer → NewTimer step other → timer = other
  announced : ¬ Ended step.after → ∀ timer, NewTimer step timer →
    ∃ o, step.output = .ok o ∧ o.deadlineToken = some timer ∧ 0 < o.nextDeadlineMs
  rejected : ∀ error, step.output = .error error → ∀ timer, ¬ NewTimer step timer

theorem Told.timersAnnounced {step : ServeStep R H T} (told : Told step.before.clock step.output step.after.clock) :
    TimersAnnounced step := by
  obtain ⟨before, input, output, after⟩ := step
  have silent (silent : Silent before.clock after.clock) (timer : Nat) : ¬ NewTimer ⟨before, input, output, after⟩ timer := by
    rintro ⟨absent, armed⟩
    obtain ⟨action, found⟩ := Option.isSome_iff_exists.mp armed
    rw [silent timer action found] at absent
    cases absent
  cases told with
  | silent _ none =>
      exact ⟨fun _ timer _ new => absurd new (silent none timer), fun _ timer new => absurd new (silent none timer),
        fun _ _ => silent none⟩
  | @announced o announced _ token positive adds =>
      have only : ∀ timer, NewTimer ⟨before, input, .ok o, after⟩ timer → timer = announced := by
        rintro timer ⟨absent, armed⟩
        obtain ⟨action, found⟩ := Option.isSome_iff_exists.mp armed
        rcases adds.timers timer action found with older | same
        · exact absurd (absent.symm.trans older) nofun
        · exact same
      refine ⟨fun _ timer other new new' => (only timer new).trans (only other new').symm, fun _ timer new => ?_, nofun⟩
      rw [only timer new]
      exact ⟨o, rfl, token, positive⟩

theorem Missed.not_timersAnnounced {step : ServeStep R H T} {timer : Nat} (fresh : step.before.clock.timers.lookup timer = none)
    (missed : Missed timer (step.output, step.after)) : ¬ TimersAnnounced step := by
  intro told
  have new : NewTimer step timer := ⟨fresh, missed.armed⟩
  cases out : step.output with
  | error error => exact told.rejected error out timer new
  | ok o =>
      obtain ⟨none, serving⟩ := missed.untold o out
      obtain ⟨o', ok, token, -⟩ := told.announced serving timer new
      rw [out] at ok
      cases ok
      rw [none] at token
      cases token

/-- `scheduleDeadline`: the host starts a timer for the token that an outcome announces. -/
def scheduleDeadline (running : List Nat) (o : Outcome) : List Nat :=
  match o.deadlineToken with
  | some token => if token = 0 ∨ o.nextDeadlineMs = 0 ∨ token ∈ running then running else token :: running
  | none => running

/-- `timerFired`: a timer of the host is gone before its event is driven. -/
def stillRunning (running : List Nat) (event : Event) : List Nat :=
  if event = { tag := .timerFired, writeToken := event.writeToken } then running.filter (· ≠ event.writeToken) else running

/-- The timers that run at the host after these steps. -/
def runningTimers (steps : List (ServeStep R H T)) : List Nat :=
  steps.foldl (fun running step =>
    match step.output with
    | .ok o => scheduleDeadline (stillRunning running step.input.2) o
    | .error _ => stillRunning running step.input.2) []

section
variable {noise : Noise R H T} {descriptor : Bytes} {draws : List Nat} {t₀ : TargetTransport H T} {ready : Outcome}

theorem mem_scheduleDeadline {running : List Nat} {timer : Nat} (member : timer ∈ running) (o : Outcome) :
    timer ∈ scheduleDeadline running o := by
  unfold scheduleDeadline
  split
  · split
    · exact member
    · exact List.mem_cons_of_mem _ member
  · exact member

theorem scheduleDeadline_announced {timer : Nat} {o : Outcome} (token : o.deadlineToken = some timer) (nonzero : timer ≠ 0)
    (positive : 0 < o.nextDeadlineMs) (running : List Nat) : timer ∈ scheduleDeadline running o := by
  unfold scheduleDeadline
  rw [token]
  dsimp only
  split
  · rename_i already
    rcases already with zero | zero | member
    · exact absurd zero nonzero
    · omega
    · exact member
  · exact List.mem_cons_self

theorem reached_positive (noise : Noise R H T) (made : TargetTransport.create descriptor draws = .ok (t₀, ready)) (inputs : List (R × Event)) :
    0 < (reached noise t₀ inputs).clock.nextToken :=
  (create_positive made).trans_le (reached_ages noise t₀ inputs).tokens

theorem armed_nonzero (made : TargetTransport.create descriptor draws = .ok (t₀, ready)) {inputs : List (R × Event)}
    {timer : Nat} {action : TimerAction} (armed : (reached noise t₀ inputs).clock.timers.lookup timer = some action) :
    timer ≠ 0 := by
  rcases (reached_ages noise t₀ inputs).timers timer action armed with kept | newer
  · obtain ⟨_, _, -, none⟩ := create_phase made
    rw [none] at kept
    cases kept
  · have positive := create_positive made
    omega

/-- An event that fires a timer of the host leaves it spent. -/
theorem drive_stops (noise : Noise R H T) (entropy : R) {t : TargetTransport H T} (sound : Sound t) (serving : ¬ Ended t)
    {timer : Nat} (nonzero : timer ≠ 0) :
    (t.drive noise entropy { tag := .timerFired, writeToken := timer }).2.clock.timers.lookup timer = none := by
  unfold TargetTransport.drive
  split
  · rename_i terminal phase
    exact absurd ⟨terminal, phase⟩ serving
  · have stops (event : Event) : _ → (t.timerFired event).2.clock.timers.lookup event.writeToken = none :=
      timerFired_stops sound.fresh
    exact stops { tag := .timerFired, writeToken := timer } (by simp [nonzero])

theorem drive_ended (noise : Noise R H T) (entropy : R) {t : TargetTransport H T} (ended : Ended t) (event : Event) :
    (t.drive noise entropy event).2 = t := by
  obtain ⟨terminal, phase⟩ := ended
  unfold TargetTransport.drive
  simp only [phase]

/-- A run that arms no timer behind the back of the host: what is armed is scheduled. -/
theorem armed_scheduled (made : TargetTransport.create descriptor draws = .ok (t₀, ready)) {inputs : List (R × Event)}
    (told : ∀ step ∈ history noise t₀ inputs, ¬ Untold noise step.before step.input.2)
    (serving : ¬ Ended (reached noise t₀ inputs)) :
    ∀ timer action, (reached noise t₀ inputs).clock.timers.lookup timer = some action →
      timer ∈ runningTimers (history noise t₀ inputs) := by
  induction inputs using List.reverseRecOn with
  | nil =>
      intro timer action found
      obtain ⟨_, _, -, none⟩ := create_phase made
      rw [show reached noise t₀ [] = t₀ from rfl, none] at found
      cases found
  | append_singleton first input ih =>
      unfold history at told
      unfold history reached
      unfold reached at serving
      rw [Runs.trace_append] at told ⊢
      rw [Runs.final_append] at serving ⊢
      have sound := reached_sound noise made first
      have positive := reached_positive noise made first
      have before := ih fun step member => told step (List.mem_append_left _ member)
      have roomy := told ⟨_, input, _, _⟩ (List.mem_append_right _ (List.mem_singleton.mpr rfl))
      have nonzero : ∀ timer action, (reached noise t₀ (first ++ [input])).clock.timers.lookup timer = some action →
          timer ≠ 0 := fun _ _ => armed_nonzero made
      unfold runningTimers reached at *
      rw [Runs.final_append] at nonzero
      rw [List.foldl_append]
      generalize List.foldl _ [] (Runs.trace (serve noise) t₀ first) = running at before ⊢
      generalize Runs.final (serve noise) t₀ first = t at sound positive before roomy serving nonzero ⊢
      obtain ⟨entropy, event⟩ := input
      change ¬ Ended (t.drive noise entropy event).2 at serving
      change ∀ timer action, (t.drive noise entropy event).2.clock.timers.lookup timer = some action → _
      intro timer action found
      have nonzero := nonzero timer action found
      have serves : ¬ Ended t := fun ended => serving (by rw [drive_ended noise entropy ended event]; exact ended)
      have announces : TimersAnnounced (⟨t, (entropy, event), (t.drive noise entropy event).1, (t.drive noise entropy event).2⟩ : ServeStep R H T) :=
        (drive_told noise entropy positive roomy).timersAnnounced
      cases older : t.clock.timers.lookup timer with
      | none =>
          obtain ⟨o, ok, token, positive'⟩ := announces.announced serving timer ⟨older, by rw [found]; rfl⟩
          change (t.drive noise entropy event).1 = .ok o at ok
          change timer ∈ match (t.drive noise entropy event).1 with
            | .ok o => scheduleDeadline (stillRunning running event) o
            | .error _ => stillRunning running event
          rw [ok]
          exact scheduleDeadline_announced token nonzero positive' _
      | some _ =>
          have running' := before serves timer _ older
          have still : timer ∈ stillRunning running event := by
            unfold stillRunning
            split
            · rename_i fires
              refine List.mem_filter.mpr ⟨running', ?_⟩
              by_contra same
              have same : timer = event.writeToken := by simpa using same
              rw [fires, ← same] at found
              rw [drive_stops noise entropy sound serves nonzero] at found
              cases found
            · exact running'
          change timer ∈ match (t.drive noise entropy event).1 with
            | .ok o => scheduleDeadline (stillRunning running event) o
            | .error _ => stillRunning running event
          cases (t.drive noise entropy event).1 with
          | ok o => exact mem_scheduleDeadline still o
          | error _ => exact still

/-- Every step of a run arms at most one timer and announces it, in exactly the runs that have
    no event whose answer cannot; in these the host has scheduled every timer that is armed. -/
theorem timers_announced_iff (made : TargetTransport.create descriptor draws = .ok (t₀, ready)) (inputs : List (R × Event)) :
    ((∀ step ∈ history noise t₀ inputs, TimersAnnounced step) ↔
      ∀ step ∈ history noise t₀ inputs, ¬ Untold noise step.before step.input.2) ∧
    ((∀ step ∈ history noise t₀ inputs, ¬ Untold noise step.before step.input.2) → ¬ Ended (reached noise t₀ inputs) →
      ∀ timer action, (reached noise t₀ inputs).clock.timers.lookup timer = some action →
        timer ∈ runningTimers (history noise t₀ inputs)) := by
  refine ⟨⟨fun announced step member untold => ?_, fun told step member => ?_⟩, fun told serving => armed_scheduled made told serving⟩
  · obtain ⟨front, back, split⟩ := List.append_of_mem member
    obtain ⟨first, input, rest, -, -, same, -⟩ := Runs.trace_split split
    have positive := reached_positive noise made first
    have fresh := (reached_sound noise made first).fresh.lookup_next
    have told := announced step member
    rw [same] at told untold
    exact Missed.not_timersAnnounced fresh (drive_missed noise input.1 positive untold) told
  · obtain ⟨front, back, split⟩ := List.append_of_mem member
    obtain ⟨first, input, rest, -, -, same, -⟩ := Runs.trace_split split
    have positive := reached_positive noise made first
    have roomy := told step member
    rw [same] at roomy ⊢
    exact (drive_told noise input.1 positive roomy).timersAnnounced

end

/-- The child of stream 2 waits for the App. -/
def asking : List (Unit × Event) := opening.take 9

theorem asking_announced : TargetTransport.create (encodeDescriptor descriptor) [0] =
      .ok (start, (Outcome.new .endpointReady).values 0 50000) ∧
    ((∀ step ∈ history nonceNoise start asking, TimersAnnounced step) ↔
      ∀ step ∈ history nonceNoise start asking, ¬ Untold nonceNoise step.before step.input.2) :=
  ⟨created, (timers_announced_iff created asking).1⟩

/-- A whole frame and the start of the next, sent while the App answers. -/
def hasty : Unit × Event := receive 2 [0, 1, 0, 0]

set_option maxRecDepth 20000 in
/-- The chunk is rejected, and leaves a frame timer that no outcome announces. -/
theorem hasty_untold : TargetTransport.create (encodeDescriptor descriptor) [0] =
      .ok (start, (Outcome.new .endpointReady).values 0 50000) ∧
    ¬ ∀ step ∈ history nonceNoise start (asking ++ [hasty]), TimersAnnounced step := by
  refine ⟨created, fun announced => ?_⟩
  have told := announced ⟨reached nonceNoise start asking, hasty, _, _⟩ (by
    unfold history
    rw [Runs.trace_append]
    exact List.mem_append_right _ (List.mem_singleton.mpr rfl))
  exact told.rejected .wrongPhase rfl 9 ⟨rfl, rfl⟩

end AppPilotKit.Target
