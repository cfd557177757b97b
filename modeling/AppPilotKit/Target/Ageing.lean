import AppPilotKit.Target.Lifetimes

/-! # Tokens are given out once

Whatever an event does, a timer that is armed afterwards was armed before, for the same
action, or has a token that was not given out yet. So a token that is spent stays spent.
-/

namespace AppPilotKit.Target

open Wire Transport

variable {R H T : Type}

/-- Timers of the later clock are old ones or have new tokens. -/
structure Ages (c c' : Clock) : Prop where
  tokens : c.nextToken ≤ c'.nextToken
  timers : ∀ k a, c'.timers.lookup k = some a → c.timers.lookup k = some a ∨ c.nextToken ≤ k

namespace Ages

variable {c c' c'' : Clock}

theorem refl (c : Clock) : Ages c c := ⟨le_rfl, fun _ _ found => .inl found⟩

theorem trans (first : Ages c c') (second : Ages c' c'') : Ages c c'' := by
  refine ⟨first.tokens.trans second.tokens, fun k a found => ?_⟩
  rcases second.timers k a found with older | newer
  · exact first.timers k a older
  · exact .inr (first.tokens.trans newer)

/-- Fewer timers, the same tokens. -/
theorem fewer (tokens : c'.nextToken = c.nextToken)
    (timers : ∀ k a, c'.timers.lookup k = some a → c.timers.lookup k = some a) : Ages c c' :=
  ⟨tokens.ge, fun k a found => .inl (timers k a found)⟩

theorem allocate {result : Except SupervisorError Nat} (eq : c.allocateToken = (result, c')) : Ages c c' := by
  obtain ⟨timers, tokens⟩ := Clock.allocateToken_timers c
  rw [eq] at timers tokens
  exact ⟨tokens, fun k a found => .inl (timers ▸ found)⟩

theorem schedule {result : Except SupervisorError Nat} {action : TimerAction}
    (eq : c.scheduleTimer action = (result, c')) : Ages c c' := by
  rcases Clock.scheduleTimer_cases c action with ⟨error, failed⟩ | made
  · rw [failed] at eq
    cases eq
    exact allocate rfl
  · rw [made] at eq
    cases eq
    refine ⟨Nat.le_succ _, fun k a found => ?_⟩
    rw [Table.lookup_insert_eq] at found
    split at found
    · rename_i same
      exact .inr same.ge
    · exact .inl found

theorem cancel (c : Clock) (slot : Option Nat) : Ages c (c.cancel slot) := by
  refine fewer (Clock.cancel_nextToken c slot) fun k a found => ?_
  rw [Clock.lookup_cancel] at found
  split at found
  · cases found
  · exact found

/-- The end of the lease clears all timers. -/
theorem clear (older : Ages c c') : Ages c { c' with timers := ∅ } :=
  older.trans (fewer rfl fun _ _ found => by cases found)

theorem updateFrameTimer {incomplete : Bool} {slot slot' : Option Nat} {action : TimerAction}
    {result : Except SupervisorError (Option Nat)}
    (eq : c.updateFrameTimer incomplete slot action = (result, slot', c')) : Ages c c' := by
  unfold Clock.updateFrameTimer at eq
  split at eq
  · split at eq
    · split at eq
      all_goals
        rename_i made
        cases eq
        exact schedule made
    · cases eq
      exact refl c
  · cases eq
    exact cancel c slot

theorem replaceChildTimer {child child' : Child H T} {action : TimerAction} {result : Except SupervisorError Nat}
    (eq : replaceChildTimer child c action = (result, child', c')) : Ages c c' := by
  unfold Target.replaceChildTimer at eq
  dsimp only at eq
  split at eq
  all_goals
    rename_i made
    cases eq
    exact (cancel c _).trans (schedule made)

end Ages

section
variable {c : Clock} {t : TargetTransport H T}

theorem childTerminal_ages (older : Ages c t.clock) (s : Nat) (reason : CloseReason)
    (peer : Option (CloseReason × HandoffState)) : Ages c (t.childTerminal s reason peer).2.clock := by
  refine older.trans ?_
  unfold TargetTransport.childTerminal
  split
  · split
    · exact (Ages.cancel _ _).trans (Ages.cancel _ _)
    · exact .refl _
  · exact .refl _

theorem childCoreError_ages (older : Ages c t.clock) (s : Nat) (error : Error) :
    Ages c (t.childCoreError s error).2.clock := by
  unfold TargetTransport.childCoreError
  split
  · exact childTerminal_ages older s _ _
  · dsimp only
    split
    · rename_i eq
      exact childTerminal_ages (older.trans (.allocate eq)) s _ _
    · rename_i eq
      have allocated := older.trans (.allocate eq)
      split
      · split
        · exact allocated
        · exact childTerminal_ages allocated s _ _
      · exact childTerminal_ages allocated s _ _

theorem commitChildWrite_ages (older : Ages c t.clock) (e : Eligible H T) (s token : Nat) :
    Ages c (t.commitChildWrite e s token).1.2.clock := by
  unfold TargetTransport.commitChildWrite
  dsimp only
  split
  · exact older
  · split
    · split
      · exact older
      · exact older
    · split
      · exact older
      · exact older
    · split
      · split
        all_goals
          rename_i eq
          exact older.trans (.replaceChildTimer eq)
      · exact older
    · split
      · apply childTerminal_ages
        exact older
      · exact older
    · exact older

theorem finishApplications_ages (older : Ages c t.clock) (e : Eligible H T) (s : Nat) (child : Child H T)
    (frameDeadline : Option Nat) (read : TargetTransport.ApplicationRead H T) :
    Ages c (t.finishApplications e s child frameDeadline read).2.clock := by
  cases read with
  | second =>
      apply childTerminal_ages
      exact older
  | failed error =>
      apply childCoreError_ages
      exact older
  | done session application =>
      cases application with
      | none => exact older
      | some bytes =>
          simp only [TargetTransport.finishApplications]
          split
          · exact older
          · split
            · exact older.trans (.cancel _ _)
            · split
              all_goals
                rename_i eq
                exact older.trans (.replaceChildTimer eq)

theorem sessionFrames_ages (noise : Noise R H T) (older : Ages c t.clock) (e : Eligible H T) (s : Nat)
    (child : Child H T) (frameDeadline : Option Nat) (frame : Bytes) (more : List Bytes) :
    Ages c (t.sessionFrames noise e s child frameDeadline frame more).2.clock := by
  unfold TargetTransport.sessionFrames
  dsimp only
  split
  · split
    · apply childTerminal_ages
      exact older
    · split
      · apply childCoreError_ages
        exact older
      · split
        · apply childCoreError_ages
          exact older
        · split
          all_goals
            rename_i eq
            exact older.trans (.allocate eq)
  · split
    · apply childCoreError_ages
      exact older
    · apply finishApplications_ages
      exact older
  · apply finishApplications_ages
    exact older
  · exact older

theorem sessionBytes_ages (noise : Noise R H T) (t : TargetTransport H T) (event : Event) :
    Ages t.clock (t.sessionBytes noise event).2.clock := by
  unfold TargetTransport.sessionBytes
  split
  · split
    · exact .refl _
    · split
      · apply childCoreError_ages
        exact .refl _
      · split
        · rename_i eq
          exact .updateFrameTimer eq
        · rename_i eq
          have updated := Ages.updateFrameTimer eq
          dsimp only
          split
          · exact updated
          · apply sessionFrames_ages
            exact updated
  · exact .refl _

theorem leaseBytes_ages (noise : Noise R H T) (t : TargetTransport H T) (event : Event) :
    Ages t.clock (t.leaseBytes noise event).2.clock := by
  unfold TargetTransport.leaseBytes
  split
  · split
    · exact .refl _
    · split
      · exact Ages.clear (.refl _)
      · split
        · rename_i eq
          exact .updateFrameTimer eq
        · rename_i eq
          have updated := Ages.updateFrameTimer eq
          dsimp only
          split
          · exact updated
          · split
            · exact Ages.clear updated
            · split
              · exact Ages.clear updated
              · split
                all_goals
                  rename_i eq
                  exact updated.trans (.allocate eq)
          · exact Ages.clear updated
  · exact .refl _

theorem bootstrapBytes_ages (noise : Noise R H T) (t : TargetTransport H T) (event : Event) :
    Ages t.clock (t.bootstrapBytes noise event).2.clock := by
  unfold TargetTransport.bootstrapBytes
  split
  · dsimp only
    split
    · exact Ages.clear (.refl _)
    · split
      · rename_i eq
        exact .updateFrameTimer eq
      · rename_i eq
        have updated : Ages t.clock _ := Ages.updateFrameTimer eq
        split
        · exact updated
        · split
          · exact Ages.clear updated
          · split
            · exact Ages.clear updated
            · split
              all_goals
                rename_i eq
                exact updated.trans (.allocate eq)
        · exact Ages.clear updated
  · exact .refl _

theorem streamBytes_ages (noise : Noise R H T) (t : TargetTransport H T) (event : Event) :
    Ages t.clock (t.streamBytes noise event).2.clock := by
  unfold TargetTransport.streamBytes
  split
  · exact .refl _
  · split
    · split
      · exact bootstrapBytes_ages noise t event
      · exact .refl _
    · split
      · exact leaseBytes_ages noise t event
      · split
        · exact sessionBytes_ages noise t event
        · exact .refl _
    · exact .refl _

theorem bootstrapConnected_ages (noise : Noise R H T) (entropy : R) (t : TargetTransport H T) (event : Event) :
    Ages t.clock (t.bootstrapConnected noise entropy event).2.clock := by
  unfold TargetTransport.bootstrapConnected
  split
  · exact .refl _
  · split
    · dsimp only
      split
      · exact Ages.clear (.refl _)
      · split
        · exact Ages.clear (.refl _)
        · split
          · rename_i eq
            exact .allocate eq
          · rename_i eq
            have allocated : Ages t.clock _ := Ages.allocate eq
            split
            all_goals
              rename_i eq
              exact allocated.trans (.schedule eq)
    · exact .refl _

theorem fullWriteCommitted_ages (t : TargetTransport H T) (event : Event) :
    Ages t.clock (t.fullWriteCommitted event).2.clock := by
  unfold TargetTransport.fullWriteCommitted
  split
  · exact .refl _
  · split
    · split
      · exact .refl _
      · exact .refl _
    · split
      · have fewer : Ages t.clock { t.clock with timers := t.clock.timers.retain (· ≠ TimerAction.bootstrap) } :=
          .fewer rfl fun _ _ found => (Table.lookup_retain.mp found).1
        dsimp only
        split
        all_goals
          rename_i eq
          exact fewer.trans (.schedule eq)
      · exact .refl _
    · split
      · split
        · split
          · exact .refl _
          · exact .refl _
        · exact .refl _
      · apply commitChildWrite_ages
        exact .refl _
    · exact .refl _

theorem sessionAccepted_ages (noise : Noise R H T) (entropy : R) (t : TargetTransport H T) (event : Event) :
    Ages t.clock (t.sessionAccepted noise entropy event).2.clock := by
  unfold TargetTransport.sessionAccepted
  split
  · exact .refl _
  · split
    · split
      · exact .refl _
      · split
        · exact .refl _
        · split
          · exact .refl _
          · split
            · rename_i eq
              exact .allocate eq
            · rename_i eq
              have allocated := Ages.allocate eq
              split
              all_goals
                rename_i eq
                exact allocated.trans (.schedule eq)
    · exact .refl _

theorem runtimeResponse_ages (noise : Noise R H T) (t : TargetTransport H T) (event : Event) :
    Ages t.clock (t.runtimeResponse noise event).2.clock := by
  unfold TargetTransport.runtimeResponse
  split
  · exact .refl _
  · split
    · split
      · exact .refl _
      · split
        · dsimp only
          split
          · apply childCoreError_ages
            exact .refl _
          · split
            all_goals
              rename_i eq
              exact .allocate eq
        · exact .refl _
    · exact .refl _

theorem streamEnd_ages (t : TargetTransport H T) (s : Nat) (reason : CloseReason) (orderly : Bool) :
    Ages t.clock (t.streamEnd s reason orderly).2.clock := by
  unfold TargetTransport.streamEnd
  split
  all_goals try exact .refl _
  · split
    · split
      · exact Ages.clear (.refl _)
      · exact Ages.clear (.refl _)
    · exact .refl _
  · split
    · split
      · exact Ages.clear (.refl _)
      · exact Ages.clear (.refl _)
    · exact .refl _
  · split
    · split
      · exact Ages.clear (.refl _)
      · exact Ages.clear (.refl _)
    · exact .refl _
  · split
    · split
      · exact Ages.clear (.refl _)
      · exact Ages.clear (.refl _)
    · split
      · exact .refl _
      · split
        · apply childCoreError_ages
          exact .refl _
        · apply childTerminal_ages
          exact .refl _

theorem streamClosed_ages (t : TargetTransport H T) (event : Event) :
    Ages t.clock (t.streamClosed event).2.clock := by
  unfold TargetTransport.streamClosed
  split
  · exact .refl _
  · split
    all_goals exact streamEnd_ages t _ _ _

theorem leaseTickFired_ages (older : Ages c t.clock) (token : Nat) : Ages c (t.leaseTickFired token).2.clock := by
  unfold TargetTransport.leaseTickFired
  split
  · split
    · exact older
    · dsimp only
      split
      · exact Ages.clear older
      · split
        · exact Ages.clear older
        · split
          all_goals
            rename_i eq
            exact older.trans (.schedule eq)
  · exact older

theorem childTimerFired_ages (older : Ages c t.clock) (s : Nat) (reason : CloseReason) :
    Ages c (t.childTimerFired s reason).2.clock := by
  unfold TargetTransport.childTimerFired
  split
  · split
    · apply childTerminal_ages
      exact older
    · exact older
  · exact older

theorem timerFired_ages (t : TargetTransport H T) (event : Event) : Ages t.clock (t.timerFired event).2.clock := by
  unfold TargetTransport.timerFired
  split
  · exact .refl _
  · split
    · exact .refl _
    · have fired := Ages.cancel t.clock (some event.writeToken)
      dsimp only
      split
      · exact Ages.clear fired
      · exact Ages.clear fired
      · exact Ages.clear fired
      · apply leaseTickFired_ages
        exact fired
      · apply childTimerFired_ages
        exact fired
      · apply childTimerFired_ages
        exact fired
      · apply childTimerFired_ages
        exact fired

theorem eligibilityLost_ages (t : TargetTransport H T) : Ages t.clock t.eligibilityLost.2.clock := by
  unfold TargetTransport.eligibilityLost
  split
  · split
    · exact Ages.clear (.refl _)
    · split
      · exact Ages.clear (.refl _)
      · exact Ages.clear (.refl _)
  · exact Ages.clear (.refl _)

theorem leaseEvent_ages {r : Outcome × TargetTransport H T} (older : Ages t.clock r.2.clock) (event : Event) :
    Ages t.clock (TargetTransport.leaseEvent event r t).2.clock := by
  unfold TargetTransport.leaseEvent
  split
  · exact .refl _
  · exact older

/-- Every event. -/
theorem drive_ages (noise : Noise R H T) (entropy : R) (t : TargetTransport H T) (event : Event) :
    Ages t.clock (t.drive noise entropy event).2.clock := by
  unfold TargetTransport.drive
  split
  · exact .refl _
  · split
    · exact .refl _
    · cases event.tag with
      | eligibilityLost => exact leaseEvent_ages (eligibilityLost_ages t) event
      | cleanupFailed => exact leaseEvent_ages (Ages.clear (.refl _)) event
      | internalError => exact leaseEvent_ages (Ages.clear (.refl _)) event
      | timerFired => exact timerFired_ages t event
      | bootstrapConnected => exact bootstrapConnected_ages noise entropy t event
      | fullWriteCommitted => exact fullWriteCommitted_ages t event
      | sessionAccepted => exact sessionAccepted_ages noise entropy t event
      | runtimeResponse => exact runtimeResponse_ages noise t event
      | streamBytes => exact streamBytes_ages noise t event
      | streamEof | streamIoFailed | streamCloseNormal => exact streamClosed_ages t event

end

/-- … and every run. -/
theorem reached_ages (noise : Noise R H T) (t : TargetTransport H T) (inputs : List (R × Event)) :
    Ages t.clock (reached noise t inputs).clock := by
  have keeps : ∀ u input, Ages t.clock u.clock → Ages t.clock (serve noise u input).2.clock :=
    fun u input older => older.trans (drive_ages noise input.1 u input.2)
  have start : Ages t.clock t.clock := .refl _
  exact Runs.invariant keeps t inputs start

end AppPilotKit.Target
