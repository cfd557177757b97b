import AppPilotKit.Target.Timers

/-! # Children and their deadlines

A child is meant to have a timer at all times, so that it cannot stay registered without
an event of its own. It loses its last one when the frame timer took over from the phase
timer and the partial frame then ends while the child waits for the App.
-/

namespace AppPilotKit.Target

open Wire Transport

variable {R H T : Type}

/-- One of the slots of the child holds a timer. -/
def Child.Watched (child : Child H T) : Prop := child.phaseTimer.isSome ∨ child.frameTimer.isSome

/-- Every registered child has a timer. -/
def Watched (t : TargetTransport H T) : Prop := ∀ s child, t.registered s = some child → child.Watched

/-- The token counter is spent. -/
def Spent (c : Clock) : Prop := 2 ^ 64 ≤ c.nextToken + 1

/-- The frames complete an application message of a child in this phase. -/
def Completes (noise : Noise R H T) : ChildPhase H T → List Bytes → Prop
  | .awaitFinished session, frame :: more => ∃ session' after bytes, session.readFinished noise frame = (.ok (), session') ∧
      TargetTransport.readApplications noise session' none more = .done after (some bytes)
  | .awaitApplication session, frames => ∃ after bytes,
      TargetTransport.readApplications noise session none frames = .done after (some bytes)
  | _, _ => False

/-- The event takes the last timer of a child: bytes that end the partial frame of a child
    without a phase timer, or, once no token is left, a new phase timer that cannot be had. -/
def Unwatches (noise : Noise R H T) (t : TargetTransport H T) (event : Event) : Prop :=
  event.flags = 0 ∧ event.streamId ≠ 0 ∧ ∃ child, t.registered event.streamId = some child ∧
    (event.tag = .streamBytes ∧ event.writeToken = 0 ∧ event.bytes ≠ [] ∧
      (∃ frames decoder, child.decoder.push event.bytes = (.ok frames, decoder) ∧ decoder.isIncomplete = false ∧
        (child.phaseTimer = none ∨ Spent t.clock ∧ Completes noise child.phase frames)) ∨
    event.tag = .fullWriteCommitted ∧ event.writeToken ≠ 0 ∧ event.bytes = [] ∧ Spent t.clock ∧
      child.frameTimer = none ∧ ∃ session, child.phase = .responsePending session event.writeToken)

section
variable {s : Nat} {t u : TargetTransport H T} {e : Eligible H T} {child child' : Child H T} {event : Event}

theorem Child.Watched.same (watched : child.Watched) (phaseTimer : child'.phaseTimer = child.phaseTimer)
    (frameTimer : child'.frameTimer = child.frameTimer) : child'.Watched := by
  unfold Child.Watched
  rw [phaseTimer, frameTimer]
  exact watched

@[simp] theorem registered_withChild (t : TargetTransport H T) (e : Eligible H T) (s : Nat) (child : Child H T) :
    (t.withChild e s child).registered s = some child := AList.lookup_insert _

theorem childTerminal_registered (u : TargetTransport H T) (s : Nat) (reason : CloseReason)
    (peer : Option (CloseReason × HandoffState)) : (u.childTerminal s reason peer).2.registered s = none := by
  unfold TargetTransport.childTerminal
  split
  · rename_i phase
    split
    · exact AList.lookup_erase _ _
    · rename_i absent
      rw [registered_eligible phase]
      exact absent
  · rename_i other
    unfold TargetTransport.registered
    split
    · rename_i phase
      exact absurd phase (other _)
    · rfl

/-- A core error keeps the timers of the child, if it keeps the child. -/
theorem childCoreError_watched (watched : ∀ child, u.registered s = some child → child.Watched) (error : Error) :
    ∀ child, (u.childCoreError s error).2.registered s = some child → child.Watched := by
  intro child found
  unfold TargetTransport.childCoreError at found
  split at found
  · rw [childTerminal_registered] at found
    cases found
  · dsimp only at found
    split at found
    · rw [childTerminal_registered] at found
      cases found
    · split at found
      · rename_i phase
        split at found
        · rename_i before there
          rw [registered_withChild] at found
          cases found
          exact (watched before (by rw [registered_eligible phase]; exact there)).same rfl rfl
        · rw [childTerminal_registered] at found
          cases found
      · rw [childTerminal_registered] at found
        cases found

/-- A phase timer that is replaced is there, unless the tokens are spent. -/
theorem replaceChildTimer_watched {c clock : Clock} {action : TimerAction} {result : Except SupervisorError Nat}
    (positive : 0 < c.nextToken) (unspent : Spent c → child.frameTimer.isSome)
    (eq : replaceChildTimer child c action = (result, child', clock)) : child'.Watched := by
  unfold replaceChildTimer at eq
  dsimp only at eq
  split at eq
  · rename_i failed
    cases eq
    have tokens := Clock.cancel_nextToken c child.phaseTimer
    obtain ⟨-, spent⟩ := scheduleTimer_spent (by rw [tokens]; exact positive) failed
    have unmoved := (Ages.schedule failed).tokens
    refine .inr (unspent ?_)
    unfold Clock.scheduleTimer Clock.allocateToken at failed
    unfold Spent
    rw [← tokens]
    split_ifs at failed with room zero
    all_goals first | omega | cases failed
  · cases eq
    exact .inl rfl

theorem commitChildWrite_watched (found : e.children.lookup s = some child) (watched : child.Watched)
    (positive : 0 < t.clock.nextToken) {token : Nat}
    (unspent : Spent t.clock → ∀ session, child.phase = .responsePending session token → child.frameTimer.isSome) :
    ∀ child', (t.commitChildWrite e s token).2.children.lookup s = some child' → child'.Watched := by
  intro child' after
  have unchanged (same : e.children.lookup s = some child') : child'.Watched := by
    rw [found] at same
    cases same
    exact watched
  unfold TargetTransport.commitChildWrite at after
  simp only [found] at after
  split at after
  · split at after
    · rw [AList.lookup_insert] at after
      cases after
      exact watched
    · exact unchanged after
  · split at after
    · rw [AList.lookup_insert] at after
      cases after
      exact watched
    · exact unchanged after
  · rename_i session writeToken phase
    split at after
    · rename_i same
      subst same
      split at after
      all_goals
        rename_i eq
        rw [AList.lookup_insert] at after
        cases after
        exact replaceChildTimer_watched positive (by exact fun spent => unspent spent session phase) eq
    · exact unchanged after
  · split at after
    · rw [AList.lookup_insert] at after
      cases after
      exact watched
    · exact unchanged after
  · exact unchanged after

theorem runtimeResponse_watched (noise : Noise R H T) (phase : t.phase = .eligible e)
    (found : e.children.lookup event.streamId = some child) (watched : child.Watched) :
    ∀ child', (t.runtimeResponse noise event).2.registered event.streamId = some child' → child'.Watched := by
  intro child' after
  have unchanged (same : t.registered event.streamId = some child') : child'.Watched := by
    rw [registered_eligible phase, found] at same
    cases same
    exact watched
  unfold TargetTransport.runtimeResponse at after
  split at after
  · exact unchanged after
  · simp only [phase, found] at after
    split at after
    · split at after
      · refine childCoreError_watched ?_ _ child' after
        intro child'' there
        rw [registered_withChild] at there
        cases there
        exact watched
      · split at after
        all_goals
          have stored := (AList.lookup_insert e.children).symm.trans after
          cases stored
          exact watched
    · exact unchanged after

theorem streamEnd_watched (phase : t.phase = .eligible e) (found : e.children.lookup s = some child)
    (registered : e.leaseStream ≠ s) (watched : child.Watched) (reason : CloseReason) (orderly : Bool) :
    ∀ child', (t.streamEnd s reason orderly).2.registered s = some child' → child'.Watched := by
  intro child' after
  unfold TargetTransport.streamEnd at after
  simp only [phase, if_neg registered, found] at after
  split at after
  · rename_i error ended eq
    refine childCoreError_watched ?_ _ child' after
    intro child'' there
    rw [registered_withChild] at there
    cases there
    cases orderly with
    | false => cases eq
    | true =>
        obtain ⟨-, phaseTimer, frameTimer⟩ := child.eofError_same
        rw [show child.eofError = _ from eq] at phaseTimer frameTimer
        exact watched.same phaseTimer frameTimer
  · simp only [TargetTransport.answer, childTerminal_registered] at after
    cases after

/-- The hand-over of a message to the App. -/
theorem finishApplications_watched (watched : child.Watched) {frameDeadline : Option Nat}
    (deadline : frameDeadline.isSome → child.frameTimer.isSome) (positive : 0 < t.clock.nextToken)
    {read : TargetTransport.ApplicationRead H T}
    (unspent : Spent t.clock → ∀ after bytes, read = .done after (some bytes) → child.frameTimer.isSome) :
    ∀ child', (t.finishApplications e s child frameDeadline read).2.registered s = some child' → child'.Watched := by
  intro child' found
  have gone : ∀ child', (t.withChild e s { child with phase := .terminal }).registered s = some child' →
      child'.Watched := by
    intro child' there
    rw [registered_withChild] at there
    cases there
    exact watched
  cases read with
  | second =>
      simp only [TargetTransport.finishApplications, TargetTransport.answer, childTerminal_registered] at found
      cases found
  | failed error => exact childCoreError_watched gone error child' found
  | done session application =>
      cases application with
      | none =>
          have stored := (AList.lookup_insert e.children).symm.trans found
          cases stored
          exact watched
      | some bytes =>
          simp only [TargetTransport.finishApplications] at found
          split at found
          · exact gone child' found
          · split at found
            · have stored := (AList.lookup_insert e.children).symm.trans found
              cases stored
              exact .inr (deadline rfl)
            · split at found
              all_goals
                rename_i eq
                have stored := (AList.lookup_insert e.children).symm.trans found
                cases stored
                exact replaceChildTimer_watched positive (by exact fun spent => unspent spent session bytes rfl) eq

theorem sessionFrames_watched (noise : Noise R H T) (watched : child.Watched) {frameDeadline : Option Nat}
    (deadline : frameDeadline.isSome → child.frameTimer.isSome) (positive : 0 < t.clock.nextToken) {frame : Bytes}
    {more : List Bytes}
    (unspent : Spent t.clock → Completes noise child.phase (frame :: more) → child.frameTimer.isSome) :
    ∀ child', (t.sessionFrames noise e s child frameDeadline frame more).2.registered s = some child' →
      child'.Watched := by
  intro child' found
  have gone : ∀ child', (t.withChild e s { child with phase := .terminal }).registered s = some child' →
      child'.Watched := by
    intro child' there
    rw [registered_withChild] at there
    cases there
    exact watched
  unfold TargetTransport.sessionFrames at found
  dsimp only at found
  split at found
  · split at found
    · simp only [TargetTransport.answer, childTerminal_registered] at found
      cases found
    · split at found
      · exact childCoreError_watched gone _ child' found
      · split at found
        · exact childCoreError_watched gone _ child' found
        · split at found
          all_goals
            have stored := (AList.lookup_insert e.children).symm.trans found
            cases stored
            exact watched
  · rename_i session phase
    split at found
    · exact childCoreError_watched gone _ child' found
    · rename_i session' finished
      refine finishApplications_watched watched deadline positive ?_ child' found
      intro spent after bytes complete
      refine unspent spent ?_
      rw [phase]
      exact ⟨session', after, bytes, finished, complete⟩
  · rename_i session phase
    refine finishApplications_watched watched deadline positive ?_ child' found
    intro spent after bytes complete
    refine unspent spent ?_
    rw [phase]
    exact ⟨after, bytes, complete⟩
  · have stored := (AList.lookup_insert e.children).symm.trans found
    cases stored
    exact watched

/-- What the frame timer of a stream becomes. -/
theorem updateFrameTimer_slot {c c' : Clock} {incomplete : Bool} {slot slot' started : Option Nat} {action : TimerAction}
    (eq : c.updateFrameTimer incomplete slot action = (.ok started, slot', c')) :
    incomplete = true ∧ slot'.isSome ∨
      incomplete = false ∧ slot' = none ∧ started = none ∧ c'.nextToken = c.nextToken := by
  unfold Clock.updateFrameTimer at eq
  split at eq
  · rename_i partly
    split at eq
    · split at eq
      · cases eq
      · cases eq
        exact .inl ⟨partly, rfl⟩
    · rename_i taken
      cases eq
      refine .inl ⟨partly, ?_⟩
      cases slot with
      | none => exact absurd rfl taken
      | some timer => rfl
  · rename_i whole
    cases eq
    exact .inr ⟨Bool.eq_false_of_not_eq_true whole, rfl, rfl, Clock.cancel_nextToken c slot⟩

theorem updateFrameTimer_failed {c c' : Clock} {incomplete : Bool} {slot slot' : Option Nat} {action : TimerAction}
    {error : SupervisorError} (eq : c.updateFrameTimer incomplete slot action = (.error error, slot', c')) :
    slot' = slot := by
  unfold Clock.updateFrameTimer at eq
  split at eq
  · split at eq
    · split at eq
      · cases eq
        rfl
      · cases eq
    · cases eq
  · cases eq

theorem sessionBytes_watched (noise : Noise R H T) (phase : t.phase = .eligible e)
    (found : e.children.lookup event.streamId = some child) (watched : child.Watched)
    (positive : 0 < t.clock.nextToken)
    (unspent : ∀ frames decoder, child.decoder.push event.bytes = (.ok frames, decoder) →
      decoder.isIncomplete = false → child.phaseTimer ≠ none ∧ ¬ (Spent t.clock ∧ Completes noise child.phase frames)) :
    ∀ child', (t.sessionBytes noise event).2.registered event.streamId = some child' → child'.Watched := by
  intro child' after
  unfold TargetTransport.sessionBytes at after
  simp only [phase, found] at after
  split at after
  · refine childCoreError_watched ?_ _ child' after
    intro child'' there
    rw [registered_withChild] at there
    cases there
    exact watched
  · rename_i frames decoder pushed
    have unspent := unspent frames decoder pushed
    split at after
    · rename_i eq
      have stored := (AList.lookup_insert e.children).symm.trans after
      cases stored
      exact watched.same rfl (updateFrameTimer_failed eq)
    · rename_i frameDeadline frameTimer clock eq
      have tokens := (Ages.updateFrameTimer eq).tokens
      have kept : Child.Watched { child with decoder, frameTimer } := by
        rcases updateFrameTimer_slot eq with ⟨-, some⟩ | ⟨whole, -⟩
        · exact .inr some
        · exact .inl (Option.isSome_iff_ne_none.mpr (unspent whole).1)
      split at after
      · have stored := (AList.lookup_insert e.children).symm.trans after
        cases stored
        exact kept
      · refine sessionFrames_watched noise kept ?_ (positive.trans_le tokens) ?_ child' after
        · intro started
          rcases updateFrameTimer_slot eq with ⟨-, some⟩ | ⟨-, -, none, -⟩
          · exact some
          · rw [none] at started
            cases started
        · intro spent complete
          rcases updateFrameTimer_slot eq with ⟨-, some⟩ | ⟨whole, -, -, same⟩
          · exact some
          · refine absurd ⟨?_, complete⟩ (unspent whole).2
            unfold Spent at spent ⊢
            dsimp only at spent
            rw [same] at spent
            exact spent

/-- A child that is accepted has a phase timer. -/
theorem sessionAccepted_watched (noise : Noise R H T) (entropy : R)
    (absent : t.registered event.streamId = none) :
    ∀ child', (t.sessionAccepted noise entropy event).2.registered event.streamId = some child' → child'.Watched := by
  intro child' after
  have unchanged (same : t.registered event.streamId = some child') : child'.Watched := by
    rw [absent] at same
    cases same
  unfold TargetTransport.sessionAccepted at after
  split at after
  · exact unchanged after
  · split at after
    · split at after
      · exact unchanged after
      · split at after
        · exact unchanged after
        · split at after
          · exact unchanged after
          · split at after
            · exact unchanged after
            · split at after
              · exact unchanged after
              · rw [registered_withChild] at after
                cases after
                exact .inl rfl
    · exact unchanged after

/-- A timer that names the child ends it. -/
theorem timerFired_ends {action : TimerAction} (phase : t.phase = .eligible e)
    (found : e.children.lookup s = some child) (fires : t.clock.timers.lookup event.writeToken = some action)
    (names : action.stream = some s) (wellFormed : ¬ (event.streamId ≠ 0 ∨ event.writeToken = 0 ∨ event.bytes ≠ [])) :
    (t.timerFired event).2.registered s = none := by
  have ended (clock : Clock) (reason : CloseReason) :
      (({ t with clock } : TargetTransport H T).childTimerFired s reason).2.registered s = none := by
    unfold TargetTransport.childTimerFired
    simp only [phase, found, Option.isSome_some, if_true, TargetTransport.answer]
    exact childTerminal_registered _ s reason none
  unfold TargetTransport.timerFired
  rw [if_neg wellFormed]
  simp only [fires]
  cases action with
  | bootstrap | bootstrapFrame | leaseTick | leaseFrame => cases names
  | sessionPhase streamId | sessionIdle streamId | sessionFrame streamId =>
      cases names
      exact ended _ _

/-- An event for a child leaves it a timer. -/
theorem drive_child_watched (noise : Noise R H T) (entropy : R) (sound : Sound t) (phase : t.phase = .eligible e)
    (found : e.children.lookup s = some child) (addressed : Addressed s t event) (watched : child.Watched)
    (positive : 0 < t.clock.nextToken) (stays : ¬ Unwatches noise t event) :
    ∀ child', (t.drive noise entropy event).2.registered s = some child' → child'.Watched := by
  obtain ⟨nonzero, registered⟩ := sound.streams e s child phase found
  intro child' after
  have unchanged (same : t.registered s = some child') : child'.Watched := by
    rw [registered_eligible phase, found] at same
    cases same
    exact watched
  unfold TargetTransport.drive at after
  simp only [phase] at after
  split at after
  · exact unchanged after
  rename_i flags
  replace flags : event.flags = 0 := by simpa using flags
  rcases addressed with ⟨rfl, kind⟩ | ⟨kind, action, fires, names⟩
  · have there : t.registered event.streamId = some child := (registered_eligible phase _).trans found
    have ended (after : (t.streamClosed event).2.registered event.streamId = some child') : child'.Watched := by
      unfold TargetTransport.streamClosed at after
      split at after
      · exact unchanged after
      · split at after
        all_goals exact streamEnd_watched phase found registered watched _ _ child' after
    cases tag : event.tag with
    | streamBytes =>
        simp only [tag] at after
        unfold TargetTransport.streamBytes at after
        split at after
        · exact unchanged after
        · rename_i wellFormed
          push Not at wellFormed
          simp only [phase, if_neg registered, found, Option.isSome_some, if_true] at after
          refine sessionBytes_watched noise phase found watched positive ?_ child' after
          intro frames decoder pushed whole
          constructor
          · intro none
            exact stays ⟨flags, nonzero, child, there, .inl ⟨tag, wellFormed.2.1, wellFormed.2.2, frames, decoder,
              pushed, whole, .inl none⟩⟩
          · intro spent
            exact stays ⟨flags, nonzero, child, there, .inl ⟨tag, wellFormed.2.1, wellFormed.2.2, frames, decoder,
              pushed, whole, .inr spent⟩⟩
    | fullWriteCommitted =>
        simp only [tag] at after
        unfold TargetTransport.fullWriteCommitted at after
        split at after
        · exact unchanged after
        · rename_i wellFormed
          push Not at wellFormed
          simp only [phase, if_neg registered] at after
          refine commitChildWrite_watched (t := t.movedOut) found watched positive ?_ child' after
          intro spent session pending
          by_contra none
          refine stays ⟨flags, nonzero, child, there, .inr ⟨tag, wellFormed.2.1, wellFormed.2.2, spent, ?_, session, pending⟩⟩
          simpa using none
    | runtimeResponse =>
        simp only [tag] at after
        exact runtimeResponse_watched noise phase found watched child' after
    | streamEof | streamIoFailed | streamCloseNormal =>
        simp only [tag] at after
        exact ended after
    | bootstrapConnected | sessionAccepted | timerFired | eligibilityLost | cleanupFailed | internalError =>
        simp [tag] at kind
  · simp only [kind] at after
    by_cases wellFormed : event.streamId ≠ 0 ∨ event.writeToken = 0 ∨ event.bytes ≠ []
    · unfold TargetTransport.timerFired at after
      rw [if_pos wellFormed] at after
      exact unchanged after
    · rw [timerFired_ends phase found fires names wellFormed] at after
      cases after

/-- Every event leaves every child a timer, unless it takes the last one of a child. -/
theorem drive_watched (noise : Noise R H T) (entropy : R) (sound : Sound t) (watched : Watched t)
    (positive : 0 < t.clock.nextToken) (stays : ¬ Unwatches noise t event) :
    Watched (t.drive noise entropy event).2 := by
  intro other child' after
  rcases drive_cases noise entropy sound event with ⟨s, e, child, phase, found, addressed, answer⟩ | answer
  · have there : t.registered s = some child := (registered_eligible phase s).trans found
    by_cases same : other = s
    · subst same
      exact drive_child_watched noise entropy sound phase found addressed (watched _ child there) positive stays child' after
    · obtain ⟨children, eligible, others, -⟩ := answer.phase
      rw [registered_eligible eligible, others other same] at after
      exact watched other child' ((registered_eligible phase other).trans after)
  · generalize r : t.drive noise entropy event = answered at answer after
    cases answer with
    | kept _ same _ =>
        rw [same] at after
        exact watched other child' after
    | @accepted _ _ s child joins _ _ absent _ _ others _ =>
        by_cases same : other = s
        · subst same
          obtain ⟨tag, rfl⟩ := joins
          refine sessionAccepted_watched noise entropy absent child' ?_
          unfold TargetTransport.drive at r
          split at r
          · cases r
            rw [absent] at after
            cases after
          · split at r
            · cases r
            · simp only [tag] at r
              rw [r]
              exact after
        · rw [others other same] at after
          exact watched other child' after
    | finished _ _ none _ =>
        rw [none] at after
        cases after

end

/-! ## Runs -/

section
variable {noise : Noise R H T} {descriptor : Bytes} {draws : List Nat} {t₀ : TargetTransport H T} {ready : Outcome}

theorem reached_watched (made : TargetTransport.create descriptor draws = .ok (t₀, ready)) {inputs : List (R × Event)}
    (stays : ∀ step ∈ history noise t₀ inputs, ¬ Unwatches noise step.before step.input.2) :
    Watched (reached noise t₀ inputs) := by
  induction inputs using List.reverseRecOn with
  | nil =>
      intro s child found
      rw [show reached noise t₀ [] = t₀ from rfl, create_childless made] at found
      cases found
  | append_singleton first input ih =>
      unfold history at stays
      rw [Runs.trace_append] at stays
      have before := ih fun step member => stays step (List.mem_append_left _ member)
      have positive : 0 < (reached noise t₀ first).clock.nextToken :=
        (create_positive made).trans_le (reached_ages noise t₀ first).tokens
      unfold reached
      rw [Runs.final_append]
      refine drive_watched noise input.1 (reached_sound noise made first) before positive ?_
      exact stays ⟨_, input, _, _⟩ (List.mem_append_right _ (List.mem_singleton.mpr rfl))

/-- In a run none of whose events takes the last timer of a child, every registered child has
    an armed timer that names it. -/
theorem children_have_deadlines (made : TargetTransport.create descriptor draws = .ok (t₀, ready))
    (inputs : List (R × Event))
    (stays : ∀ step ∈ history noise t₀ inputs, ¬ Unwatches noise step.before step.input.2) :
    ∀ e s child, (reached noise t₀ inputs).phase = .eligible e → e.children.lookup s = some child →
      ∃ k a, (child.phaseTimer = some k ∨ child.frameTimer = some k) ∧
        (reached noise t₀ inputs).clock.timers.lookup k = some a ∧ a.stream = some s := by
  intro e s child phase found
  have registered := (registered_eligible phase s).trans found
  have clocked := (reached_sound noise made inputs).clocked s child registered
  rcases reached_watched made stays s child registered with some | some
  · obtain ⟨k, held⟩ := Option.isSome_iff_exists.mp some
    rcases clocked.phase k held with armed | armed
    · exact ⟨k, _, .inl held, armed, rfl⟩
    · exact ⟨k, _, .inl held, armed, rfl⟩
  · obtain ⟨k, held⟩ := Option.isSome_iff_exists.mp some
    exact ⟨k, _, .inr held, clocked.frame k held, rfl⟩

end

section
open LimitRounds

/-- The child is accepted and its first frame is committed. -/
def accepting : List (Unit × Event) := opening.take 6

set_option maxRecDepth 20000 in
theorem accepting_stays : ∀ step ∈ history nonceNoise start accepting, ¬ Unwatches nonceNoise step.before step.input.2 := by
  intro step member
  obtain ⟨n, bound, rfl⟩ := List.mem_iff_getElem.mp member
  rintro ⟨-, -, child, found, ⟨bytes, -⟩ | ⟨-, -, -, spent, -⟩⟩
  · replace bound : n < 6 := bound
    interval_cases n
    case «2» => cases found
    all_goals cases bytes
  · have tokens : ∀ m (inside : m < 6), ((history nonceNoise start accepting)[m]).before.clock.nextToken < 8 := by
      decide
    have early := tokens n bound
    unfold Spent at spent
    omega

set_option maxRecDepth 20000 in
/-- Its deadline is the phase timer. -/
theorem accepting_deadline : TargetTransport.create (encodeDescriptor LimitRounds.descriptor) [0] =
      .ok (start, (Outcome.new .endpointReady).values 0 50000) ∧
    ∃ e child k a, (reached nonceNoise start accepting).phase = .eligible e ∧ e.children.lookup 2 = some child ∧
      (child.phaseTimer = some k ∨ child.frameTimer = some k) ∧
      (reached nonceNoise start accepting).clock.timers.lookup k = some a ∧ a.stream = some 2 := by
  obtain ⟨e, child, phase, found⟩ : ∃ e child, (reached nonceNoise start accepting).phase = .eligible e ∧
      e.children.lookup 2 = some child := ⟨_, _, rfl, rfl⟩
  obtain ⟨k, a, deadline⟩ := children_have_deadlines created accepting accepting_stays e 2 child phase found
  exact ⟨created, e, child, k, a, phase, found, deadline⟩

/-- A request with the first byte of the next frame, then the rest of that frame. -/
def cutting : List (Unit × Event) :=
  opening ++ [receive 2 (nonceFrame 2 LimitRun.byteRecord.wire ++ (nonceFrame 3 LimitRun.byteRecord.wire).take 1),
    receive 2 ((nonceFrame 3 LimitRun.byteRecord.wire).drop 1)]

set_option maxRecDepth 20000 in
/-- The rest of the frame is refused while the App works, and the child has no timer left. -/
theorem cutting_unwatched : TargetTransport.create (encodeDescriptor LimitRounds.descriptor) [0] =
      .ok (start, (Outcome.new .endpointReady).values 0 50000) ∧
    ∃ e child, (reached nonceNoise start cutting).phase = .eligible e ∧ e.children.lookup 2 = some child ∧
      child.phaseTimer = none ∧ child.frameTimer = none ∧
      ∀ k a, (reached nonceNoise start cutting).clock.timers.lookup k = some a → a.stream ≠ some 2 := by
  refine ⟨created, _, _, rfl, rfl, rfl, rfl, fun k a armed names => ?_⟩
  have ticking : (reached nonceNoise start cutting).clock.timers.entries.map (·.2) = [.leaseTick] := rfl
  have listed := List.mem_map_of_mem (f := (·.2)) (AList.mem_lookup_iff.mp armed)
  rw [ticking] at listed
  cases List.mem_singleton.mp listed
  cases names

end

end AppPilotKit.Target
