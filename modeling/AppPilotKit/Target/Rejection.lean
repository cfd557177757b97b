import AppPilotKit.Target.Deadlines

/-! # Rejected events

A rejected event leaves the state as it was, with one exception: bytes for a child that
waits for something else are pushed into its decoder before their phase is looked at.
-/

namespace AppPilotKit.Target

open Wire Transport

variable {R H T : Type}

/-- The event was rejected, and the host may report it or try it again. -/
def Rejects (r : Except SupervisorError Outcome) : Prop := r = .error .invalidArgument ∨ r = .error .wrongPhase

/-- Phases that agree in all fields, the children as a map. -/
def SamePhase : Phase H T → Phase H T → Prop
  | .eligible e, .eligible e' =>
      e' = { e with children := e'.children } ∧ ∀ s, e'.children.lookup s = e.children.lookup s
  | p, p' => p' = p

/-- States that agree in all fields, the tables as maps. -/
structure SameState (t t' : TargetTransport H T) : Prop where
  phase : SamePhase t.phase t'.phase
  generation : t'.generation = t.generation
  nextToken : t'.clock.nextToken = t.clock.nextToken
  timers : ∀ k, t'.clock.timers.lookup k = t.clock.timers.lookup k

/-- The child reads frames in this phase. -/
def ChildPhase.Reading : ChildPhase H T → Prop
  | .awaitM2 _ | .awaitFinished _ | .awaitApplication _ => True
  | _ => False

/-- Bytes for a child that is not reading complete a frame and change its decoder or its
    frame timer. -/
def Swallows (t : TargetTransport H T) (event : Event) : Prop :=
  event.tag = .streamBytes ∧ event.flags = 0 ∧ event.streamId ≠ 0 ∧ event.writeToken = 0 ∧ event.bytes ≠ [] ∧
  ∃ e child frame more decoder, t.phase = .eligible e ∧ e.leaseStream ≠ event.streamId ∧
    e.children.lookup event.streamId = some child ∧ ¬ child.phase.Reading ∧
    child.decoder.push event.bytes = (.ok (frame :: more), decoder) ∧
    (decoder ≠ child.decoder ∨ decoder.isIncomplete ≠ child.frameTimer.isSome) ∧
    ¬ (decoder.isIncomplete = true ∧ child.frameTimer = none ∧ Spent t.clock)

/-- A rejection of an event in state `t` returns that state. -/
def Untouched (t : TargetTransport H T) (r : Answer H T) : Prop := Rejects r.1 → r.2 = t

/-- … or one that is not told apart from it. -/
def Restores (t : TargetTransport H T) (r : Answer H T) : Prop := Rejects r.1 → SameState t r.2

section
variable {t u : TargetTransport H T} {event : Event} {c c' : Clock} {error : SupervisorError}

theorem SamePhase.refl (p : Phase H T) : SamePhase p p := by
  cases p with
  | eligible e => exact ⟨rfl, fun _ => rfl⟩
  | awaitBootstrap | bootstrapM1Pending | bootstrapM2 | bootstrapAckPending | terminal => rfl

theorem SameState.refl (t : TargetTransport H T) : SameState t t := ⟨.refl _, rfl, rfl, fun _ => rfl⟩

theorem Untouched.restores {r : Answer H T} (untouched : Untouched t r) : Restores t r := by
  intro rejected
  rw [untouched rejected]
  exact .refl t

theorem untouched_self (t : TargetTransport H T) (r : Except SupervisorError Outcome) : Untouched t (r, t) := fun _ => rfl

theorem untouched_ok (o : Outcome) : Untouched t (.ok o, u) := by
  rintro (rejected | rejected)
  all_goals cases rejected

theorem untouched_internal (internal : error = .internal) : Untouched t (.error error, u) := by
  subst internal
  rintro (rejected | rejected)
  all_goals cases rejected

theorem allocateToken_internal (eq : c.allocateToken = (.error error, c')) : error = .internal := by
  unfold Clock.allocateToken at eq
  split_ifs at eq
  all_goals cases eq
  all_goals rfl

theorem scheduleTimer_internal {action : TimerAction} (eq : c.scheduleTimer action = (.error error, c')) :
    error = .internal := by
  unfold Clock.scheduleTimer at eq
  split at eq
  · rename_i failed
    cases eq
    exact allocateToken_internal failed
  · cases eq

theorem updateFrameTimer_internal {incomplete : Bool} {slot slot' : Option Nat} {action : TimerAction}
    (eq : c.updateFrameTimer incomplete slot action = (.error error, slot', c')) : error = .internal := by
  unfold Clock.updateFrameTimer at eq
  split at eq
  · split at eq
    · split at eq
      · rename_i failed
        cases eq
        exact scheduleTimer_internal failed
      · cases eq
    · cases eq
  · cases eq

theorem replaceChildTimer_internal {child child' : Child H T} {action : TimerAction}
    (eq : replaceChildTimer child c action = (.error error, child', c')) : error = .internal := by
  unfold replaceChildTimer at eq
  dsimp only at eq
  split at eq
  · rename_i failed
    cases eq
    exact scheduleTimer_internal failed
  · cases eq

/-! ## The handlers -/

theorem bootstrapConnected_untouched (noise : Noise R H T) (entropy : R) :
    Untouched t (t.bootstrapConnected noise entropy event) := by
  unfold TargetTransport.bootstrapConnected
  dsimp only
  split
  · exact untouched_self t _
  · split
    · split
      · exact untouched_ok _
      · split
        · exact untouched_ok _
        · split
          · rename_i failed
            exact untouched_internal (allocateToken_internal failed)
          · split
            · rename_i failed
              exact untouched_internal (scheduleTimer_internal failed)
            · exact untouched_ok _
    · exact untouched_self t _

/-- The eligible part comes back as it was, and is put in its place again. -/
theorem commitChildWrite_untouched (e : Eligible H T) (s token : Nat) :
    Rejects (u.commitChildWrite e s token).1.1 → (u.commitChildWrite e s token).1.2 = u ∧
      (u.commitChildWrite e s token).2 = e := by
  have accepted {o : Outcome} {p : Prop} : Rejects (.ok o) → p := by
    rintro (rejected | rejected)
    all_goals cases rejected
  unfold TargetTransport.commitChildWrite
  dsimp only
  split
  · exact fun _ => ⟨rfl, rfl⟩
  · split
    · split
      · exact accepted
      · exact fun _ => ⟨rfl, rfl⟩
    · split
      · exact accepted
      · exact fun _ => ⟨rfl, rfl⟩
    · split
      · split
        · rename_i failed
          rw [replaceChildTimer_internal failed]
          rintro (rejected | rejected)
          all_goals cases rejected
        · exact accepted
      · exact fun _ => ⟨rfl, rfl⟩
    · split
      · exact accepted
      · exact fun _ => ⟨rfl, rfl⟩
    · exact fun _ => ⟨rfl, rfl⟩

theorem fullWriteCommitted_untouched : Untouched t (t.fullWriteCommitted event) := by
  unfold TargetTransport.fullWriteCommitted
  dsimp only
  split
  · exact untouched_self t _
  · split
    · split
      · exact untouched_ok _
      · exact untouched_self t _
    · split
      · split
        · rename_i failed
          exact untouched_internal (scheduleTimer_internal failed)
        · exact untouched_ok _
      · exact untouched_self t _
    · rename_i e phase
      split
      · split
        · split
          · exact untouched_ok _
          · exact untouched_self t _
        · exact untouched_self t _
      · intro rejected
        obtain ⟨state, same⟩ := commitChildWrite_untouched e event.streamId event.writeToken rejected
        dsimp only
        rw [state, same, ← phase]
        rfl
    · exact untouched_self t _

theorem sessionAccepted_untouched (noise : Noise R H T) (entropy : R) :
    Untouched t (t.sessionAccepted noise entropy event) := by
  unfold TargetTransport.sessionAccepted
  split
  · exact untouched_self t _
  · split
    · split
      · exact untouched_self t _
      · split
        · exact untouched_internal rfl
        · split
          · exact untouched_internal rfl
          · split
            · rename_i failed
              exact untouched_internal (allocateToken_internal failed)
            · split
              · rename_i failed
                exact untouched_internal (scheduleTimer_internal failed)
              · exact untouched_ok _
    · exact untouched_self t _

theorem runtimeResponse_untouched (noise : Noise R H T) : Untouched t (t.runtimeResponse noise event) := by
  unfold TargetTransport.runtimeResponse
  split
  · exact untouched_self t _
  · split
    · split
      · exact untouched_self t _
      · split
        · dsimp only
          split
          · exact untouched_ok _
          · split
            · rename_i failed
              exact untouched_internal (allocateToken_internal failed)
            · exact untouched_ok _
        · exact untouched_self t _
    · exact untouched_self t _

theorem bootstrapBytes_untouched (noise : Noise R H T) : Untouched t (t.bootstrapBytes noise event) := by
  unfold TargetTransport.bootstrapBytes
  dsimp only
  split
  · split
    · exact untouched_ok _
    · split
      · rename_i failed
        exact untouched_internal (updateFrameTimer_internal failed)
      · split
        · exact untouched_ok _
        · split
          · exact untouched_ok _
          · split
            · exact untouched_ok _
            · split
              · rename_i failed
                exact untouched_internal (allocateToken_internal failed)
              · exact untouched_ok _
        · exact untouched_ok _
  · exact untouched_self t _

/-- The lease looks at its pending write before it takes the bytes. -/
theorem leaseBytes_untouched (noise : Noise R H T) : Untouched t (t.leaseBytes noise event) := by
  unfold TargetTransport.leaseBytes
  dsimp only
  split
  · split
    · exact untouched_self t _
    · split
      · exact untouched_ok _
      · split
        · rename_i failed
          exact untouched_internal (updateFrameTimer_internal failed)
        · split
          · exact untouched_ok _
          · split
            · exact untouched_ok _
            · split
              · exact untouched_ok _
              · split
                · rename_i failed
                  exact untouched_internal (allocateToken_internal failed)
                · exact untouched_ok _
          · exact untouched_ok _
  · exact untouched_self t _

theorem streamEnd_untouched (s : Nat) (reason : CloseReason) (orderly : Bool) :
    Untouched t (t.streamEnd s reason orderly) := by
  unfold TargetTransport.streamEnd
  split
  · split
    · split
      · exact untouched_ok _
      · exact untouched_ok _
    · exact untouched_self t _
  · split
    · split
      · exact untouched_ok _
      · exact untouched_ok _
    · exact untouched_self t _
  · split
    · split
      · exact untouched_ok _
      · exact untouched_ok _
    · exact untouched_self t _
  · split
    · split
      · exact untouched_ok _
      · exact untouched_ok _
    · split
      · exact untouched_self t _
      · split
        · exact untouched_ok _
        · exact untouched_ok _
  · exact untouched_self t _

theorem streamClosed_untouched : Untouched t (t.streamClosed event) := by
  unfold TargetTransport.streamClosed
  split
  · exact untouched_self t _
  · split
    all_goals exact streamEnd_untouched _ _ _

/-- A timer that is there is never rejected. -/
theorem timerFired_untouched : Untouched t (t.timerFired event) := by
  have child (u : TargetTransport H T) (s : Nat) (reason : CloseReason) : Untouched t (u.childTimerFired s reason) := by
    unfold TargetTransport.childTimerFired
    split
    · split
      · exact untouched_ok _
      · exact untouched_ok _
    · exact untouched_ok _
  have tick (u : TargetTransport H T) (token : Nat) : Untouched t (u.leaseTickFired token) := by
    unfold TargetTransport.leaseTickFired
    dsimp only
    split
    · split
      · exact untouched_ok _
      · split
        · exact untouched_ok _
        · split
          · exact untouched_ok _
          · split
            · rename_i failed
              exact untouched_internal (scheduleTimer_internal failed)
            · exact untouched_ok _
    · exact untouched_ok _
  unfold TargetTransport.timerFired
  dsimp only
  split
  · exact untouched_self t _
  · split
    · exact untouched_ok _
    · split
      · exact untouched_ok _
      · exact untouched_ok _
      · exact untouched_ok _
      · exact tick _ _
      · exact child _ _ _
      · exact child _ _ _
      · exact child _ _ _

theorem leaseEvent_untouched (r : Outcome × TargetTransport H T) : Untouched t (TargetTransport.leaseEvent event r t) := by
  unfold TargetTransport.leaseEvent
  split
  · exact untouched_self t _
  · exact untouched_ok _

theorem finishApplications_untouched (e : Eligible H T) (s : Nat) (child : Child H T) (frameDeadline : Option Nat)
    (read : TargetTransport.ApplicationRead H T) : Untouched t (u.finishApplications e s child frameDeadline read) := by
  unfold TargetTransport.finishApplications
  split
  · exact untouched_ok _
  · exact untouched_ok _
  · exact untouched_ok _
  · split
    · exact untouched_internal rfl
    · dsimp only
      split
      · exact untouched_ok _
      · split
        · rename_i failed
          exact untouched_internal (replaceChildTimer_internal failed)
        · exact untouched_ok _

/-- A child that reads its frames does not reject them. -/
theorem sessionFrames_untouched (noise : Noise R H T) (e : Eligible H T) (s : Nat) {child : Child H T}
    (reading : child.phase.Reading) (frameDeadline : Option Nat) (frame : Bytes) (more : List Bytes) :
    Untouched t (u.sessionFrames noise e s child frameDeadline frame more) := by
  unfold TargetTransport.sessionFrames
  dsimp only
  split
  · split
    · exact untouched_ok _
    · split
      · exact untouched_ok _
      · split
        · exact untouched_ok _
        · split
          · rename_i failed
            exact untouched_internal (allocateToken_internal failed)
          · exact untouched_ok _
  · split
    · exact untouched_ok _
    · exact finishApplications_untouched _ _ _ _ _
  · exact finishApplications_untouched _ _ _ _ _
  · rename_i notM2 notFinished notApplication
    unfold ChildPhase.Reading at reading
    split at reading
    · rename_i phase
      exact absurd phase (notM2 _)
    · rename_i phase
      exact absurd phase (notFinished _)
    · rename_i phase
      exact absurd phase (notApplication _)
    · exact reading.elim

/-- … and one that does not read rejects them, with the decoder and the timer as they are by then. -/
theorem sessionFrames_waiting (noise : Noise R H T) (e : Eligible H T) (s : Nat) {child : Child H T}
    (waiting : ¬ child.phase.Reading) (frameDeadline : Option Nat) (frame : Bytes) (more : List Bytes) :
    u.sessionFrames noise e s child frameDeadline frame more = (.error .wrongPhase, u.withChild e s child) := by
  unfold TargetTransport.sessionFrames
  dsimp only
  split
  · rename_i phase
    rw [phase] at waiting
    exact absurd trivial waiting
  · rename_i phase
    rw [phase] at waiting
    exact absurd trivial waiting
  · rename_i phase
    rw [phase] at waiting
    exact absurd trivial waiting
  · rfl

/-- Everything but the bytes of a child. -/
theorem drive_untouched (noise : Noise R H T) (entropy : R)
    (other : event.tag = .streamBytes → ∀ e, t.phase = .eligible e → e.leaseStream = event.streamId ∨
      e.children.lookup event.streamId = none) : Untouched t (t.drive noise entropy event) := by
  have bytes (tag : event.tag = .streamBytes) : Untouched t (t.streamBytes noise event) := by
    unfold TargetTransport.streamBytes
    split
    · exact untouched_self t _
    · split
      · split
        · exact bootstrapBytes_untouched noise
        · exact untouched_self t _
      · rename_i e phase
        split
        · exact leaseBytes_untouched noise
        · rename_i registered
          rw [(other tag e phase).resolve_left registered]
          exact untouched_self t _
      · exact untouched_self t _
  unfold TargetTransport.drive
  split
  · exact untouched_ok _
  · split
    · exact untouched_self t _
    · cases tag : event.tag with
      | eligibilityLost | cleanupFailed | internalError => exact leaseEvent_untouched _
      | timerFired => exact timerFired_untouched
      | bootstrapConnected => exact bootstrapConnected_untouched noise entropy
      | fullWriteCommitted => exact fullWriteCommitted_untouched
      | sessionAccepted => exact sessionAccepted_untouched noise entropy
      | runtimeResponse => exact runtimeResponse_untouched noise
      | streamBytes => exact bytes tag
      | streamEof | streamIoFailed | streamCloseNormal => exact streamClosed_untouched

variable {e : Eligible H T} {child : Child H T}

/-- Well-formed bytes of a child. -/
theorem drive_sessionBytes (noise : Noise R H T) (entropy : R) (phase : t.phase = .eligible e)
    (registered : e.leaseStream ≠ event.streamId) (found : e.children.lookup event.streamId = some child)
    (tag : event.tag = .streamBytes) (flags : event.flags = 0)
    (wellFormed : ¬ (event.streamId = 0 ∨ event.writeToken ≠ 0 ∨ event.bytes = [])) :
    t.drive noise entropy event = t.sessionBytes noise event := by
  unfold TargetTransport.drive TargetTransport.streamBytes
  simp only [phase, flags, ne_eq, not_true, if_false, tag, wellFormed, registered, found, Option.isSome_some, if_true]

/-- What a waiting child answers to a frame. -/
theorem sessionBytes_waiting (noise : Noise R H T) (phase : t.phase = .eligible e)
    (found : e.children.lookup event.streamId = some child) (waiting : ¬ child.phase.Reading) {frame : Bytes}
    {more : List Bytes} {decoder : OuterFrameDecoder} (pushed : child.decoder.push event.bytes = (.ok (frame :: more), decoder))
    {frameDeadline frameTimer : Option Nat} {clock : Clock}
    (updated : t.clock.updateFrameTimer decoder.isIncomplete child.frameTimer (.sessionFrame event.streamId) =
      (.ok frameDeadline, frameTimer, clock)) :
    t.sessionBytes noise event = (.error .wrongPhase,
      { t with clock }.withChild e event.streamId { child with decoder, frameTimer }) := by
  unfold TargetTransport.sessionBytes
  simp only [phase, found, pushed, updated]
  exact sessionFrames_waiting noise e event.streamId (by exact waiting) _ _ _

/-- The frame timer stays as it is when it already fits the decoder. -/
theorem updateFrameTimer_fitting {incomplete : Bool} {slot : Option Nat} (fits : incomplete = slot.isSome)
    (action : TimerAction) : c.updateFrameTimer incomplete slot action = (.ok none, slot, c) := by
  subst fits
  cases slot with
  | none => rfl
  | some timer => rfl

/-- … and it changes when it does not. -/
theorem updateFrameTimer_fits {incomplete : Bool} {slot slot' started : Option Nat} {action : TimerAction}
    (eq : c.updateFrameTimer incomplete slot action = (.ok started, slot', c')) : incomplete = slot'.isSome := by
  rcases updateFrameTimer_slot eq with ⟨partly, some⟩ | ⟨whole, none, -⟩
  · rw [partly, some]
  · rw [whole, none]
    rfl

theorem updateFrameTimer_refused {incomplete : Bool} {slot slot' : Option Nat} {action : TimerAction}
    (positive : 0 < c.nextToken) (eq : c.updateFrameTimer incomplete slot action = (.error error, slot', c')) :
    incomplete = true ∧ slot = none ∧ Spent c := by
  unfold Clock.updateFrameTimer Clock.scheduleTimer Clock.allocateToken at eq
  unfold Spent
  cases incomplete with
  | false => cases eq
  | true =>
      cases slot with
      | some timer => cases eq
      | none =>
          by_cases room : c.nextToken + 1 < 2 ^ 64
          · rw [if_pos room, if_neg positive.ne'] at eq
            cases eq
          · exact ⟨rfl, rfl, not_lt.mp room⟩

theorem SameState.found {t' : TargetTransport H T} {e' : Eligible H T} (same : SameState t t')
    (phase : t.phase = .eligible e) (phase' : t'.phase = .eligible e') (s : Nat) :
    e'.children.lookup s = e.children.lookup s := by
  have both := same.phase
  rw [phase, phase'] at both
  exact both.2 s

/-- Storing the child again under its stream changes nothing. -/
theorem sameState_restored (phase : t.phase = .eligible e) {s : Nat} (found : e.children.lookup s = some child) :
    SameState t (t.withChild e s child) := by
  refine ⟨?_, rfl, rfl, fun _ => rfl⟩
  rw [phase]
  refine ⟨rfl, fun other => ?_⟩
  rw [Table.lookup_insert_eq]
  split
  · rename_i same
    subst same
    exact found.symm
  · rfl

theorem sessionBytes_restores (noise : Noise R H T) (phase : t.phase = .eligible e)
    (found : e.children.lookup event.streamId = some child)
    (intact : ∀ frame more decoder, ¬ child.phase.Reading →
      child.decoder.push event.bytes = (.ok (frame :: more), decoder) →
      decoder = child.decoder ∧ decoder.isIncomplete = child.frameTimer.isSome ∨
        decoder.isIncomplete = true ∧ child.frameTimer = none ∧ Spent t.clock) :
    Restores t (t.sessionBytes noise event) := by
  unfold TargetTransport.sessionBytes
  simp only [phase, found]
  split
  · exact (untouched_ok _).restores
  · rename_i frames decoder pushed
    split
    · rename_i failed
      exact (untouched_internal (updateFrameTimer_internal failed)).restores
    · rename_i updated
      split
      · exact (untouched_ok _).restores
      · by_cases reading : child.phase.Reading
        · exact (sessionFrames_untouched noise e event.streamId (by exact reading) _ _ _).restores
        · rw [sessionFrames_waiting noise e event.streamId (by exact reading)]
          intro _
          rcases intact _ _ decoder reading pushed with ⟨same, fits⟩ | ⟨partly, none, spent⟩
          · rw [updateFrameTimer_fitting fits] at updated
            cases updated
            subst same
            rw [← phase]
            exact sameState_restored phase found
          · rw [partly, none] at updated
            unfold Spent at spent
            unfold Clock.updateFrameTimer Clock.scheduleTimer Clock.allocateToken at updated
            simp only [if_neg (not_lt.mpr spent), if_true, Option.isNone_none] at updated
            cases updated

/-- A rejection keeps the state unless the bytes are swallowed. -/
theorem drive_restores (noise : Noise R H T) (entropy : R) (intact : ¬ Swallows t event) :
    Restores t (t.drive noise entropy event) := by
  by_cases other : event.tag = .streamBytes → ∀ e, t.phase = .eligible e → e.leaseStream = event.streamId ∨
      e.children.lookup event.streamId = none
  · exact (drive_untouched noise entropy other).restores
  · push Not at other
    obtain ⟨tag, e, phase, registered, present⟩ := other
    obtain ⟨child, found⟩ := Option.ne_none_iff_exists'.mp present
    by_cases flags : event.flags = 0
    · by_cases wellFormed : event.streamId = 0 ∨ event.writeToken ≠ 0 ∨ event.bytes = []
      · unfold TargetTransport.drive TargetTransport.streamBytes
        simp only [phase, flags, ne_eq, not_true, if_false, tag, wellFormed, if_true]
        exact (untouched_self t _).restores
      · rw [drive_sessionBytes noise entropy phase registered found tag flags wellFormed]
        push Not at wellFormed
        refine sessionBytes_restores noise phase found fun frame more decoder waiting pushed => ?_
        by_contra swallowed
        push Not at swallowed
        refine intact ⟨tag, flags, wellFormed.1, wellFormed.2.1, wellFormed.2.2, e, child, frame, more, decoder, phase,
          registered, found, waiting, pushed, ?_, ?_⟩
        · by_contra same
          push Not at same
          exact swallowed.1 same.1 same.2
        · rintro ⟨partly, none, spent⟩
          exact swallowed.2 partly none spent
    · unfold TargetTransport.drive
      simp only [phase, flags, ne_eq, not_false_iff, if_true]
      exact (untouched_self t _).restores

/-- Swallowed bytes are rejected, and the child is not what it was. -/
theorem swallows_changes (noise : Noise R H T) (entropy : R) (positive : 0 < t.clock.nextToken)
    (swallows : Swallows t event) : ¬ Restores t (t.drive noise entropy event) := by
  obtain ⟨tag, flags, nonzero, token, nonempty, e, child, frame, more, decoder, phase, registered, found, waiting, pushed,
    differs, granted⟩ := swallows
  rw [drive_sessionBytes noise entropy phase registered found tag flags (by simp [nonzero, token, nonempty])]
  cases updated : t.clock.updateFrameTimer decoder.isIncomplete child.frameTimer (.sessionFrame event.streamId) with
  | mk started rest =>
      obtain ⟨frameTimer, clock⟩ := rest
      cases started with
      | error error => exact absurd (updateFrameTimer_refused positive updated) granted
      | ok frameDeadline =>
          rw [sessionBytes_waiting noise phase found waiting pushed updated]
          intro restores
          have same := (restores (.inr rfl)).found phase rfl event.streamId
          rw [AList.lookup_insert, found] at same
          injection same with same
          have sameDecoder : decoder = child.decoder := congrArg Child.decoder same
          have sameTimer : frameTimer = child.frameTimer := congrArg Child.frameTimer same
          rcases differs with differs | differs
          · exact differs sameDecoder
          · rw [updateFrameTimer_fits updated, sameTimer] at differs
            exact differs rfl

end

section
variable {noise : Noise R H T} {descriptor : Bytes} {draws : List Nat} {t₀ : TargetTransport H T} {ready : Outcome}

/-- In every state of a run, a rejected event leaves the state as it was if and only if it
    does not swallow bytes of a waiting child. -/
theorem rejection_restores_iff (made : TargetTransport.create descriptor draws = .ok (t₀, ready))
    (inputs : List (R × Event)) (entropy : R) (event : Event) :
    (Rejects ((reached noise t₀ inputs).drive noise entropy event).1 →
      SameState (reached noise t₀ inputs) ((reached noise t₀ inputs).drive noise entropy event).2) ↔
    ¬ Swallows (reached noise t₀ inputs) event := by
  constructor
  · intro restores swallows
    have positive : 0 < (reached noise t₀ inputs).clock.nextToken :=
      (create_positive made).trans_le (reached_ages noise t₀ inputs).tokens
    exact swallows_changes noise entropy positive swallows restores
  · exact drive_restores noise entropy

end

section
open LimitRounds

/-- A second request while the App works on the first. -/
def doubled : List (Unit × Event) := opening ++ [request 0]

set_option maxRecDepth 20000 in
/-- A whole frame is dropped with its rejection, and nothing else happens. -/
theorem doubled_restored : TargetTransport.create (encodeDescriptor LimitRounds.descriptor) [0] =
      .ok (start, (Outcome.new .endpointReady).values 0 50000) ∧
    (Rejects ((reached nonceNoise start doubled).drive nonceNoise () (request 1).2).1 →
      SameState (reached nonceNoise start doubled) ((reached nonceNoise start doubled).drive nonceNoise () (request 1).2).2) := by
  refine ⟨created, (rejection_restores_iff created doubled () (request 1).2).mpr ?_⟩
  rintro ⟨-, -, -, -, -, e, child, frame, more, decoder, phase, -, found, -, pushed, differs, -⟩
  have waiting : ((reached nonceNoise start doubled).registered 2).map (fun child => (child.decoder, child.frameTimer)) =
      some (.new, none) := rfl
  rw [(registered_eligible phase 2).trans found] at waiting
  injection waiting with waiting
  injection waiting with empty unarmed
  rw [empty, show (request 1).2.bytes = nonceFrame 3 LimitRun.byteRecord.wire from rfl,
    push_frame (encodeOuter_tagged LimitRun.byteRecord_small 3)] at pushed
  injection pushed with _ decoded
  subst decoded
  rcases differs with differs | differs
  · exact differs empty.symm
  · rw [unarmed] at differs
    exact differs rfl

set_option maxRecDepth 20000 in
/-- The first byte of another frame stays in the decoder, and a frame timer starts that no
    outcome reports. -/
theorem rejected_byte_kept : TargetTransport.create (encodeDescriptor LimitRounds.descriptor) [0] =
      .ok (start, (Outcome.new .endpointReady).values 0 50000) ∧
    ((reached nonceNoise start doubled).drive nonceNoise () (receive 2 ((request 1).2.bytes ++ [0])).2).1 =
      .error .wrongPhase ∧
    ¬ SameState (reached nonceNoise start doubled)
      ((reached nonceNoise start doubled).drive nonceNoise () (receive 2 ((request 1).2.bytes ++ [0])).2).2 := by
  refine ⟨created, rfl, fun same => ?_⟩
  have tokens := same.nextToken
  revert tokens
  decide

end

end AppPilotKit.Target
