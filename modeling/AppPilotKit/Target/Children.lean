import AppPilotKit.Target.Clockwork

/-! # Work on one child

Every handler that works on a registered child leaves the rest of the supervisor
alone and brings the child to one of four fates. The last one is a slip of the
source: the commit of a Close frame looks for the child while the phase is moved
out, so it reports an end that it does not carry out.
-/

namespace AppPilotKit.Target

open Wire Transport

variable {R H T : Type}

/-- The answer ends nothing and delivers nothing, and names no stream but its own. -/
def Plain (own : Nat) (r : Except SupervisorError Outcome) : Prop :=
  ∀ o, r = .ok o → (o.kind ≠ .application ∧ o.kind ≠ .sessionTerminal ∧ o.kind ≠ .leaseTerminal) ∧
    (o.streamId = own ∨ o.streamId = 0)

/-- What an answer says about the stream `s`. -/
def Applies (s : Nat) (r : Except SupervisorError Outcome) : Prop :=
  ∃ o, r = .ok o ∧ o.kind = .application ∧ o.streamId = s

def Ends (s : Nat) (handoff : HandoffState) (r : Except SupervisorError Outcome) : Prop :=
  ∃ o, r = .ok o ∧ o.kind = .sessionTerminal ∧ o.streamId = s ∧ o.handoff = handoff

/-- How the child of `s` comes out of an answer: the answer, the child that is
    registered afterwards and the clock. `slip` says when it may slip. -/
inductive Fate (s : Nat) (child : Child H T) (c : Clock) (slip : Prop) :
    Except SupervisorError Outcome → Option (Child H T) → Clock → Prop where
  | kept {r child' c'} : Plain s r → child.applications ≤ child'.applications →
      Tended s c child'.phaseTimer child'.frameTimer c' → Fate s child c slip r (some child') c'
  | applied {r child' c'} : Applies s r → child'.applications = child.applications + 1 →
      Tended s c child'.phaseTimer child'.frameTimer c' → Fate s child c slip r (some child') c'
  | ended {r c'} : Ends s child.handoff r → Tended s c none none c' → Fate s child c slip r none c'
  | slipped {r} : slip → Ends s .notHandedOff r → Tended s c child.phaseTimer child.frameTimer c →
      Fate s child c slip r (some { child with phase := .terminal }) c

/-- Whatever the fate, only timers of the stream were touched. -/
theorem Fate.only {s : Nat} {child : Child H T} {after : Option (Child H T)} {c c' : Clock} {slip : Prop}
    {r : Except SupervisorError Outcome} (fate : Fate s child c slip r after c') : Only s c c' := by
  cases fate with
  | kept _ _ tended => exact tended.only
  | applied _ _ tended => exact tended.only
  | ended _ tended => exact tended.only
  | slipped _ _ tended => exact tended.only

/-- An answer that concerns the child of `s` only. -/
structure ChildAnswer (s : Nat) (t : TargetTransport H T) (e : Eligible H T) (child : Child H T) (slip : Prop)
    (r : Answer H T) : Prop where
  generation : r.2.generation = t.generation
  phase : ∃ children, r.2.phase = .eligible { e with children } ∧
    (∀ other, other ≠ s → children.lookup other = e.children.lookup other) ∧
    Fate s child t.clock slip r.1 (children.lookup s) r.2.clock

/-- A state on the way to such an answer. -/
structure Working (s : Nat) (t : TargetTransport H T) (e : Eligible H T) (child : Child H T) (u : TargetTransport H T)
    (child' : Child H T) : Prop where
  generation : u.generation = t.generation
  phase : ∃ children, u.phase = .eligible { e with children } ∧
    (∀ other, other ≠ s → children.lookup other = e.children.lookup other) ∧ children.lookup s = some child'
  applications : child'.applications = child.applications
  tended : Tended s t.clock child'.phaseTimer child'.frameTimer u.clock

theorem plain_error {own : Nat} (error : SupervisorError) : Plain own (.error error) := fun _ h => by cases h

theorem plain_of {own : Nat} {o : Outcome} (kind : OutcomeKind) (is : o.kind = kind)
    (other : kind ≠ .application ∧ kind ≠ .sessionTerminal ∧ kind ≠ .leaseTerminal)
    (stream : o.streamId = own ∨ o.streamId = 0) : Plain own (.ok o) := by
  intro o' h
  cases h
  rw [is]
  exact ⟨other, stream⟩

theorem plain_needInput (s : Nat) : Plain s (.ok ((Outcome.new .needInput).stream s)) :=
  plain_of .needInput rfl (by decide) (.inl rfl)

theorem plain_write (s token : Nat) (bytes : Bytes) : Plain s (.ok (.write s token bytes)) :=
  plain_of .writeFrames rfl (by decide) (.inl rfl)

@[simp] theorem Outcome.deadline_kind (o : Outcome) (timer ms : Nat) : (o.deadline timer ms).kind = o.kind := by
  unfold Outcome.deadline
  split
  · rfl
  · rfl

@[simp] theorem Outcome.deadline_streamId (o : Outcome) (timer ms : Nat) :
    (o.deadline timer ms).streamId = o.streamId := by
  unfold Outcome.deadline
  split
  · rfl
  · rfl

/-- A deadline does not change what an answer is. -/
theorem Plain.deadline {own : Nat} {o : Outcome} (h : Plain own (.ok o)) (timer ms : Nat) :
    Plain own (.ok (o.deadline timer ms)) := by
  intro o' eq
  cases eq
  rw [Outcome.deadline_kind, Outcome.deadline_streamId]
  exact h o rfl

theorem Plain.withFrameDeadline {own : Nat} {o : Outcome} (h : Plain own (.ok o)) (slot : Option Nat) :
    Plain own (.ok (o.withFrameDeadline slot)) := by
  cases slot with
  | none => exact h
  | some timer => exact h.deadline timer frameDeadlineMs

theorem applies_deadline (s : Nat) (bytes : Bytes) (timer ms : Nat) :
    Applies s (.ok ((Outcome.application s bytes).deadline timer ms)) :=
  ⟨_, rfl, Outcome.deadline_kind _ _ _, Outcome.deadline_streamId _ _ _⟩

section
variable {s : Nat} {t u : TargetTransport H T} {e : Eligible H T} {child child' : Child H T} {c : Clock}
  {slip : Prop}

/-- The untouched state. -/
theorem Working.start (eligible : t.phase = .eligible e) (found : e.children.lookup s = some child)
    (tended : Tended s t.clock child.phaseTimer child.frameTimer t.clock) : Working s t e child t child :=
  ⟨rfl, ⟨e.children, eligible, fun _ _ => rfl, found⟩, rfl, tended⟩

/-- Storing a child. -/
theorem Working.store (applications : child'.applications = child.applications)
    (tended : Tended s t.clock child'.phaseTimer child'.frameTimer c) :
    Working s t e child ({ t with clock := c }.withChild e s child') child' :=
  ⟨rfl, ⟨e.children.insert s child', rfl, fun _ differs => AList.lookup_insert_ne differs, AList.lookup_insert _⟩,
    applications, tended⟩

theorem Working.keeps (w : Working s t e child u child') {r : Except SupervisorError Outcome} (plain : Plain s r) :
    ChildAnswer s t e child slip (r, u) := by
  obtain ⟨children, eligible, others, found⟩ := w.phase
  refine ⟨w.generation, children, eligible, others, ?_⟩
  rw [found]
  exact .kept plain w.applications.ge w.tended

/-- An answer that stores a child. -/
theorem stored_answer {r : Except SupervisorError Outcome} (plain : Plain s r)
    (applications : child.applications ≤ child'.applications)
    (tended : Tended s t.clock child'.phaseTimer child'.frameTimer c) :
    ChildAnswer s t e child slip (r, { t with clock := c }.withChild e s child') := by
  refine ⟨rfl, _, rfl, fun other differs => AList.lookup_insert_ne differs, ?_⟩
  rw [AList.lookup_insert]
  exact .kept plain applications tended

/-- … with a new phase or idle timer. -/
theorem replaced_answer {base : Child H T} {action : TimerAction} {result : Except SupervisorError Nat} {clock : Clock}
    {r : Except SupervisorError Outcome} (eq : replaceChildTimer base c action = (result, child', clock))
    (own : action = .sessionPhase s ∨ action = .sessionIdle s) (plain : Plain s r)
    (applications : child.applications ≤ base.applications)
    (tended : Tended s t.clock base.phaseTimer base.frameTimer c) :
    ChildAnswer s t e child slip (r, { t with clock }.withChild e s child') := by
  obtain ⟨replaced, kept⟩ := replaceChildTimer_spec eq own tended
  exact stored_answer plain (applications.trans kept.ge) replaced

/-- … after a token was asked for. -/
theorem allocated_answer {result : Except SupervisorError Nat} {clock : Clock} {r : Except SupervisorError Outcome}
    (eq : c.allocateToken = (result, clock)) (plain : Plain s r) (applications : child.applications ≤ child'.applications)
    (tended : Tended s t.clock child'.phaseTimer child'.frameTimer c) :
    ChildAnswer s t e child slip (r, { t with clock }.withChild e s child') := by
  have allocated := tended.allocate
  rw [eq] at allocated
  exact stored_answer plain applications allocated

/-- The end of a child removes it and both its timers. -/
theorem Working.childTerminal (w : Working s t e child u child') (reason : CloseReason)
    (peer : Option (CloseReason × HandoffState)) :
    ChildAnswer s t e child slip (TargetTransport.answer (u.childTerminal s reason peer)) := by
  obtain ⟨children, eligible, others, found⟩ := w.phase
  unfold TargetTransport.childTerminal
  simp only [eligible, found, TargetTransport.answer]
  refine ⟨w.generation, children.erase s, rfl, fun other differs => ?_, ?_⟩
  · rw [AList.lookup_erase_ne differs]
    exact others other differs
  · rw [AList.lookup_erase]
    refine .ended ⟨_, rfl, rfl, rfl, ?_⟩ w.tended.cancelPhase.cancelFrame
    show child'.handoff = child.handoff
    unfold Child.handoff
    rw [w.applications]

/-- A core error ends the child at once, or after its Close frame is written. -/
theorem Working.childCoreError (w : Working s t e child u child') (error : Error) :
    ChildAnswer s t e child slip (TargetTransport.answer (u.childCoreError s error)) := by
  unfold TargetTransport.childCoreError
  cases error.closeFrame with
  | none => exact w.childTerminal error.reason error.peerClose
  | some frame =>
      have allocated := w.tended.allocate
      cases eq : u.clock.allocateToken with
      | mk result clock =>
          rw [eq] at allocated
          have after : Working s t e child { u with clock } child' := ⟨w.generation, w.phase, w.applications, allocated⟩
          cases result with
          | error _ => exact after.childTerminal .internalError none
          | ok token =>
              obtain ⟨children, eligible, others, found⟩ := w.phase
              simp only [eligible, found, TargetTransport.answer]
              refine ⟨w.generation, _, rfl, fun other differs => ?_, ?_⟩
              · rw [AList.lookup_insert_ne differs]
                exact others other differs
              · rw [AList.lookup_insert]
                exact .kept (plain_of .writeFrames rfl (by decide) (.inl rfl)) w.applications.ge allocated

/-! ## The handlers of a child -/

/-- The state in which `full_write_committed` puts the phase back. -/
def putBack (r : Answer H T × Eligible H T) : Answer H T := (r.1.1, { r.1.2 with phase := .eligible r.2 })

/-- A child write is committed: the next phase, a new idle timer, or the slip. -/
theorem commitChildWrite_answer (eligible : t.phase = .eligible e) (found : e.children.lookup s = some child)
    (tended : Tended s t.clock child.phaseTimer child.frameTimer t.clock) (token : Nat)
    (slips : ∀ terminal, child.phase = .terminalPending token terminal → slip) :
    ChildAnswer s t e child slip (putBack (t.movedOut.commitChildWrite e s token)) := by
  have rejected : ChildAnswer s t e child slip (putBack ((.error .wrongPhase, t.movedOut), e)) := by
    have same : putBack ((.error .wrongPhase, t.movedOut), e) = (.error .wrongPhase, t) := by
      unfold putBack
      rw [← eligible]
      rfl
    rw [same]
    exact (Working.start eligible found tended).keeps (plain_error _)
  have moved (phase : ChildPhase H T) : ChildAnswer s t e child slip
      (putBack ((.ok ((Outcome.new .needInput).stream s), t.movedOut),
        { e with children := e.children.insert s { child with phase } })) := by
    exact stored_answer (plain_needInput s) le_rfl tended
  unfold TargetTransport.commitChildWrite
  simp only [found]
  split
  · split
    · exact moved _
    · exact rejected
  · split
    · exact moved _
    · exact rejected
  · split
    · split
      · rename_i eq
        exact replaced_answer eq (.inr rfl) (plain_error _) le_rfl tended
      · rename_i eq
        exact replaced_answer eq (.inr rfl) ((plain_needInput s).deadline _ _) le_rfl tended
    · exact rejected
  · rename_i at_phase
    split
    · rename_i same
      refine ⟨rfl, _, rfl, fun other differs => AList.lookup_insert_ne differs, ?_⟩
      rw [AList.lookup_insert]
      exact .slipped (slips _ (same ▸ at_phase)) ⟨_, rfl, rfl, rfl, rfl⟩ tended
    · exact rejected
  · exact rejected

theorem fullWriteCommitted_answer {event : Event} (eligible : t.phase = .eligible e)
    (found : e.children.lookup event.streamId = some child) (registered : e.leaseStream ≠ event.streamId)
    (tended : Tended event.streamId t.clock child.phaseTimer child.frameTimer t.clock)
    (slips : event.streamId ≠ 0 ∧ event.writeToken ≠ 0 ∧ event.bytes = [] →
      ∀ terminal, child.phase = .terminalPending event.writeToken terminal → slip) :
    ChildAnswer event.streamId t e child slip (t.fullWriteCommitted event) := by
  unfold TargetTransport.fullWriteCommitted
  split
  · exact (Working.start eligible found tended).keeps (plain_error _)
  · rename_i wellFormed
    push Not at wellFormed
    simp only [eligible, if_neg registered]
    exact commitChildWrite_answer eligible found tended event.writeToken (slips wellFormed)

theorem runtimeResponse_answer (noise : Noise R H T) {event : Event} (eligible : t.phase = .eligible e)
    (found : e.children.lookup event.streamId = some child)
    (tended : Tended event.streamId t.clock child.phaseTimer child.frameTimer t.clock) :
    ChildAnswer event.streamId t e child slip (t.runtimeResponse noise event) := by
  have start := Working.start eligible found tended
  unfold TargetTransport.runtimeResponse
  split
  · exact start.keeps (plain_error _)
  simp only [eligible, found]
  split
  · have gone : Working event.streamId t e child (t.withChild e event.streamId { child with phase := .terminal }) _ :=
      Working.store rfl tended
    split
    · exact gone.childCoreError _
    · split
      · rename_i eq
        exact allocated_answer eq (plain_error _) le_rfl tended
      · rename_i eq
        exact allocated_answer eq (plain_write _ _ _) le_rfl tended
  · exact start.keeps (plain_error _)

/-- One more message was delivered. -/
theorem applied_answer {r : Except SupervisorError Outcome} (applied : Applies s r)
    (applications : child'.applications = child.applications + 1)
    (tended : Tended s t.clock child'.phaseTimer child'.frameTimer c) :
    ChildAnswer s t e child slip (r, { t with clock := c }.withChild e s child') := by
  refine ⟨rfl, _, rfl, fun other differs => AList.lookup_insert_ne differs, ?_⟩
  rw [AList.lookup_insert]
  exact .applied applied applications tended

/-- What follows the application loop, however it ended. -/
theorem finishApplications_answer (applications : child'.applications = child.applications)
    (tended : Tended s t.clock child'.phaseTimer child'.frameTimer c) (frameDeadline : Option Nat)
    (read : TargetTransport.ApplicationRead H T) :
    ChildAnswer s t e child slip ({ t with clock := c }.finishApplications e s child' frameDeadline read) := by
  have gone : Working s t e child ({ t with clock := c }.withChild e s { child' with phase := .terminal }) _ :=
    Working.store applications tended
  cases read with
  | second => exact gone.childTerminal _ _
  | failed error => exact gone.childCoreError error
  | done session application =>
      cases application with
      | none => exact stored_answer ((plain_needInput s).withFrameDeadline _) applications.ge tended
      | some bytes =>
          simp only [TargetTransport.finishApplications]
          split
          · exact stored_answer (plain_error _) applications.ge tended
          · rename_i count added
            have counted : count = child.applications + 1 := by
              rw [← applications]
              exact checkedAdd_eq added
            split
            · exact applied_answer (applies_deadline s bytes _ _) counted tended.cancelPhase
            · split
              · rename_i eq
                exact replaced_answer eq (.inl rfl) (plain_error _) (by rw [counted]; exact Nat.le_succ _) tended
              · rename_i clock eq
                obtain ⟨replaced, kept⟩ := replaceChildTimer_spec eq (.inl rfl) tended
                exact applied_answer (applies_deadline s bytes _ _) (kept.trans counted) replaced

theorem sessionFrames_answer (noise : Noise R H T) (applications : child'.applications = child.applications)
    (tended : Tended s t.clock child'.phaseTimer child'.frameTimer c) (frameDeadline : Option Nat)
    (frame : Bytes) (more : List Bytes) :
    ChildAnswer s t e child slip ({ t with clock := c }.sessionFrames noise e s child' frameDeadline frame more) := by
  have gone : Working s t e child ({ t with clock := c }.withChild e s { child' with phase := .terminal }) _ :=
    Working.store applications tended
  unfold TargetTransport.sessionFrames
  split
  · split
    · exact gone.childTerminal _ _
    · split
      · exact gone.childCoreError _
      · split
        · exact gone.childCoreError _
        · split
          · rename_i eq
            exact allocated_answer eq (plain_error _) applications.ge tended
          · rename_i eq
            exact allocated_answer eq ((plain_write _ _ _).withFrameDeadline _) applications.ge tended
  · split
    · exact gone.childCoreError _
    · exact finishApplications_answer applications tended _ _
  · exact finishApplications_answer applications tended _ _
  · exact stored_answer (plain_error _) applications.ge tended

theorem sessionBytes_answer (noise : Noise R H T) {event : Event} (eligible : t.phase = .eligible e)
    (found : e.children.lookup event.streamId = some child)
    (tended : Tended event.streamId t.clock child.phaseTimer child.frameTimer t.clock) :
    ChildAnswer event.streamId t e child slip (t.sessionBytes noise event) := by
  unfold TargetTransport.sessionBytes
  simp only [eligible, found]
  split
  · rename_i error decoder _
    have pushed : Working event.streamId t e child (t.withChild e event.streamId { child with decoder }) _ :=
      Working.store rfl tended
    exact pushed.childCoreError error
  · rename_i frames decoder _
    have updated := tended.updateFrameTimer decoder.isIncomplete
    split
    · rename_i eq
      rw [eq] at updated
      exact stored_answer (plain_error _) le_rfl updated
    · rename_i frameDeadline frameTimer clock eq
      rw [eq] at updated
      split
      · exact stored_answer ((plain_needInput _).withFrameDeadline _) le_rfl updated
      · rename_i frame more _
        have framed : ChildAnswer event.streamId t e child slip ({ t with clock }.sessionFrames noise e event.streamId
            { child with decoder, frameTimer } frameDeadline frame more) := by
          refine sessionFrames_answer noise ?_ updated frameDeadline frame more
          rfl
        rw [eligible] at framed
        exact framed

theorem Child.eofError_same (child : Child H T) :
    child.eofError.2.applications = child.applications ∧ child.eofError.2.phaseTimer = child.phaseTimer ∧
      child.eofError.2.frameTimer = child.frameTimer := by
  unfold Child.eofError
  split
  · exact ⟨rfl, rfl, rfl⟩
  · dsimp only
    split
    · split
      · exact ⟨rfl, rfl, rfl⟩
      · exact ⟨rfl, rfl, rfl⟩
    · exact ⟨rfl, rfl, rfl⟩

theorem streamEnd_answer (eligible : t.phase = .eligible e) (found : e.children.lookup s = some child)
    (registered : e.leaseStream ≠ s) (tended : Tended s t.clock child.phaseTimer child.frameTimer t.clock)
    (reason : CloseReason) (orderly : Bool) : ChildAnswer s t e child slip (t.streamEnd s reason orderly) := by
  unfold TargetTransport.streamEnd
  simp only [eligible, if_neg registered, found]
  have checked : ∀ result child', (if orderly then child.eofError else (none, child)) = (result, child') →
      Working s t e child (t.withChild e s child') child' := by
    intro result child' eq
    cases orderly with
    | false =>
        cases eq
        exact Working.store rfl tended
    | true =>
        obtain ⟨applications, phaseTimer, frameTimer⟩ := child.eofError_same
        rw [show child.eofError = _ from eq] at applications phaseTimer frameTimer
        refine Working.store applications ?_
        rw [phaseTimer, frameTimer]
        exact tended
  split
  · rename_i error child' eq
    exact (checked _ _ eq).childCoreError error
  · rename_i child' eq
    exact (checked _ _ eq).childTerminal reason none

theorem streamClosed_answer {event : Event} (eligible : t.phase = .eligible e)
    (found : e.children.lookup event.streamId = some child) (registered : e.leaseStream ≠ event.streamId)
    (tended : Tended event.streamId t.clock child.phaseTimer child.frameTimer t.clock) :
    ChildAnswer event.streamId t e child slip (t.streamClosed event) := by
  unfold TargetTransport.streamClosed
  split
  · exact (Working.start eligible found tended).keeps (plain_error _)
  · split
    · exact streamEnd_answer eligible found registered tended _ _
    · exact streamEnd_answer eligible found registered tended _ _
    · exact streamEnd_answer eligible found registered tended _ _

/-- A timer that is in a slot of the child fires. -/
theorem childTimerFired_answer (eligible : t.phase = .eligible e) (found : e.children.lookup s = some child)
    (tended : Tended s t.clock child.phaseTimer child.frameTimer t.clock) {k : Nat}
    (held : child.phaseTimer = some k ∨ child.frameTimer = some k) (reason : CloseReason) :
    ChildAnswer s t e child slip ({ t with clock := t.clock.cancel (some k) }.childTimerFired s reason) := by
  unfold TargetTransport.childTimerFired
  simp only [eligible, found, Option.isSome_some, if_true, TargetTransport.childTerminal, TargetTransport.answer]
  refine ⟨rfl, _, rfl, fun other differs => AList.lookup_erase_ne differs, ?_⟩
  rw [AList.lookup_erase]
  exact .ended ⟨_, rfl, rfl, rfl, rfl⟩ (tended.fire held)

theorem timerFired_answer {event : Event} {action : TimerAction} (eligible : t.phase = .eligible e)
    (found : e.children.lookup s = some child)
    (tended : Tended s t.clock child.phaseTimer child.frameTimer t.clock)
    (fires : t.clock.timers.lookup event.writeToken = some action) (names : action.stream = some s) :
    ChildAnswer s t e child slip (t.timerFired event) := by
  unfold TargetTransport.timerFired
  split
  · exact (Working.start eligible found tended).keeps (plain_error _)
  simp only [fires]
  cases action with
  | bootstrap | bootstrapFrame | leaseTick | leaseFrame => cases names
  | sessionPhase streamId =>
      cases names
      exact childTimerFired_answer eligible found tended (.inl (tended.clocked.ownPhase _ (.inl fires))) _
  | sessionIdle streamId =>
      cases names
      exact childTimerFired_answer eligible found tended (.inl (tended.clocked.ownPhase _ (.inr fires))) _
  | sessionFrame streamId =>
      cases names
      exact childTimerFired_answer eligible found tended (.inr (tended.clocked.ownFrame _ fires)) _

end

end AppPilotKit.Target
