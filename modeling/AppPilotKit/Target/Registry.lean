import AppPilotKit.Target.Children

/-! # The registry of children

`Sound` ties the children to the timers: a registered child owns the timers of
its slots, a stream without a child owns none, and the slot of the lease holds a
timer of the lease. Every event keeps it, whatever its outcome, and either works
on one child, accepts a new one, or concerns the lease alone.
-/

namespace AppPilotKit.Target

open Wire Transport

variable {R H T : Type}

namespace TargetTransport

/-- The child that is registered under a stream. -/
def registered (t : TargetTransport H T) (s : Nat) : Option (Child H T) :=
  match t.phase with
  | .eligible e => e.children.lookup s
  | _ => none

/-- The slot of the frame timer of the bootstrap or lease stream. -/
def leaseSlot (t : TargetTransport H T) : Option Nat :=
  match t.phase with
  | .bootstrapM1Pending _ _ _ _ frameTimer => frameTimer
  | .bootstrapM2 _ _ _ frameTimer => frameTimer
  | .bootstrapAckPending _ _ _ _ _ _ frameTimer => frameTimer
  | .eligible e => e.leaseFrameTimer
  | .awaitBootstrap _ _ | .terminal _ => none

end TargetTransport

structure Sound (t : TargetTransport H T) : Prop where
  fresh : t.clock.Fresh
  clocked : ∀ s child, t.registered s = some child → Clocked s child.phaseTimer child.frameTimer t.clock
  unnamed : ∀ s, t.registered s = none → Unnamed s t.clock
  slot : ∀ k, t.leaseSlot = some k →
    t.clock.timers.lookup k = some .bootstrapFrame ∨ t.clock.timers.lookup k = some .leaseFrame
  streams : ∀ e s child, t.phase = .eligible e → e.children.lookup s = some child → s ≠ 0 ∧ e.leaseStream ≠ s

/-- The event is for the child of `s`: one of its stream, or a timer that names it. -/
def Addressed (s : Nat) (t : TargetTransport H T) (event : Event) : Prop :=
  event.streamId = s ∧ event.tag ∈ [.streamBytes, .fullWriteCommitted, .runtimeResponse, .streamEof, .streamIoFailed,
    .streamCloseNormal] ∨
  event.tag = .timerFired ∧ ∃ action, t.clock.timers.lookup event.writeToken = some action ∧ action.stream = some s

/-- The event commits the write of the Close frame with which a child ends. -/
def CommitsClose (t : TargetTransport H T) (event : Event) : Prop :=
  event.tag = .fullWriteCommitted ∧ event.flags = 0 ∧
    (event.streamId ≠ 0 ∧ event.writeToken ≠ 0 ∧ event.bytes = []) ∧
    ∃ child terminal, t.registered event.streamId = some child ∧ child.phase = .terminalPending event.writeToken terminal

/-- The event asks for a child of `s`. -/
def Joins (event : Event) (s : Nat) : Prop := event.tag = .sessionAccepted ∧ event.streamId = s

section
variable {s : Nat} {t u : TargetTransport H T} {e : Eligible H T} {child : Child H T} {event : Event}
  {own : Nat} {joins : Nat → Prop}

theorem registered_eligible (eligible : t.phase = .eligible e) (s : Nat) : t.registered s = e.children.lookup s := by
  unfold TargetTransport.registered
  rw [eligible]

theorem registered_some (found : t.registered s = some child) :
    ∃ e, t.phase = .eligible e ∧ e.children.lookup s = some child := by
  unfold TargetTransport.registered at found
  split at found
  · rename_i e eligible
    exact ⟨e, eligible, found⟩
  · cases found

theorem leaseSlot_eligible (eligible : t.phase = .eligible e) : t.leaseSlot = e.leaseFrameTimer := by
  unfold TargetTransport.leaseSlot
  rw [eligible]

theorem Sound.tended (sound : Sound t) (eligible : t.phase = .eligible e) (found : e.children.lookup s = some child) :
    Tended s t.clock child.phaseTimer child.frameTimer t.clock :=
  .refl sound.fresh (sound.clocked s child (by rw [registered_eligible eligible]; exact found))

/-- An event for a registered child works on that child only. -/
theorem drive_child (noise : Noise R H T) (entropy : R) (sound : Sound t) (eligible : t.phase = .eligible e)
    (found : e.children.lookup s = some child) (addressed : Addressed s t event) :
    ChildAnswer s t e child (CommitsClose t event) (t.drive noise entropy event) := by
  have tended := sound.tended eligible found
  have registered := (sound.streams e s child eligible found).2
  unfold TargetTransport.drive
  simp only [eligible]
  split
  · exact (Working.start eligible found tended).keeps (plain_error _)
  rename_i flags
  rcases addressed with ⟨rfl, kind⟩ | ⟨kind, action, fires, names⟩
  · have bytes : ChildAnswer event.streamId t e child (CommitsClose t event) (t.streamBytes noise event) := by
      unfold TargetTransport.streamBytes
      split
      · exact (Working.start eligible found tended).keeps (plain_error _)
      · simp only [eligible, if_neg registered, found, Option.isSome_some, if_true]
        exact sessionBytes_answer noise eligible found tended
    have answered : ChildAnswer event.streamId t e child (CommitsClose t event) (t.runtimeResponse noise event) :=
      runtimeResponse_answer noise eligible found tended
    have closed : ChildAnswer event.streamId t e child (CommitsClose t event) (t.streamClosed event) :=
      streamClosed_answer eligible found registered tended
    cases tag : event.tag with
    | streamBytes => exact bytes
    | fullWriteCommitted =>
        apply fullWriteCommitted_answer eligible found registered tended
        intro wellFormed terminal pending
        refine ⟨tag, by simpa using flags, wellFormed, child, terminal, ?_, pending⟩
        rw [registered_eligible eligible]
        exact found
    | runtimeResponse => exact answered
    | streamEof | streamIoFailed | streamCloseNormal => exact closed
    | bootstrapConnected | sessionAccepted | timerFired | eligibilityLost | cleanupFailed | internalError =>
        simp [tag] at kind
  · simp only [kind]
    exact timerFired_answer eligible found tended fires names

/-- What happened to the child of `s` and its timers keeps the registry sound. -/
theorem ChildAnswer.sound {r : Answer H T} {slip : Prop} (answer : ChildAnswer s t e child slip r) (sound : Sound t)
    (eligible : t.phase = .eligible e) (found : e.children.lookup s = some child) : Sound r.2 := by
  obtain ⟨children, phase, others, fate⟩ := answer.phase
  have lookup (other : Nat) : r.2.registered other = children.lookup other := registered_eligible phase other
  have before (other : Nat) (differs : other ≠ s) : r.2.registered other = t.registered other := by
    rw [lookup, others other differs, registered_eligible eligible]
  have work : ∃ phaseTimer frameTimer, Tended s t.clock phaseTimer frameTimer r.2.clock ∧
      (∀ child', children.lookup s = some child' → child'.phaseTimer = phaseTimer ∧ child'.frameTimer = frameTimer) ∧
      (children.lookup s = none → phaseTimer = none ∧ frameTimer = none) := by
    generalize children.lookup s = after at fate
    generalize r.1 = result at fate
    generalize r.2.clock = clock at fate
    cases fate with
    | kept _ _ tended => exact ⟨_, _, tended, fun _ same => by cases same; exact ⟨rfl, rfl⟩, fun gone => by cases gone⟩
    | applied _ _ tended =>
        exact ⟨_, _, tended, fun _ same => by cases same; exact ⟨rfl, rfl⟩, fun gone => by cases gone⟩
    | ended _ tended => exact ⟨_, _, tended, fun _ same => (by cases same), fun _ => ⟨rfl, rfl⟩⟩
    | slipped _ _ tended =>
        exact ⟨_, _, tended, fun _ same => by cases same; exact ⟨rfl, rfl⟩, fun gone => by cases gone⟩
  obtain ⟨phaseTimer, frameTimer, tended, slots, empty⟩ := work
  refine ⟨tended.fresh, ?_, ?_, ?_, ?_⟩
  · intro other child' there
    by_cases same : other = s
    · subst same
      obtain ⟨rfl, rfl⟩ := slots child' (lookup other ▸ there)
      exact tended.clocked
    · rw [before other same] at there
      exact (sound.clocked other child' there).sameFor (tended.only.sameFor same)
  · intro other absent k a timer names
    by_cases same : other = s
    · subst same
      obtain ⟨rfl, rfl⟩ := empty (lookup other ▸ absent)
      exact tended.clocked.unnamed k a timer names
    · rw [before other same] at absent
      exact sound.unnamed other absent k a ((tended.only.sameFor same k a names).mp timer) names
  · intro k held
    have kept := sound.slot k (by rw [leaseSlot_eligible eligible, ← held, leaseSlot_eligible phase])
    rcases tended.only.timers k with same | ⟨own, -⟩
    · rw [same]
      exact kept
    · rcases kept with kept | kept
      · cases own _ kept
      · cases own _ kept
  · intro e' other child' phase' there
    cases phase.symm.trans phase'
    by_cases same : other = s
    · subst same
      exact sound.streams e other child eligible found
    · exact sound.streams e other child' eligible (by rw [← others other same]; exact there)

/-! ## Events of the lease -/

/-- An answer that concerns the lease, or one that accepts a child. `own` is
    the stream of the event and `joins` says which stream may be accepted. -/
inductive LeaseAnswer (t : TargetTransport H T) (own : Nat) (joins : Nat → Prop) : Answer H T → Prop where
  | kept {r t'} : Plain own r → (∀ s, t'.registered s = t.registered s) → Sound t' → LeaseAnswer t own joins (r, t')
  | accepted {o t' s child} : joins s → o.kind = .writeFrames → o.streamId = s → t.registered s = none →
      t'.registered s = some child →
      child.applications = 0 → (∀ other, other ≠ s → t'.registered other = t.registered other) → Sound t' →
      LeaseAnswer t own joins (.ok o, t')
  | finished {o t'} : o.kind = .leaseTerminal →
      (∀ s child, t.registered s = some child → 0 < child.applications → o.handoff = .handoffPossibleOrConfirmed) →
      (∀ s, t'.registered s = none) → Sound t' → LeaseAnswer t own joins (.ok o, t')

/-- Nothing about the children or their timers changed. -/
theorem Sound.lease {t' : TargetTransport H T} (sound : Sound t) (fresh : t'.clock.Fresh)
    (same : ∀ s, SameFor s t.clock t'.clock) (registered : ∀ s, t'.registered s = t.registered s)
    (slot : ∀ k, t'.leaseSlot = some k →
      t'.clock.timers.lookup k = some .bootstrapFrame ∨ t'.clock.timers.lookup k = some .leaseFrame)
    (streams : ∀ e s child, t'.phase = .eligible e → e.children.lookup s = some child → s ≠ 0 ∧ e.leaseStream ≠ s) :
    Sound t' := by
  refine ⟨fresh, ?_, ?_, slot, streams⟩
  · intro s child found
    rw [registered] at found
    exact (sound.clocked s child found).sameFor (same s)
  · intro s absent k a timer names
    rw [registered] at absent
    exact sound.unnamed s absent k a ((same s k a names).mp timer) names

theorem LeaseAnswer.rejected (sound : Sound t) (error : SupervisorError) : LeaseAnswer t own joins (.error error, t) :=
  .kept (plain_error error) (fun _ => rfl) sound

/-- The end of the lease counts every child that was registered. -/
theorem leaseTerminal_answer (same : ∀ s, u.registered s = t.registered s) (reason : CloseReason)
    (peer : Option (CloseReason × HandoffState)) :
    LeaseAnswer t own joins (TargetTransport.answer (u.leaseTerminal reason peer)) := by
  apply LeaseAnswer.finished
  · rfl
  · intro s child found positive
    rw [← same] at found
    obtain ⟨e, eligible, there⟩ := registered_some found
    have some_child : e.children.any (fun child => decide (child.applications > 0)) = true :=
      Table.any_iff.mpr ⟨s, child, there, by simpa using positive⟩
    simp only [TargetTransport.leaseTerminal, eligible, some_child, if_true]
    rfl
  · intro s
    rfl
  · refine ⟨?_, ?_, ?_, ?_, ?_⟩
    · intro k a found
      cases found
    · intro s child found
      cases found
    · intro s _ k a found
      cases found
    · intro k held
      cases held
    · intro e s child phase
      cases phase

theorem coreLeaseError_answer (same : ∀ s, u.registered s = t.registered s) (error : Error) :
    LeaseAnswer t own joins (TargetTransport.answer (u.coreLeaseError error)) :=
  leaseTerminal_answer same error.reason error.peerClose

/-- While there are no children, only the clock and the lease slot have to be right. -/
theorem LeaseAnswer.childless {t' : TargetTransport H T} {r : Except SupervisorError Outcome} (sound : Sound t)
    (before : ∀ s, t.registered s = none) (after : ∀ s, t'.registered s = none) (plain : Plain own r)
    (fresh : t'.clock.Fresh) (same : ∀ s, SameFor s t.clock t'.clock)
    (slot : ∀ k, t'.leaseSlot = some k →
      t'.clock.timers.lookup k = some .bootstrapFrame ∨ t'.clock.timers.lookup k = some .leaseFrame) :
    LeaseAnswer t own joins (r, t') := by
  have registered (s : Nat) : t'.registered s = t.registered s := (after s).trans (before s).symm
  refine .kept plain registered (sound.lease fresh same registered slot ?_)
  intro e s child phase found
  have none := after s
  rw [registered_eligible phase, found] at none
  cases none

/-- The lease goes on with the children it had. -/
theorem LeaseAnswer.goesOn {t' : TargetTransport H T} {e' : Eligible H T} {r : Except SupervisorError Outcome}
    (sound : Sound t) (eligible : t.phase = .eligible e) (phase : t'.phase = .eligible e')
    (children : e'.children = e.children) (stream : e'.leaseStream = e.leaseStream) (plain : Plain own r)
    (fresh : t'.clock.Fresh) (same : ∀ s, SameFor s t.clock t'.clock)
    (slot : ∀ k, e'.leaseFrameTimer = some k →
      t'.clock.timers.lookup k = some .bootstrapFrame ∨ t'.clock.timers.lookup k = some .leaseFrame) :
    LeaseAnswer t own joins (r, t') := by
  have registered (s : Nat) : t'.registered s = t.registered s := by
    rw [registered_eligible phase, registered_eligible eligible, children]
  refine .kept plain registered (sound.lease fresh same registered ?_ ?_)
  · intro k held
    rw [leaseSlot_eligible phase] at held
    exact slot k held
  · intro e'' s child phase' found
    cases phase.symm.trans phase'
    rw [children] at found
    rw [stream]
    exact sound.streams e s child eligible found

theorem bootstrapConnected_answer (noise : Noise R H T) (entropy : R) (sound : Sound t) (event : Event) :
    LeaseAnswer t event.streamId joins (t.bootstrapConnected noise entropy event) := by
  unfold TargetTransport.bootstrapConnected
  split
  · exact .rejected sound _
  cases phase : t.phase with
  | awaitBootstrap binding brokerPublicKey =>
      have before (s : Nat) : t.registered s = none := by
        unfold TargetTransport.registered
        rw [phase]
      have steady := Steady.refl sound.fresh
      have failed (error : Error) : LeaseAnswer t event.streamId joins (TargetTransport.answer (t.movedOut.coreLeaseError error)) := by
        apply coreLeaseError_answer
        intro s
        exact (before s).symm
      dsimp only
      split
      · exact failed _
      · split
        · exact failed _
        · split
          · rename_i eq
            have allocated := steady.allocate
            rw [show t.clock.allocateToken = _ from eq] at allocated
            exact .childless sound before (fun _ => rfl) (plain_error _) allocated.fresh allocated.same
              (fun k held => by cases held)
          · rename_i eq
            have allocated := steady.allocate
            rw [show t.clock.allocateToken = _ from eq] at allocated
            have scheduled := allocated.schedule .bootstrap rfl
            split
            · rename_i eq
              rw [eq] at scheduled
              exact .childless sound before (fun _ => rfl) (plain_error _) scheduled.fresh scheduled.same
                (fun k held => by cases held)
            · rename_i eq
              rw [eq] at scheduled
              exact .childless sound before (fun _ => rfl) ((plain_write _ _ _).deadline _ _) scheduled.fresh
                scheduled.same (fun k held => by cases held)
  | bootstrapM1Pending | bootstrapM2 | bootstrapAckPending | eligible | terminal => exact .rejected sound _

/-- A commit that is for no child. -/
theorem fullWriteCommitted_lease (sound : Sound t) (event : Event)
    (absent : t.registered event.streamId = none) : LeaseAnswer t event.streamId joins (t.fullWriteCommitted event) := by
  unfold TargetTransport.fullWriteCommitted
  split
  · exact .rejected sound _
  cases phase : t.phase with
  | bootstrapM1Pending streamId bootstrap writeToken decoder frameTimer =>
      dsimp only
      split
      · rename_i owner
        rw [owner.1]
        refine .childless sound ?_ (fun _ => rfl) (plain_needInput _) sound.fresh (fun s => .refl s _) ?_
        · intro s
          unfold TargetTransport.registered
          rw [phase]
        · intro k held
          apply sound.slot k
          unfold TargetTransport.leaseSlot
          rw [phase]
          exact held
      · exact .rejected sound _
  | bootstrapAckPending streamId lease pbs sessionBinding writeToken decoder frameTimer =>
      have before (s : Nat) : t.registered s = none := by
        unfold TargetTransport.registered
        rw [phase]
      have held (k : Nat) (slot : frameTimer = some k) :
          t.clock.timers.lookup k = some .bootstrapFrame ∨ t.clock.timers.lookup k = some .leaseFrame := by
        apply sound.slot k
        unfold TargetTransport.leaseSlot
        rw [phase]
        exact slot
      have scheduled := (Steady.refl sound.fresh).retain.schedule .leaseTick rfl
      dsimp only
      split
      · rename_i owner
        replace owner := owner.1
        split
        · rename_i eq
          rw [eq] at scheduled
          exact .childless sound before (fun _ => rfl) (plain_error _) scheduled.fresh scheduled.same
            (fun k held => by cases held)
        · rename_i eq
          rw [eq] at scheduled
          exact .childless sound before (fun _ => rfl)
            (plain_of .leaseReady (Outcome.deadline_kind _ _ _) (by decide)
              (.inl ((Outcome.deadline_streamId _ _ _).trans owner))) scheduled.fresh scheduled.same
            (fun k slot => scheduled.frames k (held k slot))
      · exact .rejected sound _
  | eligible e =>
      rw [registered_eligible phase] at absent
      have held (k : Nat) (slot : e.leaseFrameTimer = some k) := sound.slot k ((leaseSlot_eligible phase).trans slot)
      have back : ({ t with phase := .eligible e } : TargetTransport H T) = t := by rw [← phase]
      dsimp only
      split
      · split
        · split
          · exact .goesOn sound phase rfl rfl rfl (plain_needInput _) sound.fresh (fun s => .refl s _) held
          · exact .rejected sound _
        · exact .rejected sound _
      · simp only [TargetTransport.commitChildWrite, absent]
        show LeaseAnswer t event.streamId joins (_, { t with phase := .eligible e })
        rw [back]
        exact .rejected sound _
  | awaitBootstrap | bootstrapM2 | terminal => exact .rejected sound _

/-- A new child owns the timer that was started for it. -/
theorem Sound.accept {token : Nat} {clock : Clock} (sound : Sound t) (eligible : t.phase = .eligible e)
    (nonzero : s ≠ 0) (other : e.leaseStream ≠ s) (phaseTimer : child.phaseTimer = some token)
    (frameTimer : child.frameTimer = none) (tended : Tended s t.clock (some token) none clock) :
    Sound ({ t with clock }.withChild e s child) := by
  have phase : ({ t with clock }.withChild e s child).phase = .eligible { e with children := e.children.insert s child } :=
    rfl
  have lookup (other : Nat) : ({ t with clock }.withChild e s child).registered other =
      if other = s then some child else t.registered other := by
    rw [registered_eligible phase, registered_eligible eligible]
    exact Table.lookup_insert_eq _ _ _ _
  refine ⟨tended.fresh, ?_, ?_, ?_, ?_⟩
  · intro other child' found
    rw [lookup] at found
    split at found
    · rename_i same
      cases found
      rw [same, phaseTimer, frameTimer]
      exact tended.clocked
    · rename_i differs
      exact (sound.clocked other child' found).sameFor (tended.only.sameFor differs)
  · intro other none k a timer names
    rw [lookup] at none
    split at none
    · cases none
    · rename_i differs
      exact sound.unnamed other none k a ((tended.only.sameFor differs k a names).mp timer) names
  · intro k held
    have kept := sound.slot k ((leaseSlot_eligible eligible).trans held)
    rcases tended.only.timers k with same | ⟨own, -⟩
    · show clock.timers.lookup k = _ ∨ clock.timers.lookup k = _
      rw [same]
      exact kept
    · rcases kept with kept | kept
      · cases own _ kept
      · cases own _ kept
  · intro e' other child' phase' found
    cases phase.symm.trans phase'
    have found : (e.children.insert s child).lookup other = some child' := found
    rw [Table.lookup_insert_eq] at found
    split at found
    · rename_i same
      rw [same]
      exact ⟨nonzero, ‹_›⟩
    · exact sound.streams e other child' eligible found

theorem sessionAccepted_answer (noise : Noise R H T) (entropy : R) (sound : Sound t) (event : Event)
    (joining : joins event.streamId) : LeaseAnswer t event.streamId joins (t.sessionAccepted noise entropy event) := by
  unfold TargetTransport.sessionAccepted
  split
  · exact .rejected sound _
  rename_i wellFormed
  cases phase : t.phase with
  | eligible e =>
      have steady := Steady.refl sound.fresh
      have held (k : Nat) (slot : e.leaseFrameTimer = some k) := sound.slot k ((leaseSlot_eligible phase).trans slot)
      dsimp only
      split
      · exact .rejected sound _
      · rename_i free
        push Not at free wellFormed
        have absent : e.children.lookup event.streamId = none := by simpa using free.2
        split
        · exact .rejected sound _
        · split
          · exact .rejected sound _
          · split
            · rename_i eq
              have allocated := steady.allocate
              rw [eq] at allocated
              exact .goesOn sound phase rfl rfl rfl (plain_error _) allocated.fresh allocated.same
                (fun k slot => allocated.frames k (held k slot))
            · rename_i token clock eq
              have allocated := steady.allocate
              have none : t.registered event.streamId = none := by
                rw [registered_eligible phase]
                exact absent
              have tended := (Tended.refl sound.fresh (sound.unnamed _ none).clocked).allocate
              rw [eq] at allocated tended
              rcases Clock.scheduleTimer_cases clock (.sessionPhase event.streamId) with ⟨error, failed⟩ | made
              · rw [failed]
                have moved := allocated.allocate
                exact .goesOn sound phase rfl rfl rfl (plain_error _) moved.fresh moved.same
                  (fun k slot => moved.frames k (held k slot))
              · rw [made]
                have started := tended.insertPhase (.inl rfl)
                rw [← phase]
                refine .accepted joining (Outcome.deadline_kind _ _ _)
                  (Outcome.deadline_streamId _ _ _) none (AList.lookup_insert _) rfl ?_
                  (sound.accept phase wellFormed.1 (Ne.symm free.1) rfl rfl started)
                intro other differs
                rw [registered_eligible phase]
                exact AList.lookup_insert_ne differs
  | awaitBootstrap | bootstrapM1Pending | bootstrapM2 | bootstrapAckPending | terminal => exact .rejected sound _

theorem bootstrapBytes_answer (noise : Noise R H T) (sound : Sound t) (event : Event)
    (owner : ∀ streamId bootstrap decoder frameTimer, t.phase = .bootstrapM2 streamId bootstrap decoder frameTimer →
      streamId = event.streamId) :
    LeaseAnswer t event.streamId joins (t.bootstrapBytes noise event) := by
  unfold TargetTransport.bootstrapBytes
  cases phase : t.phase with
  | bootstrapM2 streamId bootstrap decoder frameTimer =>
      obtain rfl := owner _ _ _ _ phase
      have before (s : Nat) : t.registered s = none := by
        unfold TargetTransport.registered
        rw [phase]
      have failed (clock : Clock) (error : Error) :
          LeaseAnswer t event.streamId joins (TargetTransport.answer ({ t.movedOut with clock }.coreLeaseError error)) := by
        apply coreLeaseError_answer
        intro s
        exact (before s).symm
      have held (k : Nat) (slot : frameTimer = some k) :
          t.clock.timers.lookup k = some .bootstrapFrame ∨ t.clock.timers.lookup k = some .leaseFrame := by
        apply sound.slot k
        unfold TargetTransport.leaseSlot
        rw [phase]
        exact slot
      dsimp only
      split
      · exact failed t.clock _
      · split
        · rename_i eq
          obtain ⟨fresh, same, -⟩ := (Steady.refl sound.fresh).updateFrameTimer (.inl rfl) _ held eq
          exact .childless sound before (fun _ => rfl) (plain_error _) fresh same (fun k held => by cases held)
        · rename_i frameDeadline slot clock eq
          obtain ⟨fresh, same, held⟩ := (Steady.refl sound.fresh).updateFrameTimer (.inl rfl) _ held eq
          split
          · exact .childless sound before (fun _ => rfl) ((plain_needInput _).withFrameDeadline _) fresh same held
          · split
            · exact failed clock _
            · split
              · exact failed clock _
              · have allocated := (Steady.refl fresh).allocate
                split
                · rename_i eq
                  rw [show clock.allocateToken = _ from eq] at allocated
                  exact .childless sound before (fun _ => rfl) (plain_error _) allocated.fresh
                    (fun s => (same s).trans (allocated.same s)) (fun k held => by cases held)
                · rename_i eq
                  rw [show clock.allocateToken = _ from eq] at allocated
                  exact .childless sound before (fun _ => rfl) ((plain_write _ _ _).withFrameDeadline _)
                    allocated.fresh (fun s => (same s).trans (allocated.same s))
                    (fun k slot => allocated.frames k (held k slot))
          · apply leaseTerminal_answer
            intro s
            exact (before s).symm
  | awaitBootstrap | bootstrapM1Pending | bootstrapAckPending | eligible | terminal => exact .rejected sound _

theorem leaseBytes_answer (noise : Noise R H T) (sound : Sound t) (event : Event) :
    LeaseAnswer t event.streamId joins (t.leaseBytes noise event) := by
  unfold TargetTransport.leaseBytes
  cases phase : t.phase with
  | eligible e =>
      have held (k : Nat) (slot : e.leaseFrameTimer = some k) := sound.slot k ((leaseSlot_eligible phase).trans slot)
      -- every step changes lease fields only, so the children of the lease stay those of `e`
      have failed (e' : Eligible H T) (clock : Clock) (children : e'.children = e.children) (error : Error) :
          LeaseAnswer t event.streamId joins (TargetTransport.answer (TargetTransport.coreLeaseError
            { phase := .eligible e', generation := t.generation, clock } error)) := by
        apply coreLeaseError_answer
        intro s
        rw [registered_eligible phase, ← children]
        rfl
      dsimp only
      split
      · exact .rejected sound _
      · split
        · exact failed _ _ rfl _
        · split
          · rename_i eq
            obtain ⟨fresh, same, held⟩ := (Steady.refl sound.fresh).updateFrameTimer (.inr rfl) _ held eq
            exact .goesOn sound phase rfl rfl rfl (plain_error _) fresh same held
          · rename_i frameDeadline slot clock eq
            obtain ⟨fresh, same, held⟩ := (Steady.refl sound.fresh).updateFrameTimer (.inr rfl) _ held eq
            split
            · exact .goesOn sound phase rfl rfl rfl ((plain_needInput _).withFrameDeadline _) fresh same held
            · split
              · exact failed _ _ rfl _
              · split
                · exact failed _ _ rfl _
                · have allocated := (Steady.refl fresh).allocate
                  split
                  · rename_i eq
                    rw [show clock.allocateToken = _ from eq] at allocated
                    exact .goesOn sound phase rfl rfl rfl (plain_error _) allocated.fresh
                      (fun s => (same s).trans (allocated.same s)) (fun k slot => allocated.frames k (held k slot))
                  · rename_i eq
                    rw [show clock.allocateToken = _ from eq] at allocated
                    exact .goesOn sound phase rfl rfl rfl ((plain_write _ _ _).withFrameDeadline _) allocated.fresh
                      (fun s => (same s).trans (allocated.same s)) (fun k slot => allocated.frames k (held k slot))
            · apply leaseTerminal_answer
              intro s
              rw [registered_eligible phase]
              rfl
  | awaitBootstrap | bootstrapM1Pending | bootstrapM2 | bootstrapAckPending | terminal => exact .rejected sound _

/-- Bytes that are for no child. -/
theorem streamBytes_lease (noise : Noise R H T) (sound : Sound t) (event : Event)
    (absent : t.registered event.streamId = none) : LeaseAnswer t event.streamId joins (t.streamBytes noise event) := by
  unfold TargetTransport.streamBytes
  split
  · exact .rejected sound _
  cases phase : t.phase with
  | bootstrapM2 streamId bootstrap decoder frameTimer =>
      dsimp only
      split
      · rename_i same
        apply bootstrapBytes_answer noise sound event
        intro streamId' _ _ _ phase'
        cases phase.symm.trans phase'
        exact same
      · exact .rejected sound _
  | eligible e =>
      rw [registered_eligible phase] at absent
      dsimp only
      split
      · exact leaseBytes_answer noise sound event
      · rw [absent]
        exact .rejected sound _
  | awaitBootstrap | bootstrapM1Pending | bootstrapAckPending | terminal => exact .rejected sound _

/-- The end of a stream that has no child. -/
theorem streamEnd_lease (sound : Sound t) (streamId : Nat) (absent : t.registered streamId = none)
    (reason : CloseReason) (orderly : Bool) : LeaseAnswer t own joins (t.streamEnd streamId reason orderly) := by
  -- a bootstrap phase has no children before or after
  have boot (u : TargetTransport H T) (before : ∀ s, t.registered s = none) (after : ∀ s, u.registered s = none) (s : Nat) :
      u.registered s = t.registered s := (after s).trans (before s).symm
  unfold TargetTransport.streamEnd
  cases phase : t.phase with
  | bootstrapM1Pending stream bootstrap writeToken decoder frameTimer =>
      have before (s : Nat) : t.registered s = none := by
        unfold TargetTransport.registered
        rw [phase]
      dsimp only
      split
      · split
        · apply coreLeaseError_answer
          exact boot _ before fun _ => rfl
        · apply leaseTerminal_answer
          exact fun _ => rfl
      · exact .rejected sound _
  | bootstrapM2 stream bootstrap decoder frameTimer =>
      have before (s : Nat) : t.registered s = none := by
        unfold TargetTransport.registered
        rw [phase]
      dsimp only
      split
      · split
        · apply coreLeaseError_answer
          exact boot _ before fun _ => rfl
        · apply leaseTerminal_answer
          exact fun _ => rfl
      · exact .rejected sound _
  | bootstrapAckPending stream lease pbs sessionBinding writeToken decoder frameTimer =>
      have before (s : Nat) : t.registered s = none := by
        unfold TargetTransport.registered
        rw [phase]
      dsimp only
      split
      · split
        · apply coreLeaseError_answer
          exact boot _ before fun _ => rfl
        · apply leaseTerminal_answer
          exact fun _ => rfl
      · exact .rejected sound _
  | eligible e =>
      rw [registered_eligible phase] at absent
      dsimp only
      split
      · split
        · apply coreLeaseError_answer
          intro s
          rw [registered_eligible phase]
          rfl
        · apply leaseTerminal_answer
          exact fun _ => rfl
      · rw [absent]
        exact .rejected sound _
  | awaitBootstrap | terminal => exact .rejected sound _

theorem streamClosed_lease (sound : Sound t) (event : Event) (absent : t.registered event.streamId = none) :
    LeaseAnswer t event.streamId joins (t.streamClosed event) := by
  unfold TargetTransport.streamClosed
  split
  · exact .rejected sound _
  · split
    · exact streamEnd_lease sound _ absent _ _
    · exact streamEnd_lease sound _ absent _ _
    · exact streamEnd_lease sound _ absent _ _

/-- A response for a stream that has no child. -/
theorem runtimeResponse_lease (noise : Noise R H T) (sound : Sound t) (event : Event)
    (absent : t.registered event.streamId = none) : LeaseAnswer t event.streamId joins (t.runtimeResponse noise event) := by
  unfold TargetTransport.runtimeResponse
  split
  · exact .rejected sound _
  cases phase : t.phase with
  | eligible e =>
      rw [registered_eligible phase] at absent
      simp only [absent]
      exact .rejected sound _
  | awaitBootstrap | bootstrapM1Pending | bootstrapM2 | bootstrapAckPending | terminal => exact .rejected sound _

/-- The tick of the lease, after its timer was removed. -/
theorem leaseTickFired_answer (sound : Sound t) (token : Nat) (fires : t.clock.timers.lookup token = some .leaseTick) :
    LeaseAnswer t own joins ({ t with clock := t.clock.cancel (some token) }.leaseTickFired token) := by
  have steady := (Steady.refl sound.fresh).cancel fires rfl (by decide)
  have idle : Plain own (.ok (.new .needInput)) := plain_of .needInput rfl (by decide) (.inr rfl)
  unfold TargetTransport.leaseTickFired
  cases phase : t.phase with
  | eligible e =>
      have held (k : Nat) (slot : e.leaseFrameTimer = some k) := sound.slot k ((leaseSlot_eligible phase).trans slot)
      have same (u : TargetTransport H T) (e' : Eligible H T) (phase' : u.phase = .eligible e')
          (children : e'.children = e.children) (s : Nat) : u.registered s = t.registered s := by
        rw [registered_eligible phase, registered_eligible phase', children]
      dsimp only
      split
      · exact .goesOn sound phase rfl rfl rfl idle steady.fresh steady.same
          (fun k slot => steady.frames k (held k slot))
      · split
        · apply leaseTerminal_answer
          exact same _ _ rfl rfl
        · split
          · apply leaseTerminal_answer
            exact same _ _ rfl rfl
          · have scheduled := steady.schedule .leaseTick rfl
            split
            · rename_i eq
              rw [eq] at scheduled
              exact .goesOn sound phase rfl rfl rfl (plain_error _) scheduled.fresh scheduled.same
                (fun k slot => scheduled.frames k (held k slot))
            · rename_i eq
              rw [eq] at scheduled
              exact .goesOn sound phase rfl rfl rfl (idle.deadline _ _) scheduled.fresh scheduled.same
                (fun k slot => scheduled.frames k (held k slot))
  | awaitBootstrap | bootstrapM1Pending | bootstrapM2 | bootstrapAckPending | terminal =>
      have before (s : Nat) : t.registered s = none := by
        unfold TargetTransport.registered
        rw [phase]
      refine .childless sound before (fun _ => rfl) idle steady.fresh steady.same fun k slot => ?_
      apply steady.frames k
      apply sound.slot k
      unfold TargetTransport.leaseSlot
      rw [phase]
      exact slot

/-- A timer that names no stream. -/
theorem timerFired_lease (sound : Sound t) (event : Event)
    (unnamed : ∀ action s, t.clock.timers.lookup event.writeToken = some action → action.stream ≠ some s) :
    LeaseAnswer t event.streamId joins (t.timerFired event) := by
  unfold TargetTransport.timerFired
  split
  · exact .rejected sound _
  cases fires : t.clock.timers.lookup event.writeToken with
  | none => exact .kept (plain_of .needInput rfl (by decide) (.inr rfl)) (fun _ => rfl) sound
  | some action =>
      cases action with
      | bootstrap | bootstrapFrame | leaseFrame =>
          apply leaseTerminal_answer
          exact fun _ => rfl
      | leaseTick => exact leaseTickFired_answer sound event.writeToken fires
      | sessionPhase s | sessionIdle s | sessionFrame s => exact absurd rfl (unnamed _ s fires)

theorem eligibilityLost_answer : LeaseAnswer t own joins (TargetTransport.answer t.eligibilityLost) := by
  unfold TargetTransport.eligibilityLost
  split
  · rename_i e phase
    split
    · apply leaseTerminal_answer
      exact fun _ => rfl
    · split
      · apply leaseTerminal_answer
        exact fun _ => rfl
      · apply leaseTerminal_answer
        intro s
        rw [registered_eligible phase]
        rfl
  · apply leaseTerminal_answer
    exact fun _ => rfl

theorem leaseEvent_answer (sound : Sound t) {r : Outcome × TargetTransport H T}
    (answer : LeaseAnswer t own joins (TargetTransport.answer r)) : LeaseAnswer t own joins (TargetTransport.leaseEvent event r t) := by
  unfold TargetTransport.leaseEvent
  split
  · exact .rejected sound _
  · exact answer

end

/-! ## One event -/

/-- Every event works on one registered child or concerns the lease. -/
theorem drive_cases (noise : Noise R H T) (entropy : R) {t : TargetTransport H T} (sound : Sound t) (event : Event) :
    (∃ s e child, t.phase = .eligible e ∧ e.children.lookup s = some child ∧ Addressed s t event ∧
      ChildAnswer s t e child (CommitsClose t event) (t.drive noise entropy event)) ∨
    LeaseAnswer t event.streamId (Joins event) (t.drive noise entropy event) := by
  by_cases child : ∃ s child, t.registered s = some child ∧ Addressed s t event
  · obtain ⟨s, child, found, addressed⟩ := child
    obtain ⟨e, eligible, there⟩ := registered_some found
    exact .inl ⟨s, e, child, eligible, there, addressed, drive_child noise entropy sound eligible there addressed⟩
  · right
    have stream (tag : event.tag ∈ [.streamBytes, .fullWriteCommitted, .runtimeResponse, .streamEof, .streamIoFailed,
        .streamCloseNormal]) : t.registered event.streamId = none := by
      cases found : t.registered event.streamId with
      | none => rfl
      | some there => exact absurd ⟨_, there, found, .inl ⟨rfl, tag⟩⟩ child
    have timer (tag : event.tag = .timerFired) (action : TimerAction) (s : Nat)
        (fires : t.clock.timers.lookup event.writeToken = some action) : action.stream ≠ some s := by
      intro names
      cases found : t.registered s with
      | none => exact sound.unnamed s found _ _ fires names
      | some there => exact child ⟨s, there, found, .inr ⟨tag, action, fires, names⟩⟩
    unfold TargetTransport.drive
    split
    · rename_i terminal phase
      have none (s : Nat) : t.registered s = none := by
        unfold TargetTransport.registered
        rw [phase]
      refine .finished rfl (fun s there found => ?_) none sound
      rw [none] at found
      cases found
    · split
      · exact .rejected sound _
      · cases tag : event.tag with
        | eligibilityLost => exact leaseEvent_answer sound eligibilityLost_answer
        | cleanupFailed => exact leaseEvent_answer sound (leaseTerminal_answer (fun _ => rfl) _ _)
        | internalError => exact leaseEvent_answer sound (leaseTerminal_answer (fun _ => rfl) _ _)
        | timerFired => exact timerFired_lease sound event (timer tag)
        | bootstrapConnected => exact bootstrapConnected_answer noise entropy sound event
        | fullWriteCommitted => exact fullWriteCommitted_lease sound event (stream (by simp [tag]))
        | sessionAccepted => exact sessionAccepted_answer noise entropy sound event ⟨tag, rfl⟩
        | runtimeResponse => exact runtimeResponse_lease noise sound event (stream (by simp [tag]))
        | streamBytes => exact streamBytes_lease noise sound event (stream (by simp [tag]))
        | streamEof | streamIoFailed | streamCloseNormal =>
            exact streamClosed_lease sound event (stream (by simp [tag]))

theorem LeaseAnswer.sound {t : TargetTransport H T} {own : Nat} {joins : Nat → Prop}
    {r : Answer H T} (answer : LeaseAnswer t own joins r) : Sound r.2 := by
  cases answer with
  | kept _ _ sound => exact sound
  | accepted _ _ _ _ _ _ _ sound => exact sound
  | finished _ _ _ sound => exact sound

/-- Every event keeps the registry sound. -/
theorem drive_sound (noise : Noise R H T) (entropy : R) {t : TargetTransport H T} (sound : Sound t) (event : Event) :
    Sound (t.drive noise entropy event).2 := by
  rcases drive_cases noise entropy sound event with ⟨s, e, child, eligible, found, -, answer⟩ | answer
  · exact answer.sound sound eligible found
  · exact answer.sound

theorem create_phase {descriptor : Bytes} {draws : List Nat} {t : TargetTransport H T} {ready : Outcome}
    (made : TargetTransport.create descriptor draws = .ok (t, ready)) :
    ∃ binding key, t.phase = .awaitBootstrap binding key ∧ t.clock.timers = ∅ := by
  unfold TargetTransport.create at made
  cases parsed : parseDescriptor descriptor with
  | error error =>
      rw [parsed] at made
      cases made
  | ok descriptor =>
      rw [parsed] at made
      cases drawn : TargetTransport.generateProcessGeneration draws with
      | none =>
          simp only [bind, Except.bind, pure, Except.pure, drawn] at made
          cases made
      | some generation =>
          simp only [bind, Except.bind, pure, Except.pure, drawn] at made
          cases made
          exact ⟨_, _, rfl, rfl⟩

/-- A new supervisor has no children. -/
theorem create_childless {descriptor : Bytes} {draws : List Nat} {t : TargetTransport H T} {ready : Outcome}
    (made : TargetTransport.create descriptor draws = .ok (t, ready)) (s : Nat) : t.registered s = none := by
  obtain ⟨binding, key, phase, -⟩ := create_phase made
  unfold TargetTransport.registered
  rw [phase]

theorem create_sound {descriptor : Bytes} {draws : List Nat} {t : TargetTransport H T} {ready : Outcome}
    (made : TargetTransport.create descriptor draws = .ok (t, ready)) : Sound t := by
  obtain ⟨binding, key, phase, timers⟩ := create_phase made
  have none := create_childless made
  refine ⟨?_, ?_, ?_, ?_, ?_⟩
  · intro k a found
    rw [timers] at found
    cases found
  · intro s child found
    rw [none] at found
    cases found
  · intro s _ k a found
    rw [timers] at found
    cases found
  · intro k held
    unfold TargetTransport.leaseSlot at held
    rw [phase] at held
    cases held
  · intro e s child eligible
    rw [phase] at eligible
    cases eligible

end AppPilotKit.Target
