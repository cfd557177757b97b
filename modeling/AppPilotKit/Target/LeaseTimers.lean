import AppPilotKit.Target.Ageing

/-! # The timers of the lease

Three timers do not name a child: the bootstrap deadline, the frame timer of the lease
stream and the lease tick. As long as no token is refused, each of them is in `timers`
exactly while its slot holds it, and the end of the lease leaves no timer behind.
-/

namespace AppPilotKit.Target

open Wire Transport

variable {R H T : Type}

/-- The timers without a stream are those of the three slots. -/
structure LeaseClocked (deadline frame tick : Option Nat) (c : Clock) : Prop where
  deadline : ∀ k, deadline = some k ↔ c.timers.lookup k = some .bootstrap
  frame : ∀ k, frame = some k ↔ c.timers.lookup k = some .bootstrapFrame ∨ c.timers.lookup k = some .leaseFrame
  tick : ∀ k, tick = some k ↔ c.timers.lookup k = some .leaseTick

/-- The timers without a stream are the same in both clocks. -/
def SameLease (c c' : Clock) : Prop :=
  ∀ k a, a.stream = none → (c'.timers.lookup k = some a ↔ c.timers.lookup k = some a)

theorem Only.sameLease {s : Nat} {c c' : Clock} (h : Only s c c') : SameLease c c' := by
  intro k a none
  rcases h.timers k with same | ⟨before, after⟩
  · rw [same]
  · constructor
    · intro found
      have := (after a found).symm.trans none
      cases this
    · intro found
      have := (before a found).symm.trans none
      cases this

theorem SameLease.allocate {c c' : Clock} {result : Except SupervisorError Nat}
    (eq : c.allocateToken = (result, c')) : SameLease c c' := by
  intro k a _
  have timers := (Clock.allocateToken_timers c).1
  rw [eq] at timers
  rw [timers]

namespace LeaseClocked

variable {deadline frame tick : Option Nat} {c c' : Clock}

theorem same (h : LeaseClocked deadline frame tick c) (same : SameLease c c') : LeaseClocked deadline frame tick c' := by
  refine ⟨fun k => ?_, fun k => ?_, fun k => ?_⟩
  · rw [same k _ rfl]
    exact h.deadline k
  · rw [same k _ rfl, same k _ rfl]
    exact h.frame k
  · rw [same k _ rfl]
    exact h.tick k

theorem empty (none : ∀ k, c.timers.lookup k = none) : LeaseClocked .none .none .none c := by
  refine ⟨fun k => ?_, fun k => ?_, fun k => ?_⟩
  all_goals simp [none k]

/-- `cancel_action` of the bootstrap deadline. -/
theorem retain (h : LeaseClocked deadline frame tick c) :
    LeaseClocked none frame tick { c with timers := c.timers.retain (· ≠ TimerAction.bootstrap) } := by
  refine ⟨fun k => ?_, fun k => ?_, fun k => ?_⟩
  · simp [Table.lookup_retain]
  · simp only [Table.lookup_retain]
    simpa using h.frame k
  · simp only [Table.lookup_retain]
    simpa using h.tick k

theorem cancelFrame (h : LeaseClocked deadline frame tick c) : LeaseClocked deadline none tick (c.cancel frame) := by
  refine ⟨fun k => ?_, fun k => ?_, fun k => ?_⟩
  · rw [Clock.lookup_cancel, h.deadline k]
    split
    · rename_i held
      rcases (h.frame k).mp held with found | found
      all_goals simp [found]
    · exact Iff.rfl
  · rw [Clock.lookup_cancel]
    split
    · simp
    · rename_i free
      rw [← h.frame k]
      simpa using free
  · rw [Clock.lookup_cancel, h.tick k]
    split
    · rename_i held
      rcases (h.frame k).mp held with found | found
      all_goals simp [found]
    · exact Iff.rfl

/-- The tick fires. -/
theorem cancelTick (h : LeaseClocked deadline frame tick c) : LeaseClocked deadline frame none (c.cancel tick) := by
  refine ⟨fun k => ?_, fun k => ?_, fun k => ?_⟩
  · rw [Clock.lookup_cancel, h.deadline k]
    split
    · rename_i held
      simp [(h.tick k).mp held]
    · exact Iff.rfl
  · rw [Clock.lookup_cancel, h.frame k]
    split
    · rename_i held
      simp [(h.tick k).mp held]
    · exact Iff.rfl
  · rw [Clock.lookup_cancel]
    split
    · simp
    · rename_i free
      rw [← h.tick k]
      simpa using free

section
variable {token : Nat} {action : TimerAction}

/-- Under a new token only the new timer is found. -/
theorem insert_lookup (eq : c.scheduleTimer action = (.ok token, c')) (k : Nat) (a : TimerAction) :
    c'.timers.lookup k = some a ↔ k = token ∧ a = action ∨ k ≠ token ∧ c.timers.lookup k = some a := by
  rcases Clock.scheduleTimer_cases c action with ⟨error, failed⟩ | made
  · rw [failed] at eq
    cases eq
  · rw [made] at eq
    cases eq
    rw [Table.lookup_insert_eq]
    split
    · rename_i same
      subst same
      simp [eq_comm]
    · rename_i differs
      simp [differs]

theorem not_held (fresh : c.Fresh) (eq : c.scheduleTimer action = (.ok token, c')) :
    c.timers.lookup token = none := by
  rcases Clock.scheduleTimer_cases c action with ⟨error, failed⟩ | made
  · rw [failed] at eq
    cases eq
  · rw [made] at eq
    cases eq
    exact fresh.lookup_next

theorem scheduleDeadline (h : LeaseClocked none frame tick c) (fresh : c.Fresh)
    (eq : c.scheduleTimer .bootstrap = (.ok token, c')) : LeaseClocked (some token) frame tick c' := by
  have unheld := not_held fresh eq
  refine ⟨fun k => ?_, fun k => ?_, fun k => ?_⟩
  · rw [insert_lookup eq, ← h.deadline k]
    simp [eq_comm]
  · rw [insert_lookup eq, insert_lookup eq, h.frame k]
    by_cases same : k = token
    · subst same
      simp [unheld]
    · simp [same]
  · rw [insert_lookup eq, h.tick k]
    by_cases same : k = token
    · subst same
      simp [unheld]
    · simp [same]

theorem scheduleTick (h : LeaseClocked deadline frame none c) (fresh : c.Fresh)
    (eq : c.scheduleTimer .leaseTick = (.ok token, c')) : LeaseClocked deadline frame (some token) c' := by
  have unheld := not_held fresh eq
  refine ⟨fun k => ?_, fun k => ?_, fun k => ?_⟩
  · rw [insert_lookup eq, h.deadline k]
    by_cases same : k = token
    · subst same
      simp [unheld]
    · simp [same]
  · rw [insert_lookup eq, insert_lookup eq, h.frame k]
    by_cases same : k = token
    · subst same
      simp [unheld]
    · simp [same]
  · rw [insert_lookup eq, ← h.tick k]
    simp [eq_comm]

theorem scheduleFrame (h : LeaseClocked deadline none tick c) (fresh : c.Fresh)
    (own : action = .bootstrapFrame ∨ action = .leaseFrame) (eq : c.scheduleTimer action = (.ok token, c')) :
    LeaseClocked deadline (some token) tick c' := by
  have unheld := not_held fresh eq
  refine ⟨fun k => ?_, fun k => ?_, fun k => ?_⟩
  · rw [insert_lookup eq, h.deadline k]
    by_cases same : k = token
    · subst same
      rcases own with rfl | rfl
      all_goals simp [unheld]
    · simp [same]
  · rw [insert_lookup eq, insert_lookup eq]
    have before := h.frame k
    by_cases same : k = token
    · subst same
      rcases own with rfl | rfl
      all_goals simp
    · simp only [same, false_and, ne_eq, not_false_eq_true, true_and, false_or, ← before]
      simp [Ne.symm same]
  · rw [insert_lookup eq, h.tick k]
    by_cases same : k = token
    · subst same
      rcases own with rfl | rfl
      all_goals simp [unheld]
    · simp [same]

end

end LeaseClocked

/-- A timer that names a stream is none of the lease. -/
theorem SameLease.schedule {c c' : Clock} {s token : Nat} {action : TimerAction} (fresh : c.Fresh)
    (own : action.stream = some s) (eq : c.scheduleTimer action = (.ok token, c')) : SameLease c c' := by
  intro k a none
  have unheld := LeaseClocked.not_held fresh eq
  rw [LeaseClocked.insert_lookup eq]
  constructor
  · rintro (⟨rfl, rfl⟩ | ⟨-, found⟩)
    · rw [own] at none
      cases none
    · exact found
  · intro found
    refine .inr ⟨?_, found⟩
    rintro rfl
    rw [unheld] at found
    cases found

/-! ## Tokens that are refused -/

/-- The event was rejected because the token counter is spent. -/
def Refused (r : Except SupervisorError Outcome) (t : TargetTransport H T) : Prop :=
  r = .error .internal ∧ 2 ^ 64 ≤ t.clock.nextToken + 1

section
variable {c c' : Clock} {error : SupervisorError}

theorem allocateToken_spent (positive : 0 < c.nextToken) (eq : c.allocateToken = (.error error, c')) :
    error = .internal ∧ 2 ^ 64 ≤ c'.nextToken + 1 := by
  refine ⟨Clock.allocateToken_error eq, ?_⟩
  unfold Clock.allocateToken at eq
  split at eq
  · rw [if_neg positive.ne'] at eq
    cases eq
  · rename_i spent
    cases eq
    exact not_lt.mp spent

theorem scheduleTimer_spent {action : TimerAction} (positive : 0 < c.nextToken)
    (eq : c.scheduleTimer action = (.error error, c')) : error = .internal ∧ 2 ^ 64 ≤ c'.nextToken + 1 := by
  unfold Clock.scheduleTimer at eq
  split at eq
  · rename_i failed
    cases eq
    exact allocateToken_spent positive failed
  · cases eq

theorem updateFrameTimer_spent {incomplete : Bool} {slot slot' : Option Nat} {action : TimerAction}
    (positive : 0 < c.nextToken) (eq : c.updateFrameTimer incomplete slot action = (.error error, slot', c')) :
    error = .internal ∧ 2 ^ 64 ≤ c'.nextToken + 1 := by
  unfold Clock.updateFrameTimer at eq
  split at eq
  · split at eq
    · split at eq
      · rename_i failed
        cases eq
        exact scheduleTimer_spent positive failed
      · cases eq
    · cases eq
  · cases eq

theorem LeaseClocked.updateFrameTimer {deadline slot slot' tick started : Option Nat} {incomplete : Bool}
    {action : TimerAction} (h : LeaseClocked deadline slot tick c) (fresh : c.Fresh)
    (own : action = .bootstrapFrame ∨ action = .leaseFrame)
    (eq : c.updateFrameTimer incomplete slot action = (.ok started, slot', c')) :
    LeaseClocked deadline slot' tick c' := by
  unfold Clock.updateFrameTimer at eq
  split at eq
  · split at eq
    · rename_i free
      split at eq
      · cases eq
      · rename_i made
        cases eq
        rw [Option.isNone_iff_eq_none.mp free] at h
        exact h.scheduleFrame fresh own made
    · cases eq
      exact h
  · cases eq
    exact h.cancelFrame

end

/-! ## The handlers -/

/-- The timers of the lease in each phase. -/
def TargetTransport.Timed (t : TargetTransport H T) : Prop :=
  match t.phase with
  | .awaitBootstrap _ _ => LeaseClocked none none none t.clock
  | .bootstrapM1Pending _ _ _ _ frameTimer => ∃ deadline, LeaseClocked (some deadline) frameTimer none t.clock
  | .bootstrapM2 _ _ _ frameTimer => ∃ deadline, LeaseClocked (some deadline) frameTimer none t.clock
  | .bootstrapAckPending _ _ _ _ _ _ frameTimer => ∃ deadline, LeaseClocked (some deadline) frameTimer none t.clock
  | .eligible e => LeaseClocked none e.leaseFrameTimer e.leaseTickTimer t.clock
  | .terminal _ => ∀ k, t.clock.timers.lookup k = none

/-- The answer leaves the timers of the lease in order, or a token was refused. -/
def Keeps (r : Answer H T) : Prop := r.2.Timed ∨ Refused r.1 r.2

section
variable {t : TargetTransport H T} {event : Event}

theorem TargetTransport.Timed.eligible {e : Eligible H T} (timed : t.Timed) (phase : t.phase = .eligible e) :
    LeaseClocked none e.leaseFrameTimer e.leaseTickTimer t.clock := by
  unfold TargetTransport.Timed at timed
  rw [phase] at timed
  exact timed

theorem leaseTerminal_keeps (t : TargetTransport H T) (reason : CloseReason)
    (peer : Option (CloseReason × HandoffState)) : Keeps (TargetTransport.answer (t.leaseTerminal reason peer)) :=
  .inl fun _ => rfl

theorem coreLeaseError_keeps (t : TargetTransport H T) (error : Error) :
    Keeps (TargetTransport.answer (t.coreLeaseError error)) := leaseTerminal_keeps t _ _

theorem bootstrapConnected_keeps (noise : Noise R H T) (entropy : R) (timed : t.Timed) (fresh : t.clock.Fresh)
    (positive : 0 < t.clock.nextToken) (event : Event) : Keeps (t.bootstrapConnected noise entropy event) := by
  unfold TargetTransport.bootstrapConnected
  split
  · exact .inl timed
  · split
    · rename_i phase
      unfold TargetTransport.Timed at timed
      rw [phase] at timed
      dsimp only
      split
      · exact coreLeaseError_keeps _ _
      · split
        · exact coreLeaseError_keeps _ _
        · split
          · rename_i eq
            obtain ⟨rfl, spent⟩ := allocateToken_spent positive eq
            exact .inr ⟨rfl, spent⟩
          · rename_i eq
            have allocated := timed.same (.allocate eq)
            obtain ⟨-, rfl⟩ := Clock.allocateToken_ok eq
            have fresh := fresh.allocate
            rw [show t.clock.allocateToken = _ from eq] at fresh
            split
            · rename_i eq
              obtain ⟨rfl, spent⟩ := scheduleTimer_spent (Nat.succ_pos _) eq
              exact .inr ⟨rfl, spent⟩
            · rename_i eq
              exact .inl ⟨_, allocated.scheduleDeadline fresh eq⟩
    · exact .inl timed

theorem fullWriteCommitted_keeps (timed : t.Timed) (fresh : t.clock.Fresh) (positive : 0 < t.clock.nextToken)
    (event : Event) (absent : t.registered event.streamId = none) : Keeps (t.fullWriteCommitted event) := by
  have before := timed
  unfold TargetTransport.Timed at before
  unfold TargetTransport.fullWriteCommitted
  split
  · exact .inl timed
  · split
    · rename_i phase
      rw [phase] at before
      split
      · exact .inl before
      · exact .inl timed
    · rename_i phase
      rw [phase] at before
      obtain ⟨deadline, clocked⟩ := before
      split
      · have retained : Clock.Fresh { t.clock with timers := t.clock.timers.retain (· ≠ TimerAction.bootstrap) } :=
          fun k a found => fresh k a (Table.lookup_retain.mp found).1
        dsimp only
        split
        · rename_i eq
          obtain ⟨rfl, spent⟩ := scheduleTimer_spent (by exact positive) eq
          exact .inr ⟨rfl, spent⟩
        · rename_i eq
          exact .inl (clocked.retain.scheduleTick retained eq)
      · exact .inl timed
    · rename_i e phase
      rw [phase] at before
      rw [registered_eligible phase] at absent
      split
      · split
        · split
          · exact .inl before
          · exact .inl timed
        · exact .inl timed
      · simp only [TargetTransport.commitChildWrite, absent]
        exact .inl before
    · exact .inl timed

/-- A new child leaves the timers of the lease alone. -/
theorem sessionAccepted_keeps (noise : Noise R H T) (entropy : R) (timed : t.Timed) (fresh : t.clock.Fresh)
    (positive : 0 < t.clock.nextToken) (event : Event) : Keeps (t.sessionAccepted noise entropy event) := by
  unfold TargetTransport.sessionAccepted
  split
  · exact .inl timed
  · split
    · rename_i e phase
      have clocked := timed.eligible phase
      split
      · exact .inl timed
      · split
        · exact .inl timed
        · split
          · exact .inl timed
          · split
            · rename_i eq
              obtain ⟨rfl, spent⟩ := allocateToken_spent positive eq
              exact .inr ⟨rfl, spent⟩
            · rename_i clock eq
              have allocated := clocked.same (.allocate eq)
              obtain ⟨-, rfl⟩ := Clock.allocateToken_ok eq
              have fresh := fresh.allocate
              rw [eq] at fresh
              split
              · rename_i eq
                obtain ⟨rfl, spent⟩ := scheduleTimer_spent (Nat.succ_pos _) eq
                exact .inr ⟨rfl, spent⟩
              · rename_i eq
                exact .inl (allocated.same (.schedule fresh rfl eq))
    · exact .inl timed

theorem bootstrapBytes_keeps (noise : Noise R H T) (timed : t.Timed) (fresh : t.clock.Fresh)
    (positive : 0 < t.clock.nextToken) (event : Event) : Keeps (t.bootstrapBytes noise event) := by
  unfold TargetTransport.bootstrapBytes
  split
  · rename_i phase
    unfold TargetTransport.Timed at timed
    rw [phase] at timed
    obtain ⟨deadline, clocked⟩ := timed
    dsimp only
    split
    · exact coreLeaseError_keeps _ _
    · split
      · rename_i eq
        obtain ⟨rfl, spent⟩ := updateFrameTimer_spent positive eq
        exact .inr ⟨rfl, spent⟩
      · rename_i clock eq
        have updated := clocked.updateFrameTimer fresh (.inl rfl) eq
        have positive : 0 < clock.nextToken := positive.trans_le (Ages.updateFrameTimer eq).tokens
        split
        · exact .inl ⟨deadline, updated⟩
        · split
          · exact coreLeaseError_keeps _ _
          · split
            · exact coreLeaseError_keeps _ _
            · split
              · rename_i eq
                obtain ⟨rfl, spent⟩ := allocateToken_spent positive eq
                exact .inr ⟨rfl, spent⟩
              · rename_i eq
                exact .inl ⟨deadline, updated.same (.allocate eq)⟩
        · exact leaseTerminal_keeps _ _ _
  · exact .inl timed

theorem leaseBytes_keeps (noise : Noise R H T) (timed : t.Timed) (fresh : t.clock.Fresh)
    (positive : 0 < t.clock.nextToken) (event : Event) : Keeps (t.leaseBytes noise event) := by
  unfold TargetTransport.leaseBytes
  split
  · rename_i e phase
    have clocked := timed.eligible phase
    split
    · exact .inl timed
    · split
      · exact coreLeaseError_keeps _ _
      · split
        · rename_i eq
          obtain ⟨rfl, spent⟩ := updateFrameTimer_spent positive eq
          exact .inr ⟨rfl, spent⟩
        · rename_i clock eq
          have updated := clocked.updateFrameTimer fresh (.inr rfl) eq
          have positive : 0 < clock.nextToken := positive.trans_le (Ages.updateFrameTimer eq).tokens
          dsimp only
          split
          · exact .inl updated
          · split
            · exact coreLeaseError_keeps _ _
            · split
              · exact coreLeaseError_keeps _ _
              · split
                · rename_i eq
                  obtain ⟨rfl, spent⟩ := allocateToken_spent positive eq
                  exact .inr ⟨rfl, spent⟩
                · rename_i eq
                  exact .inl (updated.same (.allocate eq))
          · exact leaseTerminal_keeps _ _ _
  · exact .inl timed

theorem streamBytes_keeps (noise : Noise R H T) (timed : t.Timed) (fresh : t.clock.Fresh)
    (positive : 0 < t.clock.nextToken) (event : Event) (absent : t.registered event.streamId = none) :
    Keeps (t.streamBytes noise event) := by
  unfold TargetTransport.streamBytes
  split
  · exact .inl timed
  · split
    · split
      · exact bootstrapBytes_keeps noise timed fresh positive event
      · exact .inl timed
    · rename_i e phase
      rw [registered_eligible phase] at absent
      split
      · exact leaseBytes_keeps noise timed fresh positive event
      · rw [absent]
        exact .inl timed
    · exact .inl timed

theorem streamEnd_keeps (timed : t.Timed) (s : Nat) (absent : t.registered s = none) (reason : CloseReason)
    (orderly : Bool) : Keeps (t.streamEnd s reason orderly) := by
  unfold TargetTransport.streamEnd
  split
  · split
    · split
      · exact coreLeaseError_keeps _ _
      · exact leaseTerminal_keeps _ _ _
    · exact .inl timed
  · split
    · split
      · exact coreLeaseError_keeps _ _
      · exact leaseTerminal_keeps _ _ _
    · exact .inl timed
  · split
    · split
      · exact coreLeaseError_keeps _ _
      · exact leaseTerminal_keeps _ _ _
    · exact .inl timed
  · rename_i e phase
    rw [registered_eligible phase] at absent
    split
    · split
      · exact coreLeaseError_keeps _ _
      · exact leaseTerminal_keeps _ _ _
    · rw [absent]
      exact .inl timed
  · exact .inl timed

theorem streamClosed_keeps (timed : t.Timed) (event : Event) (absent : t.registered event.streamId = none) :
    Keeps (t.streamClosed event) := by
  unfold TargetTransport.streamClosed
  split
  · exact .inl timed
  · split
    all_goals exact streamEnd_keeps timed _ absent _ _

theorem runtimeResponse_keeps (noise : Noise R H T) (timed : t.Timed) (event : Event)
    (absent : t.registered event.streamId = none) : Keeps (t.runtimeResponse noise event) := by
  unfold TargetTransport.runtimeResponse
  split
  · exact .inl timed
  · split
    · rename_i phase
      rw [registered_eligible phase] at absent
      rw [absent]
      exact .inl timed
    · exact .inl timed

theorem leaseTickFired_keeps (timed : t.Timed) (fresh : t.clock.Fresh) (positive : 0 < t.clock.nextToken) (token : Nat)
    (fires : t.clock.timers.lookup token = some .leaseTick) :
    Keeps ({ t with clock := t.clock.cancel (some token) }.leaseTickFired token) := by
  cases phase : t.phase with
  | eligible e =>
      have clocked := timed.eligible phase
      have held := (clocked.tick token).mpr fires
      unfold TargetTransport.leaseTickFired
      simp only [phase, held, ne_eq, not_true_eq_false, if_false]
      split
      · exact leaseTerminal_keeps _ _ _
      · split
        · exact leaseTerminal_keeps _ _ _
        · have fired := clocked.cancelTick
          rw [held] at fired
          split
          · rename_i eq
            obtain ⟨rfl, spent⟩ := scheduleTimer_spent (by rw [Clock.cancel_nextToken]; exact positive) eq
            exact .inr ⟨rfl, spent⟩
          · rename_i eq
            exact .inl (fired.scheduleTick (fresh.cancel _) eq)
  | awaitBootstrap binding key =>
      unfold TargetTransport.Timed at timed
      rw [phase] at timed
      cases (timed.tick token).mpr fires
  | bootstrapM1Pending streamId bootstrap writeToken decoder frameTimer =>
      unfold TargetTransport.Timed at timed
      rw [phase] at timed
      obtain ⟨deadline, clocked⟩ := timed
      cases (clocked.tick token).mpr fires
  | bootstrapM2 streamId bootstrap decoder frameTimer =>
      unfold TargetTransport.Timed at timed
      rw [phase] at timed
      obtain ⟨deadline, clocked⟩ := timed
      cases (clocked.tick token).mpr fires
  | bootstrapAckPending streamId lease pbs sessionBinding writeToken decoder frameTimer =>
      unfold TargetTransport.Timed at timed
      rw [phase] at timed
      obtain ⟨deadline, clocked⟩ := timed
      cases (clocked.tick token).mpr fires
  | terminal terminal =>
      unfold TargetTransport.Timed at timed
      rw [phase] at timed
      rw [timed token] at fires
      cases fires

theorem timerFired_keeps (timed : t.Timed) (fresh : t.clock.Fresh) (positive : 0 < t.clock.nextToken) (event : Event)
    (unnamed : ∀ action s, t.clock.timers.lookup event.writeToken = some action → action.stream ≠ some s) :
    Keeps (t.timerFired event) := by
  unfold TargetTransport.timerFired
  split
  · exact .inl timed
  · cases fires : t.clock.timers.lookup event.writeToken with
    | none => exact .inl timed
    | some action =>
        cases action with
        | bootstrap | bootstrapFrame | leaseFrame => exact leaseTerminal_keeps _ _ _
        | leaseTick => exact leaseTickFired_keeps timed fresh positive event.writeToken fires
        | sessionPhase s | sessionIdle s | sessionFrame s => exact absurd rfl (unnamed _ s fires)

theorem eligibilityLost_keeps (t : TargetTransport H T) : Keeps (TargetTransport.answer t.eligibilityLost) := by
  unfold TargetTransport.eligibilityLost
  split
  · split
    · exact leaseTerminal_keeps _ _ _
    · split
      · exact leaseTerminal_keeps _ _ _
      · exact leaseTerminal_keeps _ _ _
  · exact leaseTerminal_keeps _ _ _

theorem leaseEvent_keeps {r : Outcome × TargetTransport H T} (timed : t.Timed) (kept : Keeps (TargetTransport.answer r)) :
    Keeps (TargetTransport.leaseEvent event r t) := by
  unfold TargetTransport.leaseEvent
  split
  · exact .inl timed
  · exact kept

/-- What a child does leaves the timers of the lease alone. -/
theorem ChildAnswer.timed {s : Nat} {e : Eligible H T} {child : Child H T} {slip : Prop} {r : Answer H T}
    (answer : ChildAnswer s t e child slip r) (phase : t.phase = .eligible e) (timed : t.Timed) : r.2.Timed := by
  obtain ⟨children, eligible, -, fate⟩ := answer.phase
  unfold TargetTransport.Timed
  rw [eligible]
  exact (timed.eligible phase).same fate.only.sameLease

/-- Every event keeps the timers of the lease in order, unless it is refused a token. -/
theorem drive_keeps (noise : Noise R H T) (entropy : R) (sound : Sound t) (timed : t.Timed)
    (positive : 0 < t.clock.nextToken) (event : Event) : Keeps (t.drive noise entropy event) := by
  by_cases child : ∃ s child, t.registered s = some child ∧ Addressed s t event
  · obtain ⟨s, child, found, addressed⟩ := child
    obtain ⟨e, eligible, there⟩ := registered_some found
    exact .inl ((drive_child noise entropy sound eligible there addressed).timed eligible timed)
  · have stream (tag : event.tag ∈ [.streamBytes, .fullWriteCommitted, .runtimeResponse, .streamEof, .streamIoFailed,
        .streamCloseNormal]) : t.registered event.streamId = none := by
      cases found : t.registered event.streamId with
      | none => rfl
      | some there => exact absurd ⟨_, there, found, .inl ⟨rfl, tag⟩⟩ child
    have timer (tag : event.tag = .timerFired) (action : TimerAction) (s : Nat)
        (fires : t.clock.timers.lookup event.writeToken = some action) : action.stream ≠ some s := by
      intro names
      cases found : t.registered s with
      | none => exact sound.unnamed s found _ _ fires names
      | some there => exact child ⟨s, there, found, .inr ⟨tag, action, fires, names⟩⟩
    unfold TargetTransport.drive
    split
    · exact .inl timed
    · split
      · exact .inl timed
      · cases tag : event.tag with
        | eligibilityLost => exact leaseEvent_keeps timed (eligibilityLost_keeps t)
        | cleanupFailed => exact leaseEvent_keeps timed (leaseTerminal_keeps _ _ _)
        | internalError => exact leaseEvent_keeps timed (leaseTerminal_keeps _ _ _)
        | timerFired => exact timerFired_keeps timed sound.fresh positive event (timer tag)
        | bootstrapConnected => exact bootstrapConnected_keeps noise entropy timed sound.fresh positive event
        | fullWriteCommitted =>
            exact fullWriteCommitted_keeps timed sound.fresh positive event (stream (by simp [tag]))
        | sessionAccepted => exact sessionAccepted_keeps noise entropy timed sound.fresh positive event
        | runtimeResponse => exact runtimeResponse_keeps noise timed event (stream (by simp [tag]))
        | streamBytes => exact streamBytes_keeps noise timed sound.fresh positive event (stream (by simp [tag]))
        | streamEof | streamIoFailed | streamCloseNormal =>
            exact streamClosed_keeps timed event (stream (by simp [tag]))

end

end AppPilotKit.Target
