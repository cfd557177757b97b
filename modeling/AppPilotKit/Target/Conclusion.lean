import AppPilotKit.Target.Deadlines

/-! # The stream of the lease and its end

The lease lives on one stream from its bootstrap to its end, and an outcome that reports
the end of the lease leaves a terminal state behind.
-/

namespace AppPilotKit.Target

open Wire Transport

variable {R H T : Type}

/-- The lease has ended. -/
def Ended (t : TargetTransport H T) : Prop := ∃ terminal, t.phase = .terminal terminal

/-- The stream of the bootstrap, and later of the lease. -/
def leaseStreamOf (t : TargetTransport H T) : Option Nat :=
  match t.phase with
  | .bootstrapM1Pending streamId _ _ _ _ => some streamId
  | .bootstrapM2 streamId _ _ _ => some streamId
  | .bootstrapAckPending streamId _ _ _ _ _ _ => some streamId
  | .eligible e => some e.leaseStream
  | .awaitBootstrap _ _ | .terminal _ => none

/-- The lease keeps its stream until it ends, and the end it reports is one, without output. -/
structure Concludes (t : TargetTransport H T) (r : Answer H T) : Prop where
  ends : ∀ o, r.1 = .ok o → o.kind = .leaseTerminal → Ended r.2 ∧ o.bytes = none
  stays : ∀ s, leaseStreamOf t = some s → Ended r.2 ∨ leaseStreamOf r.2 = some s

section
variable {t u : TargetTransport H T} {event : Event}

theorem concludes_ended {r : Answer H T} (ended : Ended r.2) (plain : ∀ o, r.1 = .ok o → o.bytes = none) : Concludes t r :=
  ⟨fun o ok _ => ⟨ended, plain o ok⟩, fun _ _ => .inl ended⟩

/-- An early return while the phase is moved out. -/
theorem concludes_lost {error : SupervisorError} (ended : Ended u) : Concludes t (.error error, u) :=
  concludes_ended ended fun o ok => by cases ok

theorem leaseTerminal_ended (t : TargetTransport H T) (reason : CloseReason)
    (peer : Option (CloseReason × HandoffState)) : Ended (t.leaseTerminal reason peer).2 := ⟨_, rfl⟩

theorem concludes_leaseTerminal (reason : CloseReason) (peer : Option (CloseReason × HandoffState)) :
    Concludes t (TargetTransport.answer (u.leaseTerminal reason peer)) := by
  refine concludes_ended (leaseTerminal_ended u reason peer) fun o ok => ?_
  cases ok
  rfl

theorem concludes_coreLeaseError (error : Error) : Concludes t (TargetTransport.answer (u.coreLeaseError error)) :=
  concludes_leaseTerminal _ _

theorem concludes_error {error : SupervisorError} (same : leaseStreamOf u = leaseStreamOf t) :
    Concludes t (.error error, u) :=
  ⟨fun _ ok => (by cases ok), fun s here => .inr (same.trans here)⟩

theorem concludes_ok {o : Outcome} (kind : o.kind ≠ .leaseTerminal) (same : leaseStreamOf u = leaseStreamOf t) :
    Concludes t (.ok o, u) := by
  refine ⟨fun o' ok ended => ?_, fun s here => .inr (same.trans here)⟩
  cases ok
  exact absurd ended kind

theorem withFrameDeadline_kind (o : Outcome) (timer : Option Nat) : (o.withFrameDeadline timer).kind = o.kind := by
  cases timer with
  | none => rfl
  | some timer => exact Outcome.deadline_kind o _ _

theorem bootstrapConnected_concludes (noise : Noise R H T) (entropy : R) :
    Concludes t (t.bootstrapConnected noise entropy event) := by
  unfold TargetTransport.bootstrapConnected
  dsimp only
  split
  · exact concludes_error rfl
  · split
    · rename_i phase
      have unbound : leaseStreamOf t = none := by
        unfold leaseStreamOf
        rw [phase]
      split
      · exact concludes_coreLeaseError _
      · split
        · exact concludes_coreLeaseError _
        · split
          · exact concludes_lost ⟨_, rfl⟩
          · split
            · exact concludes_lost ⟨_, rfl⟩
            · refine ⟨fun o ok kind => ?_, fun s here => ?_⟩
              · cases ok
                rw [Outcome.deadline_kind] at kind
                cases kind
              · rw [unbound] at here
                cases here
    · exact concludes_error rfl

/-- The answer puts the lease on this stream when it comes with frames. -/
def Binds (s : Nat) (r : Answer H T) : Prop :=
  ∀ o, r.1 = .ok o → o.kind = .writeFrames → s ≠ 0 ∧ leaseStreamOf r.2 = some s

theorem bootstrapConnected_binds (noise : Noise R H T) (entropy : R) :
    Binds event.streamId (t.bootstrapConnected noise entropy event) := by
  have ended {error : Error} : Binds event.streamId (TargetTransport.answer (t.movedOut.coreLeaseError error)) := by
    intro o ok kind
    cases ok
    cases kind
  unfold TargetTransport.bootstrapConnected
  dsimp only
  split
  · exact fun o ok => by cases ok
  · rename_i wellFormed
    push Not at wellFormed
    split
    · split
      · exact ended
      · split
        · exact ended
        · split
          · exact fun o ok => by cases ok
          · split
            · exact fun o ok => by cases ok
            · exact fun o ok kind => ⟨wellFormed.1, rfl⟩
    · exact fun o ok => by cases ok

theorem fullWriteCommitted_concludes (absent : t.registered event.streamId = none) :
    Concludes t (t.fullWriteCommitted event) := by
  unfold TargetTransport.fullWriteCommitted
  dsimp only
  split
  · exact concludes_error rfl
  · split
    · rename_i phase
      split
      · refine concludes_ok (by exact fun kind => by cases kind) ?_
        simp only [leaseStreamOf, phase]
      · exact concludes_error rfl
    · rename_i phase
      split
      · split
        · exact concludes_lost ⟨_, rfl⟩
        · refine concludes_ok ?_ ?_
          · rw [Outcome.deadline_kind]
            exact fun kind => by cases kind
          · simp only [leaseStreamOf, phase]
      · exact concludes_error rfl
    · rename_i e phase
      rw [registered_eligible phase] at absent
      split
      · split
        · split
          · refine concludes_ok (by exact fun kind => by cases kind) ?_
            simp only [leaseStreamOf, phase]
          · exact concludes_error rfl
        · exact concludes_error rfl
      · simp only [TargetTransport.commitChildWrite, absent]
        refine concludes_error ?_
        simp only [leaseStreamOf, phase]
    · exact concludes_error rfl

theorem sessionAccepted_concludes (noise : Noise R H T) (entropy : R) :
    Concludes t (t.sessionAccepted noise entropy event) := by
  unfold TargetTransport.sessionAccepted
  split
  · exact concludes_error rfl
  · split
    · rename_i e phase
      split
      · exact concludes_error rfl
      · split
        · exact concludes_error rfl
        · split
          · exact concludes_error rfl
          · split
            · refine concludes_error ?_
              simp only [leaseStreamOf, phase]
            · split
              · refine concludes_error ?_
                simp only [leaseStreamOf, phase]
              · refine concludes_ok ?_ ?_
                · rw [Outcome.deadline_kind]
                  exact fun kind => by cases kind
                · simp only [leaseStreamOf, phase, TargetTransport.withChild]
    · exact concludes_error rfl

theorem runtimeResponse_concludes (noise : Noise R H T) (absent : t.registered event.streamId = none) :
    Concludes t (t.runtimeResponse noise event) := by
  unfold TargetTransport.runtimeResponse
  split
  · exact concludes_error rfl
  · split
    · rename_i phase
      rw [registered_eligible phase] at absent
      rw [absent]
      exact concludes_error rfl
    · exact concludes_error rfl

theorem bootstrapBytes_concludes (noise : Noise R H T) : Concludes t (t.bootstrapBytes noise event) := by
  unfold TargetTransport.bootstrapBytes
  dsimp only
  split
  · rename_i phase
    split
    · exact concludes_coreLeaseError _
    · split
      · exact concludes_lost ⟨_, rfl⟩
      · split
        · refine concludes_ok ?_ ?_
          · rw [withFrameDeadline_kind]
            exact fun kind => by cases kind
          · simp only [leaseStreamOf, phase]
        · split
          · exact concludes_coreLeaseError _
          · split
            · exact concludes_coreLeaseError _
            · split
              · exact concludes_lost ⟨_, rfl⟩
              · refine concludes_ok ?_ ?_
                · rw [withFrameDeadline_kind]
                  exact fun kind => by cases kind
                · simp only [leaseStreamOf, phase]
        · exact concludes_leaseTerminal _ _
  · exact concludes_error rfl

theorem leaseBytes_concludes (noise : Noise R H T) : Concludes t (t.leaseBytes noise event) := by
  unfold TargetTransport.leaseBytes
  dsimp only
  split
  · rename_i e phase
    split
    · exact concludes_error rfl
    · split
      · exact concludes_coreLeaseError _
      · split
        · refine concludes_error ?_
          simp only [leaseStreamOf, phase]
        · split
          · refine concludes_ok ?_ ?_
            · rw [withFrameDeadline_kind]
              exact fun kind => by cases kind
            · simp only [leaseStreamOf, phase]
          · split
            · exact concludes_coreLeaseError _
            · split
              · exact concludes_coreLeaseError _
              · split
                · refine concludes_error ?_
                  simp only [leaseStreamOf, phase]
                · refine concludes_ok ?_ ?_
                  · rw [withFrameDeadline_kind]
                    exact fun kind => by cases kind
                  · simp only [leaseStreamOf, phase]
          · exact concludes_leaseTerminal _ _
  · exact concludes_error rfl

theorem streamBytes_concludes (noise : Noise R H T) (absent : t.registered event.streamId = none) :
    Concludes t (t.streamBytes noise event) := by
  unfold TargetTransport.streamBytes
  split
  · exact concludes_error rfl
  · split
    · split
      · exact bootstrapBytes_concludes noise
      · exact concludes_error rfl
    · rename_i phase
      rw [registered_eligible phase] at absent
      split
      · exact leaseBytes_concludes noise
      · rw [absent]
        exact concludes_error rfl
    · exact concludes_error rfl

theorem streamEnd_concludes (s : Nat) (absent : t.registered s = none) (reason : CloseReason) (orderly : Bool) :
    Concludes t (t.streamEnd s reason orderly) := by
  unfold TargetTransport.streamEnd
  split
  · split
    · split
      · exact concludes_coreLeaseError _
      · exact concludes_leaseTerminal _ _
    · exact concludes_error rfl
  · split
    · split
      · exact concludes_coreLeaseError _
      · exact concludes_leaseTerminal _ _
    · exact concludes_error rfl
  · split
    · split
      · exact concludes_coreLeaseError _
      · exact concludes_leaseTerminal _ _
    · exact concludes_error rfl
  · rename_i phase
    rw [registered_eligible phase] at absent
    split
    · split
      · exact concludes_coreLeaseError _
      · exact concludes_leaseTerminal _ _
    · rw [absent]
      exact concludes_error rfl
  · exact concludes_error rfl

theorem streamClosed_concludes (absent : t.registered event.streamId = none) : Concludes t (t.streamClosed event) := by
  unfold TargetTransport.streamClosed
  split
  · exact concludes_error rfl
  · split
    all_goals exact streamEnd_concludes _ absent _ _

theorem leaseTickFired_concludes (clock : Clock) (token : Nat) :
    Concludes t ({ t with clock }.leaseTickFired token) := by
  unfold TargetTransport.leaseTickFired
  dsimp only
  split
  · rename_i e phase
    split
    · exact concludes_ok (by exact fun kind => by cases kind) rfl
    · split
      · exact concludes_leaseTerminal _ _
      · split
        · exact concludes_leaseTerminal _ _
        · split
          · refine concludes_error ?_
            simp only [leaseStreamOf, phase]
          · refine concludes_ok ?_ ?_
            · rw [Outcome.deadline_kind]
              exact fun kind => by cases kind
            · simp only [leaseStreamOf, phase]
  · exact concludes_ok (by exact fun kind => by cases kind) rfl

theorem timerFired_concludes
    (unnamed : ∀ action s, t.clock.timers.lookup event.writeToken = some action → action.stream ≠ some s) :
    Concludes t (t.timerFired event) := by
  unfold TargetTransport.timerFired
  split
  · exact concludes_error rfl
  · cases fires : t.clock.timers.lookup event.writeToken with
    | none => exact concludes_ok (by exact fun kind => by cases kind) rfl
    | some action =>
        cases action with
        | bootstrap | bootstrapFrame | leaseFrame => exact concludes_leaseTerminal _ _
        | leaseTick => exact leaseTickFired_concludes _ _
        | sessionPhase s | sessionIdle s | sessionFrame s => exact absurd rfl (unnamed _ s fires)

/-- The loss of eligibility is an end of the lease, whatever its reason. -/
theorem eligibilityLost_terminal (t : TargetTransport H T) :
    ∃ (u : TargetTransport H T) (reason : CloseReason), t.eligibilityLost = u.leaseTerminal reason none := by
  unfold TargetTransport.eligibilityLost
  split
  · split
    · exact ⟨_, _, rfl⟩
    · split
      · exact ⟨_, _, rfl⟩
      · exact ⟨_, _, rfl⟩
  · exact ⟨_, _, rfl⟩

theorem leaseEvent_concludes (reason : CloseReason) :
    Concludes t (TargetTransport.leaseEvent event (u.leaseTerminal reason none) t) := by
  unfold TargetTransport.leaseEvent
  split
  · exact concludes_error rfl
  · exact concludes_leaseTerminal reason none

theorem ChildAnswer.concludes {s : Nat} {e : Eligible H T} {child : Child H T} {slip : Prop} {r : Answer H T}
    (answer : ChildAnswer s t e child slip r) (phase : t.phase = .eligible e) : Concludes t r := by
  obtain ⟨children, eligible, -, fate⟩ := answer.phase
  have same : leaseStreamOf r.2 = leaseStreamOf t := by
    simp only [leaseStreamOf, eligible, phase]
  have goesOn (o : Outcome) (ok : r.1 = .ok o) : o.kind ≠ .leaseTerminal := by
    intro kind
    rw [ok] at fate
    generalize children.lookup s = after at fate
    generalize r.2.clock = clock at fate
    cases fate with
    | kept plain _ _ => exact plain.not_leaseTerminal o rfl kind
    | applied applies _ _ =>
        obtain ⟨o', same, other, -⟩ := applies
        cases same
        rw [other] at kind
        cases kind
    | ended ends _ =>
        obtain ⟨o', same, other, -⟩ := ends
        cases same
        rw [other] at kind
        cases kind
    | slipped _ ends _ =>
        obtain ⟨o', same, other, -⟩ := ends
        cases same
        rw [other] at kind
        cases kind
  exact ⟨fun o ok kind => absurd kind (goesOn o ok), fun s here => .inr (same.trans here)⟩

/-- Every event. -/
theorem drive_concludes (noise : Noise R H T) (entropy : R) (sound : Sound t) (event : Event) :
    Concludes t (t.drive noise entropy event) := by
  by_cases child : ∃ s child, t.registered s = some child ∧ Addressed s t event
  · obtain ⟨s, child, found, addressed⟩ := child
    obtain ⟨e, phase, there⟩ := registered_some found
    exact (drive_child noise entropy sound phase there addressed).concludes phase
  · have stream (tag : event.tag ∈ [.streamBytes, .fullWriteCommitted, .runtimeResponse, .streamEof, .streamIoFailed,
        .streamCloseNormal]) : t.registered event.streamId = none := by
      cases found : t.registered event.streamId with
      | none => rfl
      | some there => exact absurd ⟨_, there, found, .inl ⟨rfl, tag⟩⟩ child
    have timer (tag : event.tag = .timerFired) (action : TimerAction) (s : Nat)
        (fires : t.clock.timers.lookup event.writeToken = some action) : action.stream ≠ some s := by
      intro names
      cases found : t.registered s with
      | none => exact sound.unnamed s found _ _ fires names
      | some there => exact child ⟨s, there, found, .inr ⟨tag, action, fires, names⟩⟩
    unfold TargetTransport.drive
    split
    · rename_i terminal phase
      refine concludes_ended ⟨terminal, phase⟩ fun o ok => ?_
      cases ok
      rfl
    · split
      · exact concludes_error rfl
      · cases tag : event.tag with
        | eligibilityLost =>
            obtain ⟨u, reason, lost⟩ := eligibilityLost_terminal t
            rw [lost]
            exact leaseEvent_concludes reason
        | cleanupFailed | internalError => exact leaseEvent_concludes _
        | timerFired => exact timerFired_concludes (timer tag)
        | bootstrapConnected => exact bootstrapConnected_concludes noise entropy
        | fullWriteCommitted => exact fullWriteCommitted_concludes (stream (by simp [tag]))
        | sessionAccepted => exact sessionAccepted_concludes noise entropy
        | runtimeResponse => exact runtimeResponse_concludes noise (stream (by simp [tag]))
        | streamBytes => exact streamBytes_concludes noise (stream (by simp [tag]))
        | streamEof | streamIoFailed | streamCloseNormal => exact streamClosed_concludes (stream (by simp [tag]))

/-- A bootstrap that is answered with frames puts the lease on its stream. -/
theorem drive_binds (noise : Noise R H T) (entropy : R) (tag : event.tag = .bootstrapConnected) :
    Binds event.streamId (t.drive noise entropy event) := by
  unfold TargetTransport.drive
  split
  · intro o ok kind
    cases ok
    cases kind
  · split
    · exact fun o ok => by cases ok
    · simp only [tag]
      exact bootstrapConnected_binds noise entropy

/-- A lease that has ended reports it and stays ended. -/
theorem drive_terminal (noise : Noise R H T) (entropy : R) (ended : Ended t) (event : Event) :
    ∃ o, t.drive noise entropy event = (.ok o, t) ∧ o.kind = .leaseTerminal ∧ o.bytes = none := by
  obtain ⟨terminal, phase⟩ := ended
  refine ⟨.terminal .leaseTerminal 0 terminal.reason terminal.handoff terminal.peerClose, ?_, rfl, rfl⟩
  unfold TargetTransport.drive
  simp only [phase]

end

end AppPilotKit.Target
