import AppPilotKit.Ffi.Entry
import AppPilotKit.Target.Conclusion

/-! # What every call keeps

The entry knows the stream of its lease, so that a pending request always ends the lease
when it is applied. Once the lease has ended, no call revives it.
-/

namespace AppPilotKit.Ffi

open Transport Target

variable {R H T : Type}

/-- The entry and its transport agree about the stream of the lease. -/
structure Coherent (entry : SupervisorEntry H T) : Prop where
  sound : Sound entry.transport
  stream : entry.leaseStream = 0 ∨ Ended entry.transport ∨ leaseStreamOf entry.transport = some entry.leaseStream
  pending : entry.pendingTerminal = some .leaseStream → entry.leaseStream ≠ 0

/-- The request a call carries. -/
def Point.request : Point → Option TerminalRequest
  | .probeTimer request | .record request _ => request
  | .applyTerminal _ _ request => some request
  | _ => none

/-- A call that carries a request about the lease stream knows that there is one. -/
def Carries (entry : SupervisorEntry H T) (call : Call) : Prop :=
  call.point.request = some .leaseStream → entry.leaseStream ≠ 0

section
variable {noise : Noise R H T} {entry : SupervisorEntry H T} {call : Call} {t : TargetTransport H T}

theorem terminateInternalError_sound (t : TargetTransport H T) : Sound (terminateInternalError t) := by
  have answer : LeaseAnswer t 0 (fun _ => False) (TargetTransport.answer (t.leaseTerminal .internalError none)) :=
    leaseTerminal_answer (fun _ => rfl) _ _
  exact answer.sound

theorem terminateInternalError_ended (t : TargetTransport H T) : Ended (terminateInternalError t) :=
  leaseTerminal_ended t _ _

/-- The failure of its stream ends the lease. -/
theorem drive_leaseFailed (noise : Noise R H T) (entropy : R) {s : Nat} (nonzero : s ≠ 0) (stream : leaseStreamOf t = some s) :
    ∃ o, (t.drive noise entropy { tag := .streamIoFailed, streamId := s }).1 = .ok o ∧
      (o.kind = .leaseTerminal ∧ o.bytes = none) ∧ Ended (t.drive noise entropy { tag := .streamIoFailed, streamId := s }).2 := by
  have driven (going : ∀ terminal, t.phase ≠ .terminal terminal) :
      t.drive noise entropy { tag := .streamIoFailed, streamId := s } = t.streamEnd s .peerClosed false := by
    unfold TargetTransport.drive
    split
    · rename_i terminal phase
      exact absurd phase (going terminal)
    · simp [TargetTransport.streamClosed, nonzero]
  unfold leaseStreamOf at stream
  split at stream
  all_goals
    first
    | cases stream; done
    | rename_i phase
      rw [driven (by simp [phase])]
      unfold TargetTransport.streamEnd
      cases stream
      simp only [phase, if_true]
      exact ⟨_, rfl, ⟨rfl, rfl⟩, _, rfl⟩

/-- A pending request ends the lease when it is applied. -/
theorem requestEvent_ends (noise : Noise R H T) (entropy : R) (request : TerminalRequest) {leaseStream : Nat}
    (known : request = .leaseStream → leaseStream ≠ 0)
    (stream : leaseStream = 0 ∨ Ended t ∨ leaseStreamOf t = some leaseStream) :
    ∃ o, (t.drive noise entropy (requestEvent leaseStream request)).1 = .ok o ∧
      (o.kind = .leaseTerminal ∧ o.bytes = none) ∧ Ended (t.drive noise entropy (requestEvent leaseStream request)).2 := by
  by_cases ended : Ended t
  · obtain ⟨o, driven, kind⟩ := drive_terminal noise entropy ended (requestEvent leaseStream request)
    rw [driven]
    exact ⟨o, rfl, kind, ended⟩
  · have going : ∀ terminal, t.phase ≠ .terminal terminal := fun terminal phase => ended ⟨terminal, phase⟩
    cases request with
    | leaseStream =>
        have nonzero := known rfl
        exact drive_leaseFailed noise entropy nonzero ((stream.resolve_left nonzero).resolve_left ended)
    | eligibilityLost =>
        have driven : t.drive noise entropy { tag := .eligibilityLost } = TargetTransport.answer t.eligibilityLost := by
          unfold TargetTransport.drive
          split
          · rename_i terminal phase
            exact absurd phase (going terminal)
          · simp [TargetTransport.leaseEvent]
        obtain ⟨u, reason, lost⟩ := eligibilityLost_terminal t
        simp only [requestEvent, driven, lost]
        exact ⟨_, rfl, ⟨rfl, rfl⟩, _, rfl⟩
    | cleanupFailed | internalError =>
        unfold TargetTransport.drive
        simp only [requestEvent, ne_eq, not_true, if_false, TargetTransport.leaseEvent, or_self]
        exact ⟨_, rfl, ⟨rfl, rfl⟩, _, rfl⟩

theorem drive_ended (noise : Noise R H T) (entropy : R) (ended : Ended t) (event : Event) :
    Ended (t.drive noise entropy event).2 := by
  obtain ⟨o, driven, -, -⟩ := drive_terminal noise entropy ended event
  rw [driven]
  exact ended

/-- A call does not revive the lease. -/
theorem advance_ended (input : Input R) (ended : Ended entry.transport) :
    Ended (advance noise entry call input).1.transport := by
  cases point : call.point with
  | drive onEntry =>
      simp only [advance, point]
      exact drive_ended noise _ ended _
  | applyTimer second onEntry outcome timer =>
      simp only [advance, point]
      exact drive_ended noise _ ended _
  | applyTerminal second onEntry request =>
      simp only [advance, point]
      refine drive_ended noise _ ?_ _
      split
      · exact terminateInternalError_ended _
      · exact ended
  | record request timer | takeBusy | lockGate onEntry outcome =>
      simp only [advance, point]
      split
      all_goals exact ended
  | classify | probeTimer request | checkRetired | readReason | refresh onEntry outcome
  | swapTerminal second onEntry outcome | swapTimer second onEntry outcome | publish outcome | releaseBusy | returned =>
      simp only [advance, point]
      exact ended

/-- The stream that a drive notes is the one of the lease. -/
theorem advance_drive_stream {onEntry : Option CloseReason} (point : call.point = .drive onEntry) (input : Input R)
    (coherent : Coherent entry) :
    (entry.leaseStream ≠ 0 → (advance noise entry call input).1.leaseStream ≠ 0) ∧
    ((advance noise entry call input).1.leaseStream = 0 ∨ Ended (advance noise entry call input).1.transport ∨
      leaseStreamOf (advance noise entry call input).1.transport = some (advance noise entry call input).1.leaseStream) := by
  have concludes := drive_concludes noise input.entropy coherent.sound call.event
  simp only [advance, point]
  have same : entry.leaseStream = 0 ∨ Ended (entry.transport.drive noise input.entropy call.event).2 ∨
      leaseStreamOf (entry.transport.drive noise input.entropy call.event).2 = some entry.leaseStream := by
    rcases coherent.stream with none | ended | stream
    · exact .inl none
    · exact .inr (.inl (drive_ended noise input.entropy ended call.event))
    · exact .inr (concludes.stays _ stream)
  split
  · rename_i value ok
    split
    · rename_i connected
      replace connected : value.kind = .writeFrames ∧ call.event.tag = .bootstrapConnected := by simpa using connected
      have bound := drive_binds noise input.entropy connected.2 value ok connected.1
      exact ⟨fun _ => bound.1, .inr (.inr bound.2)⟩
    · exact ⟨id, same⟩
  · exact ⟨id, same⟩

/-- … and the lease stream, once known, stays known. -/
theorem advance_leaseStream (input : Input R) (coherent : Coherent entry) (known : entry.leaseStream ≠ 0) :
    (advance noise entry call input).1.leaseStream ≠ 0 := by
  cases point : call.point with
  | drive onEntry => exact (advance_drive_stream point input coherent).1 known
  | record request timer | takeBusy | lockGate onEntry outcome =>
      simp only [advance, point]
      split
      all_goals exact known
  | classify | probeTimer request | checkRetired | readReason | refresh onEntry outcome
  | swapTerminal second onEntry outcome | swapTimer second onEntry outcome | applyTerminal second onEntry request
  | applyTimer second onEntry outcome timer | publish outcome | releaseBusy | returned =>
      simp only [advance, point]
      exact known

theorem terminalRequest_known {event : Event} (request : terminalRequest entry event = some .leaseStream) :
    entry.leaseStream ≠ 0 := by
  unfold terminalRequest at request
  split at request
  · split at request
    all_goals
      first
      | cases request; done
      | split at request
        · rename_i known
          first
          | cases request; done
          | exact known.2 ▸ known.1
        · cases request
  · cases request

/-- Every step keeps the entry coherent. -/
theorem advance_coherent (input : Input R) (coherent : Coherent entry) (carries : Carries entry call) :
    Coherent (advance noise entry call input).1 := by
  have known : entry.leaseStream ≠ 0 → (advance noise entry call input).1.leaseStream ≠ 0 :=
    advance_leaseStream input coherent
  cases point : call.point with
  | drive onEntry =>
      refine ⟨?_, (advance_drive_stream point input coherent).2, fun pending => known (coherent.pending ?_)⟩
      · simp only [advance, point]
        exact drive_sound noise input.entropy coherent.sound call.event
      · simpa only [advance, point] using pending
  | applyTimer second onEntry outcome timer =>
      simp only [advance, point]
      refine ⟨drive_sound noise input.entropy coherent.sound _, ?_, coherent.pending⟩
      rcases coherent.stream with none | ended | stream
      · exact .inl none
      · exact .inr (.inl (drive_ended noise input.entropy ended _))
      · exact .inr ((drive_concludes noise input.entropy coherent.sound _).stays _ stream)
  | applyTerminal second onEntry request =>
      have carried : request = .leaseStream → entry.leaseStream ≠ 0 := by
        rintro rfl
        exact carries (by rw [point]; rfl)
      simp only [advance, point]
      split
      · refine ⟨?_, ?_, coherent.pending⟩
        · exact drive_sound noise input.entropy (terminateInternalError_sound entry.transport)
            (requestEvent entry.leaseStream request)
        · exact .inr (.inl (drive_ended noise input.entropy (terminateInternalError_ended entry.transport)
            (requestEvent entry.leaseStream request)))
      · refine ⟨drive_sound noise input.entropy coherent.sound _, ?_, coherent.pending⟩
        obtain ⟨-, -, -, ended⟩ := requestEvent_ends noise input.entropy request carried coherent.stream
        exact .inr (.inl ended)
  | record request timer =>
      simp only [advance, point]
      split
      · exact coherent
      · refine ⟨coherent.sound, coherent.stream, fun pending => ?_⟩
        dsimp only at pending
        split at pending
        · exact carries (by rw [point]; exact pending)
        · exact coherent.pending pending
  | swapTerminal second onEntry outcome =>
      simp only [advance, point]
      exact ⟨coherent.sound, coherent.stream, fun pending => by cases pending⟩
  | takeBusy | lockGate onEntry outcome =>
      simp only [advance, point]
      split
      all_goals exact ⟨coherent.sound, coherent.stream, coherent.pending⟩
  | classify | probeTimer request | checkRetired | readReason | refresh onEntry outcome | swapTimer second onEntry outcome
  | publish outcome | releaseBusy | returned =>
      simp only [advance, point]
      exact ⟨coherent.sound, coherent.stream, coherent.pending⟩

/-- … and the call that takes it knows what it carries. -/
theorem advance_carries (input : Input R) (coherent : Coherent entry) (carries : Carries entry call) :
    Carries (advance noise entry call input).1 (advance noise entry call input).2 := by
  unfold Carries at carries ⊢
  intro request
  refine advance_leaseStream input coherent ?_
  cases point : call.point with
  | classify =>
      simp only [advance, point, Call.goto, Point.request] at request
      exact terminalRequest_known request
  | probeTimer asked =>
      simp only [advance, point, Call.goto] at request
      split at request
      · exact carries (by rw [point]; exact request)
      · cases request
  | swapTerminal second onEntry outcome =>
      simp only [advance, point, Call.goto] at request
      split at request
      · rename_i pending found
        split at request
        · cases request
        · simp only [Point.request, Option.some.injEq] at request
          subst request
          exact coherent.pending found
      · cases request
  | record asked timer =>
      simp only [advance, point] at request
      split at request
      · exact carries request
      · cases request
  | applyTerminal second onEntry asked =>
      simp only [advance, point, Call.goto, arbitrated] at request
      split at request
      all_goals cases request
  | applyTimer second onEntry outcome timer =>
      simp only [advance, point, Call.goto, arbitrated] at request
      split at request
      all_goals cases request
  | swapTimer second onEntry outcome =>
      simp only [advance, point, Call.goto, arbitrated] at request
      split at request
      · split at request
        all_goals cases request
      · cases request
  | takeBusy | checkRetired | lockGate onEntry outcome =>
      simp only [advance, point, Call.goto] at request
      split at request
      all_goals
        first
        | cases request; done
        | simp [point, Point.request] at request
  | readReason | drive onEntry | refresh onEntry outcome | publish outcome | releaseBusy | returned =>
      simp [advance, point, Call.goto, Call.note, Point.request] at request

/-- The entry of a handle that was just created. -/
theorem opened_coherent {descriptor : Wire.Bytes} {draws : List Nat} {t₀ : TargetTransport H T} {ready : Outcome}
    (made : TargetTransport.create descriptor draws = .ok (t₀, ready)) : Coherent (SupervisorEntry.new t₀) :=
  ⟨create_sound made, .inl rfl, fun pending => by cases pending⟩

end

end AppPilotKit.Ffi
