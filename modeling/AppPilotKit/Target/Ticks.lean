import AppPilotKit.Target.Deadlines

/-! # Lease ticks

`terminalTimerTokens` tells which timers would end a child or the lease if they fired now.
The lease itself ends by its ticks alone: at the thirtieth, or at the fourth since the last
heartbeat it accepted.
-/

namespace AppPilotKit.Target

open Wire Transport

variable {R H T : Type}

namespace TargetTransport

/-- `terminal_timer_tokens`. -/
def terminalTimerTokens (t : TargetTransport H T) : List Nat :=
  t.clock.timers.entries.filterMap fun ⟨token, action⟩ =>
    let terminal : Bool := match action with
      | .leaseTick =>
          match t.phase with
          | .eligible e =>
              e.leaseTickTimer = some token ∧ (saturatingSucc e.leaseTicks ≥ 30 ∨ saturatingSucc e.missedTicks ≥ 4)
          | _ => false
      | .bootstrap | .bootstrapFrame | .leaseFrame | .sessionPhase _ | .sessionIdle _ | .sessionFrame _ => true
    if terminal then some token else none

end TargetTransport

/-- The timer event of a token. -/
def fired (token : Nat) : Event := { tag := .timerFired, writeToken := token }

/-- The outcome ends a child or the lease. -/
def Ending (r : Except SupervisorError Outcome) : Prop :=
  ∃ o, r = .ok o ∧ (o.kind = .sessionTerminal ∨ o.kind = .leaseTerminal)

/-- The event is the tick the lease waits for. -/
def isTick (t : TargetTransport H T) (event : Event) : Bool :=
  match t.phase with
  | .eligible e =>
      event.tag = .timerFired ∧ event.flags = 0 ∧ event.streamId = 0 ∧ event.writeToken ≠ 0 ∧ event.bytes = [] ∧
        e.leaseTickTimer = some event.writeToken ∧ t.clock.timers.lookup event.writeToken = some .leaseTick
  | _ => false

/-- The frames are one request that the lease accepts and answers. -/
def answersHeartbeat (noise : Noise R H T) (lease : TargetLeaseConnection T) : List Bytes → Bool
  | [frame] =>
      match lease.readHeartbeatRequest noise frame with
      | (.ok counter, lease) => (lease.writeHeartbeatReply noise counter).1.isOk
      | (.error _, _) => false
  | _ => false

/-- The event brings a heartbeat that the lease accepts. -/
def isHeartbeat (noise : Noise R H T) (t : TargetTransport H T) (event : Event) : Bool :=
  match t.phase with
  | .eligible e =>
      if event.tag = .streamBytes ∧ event.flags = 0 ∧ event.streamId ≠ 0 ∧ event.writeToken = 0 ∧ event.bytes ≠ [] ∧
          e.leaseStream = event.streamId ∧ e.leaseWrite.isNone then
        match e.leaseDecoder.push event.bytes with
        | (.ok frames, decoder) =>
            (t.clock.updateFrameTimer decoder.isIncomplete e.leaseFrameTimer .leaseFrame).1.isOk ∧
              answersHeartbeat noise e.lease frames
        | (.error _, _) => false
      else false
  | _ => false

/-- The lease ticks of a run so far. -/
def ticksIn (past : List (ServeStep R H T)) : Nat := past.countP fun step => isTick step.before step.input.2

/-- … and those since the last heartbeat. -/
def missedIn (noise : Noise R H T) (past : List (ServeStep R H T)) : Nat :=
  (past.reverse.takeWhile fun step => !isHeartbeat noise step.before step.input.2).countP fun step =>
    isTick step.before step.input.2

/-- The two counters of the lease; they start with it. -/
def tickCounters (t : TargetTransport H T) : Option (Nat × Nat) :=
  match t.phase with
  | .eligible e => some (e.leaseTicks, e.missedTicks)
  | .terminal _ => none
  | _ => some (0, 0)

/-- The answer ends the lease or leaves the counters alone. -/
def Uncounted (t : TargetTransport H T) (r : Answer H T) : Prop :=
  tickCounters r.2 = none ∨ tickCounters r.2 = tickCounters t

section
variable {t : TargetTransport H T} {event : Event}

theorem mem_terminalTimerTokens {k : Nat} : k ∈ t.terminalTimerTokens ↔ ∃ action, t.clock.timers.lookup k = some action ∧
    (action = .leaseTick → ∃ e, t.phase = .eligible e ∧ e.leaseTickTimer = some k ∧
      (TargetTransport.saturatingSucc e.leaseTicks ≥ 30 ∨ TargetTransport.saturatingSucc e.missedTicks ≥ 4)) := by
  unfold TargetTransport.terminalTimerTokens
  simp only [List.mem_filterMap]
  constructor
  · rintro ⟨⟨token, action⟩, member, given⟩
    have found : t.clock.timers.lookup token = some action := AList.mem_lookup_iff.mpr member
    simp only [Option.ite_none_right_eq_some, Option.some.injEq] at given
    obtain ⟨terminal, rfl⟩ := given
    refine ⟨action, found, ?_⟩
    rintro rfl
    dsimp only at terminal
    split at terminal
    · rename_i e phase
      exact ⟨e, phase, by simpa using terminal⟩
    · cases terminal
  · rintro ⟨action, found, ticking⟩
    refine ⟨⟨k, action⟩, AList.mem_lookup_iff.mp found, ?_⟩
    dsimp only
    cases action with
    | leaseTick =>
        obtain ⟨e, phase, held, due⟩ := ticking rfl
        simp [phase, held, due]
    | bootstrap | bootstrapFrame | leaseFrame | sessionPhase s | sessionIdle s | sessionFrame s => simp

theorem ending_answer (r : Outcome × TargetTransport H T) :
    Ending (TargetTransport.answer r).1 ↔ r.1.kind = .sessionTerminal ∨ r.1.kind = .leaseTerminal := by
  constructor
  · rintro ⟨o, eq, ends⟩
    cases eq
    exact ends
  · intro ends
    exact ⟨r.1, rfl, ends⟩

theorem not_ending_needInput : ¬ Ending (.ok (.new .needInput)) := by
  rintro ⟨o, eq, ends | ends⟩
  all_goals
    cases eq
    cases ends

theorem childTerminal_kind (t : TargetTransport H T) (s : Nat) (reason : CloseReason)
    (peer : Option (CloseReason × HandoffState)) : (t.childTerminal s reason peer).1.kind = .sessionTerminal := by
  unfold TargetTransport.childTerminal
  split
  · split
    · rfl
    · rfl
  · rfl

/-- A lease tick ends the lease when one of the counters is due. -/
theorem leaseTickFired_ending (t : TargetTransport H T) (k : Nat) :
    Ending (t.leaseTickFired k).1 ↔ ∃ e, t.phase = .eligible e ∧ e.leaseTickTimer = some k ∧
      (TargetTransport.saturatingSucc e.leaseTicks ≥ 30 ∨ TargetTransport.saturatingSucc e.missedTicks ≥ 4) := by
  unfold TargetTransport.leaseTickFired
  split
  · rename_i e phase
    split
    · rename_i other
      refine ⟨fun ends => absurd ends not_ending_needInput, ?_⟩
      rintro ⟨e', same, held, -⟩
      rw [phase] at same
      cases same
      exact absurd held other
    · rename_i held
      replace held : e.leaseTickTimer = some k := by simpa using held
      dsimp only
      split
      · rename_i stale
        exact ⟨fun _ => ⟨e, phase, held, .inl stale⟩, fun _ => ⟨_, rfl, .inr rfl⟩⟩
      · rename_i fresh
        split
        · rename_i lost
          exact ⟨fun _ => ⟨e, phase, held, .inr lost⟩, fun _ => ⟨_, rfl, .inr rfl⟩⟩
        · rename_i beating
          have stays : ¬ ∃ e, t.phase = .eligible e ∧ e.leaseTickTimer = some k ∧
              (TargetTransport.saturatingSucc e.leaseTicks ≥ 30 ∨ TargetTransport.saturatingSucc e.missedTicks ≥ 4) := by
            rintro ⟨e', same, -, due⟩
            rw [phase] at same
            cases same
            exact due.elim fresh beating
          refine ⟨fun ends => ?_, fun due => absurd due stays⟩
          obtain ⟨o, eq, ends⟩ := ends
          split at eq
          · cases eq
          · cases eq
            rw [Outcome.deadline_kind] at ends
            rcases ends with ends | ends
            all_goals cases ends
  · rename_i other
    refine ⟨fun ends => absurd ends not_ending_needInput, ?_⟩
    rintro ⟨e, phase, -⟩
    exact absurd phase (other e)

/-- The tokens of `terminalTimerTokens` are those whose timers end something. -/
theorem terminalTimerTokens_iff (noise : Noise R H T) (entropy : R) (sound : Sound t)
    (going : ∀ terminal, t.phase ≠ .terminal terminal) {k : Nat} (nonzero : k ≠ 0 ∨ t.clock.timers.lookup k = none) :
    k ∈ t.terminalTimerTokens ↔ Ending (t.drive noise entropy (fired k)).1 := by
  have driven : t.drive noise entropy (fired k) = t.timerFired (fired k) := by
    unfold TargetTransport.drive
    split
    · rename_i terminal phase
      exact absurd phase (going terminal)
    · rfl
  rw [driven, mem_terminalTimerTokens]
  cases found : t.clock.timers.lookup k with
  | none =>
      refine ⟨fun ⟨action, there, _⟩ => (by cases there), fun ends => ?_⟩
      unfold TargetTransport.timerFired at ends
      split at ends
      · obtain ⟨o, eq, -⟩ := ends
        cases eq
      · simp only [fired, found] at ends
        exact absurd ends not_ending_needInput
  | some action =>
      have positive : k ≠ 0 := by
        refine nonzero.resolve_right ?_
        rw [found]
        exact fun none => by cases none
      have named (s : Nat) (names : action.stream = some s) : ∃ e child, t.phase = .eligible e ∧
          e.children.lookup s = some child := by
        cases registered : t.registered s with
        | none => exact absurd names (sound.unnamed s registered k action found)
        | some child =>
            obtain ⟨e, phase, there⟩ := registered_some registered
            exact ⟨e, child, phase, there⟩
      have wellFormed : ¬ ((fired k).streamId ≠ 0 ∨ (fired k).writeToken = 0 ∨ (fired k).bytes ≠ []) := by
        simp [fired, positive]
      unfold TargetTransport.timerFired
      rw [if_neg wellFormed]
      simp only [fired, found]
      cases action with
      | bootstrap | bootstrapFrame | leaseFrame =>
          exact ⟨fun _ => ⟨_, rfl, .inr rfl⟩, fun _ => ⟨_, rfl, fun tick => by cases tick⟩⟩
      | leaseTick =>
          rw [leaseTickFired_ending]
          exact ⟨fun ⟨_, _, due⟩ => by cases ‹some _ = some _›; exact due rfl, fun due => ⟨_, rfl, fun _ => due⟩⟩
      | sessionPhase s | sessionIdle s | sessionFrame s =>
          obtain ⟨e, child, phase, there⟩ := named s rfl
          refine ⟨fun _ => ?_, fun _ => ⟨_, rfl, fun tick => by cases tick⟩⟩
          unfold TargetTransport.childTimerFired
          simp only [phase, there, Option.isSome_some, if_true]
          exact (ending_answer _).mpr (.inl (childTerminal_kind _ _ _ _))

/-! ## The counters of one event -/

/-- What an event does to the counters: a tick, a heartbeat, the end of the lease, or nothing. -/
inductive Paced (noise : Noise R H T) (t : TargetTransport H T) (event : Event) (u : TargetTransport H T) : Prop where
  | ended : tickCounters u = none → Paced noise t event u
  | ticked (e : Eligible H T) : isTick t event = true → t.phase = .eligible e →
      TargetTransport.saturatingSucc e.leaseTicks < 30 → TargetTransport.saturatingSucc e.missedTicks < 4 →
      tickCounters u = some (TargetTransport.saturatingSucc e.leaseTicks, TargetTransport.saturatingSucc e.missedTicks) →
      Paced noise t event u
  | beaten (e : Eligible H T) : isTick t event = false → isHeartbeat noise t event = true → t.phase = .eligible e →
      tickCounters u = some (e.leaseTicks, 0) → Paced noise t event u
  | kept : isTick t event = false → isHeartbeat noise t event = false → tickCounters u = tickCounters t →
      Paced noise t event u

theorem isTick_of_tag (other : event.tag ≠ .timerFired) : isTick t event = false := by
  unfold isTick
  split
  · simp [other]
  · rfl

theorem isHeartbeat_of_tag (noise : Noise R H T) (other : event.tag ≠ .streamBytes) :
    isHeartbeat noise t event = false := by
  unfold isHeartbeat
  split
  · simp [other]
  · rfl

/-- Neither ticks nor heartbeats. -/
theorem Uncounted.paced {noise : Noise R H T} {r : Answer H T} (uncounted : Uncounted t r)
    (timer : event.tag ≠ .timerFired) (bytes : event.tag ≠ .streamBytes) : Paced noise t event r.2 :=
  uncounted.elim .ended (.kept (isTick_of_tag timer) (isHeartbeat_of_tag noise bytes))

theorem bootstrapConnected_uncounted (noise : Noise R H T) (entropy : R) :
    Uncounted t (t.bootstrapConnected noise entropy event) := by
  unfold TargetTransport.bootstrapConnected
  dsimp only
  split
  · exact .inr rfl
  · split
    · rename_i phase
      split
      · exact .inl rfl
      · split
        · exact .inl rfl
        · split
          · exact .inl rfl
          · split
            · exact .inl rfl
            · right
              simp only [tickCounters, phase]
    · exact .inr rfl

theorem fullWriteCommitted_uncounted (absent : t.registered event.streamId = none) :
    Uncounted t (t.fullWriteCommitted event) := by
  unfold TargetTransport.fullWriteCommitted
  dsimp only
  split
  · exact .inr rfl
  · split
    · rename_i phase
      split
      · right
        simp only [tickCounters, phase]
      · exact .inr rfl
    · rename_i phase
      split
      · split
        · exact .inl rfl
        · right
          simp only [tickCounters, phase]
      · exact .inr rfl
    · rename_i e phase
      rw [registered_eligible phase] at absent
      split
      · split
        · split
          · right
            simp only [tickCounters, phase]
          · exact .inr rfl
        · exact .inr rfl
      · right
        simp only [TargetTransport.commitChildWrite, absent, tickCounters, phase]
    · exact .inr rfl

theorem sessionAccepted_uncounted (noise : Noise R H T) (entropy : R) :
    Uncounted t (t.sessionAccepted noise entropy event) := by
  unfold TargetTransport.sessionAccepted
  split
  · exact .inr rfl
  · split
    · rename_i e phase
      split
      · exact .inr rfl
      · split
        · exact .inr rfl
        · split
          · exact .inr rfl
          · split
            · right
              simp only [tickCounters, phase]
            · split
              · right
                simp only [tickCounters, phase]
              · right
                simp only [tickCounters, phase, TargetTransport.withChild]
    · exact .inr rfl

theorem runtimeResponse_uncounted (noise : Noise R H T) (absent : t.registered event.streamId = none) :
    Uncounted t (t.runtimeResponse noise event) := by
  unfold TargetTransport.runtimeResponse
  split
  · exact .inr rfl
  · split
    · rename_i phase
      rw [registered_eligible phase] at absent
      rw [absent]
      exact .inr rfl
    · exact .inr rfl

theorem bootstrapBytes_uncounted (noise : Noise R H T) : Uncounted t (t.bootstrapBytes noise event) := by
  unfold TargetTransport.bootstrapBytes
  dsimp only
  split
  · rename_i phase
    split
    · exact .inl rfl
    · split
      · exact .inl rfl
      · split
        · right
          simp only [tickCounters, phase]
        · split
          · exact .inl rfl
          · split
            · exact .inl rfl
            · split
              · exact .inl rfl
              · right
                simp only [tickCounters, phase]
        · exact .inl rfl
  · exact .inr rfl

theorem streamEnd_uncounted (s : Nat) (absent : t.registered s = none) (reason : CloseReason) (orderly : Bool) :
    Uncounted t (t.streamEnd s reason orderly) := by
  unfold TargetTransport.streamEnd
  split
  · split
    · split
      · exact .inl rfl
      · exact .inl rfl
    · exact .inr rfl
  · split
    · split
      · exact .inl rfl
      · exact .inl rfl
    · exact .inr rfl
  · split
    · split
      · exact .inl rfl
      · exact .inl rfl
    · exact .inr rfl
  · rename_i e phase
    rw [registered_eligible phase] at absent
    split
    · split
      · exact .inl rfl
      · exact .inl rfl
    · rw [absent]
      exact .inr rfl
  · exact .inr rfl

theorem streamClosed_uncounted (absent : t.registered event.streamId = none) : Uncounted t (t.streamClosed event) := by
  unfold TargetTransport.streamClosed
  split
  · exact .inr rfl
  · split
    all_goals exact streamEnd_uncounted _ absent _ _

theorem leaseEvent_uncounted {r : Outcome × TargetTransport H T} (ends : tickCounters r.2 = none) :
    Uncounted t (TargetTransport.leaseEvent event r t) := by
  unfold TargetTransport.leaseEvent
  split
  · exact .inr rfl
  · exact .inl ends

theorem eligibilityLost_ends (t : TargetTransport H T) : tickCounters t.eligibilityLost.2 = none := by
  unfold TargetTransport.eligibilityLost
  split
  · split
    · rfl
    · split
      · rfl
      · rfl
  · rfl

/-- The bytes of the lease stream. -/
theorem leaseBytes_paced (noise : Noise R H T) {e : Eligible H T} (phase : t.phase = .eligible e)
    (tag : event.tag = .streamBytes) (flags : event.flags = 0)
    (wellFormed : ¬ (event.streamId = 0 ∨ event.writeToken ≠ 0 ∨ event.bytes = []))
    (lease : e.leaseStream = event.streamId) : Paced noise t event (t.leaseBytes noise event).2 := by
  have noTick : isTick t event = false := isTick_of_tag (by simp [tag])
  push Not at wellFormed
  have beats (free : e.leaseWrite.isNone = true) : isHeartbeat noise t event =
      match e.leaseDecoder.push event.bytes with
      | (.ok frames, decoder) =>
          (t.clock.updateFrameTimer decoder.isIncomplete e.leaseFrameTimer .leaseFrame).1.isOk ∧
            answersHeartbeat noise e.lease frames
      | (.error _, _) => false := by
    unfold isHeartbeat
    simp [phase, tag, flags, wellFormed, lease, free]
  have same {u : TargetTransport H T} (kept : tickCounters u = some (e.leaseTicks, e.missedTicks)) :
      tickCounters u = tickCounters t := by
    rw [kept]
    simp only [tickCounters, phase]
  unfold TargetTransport.leaseBytes
  simp only [phase]
  split
  · rename_i pending
    refine .kept noTick ?_ rfl
    unfold isHeartbeat
    simp [phase, Option.isNone_iff_eq_none, Option.isSome_iff_ne_none.mp pending]
  · rename_i free
    replace beats := beats (by simpa using free)
    split
    · exact .ended rfl
    · rename_i frames decoder pushed
      rw [pushed] at beats
      dsimp only at beats
      split
      · rename_i failed
        rw [failed] at beats
        exact .kept noTick (by simpa [Except.isOk, Except.toBool] using beats) (same rfl)
      · rename_i updated
        rw [updated] at beats
        replace beats : isHeartbeat noise t event = answersHeartbeat noise e.lease frames := by
          rw [beats]
          simp [Except.isOk, Except.toBool]
        split
        · exact .kept noTick beats (same rfl)
        · rename_i frame
          split
          · exact .ended rfl
          · rename_i counter lease' read
            split
            · exact .ended rfl
            · rename_i reply lease'' written
              have beaten : isHeartbeat noise t event = true := by
                rw [beats]
                unfold answersHeartbeat
                simp only [read, written]
                rfl
              split
              · exact .beaten e noTick beaten phase rfl
              · exact .beaten e noTick beaten phase rfl
        · exact .ended rfl

theorem streamBytes_paced (noise : Noise R H T) (tag : event.tag = .streamBytes) (flags : event.flags = 0)
    (absent : t.registered event.streamId = none) : Paced noise t event (t.streamBytes noise event).2 := by
  have noTick : isTick t event = false := isTick_of_tag (by simp [tag])
  have quiet (other : ∀ e, t.phase = .eligible e → e.leaseStream ≠ event.streamId) :
      isHeartbeat noise t event = false := by
    unfold isHeartbeat
    split
    · rename_i e phase
      simp [other e phase]
    · rfl
  unfold TargetTransport.streamBytes
  split
  · rename_i malformed
    refine .kept noTick ?_ rfl
    unfold isHeartbeat
    split
    · rcases malformed with none | token | empty
      all_goals simp [*]
    · rfl
  · rename_i wellFormed
    split
    · rename_i phase
      have silent : isHeartbeat noise t event = false := quiet fun e eligible => by
        rw [phase] at eligible
        cases eligible
      split
      · exact (bootstrapBytes_uncounted noise).elim .ended (.kept noTick silent)
      · exact .kept noTick silent rfl
    · rename_i e phase
      rw [registered_eligible phase] at absent
      split
      · rename_i lease
        exact leaseBytes_paced noise phase tag flags wellFormed lease
      · rename_i other
        rw [absent]
        refine .kept noTick (quiet fun e' eligible => ?_) rfl
        rw [phase] at eligible
        cases eligible
        exact other
    · rename_i ineligible
      exact .kept noTick (quiet fun e eligible => absurd eligible (ineligible e)) rfl

/-- A lease tick, once its timer is removed. -/
theorem leaseTickFired_paced (noise : Noise R H T) (tag : event.tag = .timerFired) (flags : event.flags = 0)
    (wellFormed : ¬ (event.streamId ≠ 0 ∨ event.writeToken = 0 ∨ event.bytes ≠ []))
    (fires : t.clock.timers.lookup event.writeToken = some .leaseTick) :
    Paced noise t event
      ({ t with clock := t.clock.cancel (some event.writeToken) }.leaseTickFired event.writeToken).2 := by
  have silent : isHeartbeat noise t event = false := isHeartbeat_of_tag noise (by simp [tag])
  push Not at wellFormed
  unfold TargetTransport.leaseTickFired
  dsimp only
  split
  · rename_i e phase
    split
    · rename_i other
      refine .kept ?_ silent rfl
      unfold isTick
      simp [phase, other]
    · rename_i held
      have tick : isTick t event = true := by
        unfold isTick
        simpa [phase, tag, flags, wellFormed, fires] using held
      split
      · exact .ended rfl
      · rename_i early
        split
        · exact .ended rfl
        · rename_i beating
          split
          all_goals exact .ticked e tick phase (not_le.mp early) (not_le.mp beating) rfl
  · rename_i ineligible
    refine .kept ?_ silent rfl
    unfold isTick
    split
    · rename_i e phase
      exact absurd phase (ineligible e)
    · rfl

theorem timerFired_paced (noise : Noise R H T) (tag : event.tag = .timerFired) (flags : event.flags = 0)
    (unnamed : ∀ action s, t.clock.timers.lookup event.writeToken = some action → action.stream ≠ some s) :
    Paced noise t event (t.timerFired event).2 := by
  have silent : isHeartbeat noise t event = false := isHeartbeat_of_tag noise (by simp [tag])
  have untimed (other : t.clock.timers.lookup event.writeToken ≠ some .leaseTick) : isTick t event = false := by
    unfold isTick
    split
    · simp [other]
    · rfl
  unfold TargetTransport.timerFired
  split
  · rename_i malformed
    refine .kept ?_ silent rfl
    unfold isTick
    split
    · rcases malformed with stream | none | bytes
      all_goals simp [*]
    · rfl
  · rename_i wellFormed
    cases fires : t.clock.timers.lookup event.writeToken with
    | none =>
        refine .kept (untimed ?_) silent rfl
        rw [fires]
        exact fun timer => by cases timer
    | some action =>
        cases action with
        | bootstrap | bootstrapFrame | leaseFrame => exact .ended rfl
        | leaseTick => exact leaseTickFired_paced noise tag flags wellFormed fires
        | sessionPhase s | sessionIdle s | sessionFrame s => exact absurd rfl (unnamed _ s fires)

/-- The events of a child leave the counters alone. -/
theorem ChildAnswer.paced {noise : Noise R H T} {s : Nat} {e : Eligible H T} {child : Child H T} {slip : Prop}
    {r : Answer H T} (answer : ChildAnswer s t e child slip r) (phase : t.phase = .eligible e)
    (addressed : Addressed s t event) (registered : e.leaseStream ≠ s) : Paced noise t event r.2 := by
  obtain ⟨children, eligible, -⟩ := answer.phase
  have same : tickCounters r.2 = tickCounters t := by
    simp only [tickCounters, eligible, phase]
  rcases addressed with ⟨rfl, kind⟩ | ⟨tag, action, fires, names⟩
  · refine .kept (isTick_of_tag ?_) ?_ same
    · intro tag
      simp [tag] at kind
    · unfold isHeartbeat
      simp [phase, registered]
  · refine .kept ?_ (isHeartbeat_of_tag noise (by simp [tag])) same
    unfold isTick
    simp only [phase, fires]
    cases action with
    | bootstrap | bootstrapFrame | leaseTick | leaseFrame => cases names
    | sessionPhase s | sessionIdle s | sessionFrame s => simp

/-- Every event ticks, brings a heartbeat, ends the lease, or leaves the counters alone. -/
theorem drive_paced (noise : Noise R H T) (entropy : R) (sound : Sound t) (event : Event) :
    Paced noise t event (t.drive noise entropy event).2 := by
  by_cases child : ∃ s child, t.registered s = some child ∧ Addressed s t event
  · obtain ⟨s, child, found, addressed⟩ := child
    obtain ⟨e, phase, there⟩ := registered_some found
    exact (drive_child noise entropy sound phase there addressed).paced phase addressed
      (sound.streams e s child phase there).2
  · have stream (tag : event.tag ∈ [.streamBytes, .fullWriteCommitted, .runtimeResponse, .streamEof, .streamIoFailed,
        .streamCloseNormal]) : t.registered event.streamId = none := by
      cases found : t.registered event.streamId with
      | none => rfl
      | some there => exact absurd ⟨_, there, found, .inl ⟨rfl, tag⟩⟩ child
    have timer (tag : event.tag = .timerFired) (action : TimerAction) (s : Nat)
        (fires : t.clock.timers.lookup event.writeToken = some action) : action.stream ≠ some s := by
      intro names
      cases found : t.registered s with
      | none => exact sound.unnamed s found _ _ fires names
      | some there => exact child ⟨s, there, found, .inr ⟨tag, action, fires, names⟩⟩
    unfold TargetTransport.drive
    split
    · rename_i phase
      refine .ended ?_
      simp only [tickCounters, phase]
    · split
      · rename_i flags
        refine .kept ?_ ?_ rfl
        · unfold isTick
          split
          · simp [flags]
          · rfl
        · unfold isHeartbeat
          split
          · simp [flags]
          · rfl
      · rename_i flags
        replace flags : event.flags = 0 := by simpa using flags
        cases tag : event.tag with
        | eligibilityLost =>
            exact (leaseEvent_uncounted (eligibilityLost_ends t)).paced (by simp [tag]) (by simp [tag])
        | cleanupFailed | internalError => exact (leaseEvent_uncounted rfl).paced (by simp [tag]) (by simp [tag])
        | timerFired => exact timerFired_paced noise tag flags (timer tag)
        | bootstrapConnected => exact (bootstrapConnected_uncounted noise entropy).paced (by simp [tag]) (by simp [tag])
        | fullWriteCommitted =>
            exact (fullWriteCommitted_uncounted (stream (by simp [tag]))).paced (by simp [tag]) (by simp [tag])
        | sessionAccepted => exact (sessionAccepted_uncounted noise entropy).paced (by simp [tag]) (by simp [tag])
        | runtimeResponse =>
            exact (runtimeResponse_uncounted noise (stream (by simp [tag]))).paced (by simp [tag]) (by simp [tag])
        | streamBytes => exact streamBytes_paced noise tag flags (stream (by simp [tag]))
        | streamEof | streamIoFailed | streamCloseNormal =>
            exact (streamClosed_uncounted (stream (by simp [tag]))).paced (by simp [tag]) (by simp [tag])

end

/-! ## Runs -/

/-- The answer ends the lease for this reason. -/
def EndsLease (r : Answer H T) (reason : CloseReason) : Prop :=
  ∃ o terminal, r.1 = .ok o ∧ o.kind = .leaseTerminal ∧ o.closeReason = reason ∧
    r.2.phase = .terminal terminal ∧ terminal.reason = reason

section
variable {noise : Noise R H T} {past : List (ServeStep R H T)} {step : ServeStep R H T}

theorem ticksIn_snoc : ticksIn (past ++ [step]) = ticksIn past + if isTick step.before step.input.2 then 1 else 0 := by
  simp [ticksIn, List.countP_append, List.countP_cons]

theorem missedIn_snoc : missedIn noise (past ++ [step]) =
    if isHeartbeat noise step.before step.input.2 then 0
    else missedIn noise past + if isTick step.before step.input.2 then 1 else 0 := by
  unfold missedIn
  rw [List.reverse_append, List.reverse_singleton, List.singleton_append, List.takeWhile_cons]
  cases beat : isHeartbeat noise step.before step.input.2 with
  | true => simp
  | false => simp [List.countP_cons]

theorem isTick_not_heartbeat {t : TargetTransport H T} {event : Event} (tick : isTick t event = true) :
    isHeartbeat noise t event = false := by
  refine isHeartbeat_of_tag noise fun tag => ?_
  rw [isTick_of_tag (by simp [tag])] at tick
  cases tick

theorem saturatingSucc_small {n : Nat} (small : n < 30) : TargetTransport.saturatingSucc n = n + 1 := by
  unfold TargetTransport.saturatingSucc
  omega

/-- The counters say how many ticks there were. -/
def TicksCounted (noise : Noise R H T) (past : List (ServeStep R H T)) (t : TargetTransport H T) : Prop :=
  ∀ l m, tickCounters t = some (l, m) → l = ticksIn past ∧ m = missedIn noise past ∧ l < 30 ∧ m < 4

/-- One event counts on. -/
theorem Paced.counted {t u : TargetTransport H T} {event : Event} {entropy : R} {result : Except SupervisorError Outcome}
    (paced : Paced noise t event u) (counted : TicksCounted noise past t) :
    TicksCounted noise (past ++ [⟨t, (entropy, event), result, u⟩]) u := by
  intro l m counters
  rw [ticksIn_snoc, missedIn_snoc]
  dsimp only
  have eligible {e : Eligible H T} (phase : t.phase = .eligible e) : tickCounters t = some (e.leaseTicks, e.missedTicks) := by
    simp only [tickCounters, phase]
  cases paced with
  | ended none =>
      rw [none] at counters
      cases counters
  | ticked e tick phase early beating after =>
      obtain ⟨ticks, missed, stale, lost⟩ := counted _ _ (eligible phase)
      rw [after] at counters
      rw [saturatingSucc_small stale, saturatingSucc_small (by omega)] at counters
      rw [saturatingSucc_small stale] at early
      rw [saturatingSucc_small (by omega)] at beating
      cases counters
      rw [tick, isTick_not_heartbeat tick, ← ticks, ← missed]
      exact ⟨rfl, rfl, early, beating⟩
  | beaten e noTick beat phase after =>
      obtain ⟨ticks, -, stale, -⟩ := counted _ _ (eligible phase)
      rw [after] at counters
      cases counters
      rw [noTick, beat, ← ticks]
      exact ⟨rfl, rfl, stale, by omega⟩
  | kept noTick silent same =>
      obtain ⟨ticks, missed, bounds⟩ := counted l m (same ▸ counters)
      rw [noTick, silent, ← ticks, ← missed]
      exact ⟨rfl, rfl, bounds⟩

variable {descriptor : Bytes} {draws : List Nat} {t₀ : TargetTransport H T} {ready : Outcome}

theorem reached_ticks (made : TargetTransport.create descriptor draws = .ok (t₀, ready)) (inputs : List (R × Event)) :
    TicksCounted noise (history noise t₀ inputs) (reached noise t₀ inputs) := by
  induction inputs using List.reverseRecOn with
  | nil =>
      obtain ⟨binding, key, phase, -⟩ := create_phase made
      intro l m counters
      simp only [reached, Runs.final_nil, tickCounters, phase] at counters
      cases counters
      exact ⟨rfl, rfl, by omega, by omega⟩
  | append_singleton first input ih =>
      unfold history reached
      rw [Runs.trace_append, Runs.final_append]
      exact (drive_paced noise input.1 (reached_sound noise made first) input.2).counted ih

theorem not_endsLease_error {u : TargetTransport H T} {error : SupervisorError} (reason : CloseReason) :
    ¬ EndsLease (.error error, u) reason := by
  rintro ⟨o, terminal, eq, -⟩
  cases eq

theorem not_endsLease_kind {u : TargetTransport H T} {o : Outcome} (other : o.kind ≠ .leaseTerminal) (reason : CloseReason) :
    ¬ EndsLease (.ok o, u) reason := by
  rintro ⟨o, terminal, eq, kind, -⟩
  cases eq
  exact other kind

/-- The reasons with which a firing lease tick can end the lease. -/
theorem leaseTickFired_endsLease {t : TargetTransport H T} {e : Eligible H T} {k : Nat} (phase : t.phase = .eligible e)
    (held : e.leaseTickTimer = some k) (stale : e.leaseTicks < 30) (lost : e.missedTicks < 4) (reason : CloseReason) :
    EndsLease (t.leaseTickFired k) reason ↔ e.leaseTicks + 1 = 30 ∧ reason = .stale ∨
      e.leaseTicks + 1 ≠ 30 ∧ e.missedTicks + 1 = 4 ∧ reason = .brokerLost := by
  unfold TargetTransport.leaseTickFired
  simp only [phase, held, ne_eq, not_true_eq_false, if_false]
  rw [saturatingSucc_small stale, saturatingSucc_small (by omega)]
  have ended (u : TargetTransport H T) (cause : CloseReason) :
      EndsLease (TargetTransport.answer (u.leaseTerminal cause none)) reason ↔ reason = cause := by
    constructor
    · rintro ⟨o, terminal, eq, -, same, -⟩
      cases eq
      exact same.symm
    · rintro rfl
      exact ⟨_, _, rfl, rfl, rfl, rfl, rfl⟩
  split
  · rename_i due
    rw [ended]
    have last : e.leaseTicks + 1 = 30 := by omega
    simp [last]
  · rename_i early
    split
    · rename_i due
      rw [ended]
      have last : e.missedTicks + 1 = 4 := by omega
      have sooner : e.leaseTicks + 1 ≠ 30 := by omega
      simp [last, sooner]
    · rename_i beating
      have sooner : e.leaseTicks + 1 ≠ 30 := by omega
      have fewer : e.missedTicks + 1 ≠ 4 := by omega
      simp only [sooner, fewer, false_and, and_false, or_false, iff_false]
      split
      · exact not_endsLease_error reason
      · refine not_endsLease_kind ?_ reason
        rw [Outcome.deadline_kind]
        exact fun kind => by cases kind

/-- What a firing lease tick answers. -/
theorem tick_endsLease {t : TargetTransport H T} {event : Event} (entropy : R)
    (going : ∀ terminal, t.phase ≠ .terminal terminal) (tag : event.tag = .timerFired)
    (fires : t.clock.timers.lookup event.writeToken = some .leaseTick) (counted : TicksCounted noise past t)
    (reason : CloseReason) :
    EndsLease (t.drive noise entropy event) reason ↔ isTick t event = true ∧
      (ticksIn past + 1 = 30 ∧ reason = .stale ∨
        ticksIn past + 1 ≠ 30 ∧ missedIn noise past + 1 = 4 ∧ reason = .brokerLost) := by
  have rejected (malformed : isTick t event = false) {r : Answer H T} (quiet : ¬ EndsLease r reason) {p : Prop} :
      EndsLease r reason ↔ isTick t event = true ∧ p := by
    rw [malformed]
    exact ⟨fun ends => absurd ends quiet, fun ⟨tick, _⟩ => by cases tick⟩
  unfold TargetTransport.drive
  split
  · rename_i terminal phase
    exact absurd phase (going terminal)
  · split
    · rename_i flags
      refine rejected ?_ (not_endsLease_error reason)
      unfold isTick
      split
      · simp [flags]
      · rfl
    · rename_i flags
      replace flags : event.flags = 0 := by simpa using flags
      simp only [tag]
      unfold TargetTransport.timerFired
      split
      · rename_i malformed
        refine rejected ?_ (not_endsLease_error reason)
        unfold isTick
        split
        · rcases malformed with stream | none | bytes
          all_goals simp [*]
        · rfl
      · rename_i wellFormed
        push Not at wellFormed
        simp only [fires]
        by_cases ticking : ∃ e, t.phase = .eligible e ∧ e.leaseTickTimer = some event.writeToken
        · obtain ⟨e, phase, held⟩ := ticking
          have tick : isTick t event = true := by
            unfold isTick
            simp [phase, tag, flags, wellFormed, fires, held]
          obtain ⟨ticks, missed, stale, lost⟩ := counted e.leaseTicks e.missedTicks (by simp only [tickCounters, phase])
          rw [leaseTickFired_endsLease (by exact phase) held stale lost, ← ticks, ← missed, tick]
          simp
        · refine rejected ?_ ?_
          · unfold isTick
            split
            · rename_i e phase
              have other : e.leaseTickTimer ≠ some event.writeToken := fun held => ticking ⟨e, phase, held⟩
              simp [other]
            · rfl
          · unfold TargetTransport.leaseTickFired
            dsimp only
            split
            · rename_i e phase
              have other : e.leaseTickTimer ≠ some event.writeToken := fun held => ticking ⟨e, phase, held⟩
              rw [if_pos other]
              exact not_endsLease_kind (fun kind => by cases kind) reason
            · exact not_endsLease_kind (fun kind => by cases kind) reason

theorem isTick_eligible {t : TargetTransport H T} {event : Event} (tick : isTick t event = true) :
    ∃ e, t.phase = .eligible e := by
  unfold isTick at tick
  split at tick
  · rename_i e phase
    exact ⟨e, phase⟩
  · cases tick

/-- In every state of a run that is not terminal, `terminalTimerTokens` holds the tokens whose
    timers end a child or the lease, and a lease tick ends the lease if it is the thirtieth
    (as stale) or the fourth since the last accepted heartbeat (as lost), and not otherwise. -/
theorem ticks_predicted (made : TargetTransport.create descriptor draws = .ok (t₀, ready)) (inputs : List (R × Event))
    (going : ∀ terminal, (reached noise t₀ inputs).phase ≠ .terminal terminal) (entropy : R) :
    (∀ k, k ∈ (reached noise t₀ inputs).terminalTimerTokens ↔
      Ending ((reached noise t₀ inputs).drive noise entropy (fired k)).1) ∧
    (∀ event, event.tag = .timerFired →
      (reached noise t₀ inputs).clock.timers.lookup event.writeToken = some .leaseTick →
      (isTick (reached noise t₀ inputs) event = true →
        ticksIn (history noise t₀ inputs) < 30 ∧ missedIn noise (history noise t₀ inputs) < 4) ∧
      (∀ reason, EndsLease ((reached noise t₀ inputs).drive noise entropy event) reason ↔
        isTick (reached noise t₀ inputs) event = true ∧
          (ticksIn (history noise t₀ inputs) + 1 = 30 ∧ reason = .stale ∨
            ticksIn (history noise t₀ inputs) + 1 ≠ 30 ∧ missedIn noise (history noise t₀ inputs) + 1 = 4 ∧
              reason = .brokerLost))) := by
  have sound := reached_sound noise made inputs
  have counted : TicksCounted noise (history noise t₀ inputs) (reached noise t₀ inputs) := reached_ticks made inputs
  constructor
  · intro k
    refine terminalTimerTokens_iff noise entropy sound going ?_
    obtain ⟨-, -, -, empty⟩ := create_phase made
    cases found : (reached noise t₀ inputs).clock.timers.lookup k with
    | none => exact .inr rfl
    | some action =>
        -- every token is at least the first one
        rcases (reached_ages noise t₀ inputs).timers k action found with armed | older
        · rw [empty] at armed
          cases armed
        · exact .inl ((create_positive made).trans_le older).ne'
  · intro event tag fires
    refine ⟨fun tick => ?_, tick_endsLease entropy going tag fires counted⟩
    obtain ⟨e, phase⟩ := isTick_eligible tick
    obtain ⟨ticks, missed, stale, lost⟩ := counted e.leaseTicks e.missedTicks (by simp only [tickCounters, phase])
    rw [← ticks, ← missed]
    exact ⟨stale, lost⟩

end

section
open LimitRounds

/-- The lease of the opening misses three heartbeats. -/
def missing : List (Unit × Event) := opening.take 4 ++ [((), fired 4), ((), fired 5), ((), fired 6)]

set_option maxRecDepth 20000 in
/-- The next tick is its fourth. -/
theorem missing_predicted : TargetTransport.create (encodeDescriptor LimitRounds.descriptor) [0] =
      .ok (start, (Outcome.new .endpointReady).values 0 50000) ∧
    (∃ e, (reached nonceNoise start missing).phase = .eligible e) ∧ missedIn nonceNoise (history nonceNoise start missing) = 3 ∧
    isTick (reached nonceNoise start missing) (fired 7) = true ∧
    Ending ((reached nonceNoise start missing).drive nonceNoise () (fired 7)).1 ∧
    EndsLease ((reached nonceNoise start missing).drive nonceNoise () (fired 7)) .brokerLost := by
  obtain ⟨e, phase⟩ : ∃ e, (reached nonceNoise start missing).phase = .eligible e := ⟨_, rfl⟩
  have going : ∀ terminal, (reached nonceNoise start missing).phase ≠ .terminal terminal := by
    intro terminal same
    rw [phase] at same
    cases same
  have due : (reached nonceNoise start missing).terminalTimerTokens = [7] := rfl
  obtain ⟨tokens, ends⟩ := ticks_predicted created missing going ()
  refine ⟨created, ⟨e, phase⟩, rfl, rfl, (tokens 7).mp (by simp [due]), ?_⟩
  exact ((ends (fired 7) rfl rfl).2 .brokerLost).mpr ⟨rfl, .inr ⟨by decide, rfl, rfl⟩⟩

end

end AppPilotKit.Target
