import AppPilotKit.Target.Announced

/-! # One write in flight on each stream

Frames are written by the bootstrap, by heartbeat replies and by the phases of a child, each
with a token slot of its own. Seen from one stream there is at most one of them at a time:
what an event does to the write in flight is one of a few moves.
-/

namespace AppPilotKit.Target

open Wire Transport LimitRounds

variable {R H T : Type}

/-- The token of the write that a child waits for. -/
def ChildPhase.writeToken : ChildPhase H T → Option Nat
  | .m1Pending _ token | .finishedPending _ token | .responsePending _ token | .terminalPending token _ => some token
  | _ => none

/-- The token of the write in flight on a stream. -/
def outstanding (t : TargetTransport H T) (s : Nat) : Option Nat :=
  match t.phase with
  | .bootstrapM1Pending streamId _ token _ _ => if streamId = s then some token else none
  | .bootstrapAckPending streamId _ _ _ token _ _ => if streamId = s then some token else none
  | .eligible e =>
      if e.leaseStream = s then e.leaseWrite.map (·.1) else (e.children.lookup s).bind (·.phase.writeToken)
  | _ => none

/-- `FullWriteCommitted` of a write. -/
def committing (s token : Nat) : Event := { tag := .fullWriteCommitted, streamId := s, writeToken := token }

/-- The event was refused. -/
def Declined (r : Except SupervisorError Outcome) : Prop := r = .error .wrongPhase ∨ r = .error .invalidArgument

/-- What an event does to the writes in flight. `own` is the stream that it concerns. -/
inductive Flown (own : Nat) (event : Event) (t : TargetTransport H T) : Answer H T → Prop
  | wrote {o t'} : event.tag ≠ .fullWriteCommitted → o.kind = .writeFrames → o.streamId = own → own ≠ 0 →
      outstanding t own = none → outstanding t' own = some o.writeToken → 0 < o.writeToken →
      t.clock.nextToken ≤ o.writeToken → o.writeToken < t'.clock.nextToken →
      (∀ s, s ≠ own → outstanding t' s = outstanding t s) → Flown own event t (.ok o, t')
  | committed {r t' token} : event = committing own token → outstanding t own = some token → outstanding t' own = none →
      (r = .error .internal ∧ Spent t.clock) ∨ (∃ o, r = .ok o ∧ (o.kind = .needInput ∨ o.kind = .leaseReady ∨
        o.kind = .sessionTerminal ∧ o.streamId = own)) →
      (∀ s, s ≠ own → outstanding t' s = outstanding t s) → Flown own event t (r, t')
  | ended {o t'} : event.tag ≠ .fullWriteCommitted → o.kind = .sessionTerminal → o.streamId = own →
      outstanding t' own = none → (∀ s, s ≠ own → outstanding t' s = outstanding t s) → Flown own event t (.ok o, t')
  | finished {o t'} : event.tag ≠ .fullWriteCommitted → o.kind = .leaseTerminal → Ended t' → Flown own event t (.ok o, t')
  | rested {r t'} : (∀ s, outstanding t' s = outstanding t s) →
      (∀ o, r = .ok o → o.kind ≠ .writeFrames ∧ o.kind ≠ .sessionTerminal ∧ o.kind ≠ .leaseTerminal) →
      (event.tag = .fullWriteCommitted → Declined r ∧
        ∀ s token, event = committing s token → s ≠ 0 → token ≠ 0 → outstanding t s ≠ some token) →
      Flown own event t (r, t')

section
variable {s own : Nat} {t u : TargetTransport H T} {e : Eligible H T} {child : Child H T} {event : Event} {clock : Clock}

theorem outstanding_ended (ended : Ended t) (s : Nat) : outstanding t s = none := by
  obtain ⟨terminal, phase⟩ := ended
  unfold outstanding
  rw [phase]

theorem outstanding_eligible (phase : t.phase = .eligible e) (s : Nat) : outstanding t s =
    if e.leaseStream = s then e.leaseWrite.map (·.1) else (e.children.lookup s).bind (·.phase.writeToken) := by
  unfold outstanding
  rw [phase]

theorem outstanding_child (phase : t.phase = .eligible e) (other : e.leaseStream ≠ s)
    (found : e.children.lookup s = some child) : outstanding t s = child.phase.writeToken := by
  rw [outstanding_eligible phase, if_neg other, found]
  rfl

/-- Storing a child changes what is in flight on its stream only. -/
theorem outstanding_withChild (phase : t.phase = .eligible e) (other : e.leaseStream ≠ own) (clock : Clock)
    (child : Child H T) :
    outstanding ({ t with clock }.withChild e own child) own = child.phase.writeToken ∧
      ∀ s, s ≠ own → outstanding ({ t with clock }.withChild e own child) s = outstanding t s := by
  constructor
  · have found : (e.children.insert own child).lookup own = some child := AList.lookup_insert _
    exact outstanding_child rfl other found
  · intro s differs
    have stored : ({ t with clock }.withChild e own child).phase = .eligible { e with children := e.children.insert own child } :=
      rfl
    rw [outstanding_eligible stored, outstanding_eligible phase, AList.lookup_insert_ne differs]

theorem Clock.scheduleTimer_spent {c c' : Clock} {action : TimerAction} {error : SupervisorError}
    (positive : 0 < c.nextToken) (eq : c.scheduleTimer action = (.error error, c')) : error = .internal ∧ Spent c := by
  refine ⟨scheduleTimer_error eq, ?_⟩
  unfold scheduleTimer at eq
  split at eq
  · rename_i failed
    exact allocateToken_spent positive failed
  · cases eq

theorem replaceChildTimer_spent {child child' : Child H T} {c c' : Clock} {action : TimerAction}
    {error : SupervisorError} (positive : 0 < c.nextToken)
    (eq : replaceChildTimer child c action = (.error error, child', c')) : error = .internal ∧ Spent c := by
  unfold replaceChildTimer at eq
  dsimp only at eq
  have tokens := Clock.cancel_nextToken c child.phaseTimer
  split at eq
  · rename_i failed
    cases eq
    obtain ⟨same, spent⟩ := Clock.scheduleTimer_spent (tokens ▸ positive) failed
    exact ⟨same, by unfold Spent at spent ⊢; rw [← tokens]; exact spent⟩
  · cases eq

theorem replaceChildTimer_phase {child child' : Child H T} {c c' : Clock} {action : TimerAction}
    {result : Except SupervisorError Nat} (eq : replaceChildTimer child c action = (result, child', c')) :
    child'.phase = child.phase := by
  unfold replaceChildTimer at eq
  dsimp only at eq
  split at eq
  · cases eq
    rfl
  · cases eq
    rfl

theorem Flown.rejected {error : SupervisorError} (refused : Declined (.error error))
    (unmatched : event.tag = .fullWriteCommitted → ∀ s token, event = committing s token → s ≠ 0 → token ≠ 0 →
      outstanding t s ≠ some token) : Flown own event t (.error error, t) := by
  refine .rested (fun _ => rfl) (fun o same => ?_) fun tag => ⟨refused, unmatched tag⟩
  cases same

/-- An error that is not about a commit. -/
theorem Flown.failed {error : SupervisorError} (other : event.tag ≠ .fullWriteCommitted)
    (same : ∀ s, outstanding u s = outstanding t s) : Flown own event t (.error error, u) := by
  refine .rested same (fun o answered => ?_) fun tag => absurd tag other
  cases answered

theorem Flown.went {o : Outcome} (other : event.tag ≠ .fullWriteCommitted) (same : ∀ s, outstanding u s = outstanding t s)
    (kind : o.kind ≠ .writeFrames ∧ o.kind ≠ .sessionTerminal ∧ o.kind ≠ .leaseTerminal) :
    Flown own event t (.ok o, u) :=
  .rested same (fun o' ok => by cases ok; exact kind) fun tag => absurd tag other

theorem leaseTerminal_flown (other : event.tag ≠ .fullWriteCommitted) (u : TargetTransport H T) (reason : CloseReason)
    (peer : Option (CloseReason × HandoffState)) : Flown own event t (TargetTransport.answer (u.leaseTerminal reason peer)) :=
  .finished other rfl (leaseTerminal_ended u reason peer)

/-- A state on the way to the end of a child: its stream has `own`, and no other changed. -/
structure Placed (own : Nat) (t u : TargetTransport H T) (e : Eligible H T) (child : Child H T) : Prop where
  phase : u.phase = .eligible e
  found : e.children.lookup own = some child
  other : e.leaseStream ≠ own
  others : ∀ s, s ≠ own → outstanding u s = outstanding t s

theorem Placed.stored (phase : t.phase = .eligible e) (other : e.leaseStream ≠ own) (clock : Clock) (child : Child H T) :
    Placed own t ({ t with clock }.withChild e own child) { e with children := e.children.insert own child } child :=
  ⟨rfl, AList.lookup_insert _, other, (outstanding_withChild phase other clock child).2⟩

theorem Placed.ticked (w : Placed own t u e child) (clock : Clock) : Placed own t { u with clock } e child :=
  ⟨w.phase, w.found, w.other, w.others⟩

theorem Placed.childTerminal (w : Placed own t u e child) (commits : event.tag ≠ .fullWriteCommitted) (reason : CloseReason)
    (peer : Option (CloseReason × HandoffState)) :
    Flown own event t (TargetTransport.answer (u.childTerminal own reason peer)) := by
  unfold TargetTransport.childTerminal TargetTransport.answer
  simp only [w.phase, w.found]
  refine .ended commits rfl rfl ?_ fun s differs => ?_
  · simp only [outstanding, if_neg w.other, AList.lookup_erase, Option.bind_none]
  · rw [← w.others s differs]
    simp only [outstanding, w.phase, AList.lookup_erase_ne differs]

/-- A core error writes a Close frame only when no other write is in flight. -/
theorem Placed.childCoreError (w : Placed own t u e child) (commits : event.tag ≠ .fullWriteCommitted) (nonzero : own ≠ 0)
    (positive : 0 < t.clock.nextToken) (tokens : t.clock.nextToken ≤ u.clock.nextToken) (error : Error)
    (idle : error.closeFrame.isSome → outstanding t own = none) :
    Flown own event t (TargetTransport.answer (u.childCoreError own error)) := by
  unfold TargetTransport.childCoreError
  cases close : error.closeFrame with
  | none => exact w.childTerminal commits _ _
  | some frame =>
      dsimp only
      cases allocated : u.clock.allocateToken with
      | mk result clock =>
          cases result with
          | error _ => exact (w.ticked clock).childTerminal commits _ _
          | ok token =>
              obtain ⟨rfl, rfl⟩ := Clock.allocateToken_ok allocated
              simp only [w.phase, w.found, TargetTransport.answer]
              obtain ⟨here, there⟩ := outstanding_withChild w.phase w.other { u.clock with nextToken := u.clock.nextToken + 1 }
                { child with
                  phase := .terminalPending u.clock.nextToken ⟨error.reason, u.childHandoff own, error.peerClose⟩ }
              exact .wrote commits rfl rfl nonzero (idle (by rw [close]; rfl)) here (positive.trans_le tokens) tokens
                (Nat.lt_succ_self _) fun s differs => (there s differs).trans (w.others s differs)

/-- A write by the child of `own`. -/
theorem child_wrote {token : Nat} {o : Outcome} {child' : Child H T} (phase : t.phase = .eligible e)
    (other : e.leaseStream ≠ own) (commits : event.tag ≠ .fullWriteCommitted) (nonzero : own ≠ 0)
    (idle : outstanding t own = none) (positive : 0 < t.clock.nextToken) (kind : o.kind = .writeFrames)
    (stream : o.streamId = own) (written : o.writeToken = token) (waits : child'.phase.writeToken = some token)
    (fresh : t.clock.nextToken ≤ token) (given : token < clock.nextToken) :
    Flown own event t (.ok o, { t with clock }.withChild e own child') := by
  obtain ⟨here, there⟩ := outstanding_withChild phase other clock child'
  rw [waits] at here
  subst written
  exact .wrote commits kind stream nonzero idle here (positive.trans_le fresh) fresh given there

theorem deadline_written {o : Outcome} (written : o.writeToken ≠ 0) (timer ms : Nat) :
    (o.deadline timer ms).writeToken = o.writeToken := by
  simp only [Outcome.deadline, if_neg written]

theorem withFrameDeadline_written {o : Outcome} (written : o.writeToken ≠ 0) (started : Option Nat) :
    (o.withFrameDeadline started).writeToken = o.writeToken ∧ (o.withFrameDeadline started).streamId = o.streamId := by
  cases started with
  | none => exact ⟨rfl, rfl⟩
  | some timer => exact ⟨deadline_written written timer _, Outcome.deadline_streamId o timer _⟩

theorem finishApplications_flown (phase : t.phase = .eligible e) (other : e.leaseStream ≠ own)
    (commits : event.tag ≠ .fullWriteCommitted) (nonzero : own ≠ 0) (idle : outstanding t own = none)
    (positive : 0 < t.clock.nextToken) (tokens : t.clock.nextToken ≤ clock.nextToken) {started : Option Nat}
    (read : TargetTransport.ApplicationRead H T) :
    Flown own event t ({ t with clock }.finishApplications e own child started read) := by
  have still (clock : Clock) (child' : Child H T) (waits : child'.phase.writeToken = none) :
      ∀ s, outstanding ({ t with clock }.withChild e own child') s = outstanding t s := by
    obtain ⟨here, there⟩ := outstanding_withChild phase other clock child'
    intro s
    by_cases same : s = own
    · rw [same, here, waits, idle]
    · exact there s same
  have gone := Placed.stored phase other clock { child with phase := .terminal }
  cases read with
  | second => exact gone.childTerminal commits _ _
  | failed error => exact gone.childCoreError commits nonzero positive tokens error fun _ => idle
  | done session application =>
      cases application with
      | none =>
          refine .went commits (still clock _ rfl) ?_
          rw [withFrameDeadline_kind]
          exact ⟨nofun, nofun, nofun⟩
      | some bytes =>
          have delivers (timer ms : Nat) : ((Outcome.application own bytes).deadline timer ms).kind ≠ .writeFrames ∧
              ((Outcome.application own bytes).deadline timer ms).kind ≠ .sessionTerminal ∧
              ((Outcome.application own bytes).deadline timer ms).kind ≠ .leaseTerminal := by
            rw [Outcome.deadline_kind]
            exact ⟨nofun, nofun, nofun⟩
          simp only [TargetTransport.finishApplications]
          split
          · exact .failed commits (still clock _ rfl)
          · split
            · exact .went commits (still _ _ rfl) (delivers _ _)
            · split
              · rename_i replaced
                have kept := replaceChildTimer_phase replaced
                exact .failed commits (still _ _ (by rw [kept]; rfl))
              · rename_i replaced
                have kept := replaceChildTimer_phase replaced
                exact .went commits (still _ _ (by rw [kept]; rfl)) (delivers _ _)

theorem sessionFrames_flown (noise : Noise R H T) (phase : t.phase = .eligible e) (other : e.leaseStream ≠ own)
    (found : e.children.lookup own = some child) (commits : event.tag ≠ .fullWriteCommitted) (nonzero : own ≠ 0)
    (positive : 0 < t.clock.nextToken) (tokens : t.clock.nextToken ≤ clock.nextToken) (child' : Child H T)
    (same : child'.phase = child.phase) {started : Option Nat} {first : Bytes} {more : List Bytes} :
    Flown own event t ({ t with clock }.sessionFrames noise e own child' started first more) := by
  have before : outstanding t own = child'.phase.writeToken := by rw [outstanding_child phase other found, same]
  have gone := Placed.stored phase other clock { child' with phase := .terminal }
  have still (phase' : ChildPhase H T) (waits : phase'.writeToken = outstanding t own) (clock : Clock) :
      ∀ s, outstanding ({ t with clock }.withChild e own { child' with phase := phase' }) s = outstanding t s := by
    obtain ⟨here, there⟩ := outstanding_withChild phase other clock { child' with phase := phase' }
    intro s
    by_cases same : s = own
    · rw [same, here, waits]
    · exact there s same
  unfold TargetTransport.sessionFrames
  dsimp only
  cases at_ : child'.phase with
  | awaitM2 session =>
      have idle : outstanding t own = none := by rw [before, at_]; rfl
      dsimp only
      split
      · exact gone.childTerminal commits _ _
      · split
        · exact gone.childCoreError commits nonzero positive tokens _ fun _ => idle
        · split
          · exact gone.childCoreError commits nonzero positive tokens _ fun _ => idle
          · split
            · exact .failed commits (still .terminal idle.symm _)
            · rename_i allocated
              obtain ⟨rfl, rfl⟩ := Clock.allocateToken_ok allocated
              obtain ⟨written, stream⟩ := withFrameDeadline_written (o := .write own clock.nextToken _)
                (positive.trans_le tokens).ne' started
              exact child_wrote phase other commits nonzero idle positive (withFrameDeadline_kind _ _) stream written rfl
                tokens (Nat.lt_succ_self _)
  | awaitFinished session =>
      have idle : outstanding t own = none := by rw [before, at_]; rfl
      dsimp only
      split
      · exact gone.childCoreError commits nonzero positive tokens _ fun _ => idle
      · exact finishApplications_flown phase other commits nonzero idle positive tokens _
  | awaitApplication session =>
      have idle : outstanding t own = none := by rw [before, at_]; rfl
      exact finishApplications_flown phase other commits nonzero idle positive tokens _
  | m1Pending | finishedPending | awaitRuntime | responsePending | terminalPending | terminal =>
      refine .failed commits (still child'.phase ?_ clock)
      rw [before]

theorem drain_silent {fuel : Nat} {d d' : OuterFrameDecoder} {frames : List Bytes} {error : Error}
    (failed : OuterFrameDecoder.drain fuel d frames = (.error error, d')) : error.closeFrame = none := by
  induction fuel generalizing d frames with
  | zero => cases failed
  | succ fuel ih =>
      unfold OuterFrameDecoder.drain at failed
      split at failed
      · split at failed
        · dsimp only at failed
          split at failed
          · cases failed
            rfl
          · exact ih failed
        · cases failed
      · split at failed
        · cases failed
        · split at failed
          · rename_i refused
            cases failed
            unfold encodeOuter at refused
            split at refused
            · cases refused
              rfl
            · split at refused
              · cases refused
                rfl
              · cases refused
          · exact ih failed

theorem push_silent {d d' : OuterFrameDecoder} {input : Bytes} {error : Error} (failed : d.push input = (.error error, d')) :
    error.closeFrame = none := by
  unfold OuterFrameDecoder.push at failed
  split at failed
  · cases failed
    rfl
  · exact drain_silent failed

theorem sessionBytes_flown (noise : Noise R H T) (phase : t.phase = .eligible e) (other : e.leaseStream ≠ event.streamId)
    (found : e.children.lookup event.streamId = some child) (commits : event.tag ≠ .fullWriteCommitted)
    (nonzero : event.streamId ≠ 0) (positive : 0 < t.clock.nextToken) :
    Flown event.streamId event t (t.sessionBytes noise event) := by
  have still (decoder : OuterFrameDecoder) (frameTimer : Option Nat) (clock : Clock) (s : Nat) :
      outstanding ({ t with clock }.withChild e event.streamId { child with decoder, frameTimer }) s = outstanding t s := by
    obtain ⟨here, there⟩ := outstanding_withChild phase other clock { child with decoder, frameTimer }
    by_cases same : s = event.streamId
    · rw [same, here, outstanding_child phase other found]
    · exact there s same
  unfold TargetTransport.sessionBytes
  simp only [phase, found]
  cases pushed : child.decoder.push event.bytes with
  | mk result decoder =>
      cases result with
      | error error =>
          have silent := push_silent pushed
          have stored := Placed.stored phase other t.clock { child with decoder }
          exact stored.childCoreError commits nonzero positive le_rfl error fun close => by rw [silent] at close; cases close
      | ok frames =>
          dsimp only
          cases updated : t.clock.updateFrameTimer decoder.isIncomplete child.frameTimer (.sessionFrame event.streamId) with
          | mk result rest =>
              obtain ⟨frameTimer, clock⟩ := rest
              have tokens := (Ages.updateFrameTimer updated).tokens
              cases result with
              | error error => exact .failed commits (still _ _ _)
              | ok started =>
                  cases frames with
                  | nil =>
                      refine .went commits (still _ _ _) ?_
                      rw [withFrameDeadline_kind]
                      exact ⟨nofun, nofun, nofun⟩
                  | cons first more =>
                      simpa only [phase] using sessionFrames_flown noise phase other found commits nonzero positive tokens
                        { child with decoder, frameTimer } rfl

/-- Lease fields other than the pending reply do not count. -/
theorem outstanding_lease {e' : Eligible H T} (phase : t.phase = .eligible e) (after : u.phase = .eligible e')
    (stream : e'.leaseStream = e.leaseStream) (write : e'.leaseWrite = e.leaseWrite) (children : e'.children = e.children)
    (s : Nat) : outstanding u s = outstanding t s := by
  rw [outstanding_eligible phase, outstanding_eligible after, stream, write, children]

theorem leaseBytes_flown (noise : Noise R H T) (phase : t.phase = .eligible e) (lease : e.leaseStream = event.streamId)
    (commits : event.tag ≠ .fullWriteCommitted) (nonzero : event.streamId ≠ 0) (positive : 0 < t.clock.nextToken) :
    Flown event.streamId event t (t.leaseBytes noise event) := by
  unfold TargetTransport.leaseBytes
  simp only [phase]
  split
  · exact .failed commits fun _ => rfl
  rename_i quiet
  have idle : outstanding t event.streamId = none := by
    rw [outstanding_eligible phase, if_pos lease]
    simpa using quiet
  split
  · exact leaseTerminal_flown commits _ _ _
  · split
    · exact .failed commits (outstanding_lease phase rfl rfl rfl rfl)
    · rename_i updated
      have tokens := (Ages.updateFrameTimer updated).tokens
      split
      · refine .went commits (outstanding_lease phase rfl rfl rfl rfl) ?_
        rw [withFrameDeadline_kind]
        exact ⟨nofun, nofun, nofun⟩
      · split
        · exact leaseTerminal_flown commits _ _ _
        · split
          · exact leaseTerminal_flown commits _ _ _
          · split
            · exact .failed commits (outstanding_lease phase rfl rfl rfl rfl)
            · rename_i allocated
              obtain ⟨rfl, rfl⟩ := Clock.allocateToken_ok allocated
              obtain ⟨written, stream⟩ := withFrameDeadline_written (o := .write event.streamId _ _)
                (positive.trans_le tokens).ne' _
              refine .wrote commits (withFrameDeadline_kind _ _) stream nonzero idle ?_ ?_ ?_ ?_ fun s differs => ?_
              · rw [written]
                simp only [outstanding, if_pos lease]
                rfl
              · rw [written]
                exact positive.trans_le tokens
              · rw [written]
                exact tokens
              · rw [written]
                exact Nat.lt_succ_self _
              · have apart : e.leaseStream ≠ s := fun same => differs (same.symm.trans lease)
                rw [outstanding_eligible phase, if_neg apart]
                simp only [outstanding, if_neg apart]
      · exact leaseTerminal_flown commits _ _ _

/-- Before the lease is ready there are no writes but those of the bootstrap stream. -/
theorem bootstrapBytes_flown (noise : Noise R H T) {streamId : Nat} {bootstrap : TargetBootstrap H}
    {decoder : OuterFrameDecoder} {frameTimer : Option Nat}
    (phase : t.phase = .bootstrapM2 streamId bootstrap decoder frameTimer) (commits : event.tag ≠ .fullWriteCommitted)
    (nonzero : streamId ≠ 0) (positive : 0 < t.clock.nextToken) : Flown streamId event t (t.bootstrapBytes noise event) := by
  have none (s : Nat) : outstanding t s = none := by
    unfold outstanding
    rw [phase]
  unfold TargetTransport.bootstrapBytes
  simp only [phase]
  split
  · exact leaseTerminal_flown commits _ _ _
  · split
    · exact .failed commits fun s => (outstanding_ended ⟨_, rfl⟩ s).trans (none s).symm
    · rename_i updated
      have tokens : t.clock.nextToken ≤ _ := (Ages.updateFrameTimer updated).tokens
      split
      · refine .went commits (fun s => (none s).symm) ?_
        rw [withFrameDeadline_kind]
        exact ⟨nofun, nofun, nofun⟩
      · split
        · exact leaseTerminal_flown commits _ _ _
        · split
          · exact leaseTerminal_flown commits _ _ _
          · split
            · exact .failed commits fun s => (outstanding_ended ⟨_, rfl⟩ s).trans (none s).symm
            · rename_i allocated
              obtain ⟨rfl, rfl⟩ := Clock.allocateToken_ok allocated
              obtain ⟨written, stream⟩ := withFrameDeadline_written (o := .write streamId _ _) (positive.trans_le tokens).ne' _
              refine .wrote commits (withFrameDeadline_kind _ _) stream nonzero (none _) ?_ ?_ ?_ ?_ fun s differs => ?_
              · rw [written]
                simp only [outstanding, if_true]
                rfl
              · rw [written]
                exact positive.trans_le tokens
              · rw [written]
                exact tokens
              · rw [written]
                exact Nat.lt_succ_self _
              · rw [none]
                simp only [outstanding, if_neg differs.symm]
      · exact leaseTerminal_flown commits _ _ _

theorem streamBytes_flown (noise : Noise R H T) (tag : event.tag = .streamBytes) (positive : 0 < t.clock.nextToken) :
    Flown event.streamId event t (t.streamBytes noise event) := by
  have commits : event.tag ≠ .fullWriteCommitted := by simp [tag]
  have refused (error : SupervisorError) : Flown event.streamId event t (.error error, t) := .failed commits fun _ => rfl
  unfold TargetTransport.streamBytes
  split
  · exact refused _
  rename_i wellFormed
  push Not at wellFormed
  split
  · rename_i phase
    split
    · rename_i same
      rw [← same]
      exact bootstrapBytes_flown noise phase commits (same ▸ wellFormed.1) positive
    · exact refused _
  · rename_i phase
    split
    · rename_i lease
      exact leaseBytes_flown noise phase lease commits wellFormed.1 positive
    · rename_i other
      split
      · rename_i there
        obtain ⟨child, found⟩ := Option.isSome_iff_exists.mp there
        exact sessionBytes_flown noise phase other found commits wellFormed.1 positive
      · exact refused _
  · exact refused _

theorem bootstrapConnected_flown (noise : Noise R H T) (entropy : R) (commits : event.tag ≠ .fullWriteCommitted)
    (positive : 0 < t.clock.nextToken) : Flown event.streamId event t (t.bootstrapConnected noise entropy event) := by
  have refused (error : SupervisorError) : Flown event.streamId event t (.error error, t) := .failed commits fun _ => rfl
  unfold TargetTransport.bootstrapConnected
  split
  · exact refused _
  rename_i wellFormed
  push Not at wellFormed
  split
  · rename_i phase
    have none (s : Nat) : outstanding t s = none := by
      unfold outstanding
      rw [phase]
    dsimp only [TargetTransport.movedOut]
    split
    · exact leaseTerminal_flown commits _ _ _
    · split
      · exact leaseTerminal_flown commits _ _ _
      · split
        · exact .failed commits fun s => (outstanding_ended ⟨_, rfl⟩ s).trans (none s).symm
        · rename_i allocated
          obtain ⟨rfl, rfl⟩ := Clock.allocateToken_ok allocated
          split
          · exact .failed commits fun s => (outstanding_ended ⟨_, rfl⟩ s).trans (none s).symm
          · rename_i scheduled
            have later := (Ages.schedule scheduled).tokens
            have written (frames : Bytes) (timer : Nat) :
                ((Outcome.write event.streamId t.clock.nextToken frames).deadline timer bootstrapDeadlineMs).writeToken =
                  t.clock.nextToken :=
              deadline_written (o := .write event.streamId t.clock.nextToken frames) positive.ne' timer bootstrapDeadlineMs
            refine .wrote commits (Outcome.deadline_kind _ _ _) (Outcome.deadline_streamId _ _ _) wellFormed.1 (none _) ?_ ?_ ?_
              ?_ fun s differs => ?_
            · rw [written]
              simp only [outstanding, if_true]
            · rw [written]
              exact positive
            · rw [written]
            · rw [written]
              exact later
            · rw [none]
              simp only [outstanding, if_neg differs.symm]
  · exact refused _

theorem sessionAccepted_flown (noise : Noise R H T) (entropy : R) (commits : event.tag ≠ .fullWriteCommitted)
    (positive : 0 < t.clock.nextToken) : Flown event.streamId event t (t.sessionAccepted noise entropy event) := by
  have refused (error : SupervisorError) : Flown event.streamId event t (.error error, t) := .failed commits fun _ => rfl
  unfold TargetTransport.sessionAccepted
  split
  · exact refused _
  rename_i wellFormed
  push Not at wellFormed
  split
  · rename_i e phase
    split
    · exact refused _
    rename_i free
    push Not at free
    obtain ⟨other, absent⟩ := free
    have absent : e.children.lookup event.streamId = none := by simpa using absent
    have idle : outstanding t event.streamId = none := by
      rw [outstanding_eligible phase, if_neg other.symm, absent]
      rfl
    split
    · exact refused _
    · split
      · exact refused _
      · split
        · exact .failed commits fun _ => rfl
        · rename_i allocated
          obtain ⟨rfl, rfl⟩ := Clock.allocateToken_ok allocated
          split
          · exact .failed commits fun _ => rfl
          · rename_i scheduled
            have later := (Ages.schedule scheduled).tokens
            refine child_wrote phase other.symm commits wellFormed.1 idle positive (Outcome.deadline_kind _ _ _)
              (Outcome.deadline_streamId _ _ _) ?_ rfl le_rfl later
            exact deadline_written (o := .write event.streamId t.clock.nextToken _) positive.ne' _ _
  · exact refused _

theorem runtimeResponse_flown (noise : Noise R H T) (sound : Sound t) (commits : event.tag ≠ .fullWriteCommitted)
    (positive : 0 < t.clock.nextToken) : Flown event.streamId event t (t.runtimeResponse noise event) := by
  have refused (error : SupervisorError) : Flown event.streamId event t (.error error, t) := .failed commits fun _ => rfl
  unfold TargetTransport.runtimeResponse
  split
  · exact refused _
  rename_i wellFormed
  push Not at wellFormed
  split
  · rename_i e phase
    split
    · exact refused _
    · rename_i child found
      have other := (sound.streams e event.streamId child phase found).2
      split
      · rename_i session at_
        have idle : outstanding t event.streamId = none := by
          rw [outstanding_child phase other found, at_]
          rfl
        have stored := Placed.stored phase other t.clock { child with phase := .terminal }
        dsimp only
        split
        · exact stored.childCoreError commits wellFormed.1 positive le_rfl _ fun _ => idle
        · split
          · refine .failed commits fun s => ?_
            by_cases same : s = event.streamId
            · rw [same, idle]
              exact (outstanding_withChild phase other _ _).1
            · exact stored.others s same
          · rename_i allocated
            obtain ⟨rfl, rfl⟩ := Clock.allocateToken_ok allocated
            exact child_wrote phase other commits wellFormed.1 idle positive rfl rfl rfl rfl le_rfl (Nat.lt_succ_self _)
      · exact refused _
  · exact refused _

theorem eof_silent {d d' : OuterFrameDecoder} {error : Error} (failed : d.eof = (.error error, d')) :
    error.closeFrame = none := by
  unfold OuterFrameDecoder.eof at failed
  split at failed
  · cases failed
    rfl
  · split at failed
    · cases failed
      rfl
    · cases failed

theorem reassembler_eof_silent {r r' : RecordReassembler} {error : Error} (failed : r.eof = (.error error, r')) :
    error.closeFrame = none := by
  unfold RecordReassembler.eof at failed
  split at failed
  · cases failed
    rfl
  · split at failed
    · cases failed
      rfl
    · cases failed

theorem session_eof_silent {session session' : TargetSession H T} {error : Error}
    (failed : session.eof = (.error error, session')) : error.closeFrame = none := by
  unfold TargetSession.eof TargetSession.wrap SessionCore.eof at failed
  split at failed
  · cases failed
    rfl
  · split at failed
    · rename_i rejected
      cases failed
      exact reassembler_eof_silent rejected
    · cases failed
      rfl

theorem eofError_silent {child child' : Child H T} {error : Error} (failed : child.eofError = (some error, child')) :
    error.closeFrame = none := by
  unfold Child.eofError at failed
  split at failed
  · rename_i rejected
    cases failed
    exact eof_silent rejected
  · dsimp only at failed
    cases phase : child.phase with
    | m1Pending session | awaitM2 session | finishedPending session | awaitFinished session | awaitApplication session
    | awaitRuntime session | responsePending session =>
        simp only [phase, Child.eofSession] at failed
        cases ended : session.eof with
        | mk result after =>
            simp only [ended] at failed
            cases result with
            | error reason =>
                simp only at failed
                split at failed
                · cases failed
                  exact session_eof_silent ended
                · cases failed
            | ok _ => cases failed
    | terminalPending | terminal =>
        simp only [phase, Child.eofSession] at failed
        cases failed

theorem streamEnd_flown (s : Nat) (commits : event.tag ≠ .fullWriteCommitted) (nonzero : s ≠ 0)
    (positive : 0 < t.clock.nextToken) (reason : CloseReason) (orderly : Bool) :
    Flown s event t (t.streamEnd s reason orderly) := by
  have refused : Flown s event t (.error .wrongPhase, t) := .failed commits fun _ => rfl
  unfold TargetTransport.streamEnd
  split
  · split
    · split
      · exact leaseTerminal_flown commits _ _ _
      · exact leaseTerminal_flown commits _ _ _
    · exact refused
  · split
    · split
      · exact leaseTerminal_flown commits _ _ _
      · exact leaseTerminal_flown commits _ _ _
    · exact refused
  · split
    · split
      · exact leaseTerminal_flown commits _ _ _
      · exact leaseTerminal_flown commits _ _ _
    · exact refused
  · rename_i e phase
    split
    · split
      · exact leaseTerminal_flown commits _ _ _
      · exact leaseTerminal_flown commits _ _ _
    · rename_i other
      split
      · exact refused
      · rename_i child found
        split
        · rename_i error child' ended
          refine (Placed.stored phase other t.clock child').childCoreError commits nonzero positive le_rfl error fun close => ?_
          split at ended
          · rw [eofError_silent ended] at close
            cases close
          · cases ended
        · exact (Placed.stored phase other t.clock _).childTerminal commits _ _
  · exact refused

theorem streamClosed_flown (commits : event.tag ≠ .fullWriteCommitted) (positive : 0 < t.clock.nextToken) :
    Flown event.streamId event t (t.streamClosed event) := by
  unfold TargetTransport.streamClosed
  split
  · exact .failed commits fun _ => rfl
  · rename_i wellFormed
    push Not at wellFormed
    split
    · exact streamEnd_flown _ commits wellFormed.1 positive _ _
    · exact streamEnd_flown _ commits wellFormed.1 positive _ _
    · exact streamEnd_flown _ commits wellFormed.1 positive _ _

/-- A commit that matches no write in flight. -/
theorem unmatched (nothing : outstanding t event.streamId ≠ some event.writeToken) :
    ∀ s token, event = committing s token → s ≠ 0 → token ≠ 0 → outstanding t s ≠ some token := by
  rintro s token rfl - -
  exact nothing

theorem commitChildWrite_flown (phase : t.phase = .eligible e) (other : e.leaseStream ≠ event.streamId)
    (positive : 0 < t.clock.nextToken) (commits : event = committing event.streamId event.writeToken) :
    Flown event.streamId event t (putBack (t.movedOut.commitChildWrite e event.streamId event.writeToken)) := by
  have rejected (nothing : outstanding t event.streamId ≠ some event.writeToken) :
      Flown event.streamId event t (putBack ((.error .wrongPhase, t.movedOut), e)) := by
    have same : putBack ((.error .wrongPhase, t.movedOut), e) = (.error .wrongPhase, t) := by
      unfold putBack
      rw [← phase]
      rfl
    rw [same]
    exact .rejected (.inl rfl) fun _ => unmatched nothing
  -- a commit that matches stores the child in a phase that waits for no write
  have moved {r : Except SupervisorError Outcome} {child : Child H T} {clock : Clock}
      (waits : outstanding t event.streamId = some event.writeToken) (done : child.phase.writeToken = none)
      (carried : r = .error .internal ∧ Spent t.clock ∨ ∃ o, r = .ok o ∧ (o.kind = .needInput ∨ o.kind = .leaseReady ∨
        o.kind = .sessionTerminal ∧ o.streamId = event.streamId)) :
      Flown event.streamId event t (r, { t with clock }.withChild e event.streamId child) := by
    obtain ⟨here, there⟩ := outstanding_withChild phase other clock child
    rw [done] at here
    exact .committed commits waits here carried there
  have absent (none : e.children.lookup event.streamId = none) : outstanding t event.streamId ≠ some event.writeToken := by
    rw [outstanding_eligible phase, if_neg other, none]
    nofun
  unfold TargetTransport.commitChildWrite
  dsimp only
  cases found : e.children.lookup event.streamId with
  | none => exact rejected (absent found)
  | some child =>
      have waits := outstanding_child phase other found
      have needsInput (o : Outcome) (kind : o.kind = .needInput) :
          (.ok o : Except SupervisorError Outcome) = .error .internal ∧ Spent t.clock ∨
            ∃ o', (.ok o : Except SupervisorError Outcome) = .ok o' ∧ (o'.kind = .needInput ∨ o'.kind = .leaseReady ∨
              o'.kind = .sessionTerminal ∧ o'.streamId = event.streamId) := .inr ⟨o, rfl, .inl kind⟩
      dsimp only
      cases at_ : child.phase with
      | m1Pending session token | finishedPending session token =>
          rw [at_] at waits
          dsimp only
          split
          · rename_i same
            exact moved (same ▸ waits) rfl (needsInput _ rfl)
          · rename_i differs
            exact rejected (by rw [waits]; simpa [ChildPhase.writeToken] using differs)
      | responsePending session token =>
          rw [at_] at waits
          dsimp only
          split
          · rename_i same
            split
            · rename_i failed
              obtain ⟨rfl, spent⟩ := replaceChildTimer_spent positive failed
              exact moved (same ▸ waits) (by rw [replaceChildTimer_phase failed]; rfl) (.inl ⟨rfl, spent⟩)
            · rename_i replaced
              exact moved (same ▸ waits) (by rw [replaceChildTimer_phase replaced]; rfl)
                (needsInput _ (Outcome.deadline_kind _ _ _))
          · rename_i differs
            exact rejected (by rw [waits]; simpa [ChildPhase.writeToken] using differs)
      | terminalPending token terminal =>
          rw [at_] at waits
          dsimp only
          split
          · rename_i same
            exact moved (same ▸ waits) rfl (.inr ⟨_, rfl, .inr (.inr ⟨rfl, rfl⟩)⟩)
          · rename_i differs
            exact rejected (by rw [waits]; simpa [ChildPhase.writeToken] using differs)
      | awaitM2 | awaitFinished | awaitApplication | awaitRuntime | terminal =>
          rw [at_] at waits
          exact rejected (by rw [waits]; nofun)

theorem fullWriteCommitted_flown (positive : 0 < t.clock.nextToken) (flags : event.flags = 0)
    (tag : event.tag = .fullWriteCommitted) :
    Flown event.streamId event t (t.fullWriteCommitted event) := by
  have refused (nothing : outstanding t event.streamId ≠ some event.writeToken) :
      Flown event.streamId event t (.error .wrongPhase, t) := .rejected (.inl rfl) fun _ => unmatched nothing
  unfold TargetTransport.fullWriteCommitted
  split
  · rename_i malformed
    refine .rejected (.inr rfl) fun _ s token same nonzero given => ?_
    rw [same] at malformed
    simp [committing, nonzero, given] at malformed
  rename_i wellFormed
  push Not at wellFormed
  obtain ⟨nonzero, given, empty⟩ := wellFormed
  have commits : event = committing event.streamId event.writeToken := by
    obtain ⟨_, _, _, _, _⟩ := event
    simp only at flags tag empty
    subst flags tag empty
    rfl
  cases phase : t.phase with
  | bootstrapM1Pending streamId bootstrap writeToken decoder frameTimer =>
      have waits (s : Nat) : outstanding t s = if streamId = s then some writeToken else none := by
        unfold outstanding
        rw [phase]
      dsimp only
      split
      · rename_i same
        obtain ⟨rfl, matches_⟩ := same
        refine .committed commits (by rw [waits, if_pos rfl, matches_]) rfl (.inr ⟨_, rfl, .inl rfl⟩) fun s differs => ?_
        rw [waits, if_neg differs.symm]
        rfl
      · rename_i differs
        refine refused ?_
        rw [waits]
        split
        · rename_i same
          intro matches_
          exact differs ⟨same, Option.some.inj matches_⟩
        · nofun
  | bootstrapAckPending streamId lease pbs sessionBinding writeToken decoder frameTimer =>
      have waits (s : Nat) : outstanding t s = if streamId = s then some writeToken else none := by
        unfold outstanding
        rw [phase]
      dsimp only
      split
      · rename_i same
        obtain ⟨rfl, matches_⟩ := same
        have before : outstanding t event.streamId = some event.writeToken := by rw [waits, if_pos rfl, matches_]
        split
        · rename_i failed
          obtain ⟨rfl, spent⟩ := Clock.scheduleTimer_spent (by exact positive) failed
          refine .committed commits before (outstanding_ended ⟨_, rfl⟩ _) (.inl ⟨rfl, spent⟩) ?_
          intro s differs
          rw [outstanding_ended ⟨_, rfl⟩, waits, if_neg differs.symm]
        · refine .committed commits before ?_ (.inr ⟨_, rfl, .inr (.inl (Outcome.deadline_kind _ _ _))⟩) fun s differs => ?_
          · simp only [outstanding, if_true, Option.map_none]
          · rw [waits, if_neg differs.symm]
            simp only [outstanding, if_neg differs.symm]
            rfl
      · rename_i differs
        refine refused ?_
        rw [waits]
        split
        · rename_i same
          intro matches_
          exact differs ⟨same, Option.some.inj matches_⟩
        · nofun
  | eligible e =>
      dsimp only
      split
      · rename_i lease
        have waits : outstanding t event.streamId = e.leaseWrite.map (·.1) := by
          rw [outstanding_eligible phase, if_pos lease]
        split
        · rename_i token counter pending
          rw [pending] at waits
          split
          · rename_i same
            subst same
            refine .committed commits waits ?_ (.inr ⟨_, rfl, .inl rfl⟩) fun s differs => ?_
            · simp only [outstanding, if_pos lease, Option.map_none]
            · have apart : e.leaseStream ≠ s := fun same => differs (same.symm.trans lease)
              rw [outstanding_eligible phase, if_neg apart]
              simp only [outstanding, if_neg apart]
          · rename_i differs
            refine refused ?_
            rw [waits]
            intro same
            exact differs (Option.some.inj same)
        · rename_i idle
          refine refused ?_
          rw [waits, idle]
          nofun
      · rename_i other
        exact commitChildWrite_flown phase other positive commits
  | awaitBootstrap | bootstrapM2 | terminal =>
      refine refused ?_
      unfold outstanding
      rw [phase]
      nofun

theorem leaseTickFired_flown (commits : event.tag ≠ .fullWriteCommitted) (same : ∀ s, outstanding u s = outstanding t s)
    (token : Nat) : Flown own event t (u.leaseTickFired token) := by
  have idle : Flown own event t (.ok (.new .needInput), u) := .went commits same ⟨nofun, nofun, nofun⟩
  unfold TargetTransport.leaseTickFired
  split
  · rename_i e phase
    have kept (leaseTicks missedTicks : Nat) (leaseTickTimer : Option Nat) (clock : Clock) (s : Nat) :
        outstanding { u with phase := .eligible { e with leaseTicks, missedTicks, leaseTickTimer }, clock } s =
          outstanding t s := by
      rw [← same s, outstanding_eligible phase]
      rfl
    split
    · exact idle
    · dsimp only
      split
      · exact leaseTerminal_flown commits _ _ _
      · split
        · exact leaseTerminal_flown commits _ _ _
        · split
          · exact .failed commits (kept _ _ _ _)
          · refine .went commits (kept _ _ _ _) ?_
            rw [Outcome.deadline_kind]
            exact ⟨nofun, nofun, nofun⟩
  · exact idle

theorem childTimerFired_flown (sound : Sound t) (commits : event.tag ≠ .fullWriteCommitted) (clock : Clock) (reason : CloseReason) :
    Flown own event t ({ t with clock }.childTimerFired own reason) := by
  have idle : Flown own event t (.ok (.new .needInput), { t with clock }) := .went commits (fun _ => rfl) ⟨nofun, nofun, nofun⟩
  unfold TargetTransport.childTimerFired
  split
  · rename_i e phase
    split
    · rename_i there
      obtain ⟨child, found⟩ := Option.isSome_iff_exists.mp there
      have other := (sound.streams e own child phase found).2
      have placed : Placed own t { t with clock } e child := ⟨phase, found, other, fun _ _ => rfl⟩
      exact placed.childTerminal commits _ _
    · exact idle
  · exact idle

theorem timerFired_flown (sound : Sound t) (commits : event.tag ≠ .fullWriteCommitted) :
    ∃ own, Flown own event t (t.timerFired event) := by
  unfold TargetTransport.timerFired
  split
  · exact ⟨0, .failed commits fun _ => rfl⟩
  · split
    · exact ⟨0, .went commits (fun _ => rfl) ⟨nofun, nofun, nofun⟩⟩
    · dsimp only
      split
      · exact ⟨0, leaseTerminal_flown commits _ _ _⟩
      · exact ⟨0, leaseTerminal_flown commits _ _ _⟩
      · exact ⟨0, leaseTerminal_flown commits _ _ _⟩
      · have same (s : Nat) : outstanding { t with clock := t.clock.cancel (some event.writeToken) } s = outstanding t s := rfl
        exact ⟨0, leaseTickFired_flown commits same _⟩
      · exact ⟨_, childTimerFired_flown sound commits _ _⟩
      · exact ⟨_, childTimerFired_flown sound commits _ _⟩
      · exact ⟨_, childTimerFired_flown sound commits _ _⟩

/-- Every event, as long as the lease lives. -/
theorem drive_flown (noise : Noise R H T) (entropy : R) (sound : Sound t) (positive : 0 < t.clock.nextToken)
    (serving : ¬ Ended t) (event : Event) : ∃ own, Flown own event t (t.drive noise entropy event) := by
  unfold TargetTransport.drive
  split
  · rename_i terminal phase
    exact absurd ⟨terminal, phase⟩ serving
  · split
    · rename_i flagged
      refine ⟨0, .rejected (.inr rfl) fun _ s token same => ?_⟩
      rw [same] at flagged
      exact absurd rfl flagged
    · rename_i flags
      have other {tag : EventTag} (is : event.tag = tag) (differs : tag ≠ .fullWriteCommitted) :
          event.tag ≠ .fullWriteCommitted := by rw [is]; exact differs
      have ends (commits : event.tag ≠ .fullWriteCommitted) (u : TargetTransport H T) (reason : CloseReason) :
          ∃ own, Flown own event t (TargetTransport.leaseEvent event (u.leaseTerminal reason none) t) := by
        unfold TargetTransport.leaseEvent
        split
        · exact ⟨0, .failed commits fun _ => rfl⟩
        · exact ⟨0, leaseTerminal_flown commits _ _ _⟩
      cases tag : event.tag with
      | eligibilityLost =>
          obtain ⟨u, reason, same⟩ := eligibilityLost_terminal t
          dsimp only
          rw [same]
          exact ends (other tag nofun) u reason
      | cleanupFailed => exact ends (other tag nofun) t _
      | internalError => exact ends (other tag nofun) t _
      | timerFired => exact timerFired_flown sound (other tag nofun)
      | bootstrapConnected => exact ⟨_, bootstrapConnected_flown noise entropy (other tag nofun) positive⟩
      | fullWriteCommitted => exact ⟨_, fullWriteCommitted_flown positive (by simpa using flags) tag⟩
      | sessionAccepted => exact ⟨_, sessionAccepted_flown noise entropy (other tag nofun) positive⟩
      | runtimeResponse => exact ⟨_, runtimeResponse_flown noise sound (other tag nofun) positive⟩
      | streamBytes => exact ⟨_, streamBytes_flown noise tag positive⟩
      | streamEof | streamIoFailed | streamCloseNormal =>
          exact ⟨_, streamClosed_flown (other tag nofun) positive⟩

end

end AppPilotKit.Target
