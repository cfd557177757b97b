import AppPilotKit.Target.Writes
import AppPilotKit.Transport.Framing

/-! # The decoders and frame timers of the streams

An event feeds the decoder of one stream and brings its frame timer up to date, starts a
stream, ends it, or leaves its decoder and frame timer alone.
-/

namespace AppPilotKit.Target

open Wire Transport

variable {R H T : Type}

/-- The decoder and the frame timer of a stream. -/
def line (t : TargetTransport H T) (s : Nat) : Option (OuterFrameDecoder × Option Nat) :=
  match t.phase with
  | .bootstrapM1Pending streamId _ _ decoder frameTimer => if streamId = s then some (decoder, frameTimer) else none
  | .bootstrapM2 streamId _ decoder frameTimer => if streamId = s then some (decoder, frameTimer) else none
  | .bootstrapAckPending streamId _ _ _ _ decoder frameTimer => if streamId = s then some (decoder, frameTimer) else none
  | .eligible e =>
      if e.leaseStream = s then some (e.leaseDecoder, e.leaseFrameTimer)
      else (e.children.lookup s).map fun child => (child.decoder, child.frameTimer)
  | _ => none

/-- The decoder of the stream takes bytes. -/
def reads (t : TargetTransport H T) (s : Nat) : Bool :=
  match t.phase with
  | .bootstrapM2 streamId _ _ _ => streamId = s
  | .eligible e => if e.leaseStream = s then e.leaseWrite.isNone else (e.children.lookup s).isSome
  | _ => false

/-- The supervisor passes the bytes of the event to a decoder. -/
def Feeds (t : TargetTransport H T) (event : Event) : Prop :=
  event.flags = 0 ∧ event.tag = .streamBytes ∧ event.streamId ≠ 0 ∧ event.writeToken = 0 ∧ event.bytes ≠ [] ∧
    reads t event.streamId

instance (t : TargetTransport H T) (event : Event) : Decidable (Feeds t event) :=
  inferInstanceAs (Decidable (_ ∧ _))

/-- The decoder takes the bytes and the frame timer follows. -/
def Fed (t : TargetTransport H T) (event : Event) (after : Option (OuterFrameDecoder × Option Nat)) : Prop :=
  ∃ decoder slot frames decoder' action result slot' clock, line t event.streamId = some (decoder, slot) ∧
    decoder.push event.bytes = (.ok frames, decoder') ∧
    t.clock.updateFrameTimer decoder'.isIncomplete slot action = (result, slot', clock) ∧ after = some (decoder', slot')

/-- What an event does to the line of a stream. -/
inductive Lined (s : Nat) (event : Event) (t t' : TargetTransport H T) : Prop
  | gone : line t' s = none → Lined s event t t'
  | fed : Feeds t event → event.streamId = s → Fed t event (line t' s) → Lined s event t t'
  | joined : ¬ Feeds t event → line t s = none → line t' s = some (.new, none) → Lined s event t t'
  | kept : (event.streamId = s → ¬ Feeds t event) → line t' s = line t s → Lined s event t t'

section
variable {s : Nat} {t u : TargetTransport H T} {e : Eligible H T} {child : Child H T} {event : Event} {clock : Clock}

theorem line_ended (ended : Ended t) (s : Nat) : line t s = none := by
  obtain ⟨terminal, phase⟩ := ended
  unfold line
  rw [phase]

theorem line_eligible (phase : t.phase = .eligible e) (s : Nat) : line t s =
    if e.leaseStream = s then some (e.leaseDecoder, e.leaseFrameTimer)
    else (e.children.lookup s).map fun child => (child.decoder, child.frameTimer) := by
  unfold line
  rw [phase]

theorem line_child (phase : t.phase = .eligible e) (other : e.leaseStream ≠ s)
    (found : e.children.lookup s = some child) : line t s = some (child.decoder, child.frameTimer) := by
  rw [line_eligible phase, if_neg other, found]
  rfl

theorem line_withChild (t : TargetTransport H T) (other : e.leaseStream ≠ s) (child : Child H T) :
    line (t.withChild e s child) s = some (child.decoder, child.frameTimer) := by
  have found : (e.children.insert s child).lookup s = some child := AList.lookup_insert _
  exact line_child rfl other found

/-- A child that ends has no line. -/
theorem line_childTerminal (phase : u.phase = .eligible e) (other : e.leaseStream ≠ s)
    (found : e.children.lookup s = some child) (reason : CloseReason) (peer : Option (CloseReason × HandoffState)) :
    line (u.childTerminal s reason peer).2 s = none := by
  unfold TargetTransport.childTerminal
  simp only [phase, found]
  rw [line_eligible rfl, if_neg (by exact other), AList.lookup_erase]
  rfl

/-- A core error ends the child, or keeps its line while the Close frame is written. -/
theorem line_childCoreError (t : TargetTransport H T) (other : e.leaseStream ≠ s) (child : Child H T) (error : Error) :
    line ((t.withChild e s child).childCoreError s error).2 s = none ∨
      error.closeFrame.isSome ∧
        line ((t.withChild e s child).childCoreError s error).2 s = some (child.decoder, child.frameTimer) := by
  have found : (e.children.insert s child).lookup s = some child := AList.lookup_insert _
  have ended (clock : Clock) (reason : CloseReason) (peer : Option (CloseReason × HandoffState)) :
      line ({ t.withChild e s child with clock }.childTerminal s reason peer).2 s = none :=
    line_childTerminal (u := { t.withChild e s child with clock }) rfl other found reason peer
  unfold TargetTransport.childCoreError
  cases error.closeFrame with
  | none => exact .inl (ended t.clock _ _)
  | some frame =>
      dsimp only
      split
      · exact .inl (ended _ _ _)
      · simp only [TargetTransport.withChild, found]
        refine .inr ⟨rfl, ?_⟩
        rw [line_eligible rfl, if_neg (by exact other), AList.lookup_insert]
        rfl

theorem replaceChildTimer_line {child child' : Child H T} {c c' : Clock} {action : TimerAction}
    {result : Except SupervisorError Nat} (eq : replaceChildTimer child c action = (result, child', c')) :
    (child'.decoder, child'.frameTimer) = (child.decoder, child.frameTimer) := by
  unfold replaceChildTimer at eq
  dsimp only at eq
  split at eq
  · cases eq
    rfl
  · cases eq
    rfl

/-! ## The handlers of a child -/

theorem commitChildWrite_line (phase : t.phase = .eligible e) (other : e.leaseStream ≠ s)
    (found : e.children.lookup s = some child) (token : Nat) :
    line (putBack (t.movedOut.commitChildWrite e s token)).2 s = line t s := by
  rw [line_child phase other found]
  have stored (answer : Answer H T) (child' : Child H T)
      (same : (child'.decoder, child'.frameTimer) = (child.decoder, child.frameTimer)) :
      line (putBack (answer, { e with children := e.children.insert s child' })).2 s =
        some (child.decoder, child.frameTimer) := by
    have there : (e.children.insert s child').lookup s = some child' := AList.lookup_insert _
    rw [← same]
    exact line_child (e := { e with children := e.children.insert s child' }) rfl other there
  have kept : line (putBack ((.error .wrongPhase, t.movedOut), e)).2 s = some (child.decoder, child.frameTimer) :=
    line_child (e := e) rfl other found
  unfold TargetTransport.commitChildWrite
  simp only [found]
  split
  · split
    · exact stored _ _ rfl
    · exact kept
  · split
    · exact stored _ _ rfl
    · exact kept
  · split
    · split
      · rename_i failed
        have same := replaceChildTimer_line failed
        exact stored _ _ same
      · rename_i replaced
        have same := replaceChildTimer_line replaced
        exact stored _ _ same
    · exact kept
  · split
    · exact stored _ _ rfl
    · exact kept
  · exact kept

theorem runtimeResponse_line (noise : Noise R H T) (phase : t.phase = .eligible e) (other : e.leaseStream ≠ event.streamId)
    (found : e.children.lookup event.streamId = some child) :
    line (t.runtimeResponse noise event).2 event.streamId = none ∨
      line (t.runtimeResponse noise event).2 event.streamId = line t event.streamId := by
  have same := line_child phase other found
  unfold TargetTransport.runtimeResponse
  split
  · exact .inr rfl
  · simp only [phase, found]
    split
    · split
      · rcases line_childCoreError t other { child with phase := .terminal } _ with none | ⟨-, kept⟩
        · exact .inl (by simpa only [phase, TargetTransport.answer] using none)
        · rw [same]
          exact .inr (by simpa only [phase, TargetTransport.answer] using kept)
      · split
        · have kept := line_withChild t other { child with phase := .terminal }
          rw [same]
          exact .inr kept
        · exact .inr ((line_withChild _ other _).trans same.symm)
    · exact .inr rfl

theorem finishApplications_line (u : TargetTransport H T) (other : e.leaseStream ≠ s) (child : Child H T) (started : Option Nat)
    (read : TargetTransport.ApplicationRead H T) :
    line (u.finishApplications e s child started read).2 s = none ∨
      line (u.finishApplications e s child started read).2 s = some (child.decoder, child.frameTimer) := by
  have found : (e.children.insert s { child with phase := ChildPhase.terminal }).lookup s =
      some { child with phase := ChildPhase.terminal } := AList.lookup_insert _
  cases read with
  | second => exact .inl (line_childTerminal (u := u.withChild e s { child with phase := .terminal }) rfl other found _ _)
  | failed error =>
      rcases line_childCoreError u other { child with phase := .terminal } error with none | ⟨-, kept⟩
      · exact .inl none
      · exact .inr kept
  | done session application =>
      cases application with
      | none => exact .inr (line_withChild _ other _)
      | some bytes =>
          simp only [TargetTransport.finishApplications]
          split
          · exact .inr (line_withChild _ other _)
          · split
            · exact .inr (line_withChild _ other _)
            · split
              · rename_i failed
                have same := replaceChildTimer_line failed
                exact .inr ((line_withChild _ other _).trans (congrArg some same))
              · rename_i replaced
                have same := replaceChildTimer_line replaced
                exact .inr ((line_withChild _ other _).trans (congrArg some same))

theorem sessionFrames_line (noise : Noise R H T) (u : TargetTransport H T) (other : e.leaseStream ≠ s) (child : Child H T)
    (started : Option Nat) (first : Bytes) (more : List Bytes) :
    line (u.sessionFrames noise e s child started first more).2 s = none ∨
      line (u.sessionFrames noise e s child started first more).2 s = some (child.decoder, child.frameTimer) := by
  have found : (e.children.insert s { child with phase := ChildPhase.terminal }).lookup s =
      some { child with phase := ChildPhase.terminal } := AList.lookup_insert _
  have failed (error : Error) : line ((u.withChild e s { child with phase := .terminal }).childCoreError s error).2 s = none ∨
      line ((u.withChild e s { child with phase := .terminal }).childCoreError s error).2 s =
        some (child.decoder, child.frameTimer) :=
    (line_childCoreError u other { child with phase := .terminal } error).imp id And.right
  unfold TargetTransport.sessionFrames
  dsimp only
  split
  · split
    · exact .inl (line_childTerminal (u := u.withChild e s { child with phase := .terminal }) rfl other found _ _)
    · split
      · exact failed _
      · split
        · exact failed _
        · split
          · exact .inr (line_withChild u other { child with phase := .terminal })
          · exact .inr (line_withChild _ other _)
  · split
    · exact failed _
    · exact finishApplications_line u other child started _
  · exact finishApplications_line u other child started _
  · exact .inr (line_withChild _ other _)

/-- The bytes for a child are fed to its decoder, whatever the answer. -/
theorem sessionBytes_line (noise : Noise R H T) (phase : t.phase = .eligible e) (other : e.leaseStream ≠ event.streamId)
    (found : e.children.lookup event.streamId = some child) :
    line (t.sessionBytes noise event).2 event.streamId = none ∨
      Fed t event (line (t.sessionBytes noise event).2 event.streamId) := by
  have before := line_child phase other found
  unfold TargetTransport.sessionBytes
  simp only [phase, found]
  cases pushed : child.decoder.push event.bytes with
  | mk result decoder =>
      cases result with
      | error error =>
          refine .inl ?_
          rcases line_childCoreError t other { child with decoder } error with none | ⟨close, -⟩
          · simpa only [phase, TargetTransport.answer] using none
          · rw [push_silent pushed] at close
            cases close
      | ok frames =>
          dsimp only
          cases updated : t.clock.updateFrameTimer decoder.isIncomplete child.frameTimer (.sessionFrame event.streamId) with
          | mk result rest =>
              obtain ⟨frameTimer, clock⟩ := rest
              have fed : Fed t event (some (decoder, frameTimer)) :=
                ⟨child.decoder, child.frameTimer, frames, decoder, _, result, frameTimer, clock, before, pushed, updated, rfl⟩
              cases result with
              | error error =>
                  refine .inr ?_
                  rw [line_withChild _ other _]
                  exact fed
              | ok started =>
                  cases frames with
                  | nil =>
                      refine .inr ?_
                      rw [line_withChild _ other _]
                      exact fed
                  | cons first more =>
                      rcases sessionFrames_line noise { t with clock } other { child with decoder, frameTimer } started first
                        more with none | kept
                      · exact .inl (by simpa only [phase, TargetTransport.answer] using none)
                      · refine .inr ?_
                        rw [show line _ event.streamId = some (decoder, frameTimer) by simpa only [phase] using kept]
                        exact fed

theorem streamEnd_line (phase : t.phase = .eligible e) (other : e.leaseStream ≠ s)
    (found : e.children.lookup s = some child) (reason : CloseReason) (orderly : Bool) :
    line (t.streamEnd s reason orderly).2 s = none := by
  unfold TargetTransport.streamEnd
  simp only [phase, if_neg other, found]
  split
  · rename_i error child' ended
    rcases line_childCoreError t other child' error with none | ⟨close, -⟩
    · simpa only [phase, TargetTransport.answer] using none
    · split at ended
      · rw [eofError_silent ended] at close
        cases close
      · cases ended
  · rename_i child' ended
    have there : (e.children.insert s child').lookup s = some child' := AList.lookup_insert _
    exact line_childTerminal (u := { t.withChild e s child' with clock := t.clock }) rfl other there reason none

/-! ## The handlers of the lease -/

theorem reads_eligible (phase : t.phase = .eligible e) (s : Nat) :
    reads t s = if e.leaseStream = s then e.leaseWrite.isNone else (e.children.lookup s).isSome := by
  unfold reads
  rw [phase]

theorem not_feeds (other : event.tag ≠ .streamBytes) : ¬ Feeds t event := fun feeds => other feeds.2.1

/-- The event feeds no decoder, and the stream has the line that it had. -/
theorem Lined.same (quiet : ¬ Feeds t event) (same : line u s = line t s) : Lined s event t u := .kept (fun _ => quiet) same

theorem leaseTerminal_lined (u : TargetTransport H T) (reason : CloseReason) (peer : Option (CloseReason × HandoffState)) :
    Lined s event t (TargetTransport.answer (u.leaseTerminal reason peer)).2 :=
  .gone (line_ended (leaseTerminal_ended u reason peer) s)

theorem line_elsewhere {own : Nat} {children : Table (Child H T)} (phase : t.phase = .eligible e)
    (after : u.phase = .eligible { e with children })
    (others : ∀ other, other ≠ own → children.lookup other = e.children.lookup other) (differs : s ≠ own) :
    line u s = line t s := by
  rw [line_eligible after, line_eligible phase]
  dsimp only
  rw [others s differs]

/-- An answer that concerns another child. -/
theorem ChildAnswer.line {own : Nat} {slip : Prop} {r : Answer H T} (answer : ChildAnswer own t e child slip r)
    (phase : t.phase = .eligible e) (differs : s ≠ own) : line r.2 s = line t s := by
  obtain ⟨children, after, others, -⟩ := answer.phase
  exact line_elsewhere phase after others differs

theorem bootstrapConnected_lined (noise : Noise R H T) (entropy : R) (quiet : ¬ Feeds t event) :
    Lined s event t (t.bootstrapConnected noise entropy event).2 := by
  unfold TargetTransport.bootstrapConnected
  split
  · exact .same quiet rfl
  split
  · rename_i phase
    have none : line t s = none := by
      unfold line
      rw [phase]
    dsimp only [TargetTransport.movedOut]
    split
    · exact leaseTerminal_lined _ _ _
    · split
      · exact leaseTerminal_lined _ _ _
      · split
        · exact .gone rfl
        · split
          · exact .gone rfl
          · by_cases own : event.streamId = s
            · exact .joined quiet none (if_pos own)
            · exact .gone (if_neg own)
  · exact .same quiet rfl

theorem fullWriteCommitted_lined (quiet : ¬ Feeds t event)
    (mine : (t.registered event.streamId).isSome → event.streamId = s) :
    Lined s event t (t.fullWriteCommitted event).2 := by
  unfold TargetTransport.fullWriteCommitted
  split
  · exact .same quiet rfl
  split
  · rename_i phase
    split
    · refine .same quiet ?_
      unfold line
      rw [phase]
    · exact .same quiet rfl
  · rename_i phase
    split
    · dsimp only
      split
      · exact .gone rfl
      · refine .same quiet ?_
        unfold line
        rw [phase]
        dsimp only
        split
        · rfl
        · rw [AList.lookup_empty]
          rfl
    · exact .same quiet rfl
  · rename_i e phase
    split
    · split
      · split
        · refine .same quiet ?_
          rw [line_eligible rfl, line_eligible phase]
        · exact .same quiet rfl
      · exact .same quiet rfl
    · rename_i other
      cases found : e.children.lookup event.streamId with
      | some child =>
          have own : event.streamId = s := mine (by rw [registered_eligible phase, found]; rfl)
          subst own
          exact .same quiet (commitChildWrite_line phase other found _)
      | none =>
          have missing : t.movedOut.commitChildWrite e event.streamId event.writeToken =
              ((.error .wrongPhase, t.movedOut), e) := by
            unfold TargetTransport.commitChildWrite
            simp only [found]
          rw [missing]
          exact .same quiet ((line_eligible rfl s).trans (line_eligible phase s).symm)
  · exact .same quiet rfl

theorem sessionAccepted_lined (noise : Noise R H T) (entropy : R) (quiet : ¬ Feeds t event) :
    Lined s event t (t.sessionAccepted noise entropy event).2 := by
  unfold TargetTransport.sessionAccepted
  split
  · exact .same quiet rfl
  split
  · rename_i e phase
    split
    · exact .same quiet rfl
    rename_i free
    push Not at free
    obtain ⟨other, absent⟩ := free
    split
    · exact .same quiet rfl
    · split
      · exact .same quiet rfl
      · split
        · exact .same quiet rfl
        · split
          · exact .same quiet rfl
          · by_cases own : s = event.streamId
            · subst own
              refine .joined quiet ?_ (line_withChild _ other.symm _)
              rw [line_eligible phase, if_neg other.symm]
              simpa using absent
            · refine .same quiet (line_elsewhere phase rfl (fun other differs => ?_) own)
              exact AList.lookup_insert_ne differs
  · exact .same quiet rfl

theorem runtimeResponse_lined (noise : Noise R H T) (quiet : ¬ Feeds t event) (sound : Sound t)
    (mine : (t.registered event.streamId).isSome → event.streamId = s) :
    Lined s event t (t.runtimeResponse noise event).2 := by
  cases phase : t.phase with
  | eligible e =>
      cases found : e.children.lookup event.streamId with
      | some child =>
          have own : event.streamId = s := mine (by rw [registered_eligible phase, found]; rfl)
          subst own
          rcases runtimeResponse_line noise phase (sound.streams e _ child phase found).2 found with none | kept
          · exact .gone none
          · exact .same quiet kept
      | none =>
          unfold TargetTransport.runtimeResponse
          split
          · exact .same quiet rfl
          · simp only [phase, found]
            exact .same quiet rfl
  | _ =>
      unfold TargetTransport.runtimeResponse
      split
      · exact .same quiet rfl
      · simp only [phase]
        exact .same quiet rfl

/-- Without the bytes of the stream there is nothing that feeds its decoder. -/
theorem Lined.other (differs : event.streamId ≠ s) (same : line u s = line t s) : Lined s event t u :=
  .kept (fun own => absurd own differs) same

theorem bootstrapBytes_lined (noise : Noise R H T) {bootstrap : TargetBootstrap H} {decoder : OuterFrameDecoder}
    {frameTimer : Option Nat} (phase : t.phase = .bootstrapM2 event.streamId bootstrap decoder frameTimer)
    (feeds : Feeds t event) : Lined s event t (t.bootstrapBytes noise event).2 := by
  have before (s : Nat) : line t s = if event.streamId = s then some (decoder, frameTimer) else none := by
    unfold line
    rw [phase]
  unfold TargetTransport.bootstrapBytes
  simp only [phase]
  split
  · exact leaseTerminal_lined _ _ _
  · rename_i frames decoder' pushed
    split
    · exact .gone rfl
    · rename_i started frameTimer' clock updated
      -- whatever becomes of the frame, the decoder and the timer are stored
      have stored {u : TargetTransport H T}
          (after : ∀ s, line u s = if event.streamId = s then some (decoder', frameTimer') else none) :
          Lined s event t u := by
        by_cases own : event.streamId = s
        · refine .fed feeds own ⟨decoder, frameTimer, frames, decoder', _, _, frameTimer', clock, ?_, pushed, updated, ?_⟩
          · rw [before, if_pos rfl]
          · rw [after, if_pos own]
        · exact .gone (by rw [after, if_neg own])
      split
      · exact stored fun _ => rfl
      · split
        · exact leaseTerminal_lined _ _ _
        · split
          · exact leaseTerminal_lined _ _ _
          · split
            · exact .gone rfl
            · exact stored fun _ => rfl
      · exact leaseTerminal_lined _ _ _

theorem leaseBytes_lined (noise : Noise R H T) (phase : t.phase = .eligible e) (lease : e.leaseStream = event.streamId)
    (feeds : e.leaseWrite = none → Feeds t event) : Lined s event t (t.leaseBytes noise event).2 := by
  unfold TargetTransport.leaseBytes
  simp only [phase]
  split
  · rename_i writing
    refine .same (fun feeds => ?_) (by simp only [← phase])
    have idle := feeds.2.2.2.2.2
    rw [reads_eligible phase, if_pos lease] at idle
    rw [Option.isNone_iff_eq_none.mp idle] at writing
    cases writing
  rename_i quiet
  have feeds : Feeds t event := feeds (by simpa using quiet)
  split
  · exact leaseTerminal_lined _ _ _
  · rename_i frames decoder pushed
    -- the answer stores the decoder and the timer in any case
    have stored {u : TargetTransport H T} {e' : Eligible H T} {result slot clock}
        (updated : t.clock.updateFrameTimer decoder.isIncomplete e.leaseFrameTimer .leaseFrame = (result, slot, clock))
        (after : u.phase = .eligible e') (stream : e'.leaseStream = e.leaseStream) (children : e'.children = e.children)
        (decoded : e'.leaseDecoder = decoder) (timed : e'.leaseFrameTimer = slot) : Lined s event t u := by
      by_cases own : event.streamId = s
      · refine .fed feeds own ⟨e.leaseDecoder, e.leaseFrameTimer, frames, decoder, _, result, slot, clock, ?_, pushed, updated, ?_⟩
        · rw [line_eligible phase, if_pos lease]
        · rw [line_eligible after, stream, if_pos (lease.trans own), decoded, timed]
      · refine .other own ?_
        have apart : e.leaseStream ≠ s := fun same => own (lease.symm.trans same)
        rw [line_eligible after, line_eligible phase, stream, if_neg apart, children, if_neg apart]
    split
    · rename_i updated
      exact stored updated rfl rfl rfl rfl rfl
    · rename_i updated
      split
      · exact stored updated rfl rfl rfl rfl rfl
      · split
        · exact leaseTerminal_lined _ _ _
        · split
          · exact leaseTerminal_lined _ _ _
          · split
            · exact stored updated rfl rfl rfl rfl rfl
            · exact stored updated rfl rfl rfl rfl rfl
      · exact leaseTerminal_lined _ _ _

theorem streamBytes_lined (noise : Noise R H T) (flags : event.flags = 0) (tag : event.tag = .streamBytes)
    (mine : (t.registered event.streamId).isSome → event.streamId = s) :
    Lined s event t (t.streamBytes noise event).2 := by
  unfold TargetTransport.streamBytes
  split
  · rename_i malformed
    refine .same (fun feeds => ?_) rfl
    obtain ⟨-, -, nonzero, token, bytes, -⟩ := feeds
    rcases malformed with zero | given | empty
    · exact nonzero zero
    · exact given token
    · exact bytes empty
  rename_i wellFormed
  push Not at wellFormed
  split
  · rename_i phase
    split
    · rename_i own
      subst own
      refine bootstrapBytes_lined noise phase ⟨flags, tag, wellFormed.1, wellFormed.2.1, wellFormed.2.2, ?_⟩
      simp [reads, phase]
    · rename_i differs
      refine .same (fun feeds => ?_) rfl
      have own := feeds.2.2.2.2.2
      simp only [reads, phase, decide_eq_true_eq] at own
      exact differs own
  · rename_i e phase
    split
    · rename_i lease
      refine leaseBytes_lined noise phase lease fun idle => ⟨flags, tag, wellFormed.1, wellFormed.2.1, wellFormed.2.2, ?_⟩
      rw [reads_eligible phase, if_pos lease, idle]
      rfl
    · rename_i other
      split
      · rename_i there
        have own : event.streamId = s := mine (by rw [registered_eligible phase]; exact there)
        subst own
        obtain ⟨child, found⟩ := Option.isSome_iff_exists.mp there
        rcases sessionBytes_line noise phase other found with none | fed
        · exact .gone none
        · refine .fed ⟨flags, tag, wellFormed.1, wellFormed.2.1, wellFormed.2.2, ?_⟩ rfl fed
          rw [reads_eligible phase, if_neg other]
          exact there
      · rename_i absent
        refine .same (fun feeds => ?_) rfl
        have there := feeds.2.2.2.2.2
        rw [reads_eligible phase, if_neg other] at there
        exact absent there
  · rename_i early later
    refine .same (fun feeds => ?_) rfl
    have own := feeds.2.2.2.2.2
    unfold reads at own
    split at own
    · rename_i phase
      exact early _ _ _ _ phase
    · rename_i phase
      exact later _ phase
    · cases own

theorem streamEnd_lined (quiet : ¬ Feeds t event)
    (mine : (t.registered event.streamId).isSome → event.streamId = s) (reason : CloseReason) (orderly : Bool) :
    Lined s event t (t.streamEnd event.streamId reason orderly).2 := by
  cases phase : t.phase with
  | eligible e =>
      by_cases lease : e.leaseStream = event.streamId
      · unfold TargetTransport.streamEnd
        simp only [phase, if_pos lease]
        split
        · exact leaseTerminal_lined _ _ _
        · exact leaseTerminal_lined _ _ _
      · cases found : e.children.lookup event.streamId with
        | some child =>
            have own : event.streamId = s := mine (by rw [registered_eligible phase, found]; rfl)
            subst own
            exact .gone (streamEnd_line phase lease found reason orderly)
        | none =>
            unfold TargetTransport.streamEnd
            simp only [phase, if_neg lease, found]
            exact .same quiet rfl
  | bootstrapM1Pending | bootstrapM2 | bootstrapAckPending =>
      unfold TargetTransport.streamEnd
      simp only [phase]
      split
      · split
        · exact leaseTerminal_lined _ _ _
        · exact leaseTerminal_lined _ _ _
      · exact .same quiet rfl
  | awaitBootstrap | terminal =>
      unfold TargetTransport.streamEnd
      simp only [phase]
      exact .same quiet rfl

theorem streamClosed_lined (quiet : ¬ Feeds t event)
    (mine : (t.registered event.streamId).isSome → event.streamId = s) : Lined s event t (t.streamClosed event).2 := by
  unfold TargetTransport.streamClosed
  split
  · exact .same quiet rfl
  · split
    · exact streamEnd_lined quiet mine _ _
    · exact streamEnd_lined quiet mine _ _
    · exact streamEnd_lined quiet mine _ _

theorem leaseTickFired_lined (quiet : ¬ Feeds t event) (clock : Clock) (token : Nat) :
    Lined s event t ({ t with clock }.leaseTickFired token).2 := by
  unfold TargetTransport.leaseTickFired
  split
  · rename_i e phase
    have kept (leaseTicks missedTicks : Nat) (leaseTickTimer : Option Nat) (clock : Clock) :
        line { t with phase := .eligible { e with leaseTicks, missedTicks, leaseTickTimer }, clock } s = line t s := by
      rw [line_eligible (t := t) phase]
      rfl
    split
    · exact .same quiet rfl
    · dsimp only
      split
      · exact leaseTerminal_lined _ _ _
      · split
        · exact leaseTerminal_lined _ _ _
        · split
          · exact .same quiet (kept _ _ _ _)
          · exact .same quiet (kept _ _ _ _)
  · exact .same quiet rfl

theorem childTimerFired_lined (quiet : ¬ Feeds t event) (sound : Sound t) (clock : Clock) (reason : CloseReason) :
    Lined s event t ({ t with clock }.childTimerFired s reason).2 := by
  unfold TargetTransport.childTimerFired
  split
  · rename_i e phase
    split
    · rename_i there
      obtain ⟨child, found⟩ := Option.isSome_iff_exists.mp there
      exact .gone (line_childTerminal phase (sound.streams e s child phase found).2 found _ _)
    · exact .same quiet rfl
  · exact .same quiet rfl

theorem timerFired_lined (quiet : ¬ Feeds t event) (sound : Sound t)
    (mine : ∀ action own, t.clock.timers.lookup event.writeToken = some action → action.stream = some own →
      (t.registered own).isSome → own = s) : Lined s event t (t.timerFired event).2 := by
  -- a timer of a stream without a child cannot fire
  have own {action : TimerAction} {child : Nat} (fires : t.clock.timers.lookup event.writeToken = some action)
      (names : action.stream = some child) : child = s := by
    refine mine action child fires names ?_
    cases registered : t.registered child with
    | none => exact absurd names (sound.unnamed child registered _ _ fires)
    | some _ => rfl
  unfold TargetTransport.timerFired
  split
  · exact .same quiet rfl
  · split
    · exact .same quiet rfl
    · rename_i fires
      dsimp only
      split
      · exact leaseTerminal_lined _ _ _
      · exact leaseTerminal_lined _ _ _
      · exact leaseTerminal_lined _ _ _
      · exact leaseTickFired_lined quiet _ _
      · exact own fires rfl ▸ childTimerFired_lined quiet sound _ _
      · exact own fires rfl ▸ childTimerFired_lined quiet sound _ _
      · exact own fires rfl ▸ childTimerFired_lined quiet sound _ _

/-- Every event, seen from every stream. -/
theorem drive_lined (noise : Noise R H T) (entropy : R) (sound : Sound t) (event : Event) (s : Nat) :
    Lined s event t (t.drive noise entropy event).2 := by
  by_cases elsewhere : ∃ own, own ≠ s ∧ (t.registered own).isSome ∧ Addressed own t event
  · obtain ⟨own, differs, there, addressed⟩ := elsewhere
    obtain ⟨child, registered⟩ := Option.isSome_iff_exists.mp there
    obtain ⟨e, phase, found⟩ := registered_some registered
    have same := (drive_child noise entropy sound phase found addressed).line phase differs.symm
    refine .kept (fun stream feeds => ?_) same
    rcases addressed with ⟨stream', -⟩ | ⟨tag, -⟩
    · exact differs (stream'.symm.trans stream)
    · exact absurd (tag.symm.trans feeds.2.1) nofun
  · push Not at elsewhere
    have mine (tag : event.tag ∈ [.streamBytes, .fullWriteCommitted, .runtimeResponse, .streamEof, .streamIoFailed,
        .streamCloseNormal]) (there : (t.registered event.streamId).isSome) : event.streamId = s := by
      by_contra differs
      exact elsewhere _ differs there (.inl ⟨rfl, tag⟩)
    unfold TargetTransport.drive
    split
    · rename_i phase
      refine .same (fun feeds => ?_) rfl
      have own := feeds.2.2.2.2.2
      unfold reads at own
      rw [phase] at own
      cases own
    · split
      · rename_i flagged
        exact .same (fun feeds => flagged feeds.1) rfl
      · rename_i flags
        have quiet {tag : EventTag} (is : event.tag = tag) (differs : tag ≠ .streamBytes) : ¬ Feeds t event :=
          not_feeds (is ▸ differs)
        have ends (quiet : ¬ Feeds t event) (u : TargetTransport H T) (reason : CloseReason) :
            Lined s event t (TargetTransport.leaseEvent event (u.leaseTerminal reason none) t).2 := by
          unfold TargetTransport.leaseEvent
          split
          · exact .same quiet rfl
          · exact leaseTerminal_lined _ _ _
        cases tag : event.tag with
        | eligibilityLost =>
            obtain ⟨u, reason, same⟩ := eligibilityLost_terminal t
            dsimp only
            rw [same]
            exact ends (quiet tag nofun) u reason
        | cleanupFailed => exact ends (quiet tag nofun) t _
        | internalError => exact ends (quiet tag nofun) t _
        | timerFired =>
            refine timerFired_lined (quiet tag nofun) sound fun action own fires names there => ?_
            by_contra differs
            exact elsewhere own differs there (.inr ⟨tag, action, fires, names⟩)
        | bootstrapConnected => exact bootstrapConnected_lined noise entropy (quiet tag nofun)
        | fullWriteCommitted => exact fullWriteCommitted_lined (quiet tag nofun) (mine (by rw [tag]; decide))
        | sessionAccepted => exact sessionAccepted_lined noise entropy (quiet tag nofun)
        | runtimeResponse => exact runtimeResponse_lined noise (quiet tag nofun) sound (mine (by rw [tag]; decide))
        | streamBytes => exact streamBytes_lined noise (by simpa using flags) tag (mine (by rw [tag]; decide))
        | streamEof | streamIoFailed | streamCloseNormal =>
            exact streamClosed_lined (quiet tag nofun) (mine (by rw [tag]; decide))

end

end AppPilotKit.Target
