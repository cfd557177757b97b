import AppPilotKit.Target.Conclusion
import AppPilotKit.Target.Deadlines

/-! # Which armed timers are announced

The host learns of a timer from the one deadline an outcome can carry. Every event arms at
most one timer and its outcome announces it, but for a chunk of bytes that starts a frame
timer in a call whose answer has no room for it: the chunk is refused, a Close frame is
written, or a counter has run out.
-/

namespace AppPilotKit.Target

open Wire Transport

variable {R H T : Type}

/-- The token that a host schedules. -/
def Outcome.deadlineToken (o : Outcome) : Option Nat :=
  if o.flags &&& 1 <<< 1 ≠ 0 then some o.value0
  else if o.flags &&& 1 <<< 2 ≠ 0 then some o.writeToken
  else none

theorem Outcome.deadlineToken_deadline {o : Outcome} (plain : o.flags = 0) (timer ms : Nat) :
    (o.deadline timer ms).deadlineToken = some timer ∧ (o.deadline timer ms).nextDeadlineMs = ms := by
  unfold Outcome.deadline Outcome.deadlineToken
  split
  · simp [plain]
  · simp [plain]

theorem Outcome.deadlineToken_plain {o : Outcome} (plain : o.flags = 0) : o.deadlineToken = none := by
  simp [Outcome.deadlineToken, plain]

/-- No timer is new. -/
def Silent (c c' : Clock) : Prop := ∀ k a, c'.timers.lookup k = some a → c.timers.lookup k = some a

/-- At most the timer `timer` is new, and its token was not given out before. -/
structure Adds (timer : Nat) (c c' : Clock) : Prop where
  new : c.nextToken ≤ timer ∧ timer < c'.nextToken
  timers : ∀ k a, c'.timers.lookup k = some a → c.timers.lookup k = some a ∨ k = timer

/-- An answer announces the timer that is new. -/
inductive Told (c : Clock) : Except SupervisorError Outcome → Clock → Prop
  | silent {r c'} : (∀ o, r = .ok o → o.deadlineToken = none) → Silent c c' → Told c r c'
  | announced {o timer c'} : o.deadlineToken = some timer → 0 < o.nextDeadlineMs → Adds timer c c' → Told c (.ok o) c'

/-- What a frame timer that may have been started has done to the clock. -/
def Started (c : Clock) (c' : Clock) : Option Nat → Prop
  | none => Silent c c'
  | some timer => Adds timer c c'

variable {c c' c'' : Clock}

namespace Silent

theorem refl (c : Clock) : Silent c c := fun _ _ found => found

theorem trans (first : Silent c c') (second : Silent c' c'') : Silent c c'' :=
  fun k a found => first k a (second k a found)

theorem allocate {result : Except SupervisorError Nat} (eq : c.allocateToken = (result, c')) : Silent c c' := by
  have timers := (Clock.allocateToken_timers c).1
  rw [eq] at timers
  exact fun k a found => timers ▸ found

theorem cancel (c : Clock) (slot : Option Nat) : Silent c (c.cancel slot) := by
  intro k a found
  rw [Clock.lookup_cancel] at found
  split at found
  · cases found
  · exact found

theorem clear (c c' : Clock) : Silent c { c' with timers := ∅ } := fun _ _ found => by cases found

end Silent

/-- A token is refused only when none is left. -/
theorem Clock.allocateToken_spent {error : SupervisorError} (positive : 0 < c.nextToken)
    (eq : c.allocateToken = (.error error, c')) : Spent c := by
  unfold Clock.allocateToken at eq
  split at eq
  · rw [if_neg positive.ne'] at eq
    cases eq
  · unfold Spent
    omega

theorem Adds.allocate {timer : Nat} {result : Except SupervisorError Nat} (adds : Adds timer c c')
    (eq : c'.allocateToken = (result, c'')) : Adds timer c c'' := by
  have ages := Ages.allocate eq
  exact ⟨⟨adds.new.1, adds.new.2.trans_le ages.tokens⟩, fun k a found => adds.timers k a (Silent.allocate eq k a found)⟩

theorem Adds.cancel {timer : Nat} (adds : Adds timer c c') (slot : Option Nat) : Adds timer c (c'.cancel slot) := by
  refine ⟨by rw [Clock.cancel_nextToken]; exact adds.new, fun k a found => adds.timers k a (Silent.cancel c' slot k a found)⟩

/-- A timer that is stopped again is not new. -/
theorem Adds.stopped {timer : Nat} (adds : Adds timer c c') : Silent c (c'.cancel (some timer)) := by
  intro k a found
  rw [Clock.lookup_cancel] at found
  split at found
  · cases found
  · rename_i other
    rcases adds.timers k a found with older | same
    · exact older
    · exact absurd (congrArg some same.symm) other

/-- A timer that is started on top of a clock without new timers. -/
theorem scheduled {timer : Nat} {action : TimerAction} (silent : Silent c c') (tokens : c.nextToken ≤ c'.nextToken)
    (eq : c'.scheduleTimer action = (.ok timer, c'')) : Adds timer c c'' := by
  rcases Clock.scheduleTimer_cases c' action with ⟨error, failed⟩ | made
  · rw [failed] at eq
    cases eq
  · rw [made] at eq
    cases eq
    refine ⟨⟨tokens, Nat.lt_succ_self _⟩, fun k a found => ?_⟩
    rw [Table.lookup_insert_eq] at found
    split at found
    · rename_i same
      exact .inr same
    · exact .inl (silent k a found)

theorem unscheduled {action : TimerAction} {error : SupervisorError} (silent : Silent c c')
    (eq : c'.scheduleTimer action = (.error error, c'')) : Silent c c'' := by
  rcases Clock.scheduleTimer_cases c' action with ⟨_, failed⟩ | made
  · rw [failed] at eq
    cases eq
    exact silent.trans (.allocate rfl)
  · rw [made] at eq
    cases eq

theorem updateFrameTimer_started {incomplete : Bool} {slot slot' started : Option Nat} {action : TimerAction}
    (eq : c.updateFrameTimer incomplete slot action = (.ok started, slot', c')) :
    Started c c' started ∧ (started.isSome → slot' = started) := by
  unfold Clock.updateFrameTimer at eq
  split at eq
  · split at eq
    · split at eq
      · cases eq
      · rename_i made
        cases eq
        exact ⟨scheduled (.refl c) le_rfl made, fun _ => rfl⟩
    · cases eq
      exact ⟨.refl c, nofun⟩
  · cases eq
    exact ⟨.cancel c slot, nofun⟩

theorem updateFrameTimer_unstarted {incomplete : Bool} {slot slot' : Option Nat} {action : TimerAction}
    {error : SupervisorError} (eq : c.updateFrameTimer incomplete slot action = (.error error, slot', c')) :
    Silent c c' := by
  unfold Clock.updateFrameTimer at eq
  split at eq
  · split at eq
    · split at eq
      · rename_i made
        cases eq
        exact unscheduled (.refl c) made
      · cases eq
    · cases eq
  · cases eq

theorem replaceChildTimer_told {child child' : Child H T} {action : TimerAction} {timer : Nat} (silent : Silent c c')
    (tokens : c.nextToken ≤ c'.nextToken) (eq : replaceChildTimer child c' action = (.ok timer, child', c'')) :
    Adds timer c c'' := by
  unfold replaceChildTimer at eq
  dsimp only at eq
  split at eq
  · cases eq
  · rename_i made
    cases eq
    refine scheduled (silent.trans (.cancel _ _)) ?_ made
    rw [Clock.cancel_nextToken]
    exact tokens

theorem replaceChildTimer_untold {child child' : Child H T} {action : TimerAction} {error : SupervisorError}
    (silent : Silent c c') (eq : replaceChildTimer child c' action = (.error error, child', c'')) : Silent c c'' := by
  unfold replaceChildTimer at eq
  dsimp only at eq
  split at eq
  · rename_i failed
    cases eq
    exact unscheduled (silent.trans (.cancel _ _)) failed
  · cases eq

namespace Told

theorem error {error : SupervisorError} (silent : Silent c c') : Told c (.error error) c' := by
  refine .silent (fun o same => ?_) silent
  cases same

theorem plain {o : Outcome} (flags : o.flags = 0) (silent : Silent c c') : Told c (.ok o) c' := by
  refine .silent (fun o' same => ?_) silent
  cases same
  exact Outcome.deadlineToken_plain flags

theorem deadline {o : Outcome} {timer ms : Nat} (flags : o.flags = 0) (positive : 0 < ms) (adds : Adds timer c c') :
    Told c (.ok (o.deadline timer ms)) c' := by
  obtain ⟨token, milliseconds⟩ := Outcome.deadlineToken_deadline flags timer ms
  exact .announced token (by rw [milliseconds]; exact positive) adds

theorem withFrameDeadline {o : Outcome} {started : Option Nat} (flags : o.flags = 0) (clock : Started c c' started) :
    Told c (.ok (o.withFrameDeadline started)) c' := by
  cases started with
  | none => exact plain flags clock
  | some timer => exact deadline flags (by decide) clock

end Told

theorem Started.allocate {started : Option Nat} {result : Except SupervisorError Nat} (clock : Started c c' started)
    (eq : c'.allocateToken = (result, c'')) : Started c c'' started := by
  cases started with
  | none => exact Silent.trans clock (.allocate eq)
  | some timer => exact Adds.allocate clock eq

/-! ## The work on a child -/

section
variable {s : Nat} {t u : TargetTransport H T} {e : Eligible H T} {child : Child H T} {event : Event} {started : Option Nat}

/-- A frame timer that was started is in the slot of the child of `s`. -/
def Holds (u : TargetTransport H T) (s : Nat) (started : Option Nat) : Prop :=
  started.isSome → ∃ child, u.registered s = some child ∧ child.frameTimer = started

theorem holds_withChild (t : TargetTransport H T) (e : Eligible H T) {child : Child H T}
    (frame : started.isSome → child.frameTimer = started) : Holds (t.withChild e s child) s started :=
  fun some => ⟨child, registered_withChild t e s child, frame some⟩

/-- The end of a child stops its frame timer. -/
theorem childTerminal_told (clock : Started c u.clock started) (holds : Holds u s started) (reason : CloseReason)
    (peer : Option (CloseReason × HandoffState)) :
    Told c (TargetTransport.answer (u.childTerminal s reason peer)).1
      (TargetTransport.answer (u.childTerminal s reason peer)).2.clock := by
  cases started with
  | none =>
      unfold TargetTransport.childTerminal
      split
      · split
        · exact .plain rfl (Silent.trans clock ((Silent.cancel _ _).trans (.cancel _ _)))
        · exact .plain rfl clock
      · exact .plain rfl clock
  | some timer =>
      obtain ⟨child, found, frame⟩ := holds rfl
      obtain ⟨e, eligible, there⟩ := registered_some found
      unfold TargetTransport.childTerminal TargetTransport.answer
      simp only [eligible, there, frame]
      exact .plain rfl (Adds.cancel clock _).stopped

/-- A core error announces no timer: a Close frame must not have started one. -/
theorem childCoreError_told (clock : Started c u.clock started) (holds : Holds u s started) (error : Error)
    (told : started.isSome → error.closeFrame.isSome → Spent u.clock) :
    Told c (TargetTransport.answer (u.childCoreError s error)).1
      (TargetTransport.answer (u.childCoreError s error)).2.clock := by
  unfold TargetTransport.childCoreError
  cases close : error.closeFrame with
  | none => exact childTerminal_told clock holds _ _
  | some frame =>
      dsimp only
      cases allocated : u.clock.allocateToken with
      | mk result clock' =>
          have after : Started c clock' started := clock.allocate allocated
          cases result with
          | error _ => exact childTerminal_told (u := { u with clock := clock' }) after holds _ _
          | ok token =>
              have silent : Silent c clock' := by
                cases started with
                | none => exact after
                | some timer =>
                    have spent := told rfl (by rw [close]; rfl)
                    unfold Clock.allocateToken at allocated
                    rw [if_neg (by unfold Spent at spent; omega)] at allocated
                    cases allocated
              have gone := childTerminal_told (u := { u with clock := clock' }) after holds error.reason error.peerClose
              dsimp only
              split
              · split
                · refine .silent (fun o same => ?_) silent
                  cases same
                  simp [Outcome.deadlineToken, Outcome.write, Outcome.stream, Outcome.new]
                · exact gone
              · exact gone

/-- The error in which the frames of a child end. -/
def frameError (noise : Noise R H T) : ChildPhase H T → Bytes → List Bytes → Option Error
  | .awaitM2 session, frame, _ =>
      match session.readM2 noise frame with
      | (.error error, _) => some error
      | (.ok (), session) =>
          match session.writeFinished noise with
          | (.error error, _) => some error
          | (.ok _, _) => none
  | .awaitFinished session, frame, more =>
      match session.readFinished noise frame with
      | (.error error, _) => some error
      | (.ok (), session) =>
          match TargetTransport.readApplications noise session none more with
          | .failed error => some error
          | _ => none
  | .awaitApplication session, frame, more =>
      match TargetTransport.readApplications noise session none (frame :: more) with
      | .failed error => some error
      | _ => none
  | _, _, _ => none

/-- The answer to the frames of a child has no room for a frame timer: the child takes no
    frames, or a Close frame is written, or a counter has run out. `last` says that the frame
    timer took the last token. -/
def Crowds (noise : Noise R H T) (child : Child H T) (last : Prop) (frame : Bytes) (more : List Bytes) : Prop :=
  let closes := ∃ error, frameError noise child.phase frame more = some error ∧ error.closeFrame.isSome ∧ ¬ last
  match child.phase with
  | .awaitM2 _ => more = [] ∧ (closes ∨ frameError noise child.phase frame more = none ∧ last)
  | .awaitFinished _ | .awaitApplication _ =>
      closes ∨ Completes noise child.phase (frame :: more) ∧ 2 ^ 64 ≤ child.applications + 1
  | _ => True

theorem finishApplications_told (clock : Started c t.clock started) (frame : started.isSome → child.frameTimer = started)
    {read : TargetTransport.ApplicationRead H T} (tokens : c.nextToken ≤ t.clock.nextToken)
    (closes : started.isSome → ∀ error, read = .failed error → error.closeFrame.isSome → Spent t.clock)
    (counts : started.isSome → ∀ session bytes, read = .done session (some bytes) → child.applications + 1 < 2 ^ 64) :
    Told c (t.finishApplications e s child started read).1 (t.finishApplications e s child started read).2.clock := by
  have holds (phase : ChildPhase H T) : Holds (t.withChild e s { child with phase }) s started := holds_withChild t e frame
  cases read with
  | second => exact childTerminal_told (u := t.withChild e s _) clock (holds .terminal) _ _
  | failed error =>
      exact childCoreError_told (u := t.withChild e s _) clock (holds .terminal) error fun some => closes some error rfl
  | done session application =>
      cases application with
      | none => exact .withFrameDeadline rfl clock
      | some bytes =>
          simp only [TargetTransport.finishApplications]
          cases started with
          | none =>
              split
              · exact .error clock
              · dsimp only
                split
                · rename_i eq
                  exact .error (replaceChildTimer_untold clock eq)
                · rename_i eq
                  refine .deadline rfl ?_ (replaceChildTimer_told clock tokens eq)
                  split
                  · decide
                  · decide
          | some timer =>
              have counted := counts rfl session bytes rfl
              have next : checkedAdd child.applications 1 = some (child.applications + 1) :=
                checkedAdd_of counted
              simp only [next]
              exact .deadline rfl (by decide) (Adds.cancel clock _)

theorem sessionFrames_told (noise : Noise R H T) (positive : 0 < c.nextToken) (clock : Started c t.clock started)
    (frame : started.isSome → child.frameTimer = started) (tokens : c.nextToken ≤ t.clock.nextToken) {first : Bytes}
    {more : List Bytes} (roomy : started.isSome → ¬ Crowds noise child (Spent t.clock) first more) :
    Told c (t.sessionFrames noise e s child started first more).1
      (t.sessionFrames noise e s child started first more).2.clock := by
  have holds (phase : ChildPhase H T) : Holds (t.withChild e s { child with phase }) s started := holds_withChild t e frame
  -- a call that has no room has not started a timer
  have silent (crowds : Crowds noise child (Spent t.clock) first more) : Silent c t.clock := by
    cases started with
    | none => exact clock
    | some timer => exact absurd crowds (roomy rfl)
  have closes (takes : (∃ error, frameError noise child.phase first more = some error ∧ error.closeFrame.isSome ∧
      ¬ Spent t.clock) → Crowds noise child (Spent t.clock) first more) (error : Error)
      (failed : frameError noise child.phase first more = some error) (some : started.isSome)
      (close : error.closeFrame.isSome) : Spent t.clock := by
    by_contra left
    exact roomy some (takes ⟨error, failed, close, left⟩)
  unfold TargetTransport.sessionFrames
  dsimp only
  cases phase : child.phase with
  | awaitM2 session =>
      dsimp only
      by_cases single : more ≠ []
      · rw [if_pos single]
        exact childTerminal_told (u := t.withChild e s _) clock (holds .terminal) _ _
      rw [if_neg single]
      have alone : more = [] := by simpa using single
      have takes (closing : ∃ error, frameError noise child.phase first more = some error ∧ error.closeFrame.isSome ∧
          ¬ Spent t.clock) : Crowds noise child (Spent t.clock) first more := by
        unfold Crowds
        rw [phase] at closing ⊢
        exact ⟨alone, .inl closing⟩
      cases read : session.readM2 noise first with
      | mk result after =>
          cases result with
          | error error =>
              refine childCoreError_told (u := t.withChild e s _) clock (holds .terminal) error (closes takes error ?_)
              rw [phase]
              simp only [frameError, read]
          | ok _ =>
              dsimp only
              cases wrote : after.writeFinished noise with
              | mk result final =>
                  cases result with
                  | error error =>
                      refine childCoreError_told (u := t.withChild e s _) clock (holds .terminal) error (closes takes error ?_)
                      rw [phase]
                      simp only [frameError, read, wrote]
                  | ok finished =>
                      dsimp only
                      split
                      · rename_i allocated
                        refine .error (Silent.trans (silent ?_) (.allocate allocated))
                        have spent : Spent t.clock := Clock.allocateToken_spent (positive.trans_le tokens) allocated
                        unfold Crowds
                        rw [phase]
                        exact ⟨alone, .inr ⟨by simp only [frameError, read, wrote], spent⟩⟩
                      · rename_i allocated
                        exact .withFrameDeadline rfl (clock.allocate allocated)
  | awaitFinished session =>
      dsimp only
      have takes (closing : ∃ error, frameError noise child.phase first more = some error ∧ error.closeFrame.isSome ∧
          ¬ Spent t.clock) : Crowds noise child (Spent t.clock) first more := by
        unfold Crowds
        rw [phase] at closing ⊢
        exact .inl closing
      cases read : session.readFinished noise first with
      | mk result after =>
          cases result with
          | error error =>
              refine childCoreError_told (u := t.withChild e s _) clock (holds .terminal) error (closes takes error ?_)
              rw [phase]
              simp only [frameError, read]
          | ok _ =>
              refine finishApplications_told clock frame tokens (fun some error failed => closes takes error ?_ some) ?_
              · rw [phase]
                simp only [frameError, read, failed]
              · intro some final bytes done
                by_contra most
                refine roomy some ?_
                unfold Crowds
                rw [phase]
                exact .inr ⟨⟨after, final, bytes, read, done⟩, by omega⟩
  | awaitApplication session =>
      dsimp only
      have takes (closing : ∃ error, frameError noise child.phase first more = some error ∧ error.closeFrame.isSome ∧
          ¬ Spent t.clock) : Crowds noise child (Spent t.clock) first more := by
        unfold Crowds
        rw [phase] at closing ⊢
        exact .inl closing
      refine finishApplications_told clock frame tokens (fun some error failed => closes takes error ?_ some) ?_
      · rw [phase]
        simp only [frameError, failed]
      · intro some final bytes done
        by_contra most
        refine roomy some ?_
        unfold Crowds
        rw [phase]
        exact .inr ⟨⟨final, bytes, done⟩, by omega⟩
  | m1Pending | finishedPending | awaitRuntime | responsePending | terminalPending | terminal =>
      exact .error (silent (by unfold Crowds; rw [phase]; trivial))

/-- The bytes complete a frame and leave the next one incomplete, with no timer for it yet. -/
def Starts (decoder : OuterFrameDecoder) (frameTimer : Option Nat) (bytes first : Bytes) (more : List Bytes) : Prop :=
  frameTimer = none ∧ ∃ decoder', decoder.push bytes = (.ok (first :: more), decoder') ∧ decoder'.isIncomplete = true

/-- A timer is started only for a partial frame that has none. -/
theorem updateFrameTimer_starts {incomplete : Bool} {slot slot' : Option Nat} {action : TimerAction}
    (eq : c.updateFrameTimer incomplete slot action = (.ok started, slot', c')) (some : started.isSome) :
    incomplete = true ∧ slot = none ∧ ¬ Spent c ∧ c'.nextToken = c.nextToken + 1 := by
  unfold Clock.updateFrameTimer at eq
  split at eq
  · rename_i partial_
    split at eq
    · rename_i empty
      split at eq
      · cases eq
      · rename_i made
        cases eq
        rcases Clock.scheduleTimer_cases c action with ⟨error, failed⟩ | scheduled
        · rw [failed] at made
          cases made
        · rw [scheduled] at made
          cases made
          refine ⟨partial_, by simpa using empty, fun spent => ?_, rfl⟩
          unfold Clock.scheduleTimer Clock.allocateToken at scheduled
          rw [if_neg (by unfold Spent at spent; omega)] at scheduled
          cases scheduled
    · cases eq
      cases some
  · cases eq
    cases some

/-- The frame timer takes the last token. -/
def Last (c : Clock) : Prop := 2 ^ 64 ≤ c.nextToken + 2

theorem sessionBytes_told (noise : Noise R H T) (positive : 0 < t.clock.nextToken) (phase : t.phase = .eligible e)
    (found : e.children.lookup event.streamId = some child)
    (roomy : ∀ first more, Starts child.decoder child.frameTimer event.bytes first more → ¬ Spent t.clock →
      ¬ Crowds noise child (Last t.clock) first more) :
    Told t.clock (t.sessionBytes noise event).1 (t.sessionBytes noise event).2.clock := by
  unfold TargetTransport.sessionBytes
  simp only [phase, found]
  cases pushed : child.decoder.push event.bytes with
  | mk result decoder =>
      cases result with
      | error error =>
          have unchanged : Started t.clock t.clock none := Silent.refl _
          exact childCoreError_told (u := t.withChild e event.streamId _) unchanged nofun error nofun
      | ok frames =>
          dsimp only
          cases updated : t.clock.updateFrameTimer decoder.isIncomplete child.frameTimer (.sessionFrame event.streamId) with
          | mk result rest =>
              obtain ⟨frameTimer, clock⟩ := rest
              cases result with
              | error error => exact .error (updateFrameTimer_unstarted updated)
              | ok started =>
                  obtain ⟨timed, held⟩ := updateFrameTimer_started updated
                  cases frames with
                  | nil => exact .withFrameDeadline rfl timed
                  | cons first more =>
                      refine sessionFrames_told (t := { t with clock }) noise positive timed held (Ages.updateFrameTimer updated).tokens ?_
                      intro some crowds
                      obtain ⟨incomplete, empty, left, next⟩ := updateFrameTimer_starts updated some
                      refine roomy first more ⟨empty, decoder, pushed, incomplete⟩ left ?_
                      have last : Spent clock ↔ Last t.clock := by
                        unfold Spent Last
                        rw [next]
                      rw [← last]
                      exact crowds

theorem leaseTerminal_told (c : Clock) (u : TargetTransport H T) (reason : CloseReason)
    (peer : Option (CloseReason × HandoffState)) :
    Told c (TargetTransport.answer (u.leaseTerminal reason peer)).1
      (TargetTransport.answer (u.leaseTerminal reason peer)).2.clock :=
  .plain rfl (Silent.clear c u.clock)

/-- The lease answers a heartbeat request with a reply. -/
def Replies (noise : Noise R H T) (lease : TargetLeaseConnection T) (frame : Bytes) : Prop :=
  ∃ counter after reply final, lease.readHeartbeatRequest noise frame = (.ok counter, after) ∧
    after.writeHeartbeatReply noise counter = (.ok reply, final)

theorem leaseBytes_told (noise : Noise R H T) (positive : 0 < t.clock.nextToken) (phase : t.phase = .eligible e)
    (roomy : ∀ first, e.leaseWrite = none → Starts e.leaseDecoder e.leaseFrameTimer event.bytes first [] → ¬ Spent t.clock →
      ¬ (Last t.clock ∧ Replies noise e.lease first)) :
    Told t.clock (t.leaseBytes noise event).1 (t.leaseBytes noise event).2.clock := by
  unfold TargetTransport.leaseBytes
  simp only [phase]
  split
  · exact .error (.refl _)
  rename_i idle
  cases pushed : e.leaseDecoder.push event.bytes with
  | mk result decoder =>
      cases result with
      | error error => exact leaseTerminal_told _ _ _ _
      | ok frames =>
          dsimp only
          cases updated : t.clock.updateFrameTimer decoder.isIncomplete e.leaseFrameTimer .leaseFrame with
          | mk result rest =>
              obtain ⟨frameTimer, clock⟩ := rest
              cases result with
              | error error => exact .error (updateFrameTimer_unstarted updated)
              | ok started =>
                  obtain ⟨timed, -⟩ := updateFrameTimer_started updated
                  have tokens : t.clock.nextToken ≤ clock.nextToken := (Ages.updateFrameTimer updated).tokens
                  dsimp only
                  split
                  · exact .withFrameDeadline rfl timed
                  · rename_i first
                    split
                    · exact leaseTerminal_told _ _ _ _
                    · rename_i read
                      split
                      · exact leaseTerminal_told _ _ _ _
                      · rename_i wrote
                        split
                        · rename_i allocated
                          cases started with
                          | none => exact .error (Silent.trans timed (.allocate allocated))
                          | some timer =>
                              obtain ⟨incomplete, empty, left, next⟩ := updateFrameTimer_starts updated rfl
                              have spent := Clock.allocateToken_spent (positive.trans_le tokens) allocated
                              refine absurd ⟨?_, _, _, _, _, read, wrote⟩
                                (roomy first (by simpa using idle) ⟨empty, decoder, pushed, incomplete⟩ left)
                              unfold Spent at spent
                              unfold Last
                              omega
                        · rename_i allocated
                          exact .withFrameDeadline rfl (timed.allocate allocated)
                  · exact leaseTerminal_told _ _ _ _

/-- The bootstrap answers the second handshake message. -/
def Acknowledges (noise : Noise R H T) (bootstrap : TargetBootstrap H) (generation : Nat) (frame : Bytes) : Prop :=
  ∃ transport ack pbs reply lease, bootstrap.readM2 noise frame generation 1 = .ok ((transport, ack), pbs) ∧
    writeAck noise transport ack = .ok (reply, lease)

theorem bootstrapBytes_told (noise : Noise R H T) (positive : 0 < t.clock.nextToken) {streamId : Nat}
    {bootstrap : TargetBootstrap H} {decoder : OuterFrameDecoder} {frameTimer : Option Nat}
    (phase : t.phase = .bootstrapM2 streamId bootstrap decoder frameTimer)
    (roomy : ∀ first, Starts decoder frameTimer event.bytes first [] → ¬ Spent t.clock →
      ¬ (Last t.clock ∧ Acknowledges noise bootstrap t.generation first)) :
    Told t.clock (t.bootstrapBytes noise event).1 (t.bootstrapBytes noise event).2.clock := by
  unfold TargetTransport.bootstrapBytes
  simp only [phase]
  cases pushed : decoder.push event.bytes with
  | mk result decoder' =>
      cases result with
      | error error => exact leaseTerminal_told _ _ _ _
      | ok frames =>
          dsimp only [TargetTransport.movedOut]
          cases updated : t.clock.updateFrameTimer decoder'.isIncomplete frameTimer .bootstrapFrame with
          | mk result rest =>
              obtain ⟨frameTimer', clock⟩ := rest
              cases result with
              | error error => exact .error (updateFrameTimer_unstarted updated)
              | ok started =>
                  obtain ⟨timed, -⟩ := updateFrameTimer_started updated
                  have tokens : t.clock.nextToken ≤ clock.nextToken := (Ages.updateFrameTimer updated).tokens
                  dsimp only
                  split
                  · exact .withFrameDeadline rfl timed
                  · rename_i first
                    split
                    · exact leaseTerminal_told _ _ _ _
                    · rename_i read
                      split
                      · exact leaseTerminal_told _ _ _ _
                      · rename_i wrote
                        split
                        · rename_i allocated
                          cases started with
                          | none => exact .error (Silent.trans timed (.allocate allocated))
                          | some timer =>
                              obtain ⟨incomplete, empty, left, next⟩ := updateFrameTimer_starts updated rfl
                              have spent := Clock.allocateToken_spent (positive.trans_le tokens) allocated
                              refine absurd ⟨?_, _, _, _, _, _, read, wrote⟩
                                (roomy first ⟨empty, decoder', pushed, incomplete⟩ left)
                              unfold Spent at spent
                              unfold Last
                              omega
                        · rename_i allocated
                          exact .withFrameDeadline rfl (timed.allocate allocated)
                  · exact leaseTerminal_told _ _ _ _

/-- The chunk of bytes starts a frame timer that its answer cannot announce. -/
def Untold (noise : Noise R H T) (t : TargetTransport H T) (event : Event) : Prop :=
  event.flags = 0 ∧ event.tag = .streamBytes ∧ event.streamId ≠ 0 ∧ event.writeToken = 0 ∧ event.bytes ≠ [] ∧
    ¬ Spent t.clock ∧ ∃ first more,
      match t.phase with
      | .bootstrapM2 streamId bootstrap decoder frameTimer =>
          streamId = event.streamId ∧ Starts decoder frameTimer event.bytes first more ∧ more = [] ∧ Last t.clock ∧
            Acknowledges noise bootstrap t.generation first
      | .eligible e =>
          if e.leaseStream = event.streamId then
            e.leaseWrite = none ∧ Starts e.leaseDecoder e.leaseFrameTimer event.bytes first more ∧ more = [] ∧
              Last t.clock ∧ Replies noise e.lease first
          else ∃ child, e.children.lookup event.streamId = some child ∧
            Starts child.decoder child.frameTimer event.bytes first more ∧ Crowds noise child (Last t.clock) first more
      | _ => False

theorem streamBytes_told (noise : Noise R H T) (positive : 0 < t.clock.nextToken) (flags : event.flags = 0)
    (tag : event.tag = .streamBytes) (told : ¬ Untold noise t event) :
    Told t.clock (t.streamBytes noise event).1 (t.streamBytes noise event).2.clock := by
  unfold TargetTransport.streamBytes
  split
  · exact .error (.refl _)
  rename_i wellFormed
  push Not at wellFormed
  obtain ⟨nonzero, token, bytes⟩ := wellFormed
  have untold : ∀ _ : ¬ Spent t.clock, ∀ first more, ¬ _ := fun left first more bad =>
    told ⟨flags, tag, nonzero, token, bytes, left, first, more, bad⟩
  cases phase : t.phase with
  | bootstrapM2 streamId bootstrap decoder frameTimer =>
      simp only [phase] at untold
      dsimp only
      split
      · rename_i same
        refine bootstrapBytes_told noise positive phase fun first starts left bad => ?_
        exact untold left first [] ⟨same, starts, rfl, bad⟩
      · exact .error (.refl _)
  | eligible e =>
      simp only [phase] at untold
      dsimp only
      split
      · rename_i same
        refine leaseBytes_told noise positive phase fun first idle starts left bad => ?_
        exact untold left first [] (by rw [if_pos same]; exact ⟨idle, starts, rfl, bad⟩)
      · rename_i other
        split
        · rename_i there
          obtain ⟨child, found⟩ := Option.isSome_iff_exists.mp there
          refine sessionBytes_told noise positive phase found fun first more starts left bad => ?_
          exact untold left first more (by rw [if_neg other]; exact ⟨child, found, starts, bad⟩)
        · exact .error (.refl _)
  | awaitBootstrap | bootstrapM1Pending | bootstrapAckPending | terminal => exact .error (.refl _)

/-! ## The other events -/

theorem silent_childTerminal (silent : Silent c u.clock) (s : Nat) (reason : CloseReason)
    (peer : Option (CloseReason × HandoffState)) :
    Told c (TargetTransport.answer (u.childTerminal s reason peer)).1
      (TargetTransport.answer (u.childTerminal s reason peer)).2.clock := by
  have unchanged : Started c u.clock none := silent
  exact childTerminal_told unchanged nofun reason peer

theorem silent_childCoreError (silent : Silent c u.clock) (s : Nat) (error : Error) :
    Told c (TargetTransport.answer (u.childCoreError s error)).1
      (TargetTransport.answer (u.childCoreError s error)).2.clock := by
  have unchanged : Started c u.clock none := silent
  exact childCoreError_told unchanged nofun error nofun

theorem bootstrapConnected_told (noise : Noise R H T) (entropy : R) (t : TargetTransport H T) (event : Event) :
    Told t.clock (t.bootstrapConnected noise entropy event).1 (t.bootstrapConnected noise entropy event).2.clock := by
  unfold TargetTransport.bootstrapConnected
  split
  · exact .error (.refl _)
  · split
    · dsimp only
      split
      · exact leaseTerminal_told _ _ _ _
      · split
        · exact leaseTerminal_told _ _ _ _
        · split
          · rename_i allocated
            exact .error (.allocate allocated)
          · rename_i allocated
            have silent : Silent t.clock _ := Silent.allocate allocated
            have tokens : t.clock.nextToken ≤ _ := (Ages.allocate allocated).tokens
            split
            · rename_i failed
              exact .error (unscheduled silent failed)
            · rename_i made
              exact .deadline rfl (by decide) (scheduled silent tokens made)
    · exact .error (.refl _)

theorem commitChildWrite_told (silent : Silent c t.clock) (tokens : c.nextToken ≤ t.clock.nextToken) (e : Eligible H T)
    (s token : Nat) : Told c (t.commitChildWrite e s token).1.1 (t.commitChildWrite e s token).1.2.clock := by
  have rejected : Told c (.error .wrongPhase) t.clock := .error silent
  have moved : Told c (.ok ((Outcome.new .needInput).stream s)) t.clock := .plain rfl silent
  unfold TargetTransport.commitChildWrite
  dsimp only
  split
  · exact rejected
  · split
    · split
      · exact moved
      · exact rejected
    · split
      · exact moved
      · exact rejected
    · split
      · split
        · rename_i failed
          exact .error (replaceChildTimer_untold silent failed)
        · rename_i made
          exact .deadline rfl (by decide) (replaceChildTimer_told silent tokens made)
      · exact rejected
    · split
      · exact silent_childTerminal silent _ _ _
      · exact rejected
    · exact rejected

theorem fullWriteCommitted_told (t : TargetTransport H T) (event : Event) :
    Told t.clock (t.fullWriteCommitted event).1 (t.fullWriteCommitted event).2.clock := by
  have rejected : Told t.clock (.error .wrongPhase) t.clock := .error (.refl _)
  unfold TargetTransport.fullWriteCommitted
  split
  · exact .error (.refl _)
  · split
    · split
      · exact .plain rfl (.refl _)
      · exact rejected
    · split
      · have silent : Silent t.clock { t.clock with timers := t.clock.timers.retain (· ≠ TimerAction.bootstrap) } :=
          fun _ _ found => (Table.lookup_retain.mp found).1
        dsimp only
        split
        · rename_i failed
          exact .error (unscheduled silent failed)
        · rename_i made
          exact .deadline rfl (by decide) (scheduled silent le_rfl made)
      · exact rejected
    · split
      · split
        · split
          · exact .plain rfl (.refl _)
          · exact rejected
        · exact rejected
      · exact commitChildWrite_told (t := t.movedOut) (.refl _) le_rfl _ _ _
    · exact rejected

theorem sessionAccepted_told (noise : Noise R H T) (entropy : R) (t : TargetTransport H T) (event : Event) :
    Told t.clock (t.sessionAccepted noise entropy event).1 (t.sessionAccepted noise entropy event).2.clock := by
  have rejected (error : SupervisorError) : Told t.clock (.error error) t.clock := .error (.refl _)
  unfold TargetTransport.sessionAccepted
  split
  · exact rejected _
  · split
    · split
      · exact rejected _
      · split
        · exact rejected _
        · split
          · exact rejected _
          · split
            · rename_i allocated
              exact .error (.allocate allocated)
            · rename_i allocated
              have silent : Silent t.clock _ := Silent.allocate allocated
              have tokens : t.clock.nextToken ≤ _ := (Ages.allocate allocated).tokens
              split
              · rename_i failed
                exact .error (unscheduled silent failed)
              · rename_i made
                exact .deadline rfl (by decide) (scheduled silent tokens made)
    · exact rejected _

theorem runtimeResponse_told (noise : Noise R H T) (t : TargetTransport H T) (event : Event) :
    Told t.clock (t.runtimeResponse noise event).1 (t.runtimeResponse noise event).2.clock := by
  have rejected (error : SupervisorError) : Told t.clock (.error error) t.clock := .error (.refl _)
  unfold TargetTransport.runtimeResponse
  split
  · exact rejected _
  · split
    · split
      · exact rejected _
      · split
        · dsimp only
          split
          · exact silent_childCoreError (u := t.withChild _ _ _) (.refl _) _ _
          · split
            · rename_i allocated
              exact .error (.allocate allocated)
            · rename_i allocated
              exact .plain rfl (.allocate allocated)
        · exact rejected _
    · exact rejected _

theorem streamEnd_told (t : TargetTransport H T) (s : Nat) (reason : CloseReason) (orderly : Bool) :
    Told t.clock (t.streamEnd s reason orderly).1 (t.streamEnd s reason orderly).2.clock := by
  have rejected : Told t.clock (.error .wrongPhase) t.clock := .error (.refl _)
  unfold TargetTransport.streamEnd
  split
  · split
    · split
      · exact leaseTerminal_told _ _ _ _
      · exact leaseTerminal_told _ _ _ _
    · exact rejected
  · split
    · split
      · exact leaseTerminal_told _ _ _ _
      · exact leaseTerminal_told _ _ _ _
    · exact rejected
  · split
    · split
      · exact leaseTerminal_told _ _ _ _
      · exact leaseTerminal_told _ _ _ _
    · exact rejected
  · split
    · split
      · exact leaseTerminal_told _ _ _ _
      · exact leaseTerminal_told _ _ _ _
    · split
      · exact rejected
      · split
        · exact silent_childCoreError (u := t.withChild _ _ _) (.refl _) _ _
        · exact silent_childTerminal (u := t.withChild _ _ _) (.refl _) _ _ _
  · exact rejected

theorem streamClosed_told (t : TargetTransport H T) (event : Event) :
    Told t.clock (t.streamClosed event).1 (t.streamClosed event).2.clock := by
  unfold TargetTransport.streamClosed
  split
  · exact .error (.refl _)
  · split
    · exact streamEnd_told t _ _ _
    · exact streamEnd_told t _ _ _
    · exact streamEnd_told t _ _ _

theorem leaseTickFired_told (silent : Silent c t.clock) (tokens : c.nextToken ≤ t.clock.nextToken) (token : Nat) :
    Told c (t.leaseTickFired token).1 (t.leaseTickFired token).2.clock := by
  have idle : Told c (.ok (.new .needInput)) t.clock := .plain rfl silent
  unfold TargetTransport.leaseTickFired
  split
  · split
    · exact idle
    · dsimp only
      split
      · exact leaseTerminal_told _ _ _ _
      · split
        · exact leaseTerminal_told _ _ _ _
        · split
          · rename_i failed
            exact .error (unscheduled silent failed)
          · rename_i made
            exact .deadline rfl (by decide) (scheduled silent tokens made)
  · exact idle

theorem childTimerFired_told (silent : Silent c t.clock) (s : Nat) (reason : CloseReason) :
    Told c (t.childTimerFired s reason).1 (t.childTimerFired s reason).2.clock := by
  have idle : Told c (.ok (.new .needInput)) t.clock := .plain rfl silent
  unfold TargetTransport.childTimerFired
  split
  · split
    · exact silent_childTerminal silent _ _ _
    · exact idle
  · exact idle

theorem timerFired_told (t : TargetTransport H T) (event : Event) :
    Told t.clock (t.timerFired event).1 (t.timerFired event).2.clock := by
  unfold TargetTransport.timerFired
  split
  · exact .error (.refl _)
  · split
    · exact .plain rfl (.refl _)
    · have silent := Silent.cancel t.clock (some event.writeToken)
      have tokens := (Ages.cancel t.clock (some event.writeToken)).tokens
      dsimp only
      split
      · exact leaseTerminal_told _ _ _ _
      · exact leaseTerminal_told _ _ _ _
      · exact leaseTerminal_told _ _ _ _
      · exact leaseTickFired_told (t := { t with clock := t.clock.cancel (some event.writeToken) }) silent tokens _
      · exact childTimerFired_told (t := { t with clock := t.clock.cancel (some event.writeToken) }) silent _ _
      · exact childTimerFired_told (t := { t with clock := t.clock.cancel (some event.writeToken) }) silent _ _
      · exact childTimerFired_told (t := { t with clock := t.clock.cancel (some event.writeToken) }) silent _ _

theorem leaseEvent_told (t u : TargetTransport H T) (event : Event) (reason : CloseReason) :
    Told t.clock (TargetTransport.leaseEvent event (u.leaseTerminal reason none) t).1
      (TargetTransport.leaseEvent event (u.leaseTerminal reason none) t).2.clock := by
  unfold TargetTransport.leaseEvent
  split
  · exact .error (.refl _)
  · exact leaseTerminal_told _ _ _ _

/-- Every event that can announce its timer does. -/
theorem drive_told (noise : Noise R H T) (entropy : R) (positive : 0 < t.clock.nextToken) (told : ¬ Untold noise t event) :
    Told t.clock (t.drive noise entropy event).1 (t.drive noise entropy event).2.clock := by
  unfold TargetTransport.drive
  split
  · exact .plain rfl (.refl _)
  · split
    · exact .error (.refl _)
    · rename_i flags
      cases tag : event.tag with
      | eligibilityLost =>
          obtain ⟨u, reason, same⟩ := eligibilityLost_terminal t
          dsimp only
          rw [same]
          exact leaseEvent_told t u event reason
      | cleanupFailed => exact leaseEvent_told t t event _
      | internalError => exact leaseEvent_told t t event _
      | timerFired => exact timerFired_told t event
      | bootstrapConnected => exact bootstrapConnected_told noise entropy t event
      | fullWriteCommitted => exact fullWriteCommitted_told t event
      | sessionAccepted => exact sessionAccepted_told noise entropy t event
      | runtimeResponse => exact runtimeResponse_told noise t event
      | streamBytes => exact streamBytes_told noise positive (by simpa using flags) tag told
      | streamEof | streamIoFailed | streamCloseNormal => exact streamClosed_told t event

end

end AppPilotKit.Target
