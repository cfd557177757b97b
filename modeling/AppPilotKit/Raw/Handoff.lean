import AppPilotKit.Raw.Exchange
import AppPilotKit.Transport.NonceNoise

/-! # What a failure tells of the request

A raw stream may answer every call in any way. A failure that says the request was not
handed off is only returned while some of its bytes have not been accepted.
-/

namespace AppPilotKit.Raw

open Wire Transport Scripts
open Broker (TransportFailure)

/-- Every answer is possible. -/
def anything : World Query Query.Reply Unit := fun _ _ _ _ => True

abbrev Steps := List (Step Query Query.Reply Unit)

/-- The bytes of a request that a write accepts. A count beyond its input is not a count of
    accepted bytes. -/
def acceptedBy : (query : Query) → query.Reply → Bytes
  | .write .request input _, .ok count => if count ≤ input.length then input.take count else []
  | _, _ => []

def accepted (steps : Steps) : Bytes := steps.flatMap fun step => acceptedBy step.request step.reply

theorem accepted_append (front back : Steps) : accepted (front ++ back) = accepted front ++ accepted back :=
  List.flatMap_append

/-- A script that writes nothing of a request. -/
def Quiet {α : Type} (talk : Talk α) : Prop :=
  ∀ steps value, Run anything talk () steps (some value) () → accepted steps = []

section
variable {α β σ : Type} {deadline : AbsoluteDeadline} {steps : Steps}

theorem quiet_pure (value : α) : Quiet (pure value : Talk α) := by
  intro steps result run
  obtain ⟨rfl, -, -⟩ := Run.of_pure run
  rfl

theorem quiet_bind {talk : Talk α} {next : α → Talk β} (first : Quiet talk) (rest : ∀ value, Quiet (next value)) :
    Quiet (talk >>= next) := by
  intro steps result run
  obtain ⟨front, back, value, ⟨⟩, rfl, one, two⟩ := run.of_bind
  rw [accepted_append, first front value one, rest value back result two]
  rfl

theorem quiet_ask {query : Query} (quiet : ∀ reply, acceptedBy query reply = []) : Quiet (ask query) := by
  intro steps reply run
  obtain ⟨rfl, -⟩ := run.of_request
  simp [accepted, quiet]

theorem quiet_now : Quiet (ask .now) := quiet_ask fun _ => rfl

theorem quiet_ensureDeadline : Quiet (ensureDeadline deadline) := by
  refine quiet_bind quiet_now fun now => ?_
  split
  · exact quiet_pure _
  · exact quiet_pure _

theorem ensureDeadline_error {failure : TransportFailure}
    (run : Run anything (ensureDeadline deadline) () steps (some (.error failure)) ()) :
    failure.handoff = .notHandedOff := by
  obtain ⟨_, _, now, ⟨⟩, rfl, -, goes⟩ := run.of_bind
  cases now with
  | none =>
      obtain ⟨-, same, -⟩ := goes.of_pure
      cases same
      rfl
  | some now =>
      obtain ⟨-, same, -⟩ := goes.of_pure
      unfold ensureDeadlineAt at same
      split at same
      · cases same
        rfl
      · cases same

/-! ## Writing -/

/-- What is left of a request that could not be written. -/
structure Unfinished (accepted bytes : Bytes) : Prop where
  begins : accepted <+: bytes
  short : accepted ≠ bytes

theorem Unfinished.append {front back bytes : Bytes} (unfinished : Unfinished back bytes) :
    Unfinished (front ++ back) (front ++ bytes) :=
  ⟨(List.prefix_append_right_inj front).mpr unfinished.begins, fun same => unfinished.short (List.append_cancel_left same)⟩

theorem Unfinished.more {front bytes : Bytes} (unfinished : Unfinished front bytes) (rest : Bytes) :
    Unfinished front (bytes ++ rest) := by
  obtain ⟨left, rfl⟩ := unfinished.begins
  refine ⟨⟨left ++ rest, (List.append_assoc ..).symm⟩, fun same => unfinished.short ?_⟩
  have empty : left = [] := by
    have sizes := congrArg List.length same
    simp only [List.length_append] at sizes
    exact List.length_eq_zero_iff.mp (by omega)
  rw [empty, List.append_nil]

/-- What a write call leaves: all of it is accepted, or a part when it fails. -/
def Placed (bytes : Bytes) (steps : Steps) (result : Except TransportFailure Unit) : Prop :=
  match result with
  | .ok () => accepted steps = bytes
  | .error failure => failure.handoff = .notHandedOff ∧ Unfinished (accepted steps) bytes

theorem Placed.nothing {bytes : Bytes} {failure : TransportFailure} (something : bytes ≠ []) (silent : accepted steps = [])
    (before : failure.handoff = .notHandedOff) : Placed bytes steps (.error failure) := by
  refine ⟨before, ?_, ?_⟩
  · rw [silent]
    exact List.nil_prefix
  · rw [silent]
    exact Ne.symm something

theorem writeAll_placed {bytes : Bytes} {result : Except TransportFailure Unit}
    (run : Run anything (writeAll .request bytes deadline) () steps (some result) ()) : Placed bytes steps result := by
  induction size : bytes.length using Nat.strong_induction_on generalizing bytes steps with
  | _ n ih =>
      rw [writeAll] at run
      split at run
      · rename_i empty
        obtain ⟨rfl, rfl, -⟩ := run.of_pure
        exact empty.symm
      · rename_i something
        obtain ⟨clock, rest, checked, ⟨⟩, rfl, timed, goes⟩ := run.of_bind
        have silent := quiet_ensureDeadline clock checked timed
        cases checked with
        | error failure =>
            obtain ⟨rfl, rfl, -⟩ := goes.of_pure
            exact .nothing something (by simpa using silent) (ensureDeadline_error timed)
        | ok _ =>
            obtain ⟨wrote, more, reply, ⟨⟩, rfl, write, answered⟩ := goes.of_bind
            obtain ⟨rfl, -⟩ := write.of_request
            cases reply with
            | error kind =>
                obtain ⟨rfl, rfl, -⟩ := answered.of_pure
                refine .nothing something ?_ rfl
                rw [accepted_append, silent]
                rfl
            | ok written =>
                dsimp only at answered
                split at answered
                · rename_i wrong
                  obtain ⟨rfl, rfl, -⟩ := answered.of_pure
                  refine .nothing something ?_ rfl
                  rw [accepted_append, silent]
                  rcases wrong with rfl | beyond
                  · simp [accepted, acceptedBy]
                  · simp [accepted, acceptedBy, Nat.not_le_of_gt beyond]
                · rename_i counted
                  rw [not_or, Nat.not_lt] at counted
                  have taken : accepted (clock ++ ([⟨(), .write .request bytes deadline, .ok written, ()⟩] ++ more)) =
                      bytes.take written ++ accepted more := by
                    rw [accepted_append, accepted_append, silent]
                    simp [accepted, acceptedBy, counted.2]
                  have later := ih _ (by rw [List.length_drop]; omega) answered rfl
                  unfold Placed at later ⊢
                  cases result with
                  | ok _ =>
                      dsimp only at later ⊢
                      rw [taken, later, List.take_append_drop]
                  | error failure =>
                      dsimp only at later ⊢
                      refine ⟨later.1, ?_⟩
                      rw [taken]
                      have unfinished := @Unfinished.append (bytes.take written) _ _ later.2
                      rwa [List.take_append_drop] at unfinished

/-- What becomes of the frames, together. -/
theorem writeFrames_placed {frames : List Bytes} {result : Except TransportFailure Unit}
    (run : Run anything (writeFrames frames deadline) () steps (some result) ()) : Placed frames.flatten steps result := by
  induction frames generalizing steps with
  | nil =>
      obtain ⟨rfl, rfl, -⟩ := run.of_pure
      rfl
  | cons frame frames ih =>
      obtain ⟨front, back, first, ⟨⟩, rfl, wrote, goes⟩ := run.of_bind
      have placed := writeAll_placed wrote
      cases first with
      | error failure =>
          obtain ⟨rfl, rfl, -⟩ := goes.of_pure
          refine ⟨placed.1, ?_⟩
          rw [List.append_nil]
          exact placed.2.more frames.flatten
      | ok _ =>
          have rest := ih goes
          have all : accepted (front ++ back) = frame ++ accepted back := by
            rw [accepted_append]
            exact congrArg (· ++ _) placed
          cases result with
          | ok _ => exact all.trans (congrArg (frame ++ ·) rest)
          | error failure =>
              refine ⟨rest.1, ?_⟩
              rw [all]
              exact rest.2.append

theorem quiet_writeAll {purpose : Purpose} (other : purpose ≠ .request) {bytes : Bytes} :
    Quiet (writeAll purpose bytes deadline) := by
  induction size : bytes.length using Nat.strong_induction_on generalizing bytes with
  | _ n ih =>
      rw [writeAll]
      split
      · exact quiet_pure _
      · refine quiet_bind quiet_ensureDeadline fun checked => ?_
        split
        · exact quiet_pure _
        · refine quiet_bind (quiet_ask fun reply => ?_) fun reply => ?_
          · cases purpose with
            | request => exact absurd rfl other
            | handshake | reservedClose => rfl
          · split
            · exact quiet_pure _
            · split
              · exact quiet_pure _
              · exact ih _ (by rw [List.length_drop]; omega) rfl

theorem quiet_c1FailureAfterClose {error : Error} : Quiet (c1FailureAfterClose error deadline) := by
  unfold c1FailureAfterClose
  split
  · exact quiet_bind (quiet_writeAll (by decide)) fun _ => quiet_pure _
  · exact quiet_pure _

/-! ## Reading -/

theorem quiet_readTurn {onEof : σ → AbsoluteDeadline → Talk (Owner × σ)} (quiet : ∀ s deadline, Quiet (onEof s deadline))
    (r : RawFrameReader) (s : σ) : Quiet (readTurn onEof r s deadline) := by
  unfold readTurn
  refine quiet_bind quiet_now fun current => ?_
  split
  · exact quiet_pure _
  split
  · exact quiet_pure _
  refine quiet_bind (quiet_ask fun _ => rfl) fun reply => ?_
  split
  · -- the read failed
    refine quiet_bind quiet_now fun now => ?_
    split
    · exact quiet_pure _
    split
    · exact quiet_pure _
    split
    · exact quiet_bind (quiet _ _) fun _ => quiet_pure _
    · exact quiet_pure _
  · split
    · exact quiet_pure _
    split
    · exact quiet_bind (quiet _ _) fun _ => quiet_pure _
    split
    · exact quiet_pure _
    · refine quiet_bind quiet_now fun now => ?_
      split
      · exact quiet_pure _
      split
      · exact quiet_pure _
      split
      · exact quiet_pure _
      · exact quiet_pure _

theorem quiet_readLoop {onEof : σ → AbsoluteDeadline → Talk (Owner × σ)} (quiet : ∀ s deadline, Quiet (onEof s deadline))
    (turns : Nat) (r : RawFrameReader) (s : σ) : Quiet (readLoop onEof turns r s deadline) := by
  induction turns generalizing r s with
  | zero => exact fun steps value run => by cases run
  | succ turns ih =>
      refine quiet_bind (quiet_readTurn quiet r s) fun result => ?_
      split
      · exact quiet_pure _
      · exact ih _ _

theorem quiet_readFrame {onEof : σ → AbsoluteDeadline → Talk (Owner × σ)} (quiet : ∀ s deadline, Quiet (onEof s deadline))
    (turns : Nat) (r : RawFrameReader) (s : σ) : Quiet (readFrame onEof turns r s deadline) := by
  unfold readFrame
  split
  · exact quiet_pure _
  refine quiet_bind quiet_now fun now => ?_
  split
  · exact quiet_pure _
  split
  · exact quiet_pure _
  · exact quiet_readLoop quiet turns _ s

theorem quiet_readOuter (turns : Nat) (r : RawFrameReader) : Quiet (readOuter turns r deadline) :=
  quiet_bind (quiet_readFrame (fun _ _ => quiet_pure _) turns r ()) fun _ => quiet_pure _

end

section
variable {R H T : Type} {noise : Noise R H T} {deadline : AbsoluteDeadline} {turns rounds : Nat} {r : RawFrameReader}
  {s : BrokerSession H T} {steps : Steps}

theorem quiet_readOuterForSession (turns : Nat) (r : RawFrameReader) (s : BrokerSession H T) :
    Quiet (readOuterForSession turns r s deadline) := by
  refine quiet_readFrame (fun s deadline => ?_) turns r s
  unfold endOfSession
  split
  · exact quiet_pure _
  · exact quiet_bind quiet_c1FailureAfterClose fun _ => quiet_pure _

/-! ## One request -/

theorem withHandoff_possible (failure : TransportFailure) :
    (withHandoff failure .handoffPossibleOrConfirmed).handoff = .handoffPossibleOrConfirmed := by
  unfold withHandoff
  cases failure with
  | mk closeReason handoff cleanupFailed => cases handoff <;> rfl

/-- A result is accurate: a failure before the handoff leaves a part of the frames
    unaccepted, and once they all are accepted a failure says so. -/
structure Accurate {α : Type} (frames : List Bytes) (steps : Steps) (result : Except TransportFailure α) : Prop where
  before : ∀ failure, result = .error failure → failure.handoff = .notHandedOff →
    Unfinished (accepted steps) frames.flatten
  after : accepted steps = frames.flatten → ∀ failure, result = .error failure →
    failure.handoff = .handoffPossibleOrConfirmed

/-- Without frames nothing of a request is written. -/
def Told {α : Type} (frames : Except Error (List Bytes)) (steps : Steps) (result : Except TransportFailure α) : Prop :=
  match frames with
  | .ok frames => Accurate frames steps result
  | .error _ => accepted steps = []

theorem Told.same {α β : Type} {frames : Except Error (List Bytes)} {steps' : Steps} {result : Except TransportFailure α}
    {result' : Except TransportFailure β} (told : Told frames steps result) (same : accepted steps' = accepted steps)
    (failures : ∀ failure, result' = .error failure → result = .error failure) : Told frames steps' result' := by
  unfold Told at told ⊢
  cases frames with
  | error _ => exact same.trans told
  | ok frames =>
      refine ⟨fun failure failed before => ?_, fun all failure failed => told.after (same.symm.trans all) failure (failures failure failed)⟩
      rw [same]
      exact told.before failure (failures failure failed) before

theorem request_told {written : Except Error (List Bytes) × BrokerSession H T}
    {result : Except TransportFailure Bytes × RawFrameReader × BrokerSession H T}
    (run : Run anything (request noise turns rounds written r deadline) () steps (some result) ()) :
    Told written.1 steps result.1 := by
  obtain ⟨frames | frames, s⟩ := written
  · exact quiet_bind quiet_c1FailureAfterClose (fun _ => quiet_pure _) steps result run
  · obtain ⟨front, back, wrote, ⟨⟩, rfl, writes, goes⟩ := run.of_bind
    have placed := writeFrames_placed writes
    cases wrote with
    | error failure =>
        obtain ⟨rfl, rfl, -⟩ := goes.of_pure
        rw [List.append_nil]
        refine ⟨fun _ _ _ => placed.2, fun all => absurd all placed.2.short⟩
    | ok _ =>
        obtain ⟨reads, nothing, ⟨answer, r', s'⟩, ⟨⟩, rfl, read, ended⟩ := goes.of_bind
        obtain ⟨rfl, rfl, -⟩ := ended.of_pure
        -- from here on every failure is marked
        have marked (failure : TransportFailure)
            (failed : answer.mapError (withHandoff · .handoffPossibleOrConfirmed) = .error failure) :
            failure.handoff = .handoffPossibleOrConfirmed := by
          cases answer with
          | ok value => cases failed
          | error first =>
              cases failed
              exact withHandoff_possible first
        refine ⟨fun failure failed before => ?_, fun _ failure failed => marked failure failed⟩
        rw [marked failure failed] at before
        cases before

/-! ## Opening a session -/

/-- A part of `open_session` that writes nothing of a request. -/
abbrev QuietPart {α : Type} (part : Opening α) : Prop := Quiet part.run

theorem QuietPart.bind {α β : Type} {part : Opening α} {next : α → Opening β} (first : QuietPart part)
    (rest : ∀ value, QuietPart (next value)) : QuietPart (part >>= next) := by
  intro steps result run
  rcases Attempt.run_of_bind run with ⟨failure, rfl, failed⟩ | ⟨front, back, value, ⟨⟩, rfl, one, two⟩
  · exact first steps _ failed
  · rw [accepted_append, first front _ one, rest value back result two]
    rfl

theorem QuietPart.of {α β : Type} {talk : Talk (Except TransportFailure α × β)} (quiet : Quiet talk) :
    QuietPart (Opening.of talk) := quiet_bind quiet fun _ => quiet_pure _

theorem QuietPart.call {α β : Type} (deadline : AbsoluteDeadline) (result : Except Error α × β) :
    QuietPart (Opening.call deadline result) := by
  unfold Opening.call
  split
  · exact quiet_pure _
  · exact quiet_bind quiet_c1FailureAfterClose fun _ => quiet_pure _

theorem QuietPart.phase (overall : AbsoluteDeadline) (budgetMs : Nat) : QuietPart (Opening.phase overall budgetMs) := by
  refine .bind ?_ fun now => quiet_pure _
  exact quiet_bind quiet_now fun _ => quiet_pure _

theorem quiet_handshake (entropy : R) (binding : SessionBinding) (pbs : FixedBytes 32) (overall : AbsoluteDeadline) :
    QuietPart (handshake noise turns entropy binding pbs overall) := by
  refine .bind (.phase _ _) fun deadline => .bind (.of (quiet_readOuter turns _)) fun m1 => ?_
  refine .bind (.call _ _) fun s => .bind (.call _ _) fun m2 => .bind (quiet_writeAll (by decide)) fun _ => ?_
  refine .bind (.of (quiet_readOuterForSession turns _ _)) fun finished => .bind (.call _ _) fun _ => ?_
  exact .bind (.call _ _) fun _ => .bind (quiet_writeAll (by decide)) fun _ => quiet_pure _

/-- What a run of `open_session` tells: it fails before it has a request, or it has made a
    handshake and then tells of the frames of its request. -/
def OpeningTold (noise : Noise R H T) (turns : Nat) (entropy : R) (binding : SessionBinding) (pbs : FixedBytes 32)
    (payload : Bytes) (steps : Steps) (result : Except TransportFailure (OpenedSession H T)) : Prop :=
  accepted steps = [] ∧ (∃ failure, result = .error failure) ∨
    ∃ overall before shake rest r s, steps = before ++ shake ++ rest ∧
      Run anything (handshake noise turns entropy binding pbs overall).run () shake (some (.ok (r, s))) () ∧
      accepted before = [] ∧ accepted shake = [] ∧ Told (s.writeSessionOpen noise payload).1 rest result

section
variable {entropy : R} {binding : SessionBinding} {pbs : FixedBytes 32} {payload : Bytes}
  {result : Except TransportFailure (OpenedSession H T)}

/-- What comes before writes nothing of a request. -/
theorem OpeningTold.bind {α : Type} {part : Opening α} {next : α → Opening (OpenedSession H T)} (quiet : QuietPart part)
    (run : Run anything (part >>= next).run () steps (some result) ())
    (rest : ∀ value back, Run anything (next value).run () back (some result) () →
      OpeningTold noise turns entropy binding pbs payload back result) :
    OpeningTold noise turns entropy binding pbs payload steps result := by
  rcases Attempt.run_of_bind run with ⟨failure, rfl, failed⟩ | ⟨front, back, value, ⟨⟩, rfl, one, two⟩
  · exact .inl ⟨quiet steps _ failed, failure, rfl⟩
  · have silent := quiet front _ one
    rcases rest value back two with ⟨nothing, failed⟩ | ⟨overall, before, shake, later, r, s, rfl, made, first, second, told⟩
    · exact .inl ⟨by rw [accepted_append, silent, nothing, List.append_nil], failed⟩
    · exact .inr ⟨overall, front ++ before, shake, later, r, s, by simp only [List.append_assoc], made,
        by rw [accepted_append, silent, first, List.append_nil], second, told⟩

theorem openConnected_told {overall : AbsoluteDeadline}
    (run : Run anything (openConnected noise turns rounds entropy binding pbs payload overall).run () steps (some result) ()) :
    OpeningTold noise turns entropy binding pbs payload steps result := by
  rcases Attempt.run_of_bind run with ⟨failure, rfl, failed⟩ | ⟨shake, rest, ⟨r, s⟩, ⟨⟩, rfl, made, goes⟩
  · exact .inl ⟨quiet_handshake _ _ _ _ steps _ failed, failure, rfl⟩
  have still := quiet_handshake _ _ _ _ shake _ made
  rcases Attempt.run_of_bind goes with ⟨failure, rfl, failed⟩ | ⟨clock, back, limit, ⟨⟩, rfl, timed, sent⟩
  · have silent := QuietPart.phase _ _ rest _ failed
    exact .inl ⟨by rw [accepted_append, still, silent, List.append_nil], failure, rfl⟩
  have silent := QuietPart.phase _ _ clock _ timed
  refine .inr ⟨overall, [], shake, clock ++ back, r, s, rfl, made, rfl, still, ?_⟩
  rcases Attempt.run_of_bind sent with ⟨failure, rfl, failed⟩ | ⟨asked, ended, opened, ⟨⟩, rfl, one, two⟩
  · obtain ⟨talk, nothing, ⟨answer, left⟩, ⟨⟩, rfl, talked, mapped⟩ := Run.of_bind failed
    obtain ⟨rfl, same, -⟩ := mapped.of_pure
    have alike : accepted (clock ++ (talk ++ [])) = accepted talk := by
      rw [accepted_append, silent, List.nil_append, List.append_nil]
    refine (request_told talked).same alike fun other failed => ?_
    cases failed
    cases answer with
    | error failure =>
        cases same
        rfl
    | ok response => cases same
  · obtain ⟨talk, nothing, ⟨answer, left⟩, ⟨⟩, rfl, talked, mapped⟩ := Run.of_bind one
    obtain ⟨rfl, -, -⟩ := mapped.of_pure
    obtain ⟨rfl, rfl, -⟩ := two.of_pure
    have alike : accepted (clock ++ (talk ++ [] ++ [])) = accepted talk := by
      rw [accepted_append, silent, List.nil_append, List.append_nil, List.append_nil]
    exact (request_told talked).same alike fun failure failed => by cases failed

theorem openSession_told
    (run : Run anything (openSession noise turns rounds entropy binding pbs payload deadline).run () steps (some result) ()) :
    OpeningTold noise turns entropy binding pbs payload steps result := by
  have quiet_part (part : Except TransportFailure AbsoluteDeadline) : QuietPart (ExceptT.mk (pure part)) := quiet_pure _
  refine .bind (quiet_bind quiet_now fun _ => quiet_pure _) run fun started back run => ?_
  refine .bind (quiet_part _) run fun overall back run => .bind (quiet_part _) run fun connect back run => ?_
  refine .bind quiet_ensureDeadline run fun _ back run => ?_
  refine .bind (quiet_bind (quiet_ask fun _ => rfl) fun _ => quiet_pure _) run fun _ back run => ?_
  rcases Attempt.run_of_bind run with ⟨failure, rfl, failed⟩ | ⟨front, closing, outcome, ⟨⟩, rfl, one, two⟩
  · obtain ⟨_, same, -⟩ := Attempt.run_of_outcome failed
    cases same
  · obtain ⟨_, same, connected⟩ := Attempt.run_of_outcome one
    cases same
    have told := openConnected_told connected
    -- cancelling writes nothing, and the failure stays
    have closes : accepted closing = [] ∧ ∀ failure, result = .error failure ↔ outcome = .error failure := by
      cases outcome with
      | ok opened =>
          obtain ⟨rfl, rfl, -⟩ := two.of_pure
          exact ⟨rfl, fun failure => ⟨fun failed => (by cases failed), fun failed => (by cases failed)⟩⟩
      | error failure =>
          rcases Attempt.run_of_bind two with ⟨other, rfl, cancelled⟩ | ⟨cancel, thrown, _, ⟨⟩, rfl, cancelled, ended⟩
          · cases cancelled with
            | ask may never => cases never
          · obtain ⟨rfl, rfl, -⟩ := ended.of_pure
            have silent : QuietPart (Attempt.request Query.cancel fun _ => Except.ok () : Opening Unit) :=
              quiet_bind (quiet_ask fun _ => rfl) fun _ => quiet_pure _
            rw [List.append_nil]
            exact ⟨silent cancel _ cancelled, fun other => Iff.rfl⟩
    rcases told with ⟨nothing, failure, failed⟩ | ⟨overall, before, shake, rest, r, s, rfl, made, first, second, told⟩
    · exact .inl ⟨by rw [accepted_append, nothing, closes.1, List.append_nil], failure, (closes.2 failure).mpr failed⟩
    · refine .inr ⟨overall, before, shake, rest ++ closing, r, s, by simp only [List.append_assoc], made, first, second, ?_⟩
      exact told.same (by rw [accepted_append, closes.1, List.append_nil]) fun failure failed => (closes.2 failure).mp failed

end

end

/-- Whatever the stream answers, `exchange` and `open_session` say truly whether the request
    may have been handed off. -/
theorem handoff_told {R H T : Type} (noise : Noise R H T) (turns rounds : Nat) (payload : Bytes) (deadline : AbsoluteDeadline) :
    (∀ (r r' : RawFrameReader) (s s' : BrokerSession H T) (steps : Steps) (result : Except TransportFailure Bytes),
      Run anything (exchange noise turns rounds r s payload deadline) () steps (some (result, r', s')) () →
        Told (s.writeApplicationRequest noise payload).1 steps result) ∧
    ∀ (entropy : R) (binding : SessionBinding) (pbs : FixedBytes 32) (steps : Steps)
      (result : Except TransportFailure (OpenedSession H T)),
      Run anything (openSession noise turns rounds entropy binding pbs payload deadline).run () steps (some result) () →
        OpeningTold noise turns entropy binding pbs payload steps result :=
  ⟨fun _ _ _ _ _ _ run => request_told run, fun _ _ _ _ _ run => openSession_told run⟩

/-- A session between two requests. -/
def idleSession : BrokerSession Unit NonceTransport :=
  ⟨{ handshake := none, transport := some ⟨2, 2⟩
     binding := { leaseId := .replicate 16 0, processGeneration := 1, listenerEpoch := 1
                  nkHandshakeHash := .replicate 32 0 }
     sessionHash := some (.replicate 32 0), limits := {}, reassembly := { cap := 64 * 1024 * 1024 }
     sentFinished := true, gotFinished := true, peerTurn := false, firstApplication := true, closed := false
     sentRecords := 2, sentPlaintext := 87, receivedRecords := 2, receivedPlaintext := 87
     handoff := .handoffPossibleOrConfirmed }⟩

def soon : AbsoluteDeadline := { value := 10, nonzero := by decide, small := by decide }

theorem half_written_told : ∃ steps : Steps,
    Told (idleSession.writeApplicationRequest nonceNoise [0]).1 steps
      (.error (platformFailure .timedOut) : Except TransportFailure Bytes) ∧ (accepted steps).length = 3 := by
  obtain ⟨frame, s', written, long⟩ : ∃ frame s',
      idleSession.writeApplicationRequest nonceNoise [0] = (.ok [frame], s') ∧ frame.length = 31 := ⟨_, _, rfl, rfl⟩
  have something : frame ≠ [] := fun empty => by rw [empty] at long; cases long
  have more : frame.drop 3 ≠ [] := fun empty => by
    have size := congrArg List.length empty
    rw [List.length_drop, long] at size
    cases size
  have second : Run anything (writeAll .request (frame.drop 3) soon) ()
      [⟨(), .now, some 0, ()⟩, ⟨(), .write .request (frame.drop 3) soon, .error .timedOut, ()⟩]
      (some (.error (platformFailure .timedOut))) () := by
    rw [writeAll, if_neg more]
    exact .ask trivial (.ask trivial (.done _ _))
  let steps : Steps := [⟨(), .now, some 0, ()⟩, ⟨(), .write .request frame soon, .ok 3, ()⟩, ⟨(), .now, some 0, ()⟩,
    ⟨(), .write .request (frame.drop 3) soon, .error .timedOut, ()⟩]
  have first : Run anything (writeAll .request frame soon) () steps (some (.error (platformFailure .timedOut))) () := by
    rw [writeAll, if_neg something]
    refine .ask trivial (.ask trivial ?_)
    have counted : ¬ (3 = 0 ∨ 3 > frame.length) := by omega
    simp only [Script.bind, dif_neg counted]
    exact second
  have sent : Run anything (writeFrames [frame] soon) () (steps ++ []) (some (.error (platformFailure .timedOut))) () :=
    Run.bind first (.done (Except.error (platformFailure .timedOut)) ())
  have run : Run anything (exchange nonceNoise 1 1 .new idleSession [0] soon) () (steps ++ [] ++ [])
      (some (.error (platformFailure .timedOut), .new, s')) () := by
    unfold exchange request
    rw [written]
    exact Run.bind sent (.done (Except.error (platformFailure .timedOut), RawFrameReader.new, s') ())
  refine ⟨_, (handoff_told nonceNoise 1 1 [0] soon).1 _ _ _ _ _ _ run, ?_⟩
  simp [steps, accepted, acceptedBy, long]
end AppPilotKit.Raw
