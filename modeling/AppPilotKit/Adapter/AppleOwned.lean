import AppPilotKit.Adapter.Apple
import AppPilotKit.Lib.Pools

/-! # What a launch owns of the ledger

The reservations and source ports that have been given out to a task and not been taken back. A
task releases only what it owns, and runs a tool only while it owns the target that the tool is
for.
-/

namespace AppPilotKit.Adapter.Apple

open Scripts

/-- Reservations, and the source ports that are reserved for connections. -/
abbrev Owned := Multiset AdapterReservation × Multiset Nat

/-- What a request and its reply make of what is owned. -/
def own : Owning Request Request.Reply Owned
  | .reserve .., some (reservation, _), owned => (reservation ::ₘ owned.1, owned.2)
  | .release reservation, .ok _, owned => (owned.1.erase reservation, owned.2)
  | .newSource port, .ok _, owned => (owned.1, port ::ₘ owned.2)
  | .dropSource port, _, owned => (owned.1, owned.2.erase port)
  | _, _, owned => owned

/-- What a task may rely on. -/
def told : Owned → (q : Request) → q.Reply → Prop
  | _, .reserve port target, some (reservation, conflict) =>
      reservation = { port, target := if conflict then none else target } ∧ (conflict = true → target ≠ none)
  | _, .release _, reply => reply = .ok ()
  | _, .newSource _, .error failed => failed.kind = .unavailable
  | _, _, _ => True

/-- The target of a selection is reserved. -/
def Holding (selection : TargetSelection) (owned : Owned) : Prop :=
  ∃ reservation ∈ owned.1, reservation.target = some (.fromSelection selection)

/-- The Simulator and the app that a command names. -/
def SimctlCommand.Names (selection : TargetSelection) : SimctlCommand → Prop
  | .help _ => True
  | .list udid | .listapps udid | .install udid _ | .ps udid | .kill udid _ _ => udid = selection.deviceSelector
  | .uninstall udid appId | .getAppContainer udid appId | .launch udid appId =>
      udid = selection.deviceSelector ∧ appId = selection.appId

/-- The requests that a task may make, given what it owns: for a launch, and for a connection. -/
def may (label : Option TargetSelection) : Guard Request Request.Reply Owned
  | owned, _, .tool _ arguments _ _ _ _ => ∃ selection, label = some selection ∧ Holding selection owned ∧
      ∃ command : SimctlCommand, command.arguments = arguments ∧ command.Names selection
  | owned, _, .release reservation => reservation ∈ owned.1
  | owned, _, .dropSource port => port ∈ owned.2
  | _, _, _ => True

/-- What a task has done, the latest first. -/
abbrev Deeds := List (Step Request Request.Reply Owned)

/-- A tool, the identity probe or a connection that itself reports that its cleanup has failed. -/
def Broken : Step Request Request.Reply Owned → Prop
  | ⟨_, .tool .., reply, _⟩ => ∃ failed, reply = .error failed ∧ failed.kind = .cleanupFailed
  | ⟨_, .identity .., reply, _⟩ => ∃ failed, reply = .error failed ∧ failed.kind = .cleanupFailed
  | ⟨_, .connectSource .., reply, _⟩ => ∃ failed, reply = .error failed ∧ failed.kind = .cleanupFailed
  | ⟨_, .wrap, reply, _⟩ => ∃ failed, reply = .error failed ∧ failed.kind = .cleanupFailed
  | _ => False

/-- A reservation was released although something had been broken before. -/
def Slipped (past : Deeds) : Prop :=
  ∃ front owned reservation reply owned' back,
    past = front ++ ⟨owned, .release reservation, reply, owned'⟩ :: back ∧ ∃ step ∈ back, Broken step

/-- How an attempt ends, as a task sees it. -/
def Does (label : Option TargetSelection) {α : Type} (m : Act α) (post : Except PlatformFailure α → Owned → Deeds → Prop)
    (owned : Owned) (past : Deeds) : Prop :=
  Attempt.Ensures (ownWorld own told) (may label) m post owned past

section
variable {label : Option TargetSelection} {selection : TargetSelection} {α β : Type} {m : Act α} {next : α → Act β}
  {owned : Owned} {past : Deeds}

theorem does_pure {value : α} {post : Except PlatformFailure α → Owned → Deeds → Prop} (held : post (.ok value) owned past) :
    Does label (pure value : Act α) post owned past := held

theorem does_throw {failed : PlatformFailure} {post : Except PlatformFailure α → Owned → Deeds → Prop}
    (held : post (.error failed) owned past) : Does label (throw failed : Act α) post owned past := held

theorem Does.mono {post post' : Except PlatformFailure α → Owned → Deeds → Prop} (does : Does label m post owned past)
    (weaker : ∀ result owned past, post result owned past → post' result owned past) : Does label m post' owned past :=
  Attempt.Ensures.mono does weaker

theorem Does.bind {mid : Except PlatformFailure α → Owned → Deeds → Prop}
    {post : Except PlatformFailure β → Owned → Deeds → Prop} (first : Does label m mid owned past)
    (ends : ∀ value owned past, mid (.ok value) owned past → Does label (next value) post owned past)
    (fails : ∀ failed owned past, mid (.error failed) owned past → post (.error failed) owned past) :
    Does label (m >>= next) post owned past :=
  Attempt.Ensures.bind first ends fails

theorem Does.outcome {mid : Except PlatformFailure α → Owned → Deeds → Prop} {next : Except PlatformFailure α → Act β}
    {post : Except PlatformFailure β → Owned → Deeds → Prop} (first : Does label m mid owned past)
    (goes : ∀ result owned past, mid result owned past → Does label (next result) post owned past) :
    Does label (m.outcome >>= next) post owned past :=
  Attempt.ensures_bind.2 (Attempt.ensures_outcome.2 (Attempt.Ensures.mono first goes))

/-! ## Attempts that take nothing and give nothing back -/

/-- While the target is reserved, an attempt that leaves what is owned as it is. -/
def Still (selection : TargetSelection) (m : Act α) : Prop :=
  ∀ owned past, Holding selection owned →
    Does (some selection) m (fun _ owned' past' => owned' = owned ∧ past <:+ past') owned past

theorem still_pure {value : α} : Still selection (pure value : Act α) := fun _ past _ => ⟨rfl, List.suffix_refl past⟩

theorem still_throw {failed : PlatformFailure} : Still selection (throw failed : Act α) :=
  fun _ past _ => ⟨rfl, List.suffix_refl past⟩

theorem Still.bind (first : Still selection m) (goes : ∀ value, Still selection (next value)) :
    Still selection (m >>= next) := fun owned past holding => by
  refine Does.bind (first owned past holding) (fun value owned' past' held => ?_) fun _ _ _ held => held
  obtain ⟨rfl, older⟩ := held
  exact (goes value owned' past' holding).mono fun _ _ _ more => ⟨more.1, older.trans more.2⟩

theorem Still.outcome (still : Still selection m) : Still selection m.outcome := fun owned past holding =>
  Attempt.ensures_outcome.2 (still owned past holding)

theorem Still.orCleanupFailed (still : Still selection m) : Still selection (orCleanupFailed m) := by
  refine Still.bind still.outcome fun result => ?_
  cases result with
  | ok value => exact still_pure
  | error failed => exact still_throw

theorem still_ite {c : Prop} [Decidable c] {m m' : Act α} (one : Still selection m) (other : Still selection m') :
    Still selection (if c then m else m') := by
  split
  · exact one
  · exact other

/-- The requests that the ledger does not hear of. -/
def Request.Idle : Request → Prop
  | .tool .. | .reserve .. | .release _ | .newSource _ | .dropSource _ => False
  | _ => True

theorem idle_does {q : Request} {reads : q.Reply → Except PlatformFailure α} (idle : q.Idle) :
    Does label (Attempt.request q reads) (fun result owned' past' => owned' = owned ∧
      ∃ reply, past' = ⟨owned, q, reply, owned⟩ :: past ∧ result = reads reply) owned past := by
  cases q with
  | tool | reserve | release | newSource | dropSource => cases idle
  | _ =>
      refine Attempt.ensures_request.2 ⟨trivial, fun reply owned' may => ?_⟩
      obtain ⟨-, rfl⟩ := may
      exact ⟨rfl, reply, rfl, rfl⟩

theorem still_request {q : Request} {reads : q.Reply → Except PlatformFailure α} (idle : q.Idle) :
    Still selection (Attempt.request q reads) := fun _ past _ =>
  (idle_does idle).mono fun _ _ _ held => by
    obtain ⟨same, reply, rfl, -⟩ := held
    exact ⟨same, List.suffix_cons _ past⟩

theorem tool_does {program : Chars} {descriptor : Option Chars} {cap : Nat} {cancellation : Cancellation}
    {deadline : Raw.AbsoluteDeadline} {command : SimctlCommand} {reads : Except PlatformFailure ToolOutput →
      Except PlatformFailure α} (holding : Holding selection owned) (names : command.Names selection) :
    Does (some selection) (Attempt.request (.tool program command.arguments descriptor cap cancellation deadline) reads)
      (fun result owned' past' => owned' = owned ∧ ∃ reply : Except PlatformFailure ToolOutput, result = reads reply ∧
        past' = ⟨owned, .tool program command.arguments descriptor cap cancellation deadline, reply, owned⟩ :: past)
      owned past := by
  refine Attempt.ensures_request.2 ⟨⟨selection, rfl, holding, command, rfl, names⟩, fun reply owned' may => ?_⟩
  obtain ⟨-, rfl⟩ := may
  exact ⟨rfl, reply, rfl, rfl⟩

variable {tools : Tools} {cancellation : Cancellation} {deadline : Raw.AbsoluteDeadline}
  {artifact : PreparedLaunchArtifact} {candidate : LaunchCandidate} {owner : TargetOwner}

theorem runSuccess_still (command : SimctlCommand) {reads : ToolOutput → Except PlatformFailure α}
    (names : command.Names selection) : Still selection (runSuccess tools cancellation deadline command reads) :=
  fun _ past holding => (tool_does holding names).mono fun _ _ _ held => by
    obtain ⟨same, reply, -, rfl⟩ := held
    exact ⟨same, List.suffix_cons _ past⟩

theorem remaining_still : Still selection (remaining deadline) :=
  Still.bind (still_request (q := .now) trivial) fun _ => still_ite still_throw still_pure

theorem checkCancelDeadline_still : Still selection (checkCancelDeadline cancellation deadline) :=
  Still.bind (still_request (q := .cancelled cancellation) trivial) fun _ =>
    still_ite still_throw (Still.bind remaining_still fun _ => still_pure)

theorem featureProbe_still : Still selection (featureProbe tools cancellation deadline) := by
  have helps {topic : Chars} {expected : List Chars} :
      Still selection (helpContains tools cancellation deadline topic expected) := runSuccess_still (.help topic) trivial
  unfold featureProbe
  iterate 5 refine Still.bind helps fun _ => ?_
  exact helps

theorem installedAppPresent_still : Still selection (installedAppPresent tools cancellation deadline selection) :=
  runSuccess_still (.listapps _) rfl

theorem installedAppPath_still : Still selection (installedAppPath tools cancellation deadline selection) :=
  Still.bind (runSuccess_still (.getAppContainer ..) ⟨rfl, rfl⟩) fun installed => still_request (q := .directory installed) trivial

theorem matchingProcesses_still {udid installed : Chars} (known : udid = selection.deviceSelector) :
    Still selection (matchingProcesses tools cancellation deadline udid installed) :=
  runSuccess_still (.ps udid) known

theorem assertSnapshotUnchanged_still : Still selection (assertSnapshotUnchanged cancellation deadline artifact) :=
  still_request trivial

theorem verifyInstalled_still {installed : Chars} :
    Still selection (verifyInstalled cancellation deadline artifact installed) :=
  still_request trivial

theorem installIfAbsent_still : Still selection (installIfAbsent tools cancellation deadline selection artifact) := by
  refine Still.bind installedAppPresent_still fun _ => still_ite still_pure ?_
  refine Still.bind assertSnapshotUnchanged_still fun _ => Still.bind (runSuccess_still (.install ..) rfl).orCleanupFailed fun _ => ?_
  exact Still.bind installedAppPresent_still fun _ => still_ite still_pure still_throw

theorem verifyExactCandidate_still :
    Still selection (verifyExactCandidate tools cancellation deadline selection artifact) := by
  refine Still.bind (runSuccess_still (.list _) rfl) fun _ => Still.bind installIfAbsent_still fun _ => ?_
  refine Still.bind installedAppPath_still fun _ => Still.bind verifyInstalled_still.outcome fun verified => ?_
  cases verified with
  | error failed => exact still_throw
  | ok _ => exact Still.bind (matchingProcesses_still rfl) fun _ => still_ite still_pure still_throw

theorem cleanupOwnedInstallation_still :
    Still selection (cleanupOwnedInstallation tools cancellation deadline selection artifact candidate) := by
  refine still_ite still_pure (Still.bind installedAppPresent_still fun _ => still_ite still_pure ?_)
  refine Still.bind installedAppPath_still fun _ => still_ite still_throw ?_
  refine Still.bind verifyInstalled_still.outcome fun verified => ?_
  cases verified with
  | error failed => exact still_throw
  | ok _ =>
      refine Still.bind (matchingProcesses_still rfl) fun _ => still_ite still_throw ?_
      refine Still.bind (runSuccess_still (.uninstall ..) ⟨rfl, rfl⟩).orCleanupFailed fun _ => ?_
      exact Still.bind installedAppPresent_still fun _ => still_ite still_throw still_pure

theorem ownerRuns_still (known : owner.udid = selection.deviceSelector) :
    Still selection (ownerRuns tools cancellation deadline owner) := by
  refine Still.bind (matchingProcesses_still known) fun _ => still_ite still_pure (still_ite still_throw ?_)
  exact Still.bind (still_request (q := .identity owner.pid owner.appPath) trivial) fun _ => still_ite still_throw still_pure

theorem sendSignal_still {signal : Signal} (known : owner.udid = selection.deviceSelector) :
    Still selection (sendSignal tools cancellation deadline owner signal) :=
  (runSuccess_still (.kill ..) known).orCleanupFailed

theorem unixMs_still : Still selection unixMs := still_request trivial

theorem awaitExit_still {termDeadline : Nat} (known : owner.udid = selection.deviceSelector) (rounds : Nat) :
    ∀ sentKill, Still selection (awaitExit tools cancellation deadline owner termDeadline rounds sentKill) := by
  induction rounds with
  | zero => exact fun _ _ _ _ => Attempt.ensures_cut
  | succ rounds ih =>
      refine fun sentKill => Still.bind (ownerRuns_still known) fun _ => still_ite still_pure ?_
      have escalates : Still selection (if sentKill then pure true else do
          let now ← unixMs
          if now ≥ termDeadline then do
            sendSignal tools cancellation deadline owner .kill
            pure true
          else pure false : Act Bool) :=
        still_ite still_pure (Still.bind unixMs_still fun _ =>
          still_ite (Still.bind (sendSignal_still known) fun _ => still_pure) still_pure)
      refine Still.bind escalates fun sentKill => Still.bind remaining_still.outcome fun left => ?_
      cases left with
      | error failed => exact still_throw
      | ok _ => exact ih sentKill

theorem terminateExactOwner_still {rounds : Nat} (known : owner.udid = selection.deviceSelector) :
    Still selection (terminateExactOwner tools cancellation deadline owner rounds) :=
  Still.bind (ownerRuns_still known) fun _ => still_ite still_pure (Still.bind (sendSignal_still known) fun _ =>
    Still.bind unixMs_still fun _ => awaitExit_still known rounds false)

theorem cleanupDeadline_still : Still selection cleanupDeadline := still_request trivial

theorem stillExact_still : Still selection (ApplePendingLaunch.stillExact deadline candidate artifact) :=
  Still.bind assertSnapshotUnchanged_still fun _ => verifyInstalled_still

theorem prepare_still {self : ApplePendingLaunch} {descriptor : Wire.Bytes} :
    Still self.selection (self.prepare tools deadline descriptor) := by
  refine Still.bind checkCancelDeadline_still fun _ => still_ite still_throw ?_
  refine Still.bind (still_request (q := .prepare self.selection .given deadline) trivial) fun _ => ?_
  refine Still.bind featureProbe_still fun _ => Still.bind verifyExactCandidate_still fun _ => ?_
  exact Still.bind assertSnapshotUnchanged_still fun _ => still_pure

end

/-! ## Errors that no cleanup has made -/

/-- A result that does not report a failed cleanup. -/
def Apart {α : Type} (result : Except PlatformFailure α) : Prop :=
  ∀ failed, result = .error failed → failed.kind ≠ .cleanupFailed

section
variable {α β : Type}

theorem apart_ok {value : α} : Apart (.ok value) := nofun

theorem apart_rejected : Apart (.error (failure .rejected) : Except PlatformFailure α) := by
  rintro _ ⟨⟩
  decide

theorem Apart.bind {result : Except PlatformFailure α} {next : α → Except PlatformFailure β} (first : Apart result)
    (goes : ∀ value, Apart (next value)) : Apart (result >>= next) := by
  cases result with
  | ok value => exact goes value
  | error failed =>
      rintro _ ⟨⟩
      exact first failed rfl

theorem apart_ite {c : Prop} [Decidable c] {one other : Except PlatformFailure α} (first : Apart one) (second : Apart other) :
    Apart (if c then one else other) := by
  split
  · exact first
  · exact second

theorem Apart.mapM {reads : α → Except PlatformFailure β} (apart : ∀ line, Apart (reads line)) (lines : List α) :
    Apart (lines.mapM reads) := by
  induction lines with
  | nil => exact apart_ok
  | cons line lines ih =>
      rw [List.mapM_cons]
      exact (apart line).bind fun _ => ih.bind fun _ => apart_ok

theorem bounded_apart {cap : Nat} {printed : Option Chars} : Apart (bounded cap printed) := by
  have text : Apart (strictUtf8 printed) := by
    cases printed with
    | none => exact apart_rejected
    | some text => exact apart_ok
  exact text.bind fun _ => apart_ite apart_rejected apart_ok

theorem beforeNewline_apart {text : Chars} : Apart (beforeNewline text) := by
  unfold beforeNewline
  split
  · exact apart_ok
  · exact apart_rejected

theorem parseLaunchPid_apart {output : Option Chars} {appId : Chars} : Apart (parseLaunchPid output appId) := by
  refine (bounded_apart.bind fun _ => beforeNewline_apart).bind fun line => apart_ite apart_rejected ?_
  split
  · exact apart_ok
  · exact apart_rejected

theorem parseProcessLine_apart {installedApp line : Chars} : Apart (parseProcessLine installedApp line) := by
  unfold parseProcessLine
  dsimp only
  split
  · exact apart_rejected
  · split
    · exact apart_rejected
    · refine apart_ite apart_rejected ?_
      split <;> exact apart_ok

theorem parseProcessTable_apart {output : Option Chars} {installedApp : Chars} :
    Apart (parseProcessTable output installedApp) :=
  bounded_apart.bind fun _ => beforeNewline_apart.bind fun _ =>
    (Apart.mapM (fun _ => parseProcessLine_apart) _).bind fun _ => apart_ok

end

/-! ## Reserving and releasing -/

section
variable {label : Option TargetSelection} {selection : TargetSelection} {owned : Owned} {past : Deeds}

/-- Something was broken on the way. -/
def Blamed (past : Deeds) : Prop := ∃ step ∈ past, Broken step

theorem Blamed.suffix {past' : Deeds} (blamed : Blamed past) (older : past <:+ past') : Blamed past' := by
  obtain ⟨step, there, broken⟩ := blamed
  exact ⟨step, older.subset there, broken⟩

theorem Slipped.suffix {past' : Deeds} (slipped : Slipped past) (older : past <:+ past') : Slipped past' := by
  obtain ⟨more, rfl⟩ := older
  obtain ⟨front, owned, reservation, reply, owned', back, rfl, broken⟩ := slipped
  exact ⟨more ++ front, owned, reservation, reply, owned', back, (List.append_assoc ..).symm, broken⟩

/-- What a reservation alone amounts to. -/
def ownedBy : Option AdapterReservation → Owned
  | some reservation => ({reservation}, 0)
  | none => (0, 0)

theorem reserveRounds_does {target : Option TargetKey} (rounds : Nat) : ∀ owned past,
    Does label (reserveRounds target rounds) (fun result owned' _ => Apart result ∧ match result with
      | .ok (_, reservation, failed) => owned' = (reservation ::ₘ owned.1, owned.2) ∧
          (failed = none → reservation.target = target) ∧ ∀ f, failed = some f → f.kind ≠ .cleanupFailed
      | .error _ => owned' = owned) owned past := by
  induction rounds with
  | zero =>
      refine fun owned past => does_throw ⟨?_, rfl⟩
      rintro _ ⟨⟩
      decide
  | succ rounds ih =>
      intro owned past
      refine Does.bind (idle_does (q := .bindListener) trivial) (fun port owned' past' held => ?_) fun failed owned' past' held => ?_
      · obtain ⟨rfl, -⟩ := held
        split
        · exact ih owned' past'
        · next endpoint _ =>
          refine Attempt.ensures_bind.2 (Attempt.ensures_request.2 ⟨trivial, fun reply owned'' may => ?_⟩)
          obtain ⟨tells, rfl⟩ := may
          cases reply with
          | none => exact ih _ _
          | some reserved =>
              obtain ⟨reservation, conflict⟩ := reserved
              obtain ⟨rfl, -⟩ := tells
              refine does_pure ⟨apart_ok, rfl, ?_, ?_⟩
              · cases conflict <;> simp
              · cases conflict with
                | false => exact fun _ => nofun
                | true =>
                    rintro _ ⟨⟩
                    decide
      · obtain ⟨rfl, reply, -, same⟩ := held
        refine ⟨?_, rfl⟩
        cases reply with
        | none =>
            cases same
            rintro _ ⟨⟩
            decide
        | some port => cases same

/-- A launch that has begun owns its reservation; while nothing has failed, that is one of the
    target. -/
structure Pending (selection : TargetSelection) (pending : ApplePendingLaunch) (owned : Owned) : Prop where
  selected : pending.selection = selection
  owned : owned = ownedBy pending.reservation
  target : pending.failure = none → ∃ reservation, pending.reservation = some reservation ∧
    reservation.target = some (.fromSelection selection)
  apart : ∀ failed, pending.failure = some failed → failed.kind ≠ .cleanupFailed

theorem beginLaunch_does {deadline : Raw.AbsoluteDeadline} :
    Does label (beginLaunch selection deadline) (fun result owned' _ =>
      ∃ pending, result = .ok pending ∧ Pending selection pending owned') 0 past := by
  have clock : Does label (remaining deadline) (fun result owned' _ => Apart result ∧ owned' = 0) 0 past := by
    refine Does.bind (idle_does (q := .now) trivial) (fun now owned' past' held => ?_) fun failed owned' past' held => ?_
    · obtain ⟨rfl, -⟩ := held
      split
      · refine does_throw ⟨?_, rfl⟩
        rintro _ ⟨⟩
        decide
      · exact does_pure ⟨apart_ok, rfl⟩
    · obtain ⟨rfl, reply, -, same⟩ := held
      refine ⟨?_, rfl⟩
      rw [same]
      cases reply with
      | none =>
          rintro _ ⟨⟩
          decide
      | some now =>
          refine apart_ite apart_ok ?_
          rintro _ ⟨⟩
          decide
  have reserves (target : Option TargetKey) : Does label (reserveDynamicLoopback target deadline)
      (fun result owned' _ => Apart result ∧ match result with
        | .ok (_, reservation, failed) => owned' = ({reservation}, 0) ∧ (failed = none → reservation.target = target) ∧
            ∀ f, failed = some f → f.kind ≠ .cleanupFailed
        | .error _ => owned' = 0) 0 past := by
    refine Does.bind clock (fun _ owned' past' held => ?_) fun failed _ _ held => ⟨?_, held.2⟩
    · obtain ⟨-, rfl⟩ := held
      exact reserveRounds_does 1024 0 past'
    · rintro _ ⟨⟩
      exact held.1 failed rfl
  refine Does.outcome (reserves _) fun result owned' past' held => ?_
  obtain ⟨apart, held⟩ := held
  cases result with
  | error failed =>
      refine does_pure ⟨_, rfl, rfl, held, nofun, ?_⟩
      rintro _ ⟨⟩
      exact apart failed rfl
  | ok reserved =>
      obtain ⟨endpoint, reservation, conflict⟩ := reserved
      obtain ⟨same, target, conflicts⟩ := held
      cases conflict with
      | some failed =>
          refine does_pure ⟨_, rfl, rfl, same, nofun, ?_⟩
          rintro _ ⟨⟩
          exact conflicts failed rfl
      | none =>
          cases valid : validateSelection selection with
          | ok _ =>
              rw [valid] at target
              exact does_pure ⟨_, rfl, rfl, same, fun _ => ⟨reservation, rfl, target rfl⟩, nofun⟩
          | error failed =>
              refine does_pure ⟨_, rfl, rfl, same, nofun, ?_⟩
              rintro _ ⟨⟩
              unfold validateSelection at valid
              split at valid
              · cases valid
                decide
              · cases valid

theorem releaseReservation_does {reservation : AdapterReservation} (owns : reservation ∈ owned.1) :
    Does label (releaseReservation (some reservation)) (fun result owned' past' => result = .ok () ∧
      owned' = (owned.1.erase reservation, owned.2) ∧
      ∃ reply, past' = ⟨owned, .release reservation, reply, owned'⟩ :: past) owned past := by
  refine Attempt.ensures_request.2 ⟨owns, fun reply owned' may => ?_⟩
  obtain ⟨tells, rfl⟩ := may
  cases tells
  exact ⟨rfl, rfl, _, rfl⟩

end

/-! ## Connections -/

section
variable {label : Option TargetSelection} {owned : Owned} {past : Deeds} {cancellation : Cancellation}
  {deadline : Raw.AbsoluteDeadline}

/-- A connection owns its source port; an attempt that fails owns nothing more than before, and
    reports a failed cleanup only where something is broken. -/
def Connects (owned : Owned) (past : Deeds) (result : Except PlatformFailure ConnectedLoopback) (owned' : Owned)
    (past' : Deeds) : Prop :=
  past <:+ past' ∧ match result with
    | .ok connection => owned' = (owned.1, connection.sourcePort ::ₘ owned.2)
    | .error failed => owned' = owned ∧ (failed.kind = .cleanupFailed → Blamed past')

theorem dropSource_does {port : Nat} (owns : port ∈ owned.2) :
    Does label (Attempt.request (.dropSource port) Except.ok : Act Unit) (fun result owned' past' => result = .ok () ∧
      owned' = (owned.1, owned.2.erase port) ∧ past <:+ past') owned past := by
  refine Attempt.ensures_request.2 ⟨owns, fun reply owned' may => ?_⟩
  obtain ⟨-, rfl⟩ := may
  exact ⟨rfl, rfl, List.suffix_cons _ past⟩

theorem connectOnce_does : Does label (connectOnceWithReservedSource cancellation deadline) (Connects owned past)
    owned past := by
  refine Does.bind (idle_does (q := .bindSource) trivial) (fun port owned' past' held => ?_) fun failed owned' past' held => ?_
  · obtain ⟨rfl, bound, rfl, -⟩ := held
    refine Attempt.ensures_bind.2 (Attempt.ensures_request.2 ⟨trivial, fun reply owned'' may => ?_⟩)
    obtain ⟨tells, rfl⟩ := may
    have older {step step' : Step Request Request.Reply Owned} : past <:+ step :: step' :: past :=
      (List.suffix_cons _ past).trans (List.suffix_cons _ _)
    cases reply with
    | error failed =>
        have unavailable : failed.kind = .unavailable := tells
        refine ⟨older, rfl, fun cleanup => ?_⟩
        rw [unavailable] at cleanup
        cases cleanup
    | ok _ =>
        refine Does.outcome (idle_does (q := .connectSource port cancellation deadline) trivial) fun result owned' past' held => ?_
        obtain ⟨rfl, reply, rfl, rfl⟩ := held
        cases result with
        | ok _ => exact does_pure ⟨older.trans (List.suffix_cons _ _), rfl⟩
        | error failed =>
            refine Does.bind (dropSource_does (Multiset.mem_cons_self port owned'.2)) (fun _ owned'' past' held => ?_)
              fun _ _ _ held => nomatch held.1
            obtain ⟨-, rfl, dropped⟩ := held
            refine does_throw ⟨(older.trans (List.suffix_cons _ _)).trans dropped, ?_, fun cleanup => ?_⟩
            · simp [own]
            · exact ⟨_, dropped.subset List.mem_cons_self, failed, rfl, cleanup⟩
  · obtain ⟨rfl, reply, rfl, same⟩ := held
    refine ⟨List.suffix_cons _ past, rfl, fun cleanup => ?_⟩
    cases reply with
    | none =>
        cases same
        cases cleanup
    | some port => cases same

theorem check_does : Does label (checkCancelDeadline cancellation deadline)
    (fun result owned' past' => Apart result ∧ owned' = owned ∧ past <:+ past') owned past := by
  have clock {owned : Owned} {past : Deeds} : Does label (remaining deadline)
      (fun result owned' past' => Apart result ∧ owned' = owned ∧ past <:+ past') owned past := by
    refine Does.bind (idle_does (q := .now) trivial) (fun now owned' past' held => ?_) fun failed owned' past' held => ?_
    · obtain ⟨rfl, reply, rfl, -⟩ := held
      split
      · refine does_throw ⟨?_, rfl, List.suffix_cons _ past⟩
        rintro _ ⟨⟩
        decide
      · exact does_pure ⟨apart_ok, rfl, List.suffix_cons _ past⟩
    · obtain ⟨rfl, reply, rfl, same⟩ := held
      refine ⟨?_, rfl, List.suffix_cons _ past⟩
      rw [same]
      cases reply with
      | none =>
          rintro _ ⟨⟩
          decide
      | some now =>
          refine apart_ite apart_ok ?_
          rintro _ ⟨⟩
          decide
  refine Does.bind (idle_does (q := .cancelled cancellation) trivial) (fun cancelled owned' past' held => ?_)
    fun failed owned' past' held => ?_
  · obtain ⟨rfl, reply, rfl, -⟩ := held
    split
    · refine does_throw ⟨?_, rfl, List.suffix_cons _ past⟩
      rintro _ ⟨⟩
      decide
    · refine Does.bind clock (fun _ _ _ held => does_pure ⟨apart_ok, held.2.1, (List.suffix_cons _ past).trans held.2.2⟩)
        fun failed _ _ held => ⟨?_, held.2.1, (List.suffix_cons _ past).trans held.2.2⟩
      rintro _ ⟨⟩
      exact held.1 failed rfl
  · obtain ⟨-, reply, -, same⟩ := held
    cases same

theorem connectRounds_does (rounds : Nat) : ∀ past,
    Does label (connectRounds cancellation deadline rounds) (Connects owned past) owned past := by
  induction rounds with
  | zero => exact fun past => Attempt.ensures_cut
  | succ rounds ih =>
      intro past
      refine Does.bind check_does (fun _ owned' past' held => ?_) fun failed owned' past' held => ?_
      · obtain ⟨-, rfl, older⟩ := held
        refine Does.outcome connectOnce_does fun result owned'' past'' connected => ?_
        obtain ⟨older', connected⟩ := connected
        cases result with
        | ok connection => exact does_pure ⟨older.trans older', connected⟩
        | error failed =>
            obtain ⟨rfl, blamed⟩ := connected
            dsimp only
            split
            · exact (ih past'').mono fun _ _ _ more => ⟨(older.trans older').trans more.1, more.2⟩
            · exact does_throw ⟨older.trans older', rfl, blamed⟩
      · obtain ⟨apart, rfl, older⟩ := held
        exact ⟨older, rfl, fun cleanup => absurd cleanup (apart failed rfl)⟩

theorem connectReservedLoopback_does {rounds port : Nat} :
    Does label (connectReservedLoopback rounds port cancellation deadline) (Connects owned past) owned past := by
  unfold connectReservedLoopback
  split
  · exact does_throw ⟨List.suffix_refl past, rfl, nofun⟩
  · exact connectRounds_does rounds past

theorem tcpRawDuplex_does {connection : ConnectedLoopback} (owns : connection.sourcePort ∈ owned.2) :
    Does label (tcpRawDuplex connection) (fun result owned' past' => past <:+ past' ∧ match result with
      | .ok stream => stream = connection ∧ owned' = owned
      | .error failed => owned' = (owned.1, owned.2.erase connection.sourcePort) ∧
          (failed.kind = .cleanupFailed → Blamed past')) owned past := by
  refine Does.outcome (idle_does (q := .wrap) trivial) fun result owned' past' held => ?_
  obtain ⟨rfl, reply, rfl, rfl⟩ := held
  cases result with
  | ok _ => exact does_pure ⟨List.suffix_cons _ past, rfl, rfl⟩
  | error failed =>
      refine Does.bind (dropSource_does owns) (fun _ owned'' past' held => ?_) fun _ _ _ held => nomatch held.1
      obtain ⟨-, rfl, dropped⟩ := held
      refine does_throw ⟨(List.suffix_cons _ past).trans dropped, rfl, fun cleanup => ?_⟩
      exact ⟨_, dropped.subset List.mem_cons_self, failed, rfl, cleanup⟩

end

/-! ## Launches -/

section
variable {selection : TargetSelection} {self : ApplePendingLaunch} {tools : Tools} {deadline : Raw.AbsoluteDeadline}
  {candidate : LaunchCandidate} {artifact : PreparedLaunchArtifact} {owner : TargetOwner} {reservation : AdapterReservation}
  {sources : Multiset Nat} {owned : Owned} {past : Deeds}

/-- The reservation of a launch is one of its target. -/
structure Reserves (selection : TargetSelection) (reservation : AdapterReservation) : Prop where
  target : reservation.target = some (.fromSelection selection)

theorem Reserves.holding (reserves : Reserves selection reservation) : Holding selection ({reservation}, sources) :=
  ⟨reservation, Multiset.mem_singleton_self _, reserves.target⟩

/-- The app of a selection may be launched again, after a failure that reports a failed cleanup,
    only where a release has slipped through. -/
def Settled (selection : TargetSelection) (failed : PlatformFailure) (owned' : Owned) (past' : Deeds) : Prop :=
  failed.kind = .cleanupFailed → Slipped past' ∨ Holding selection owned'

/-- A rollback that releases the reservation as the last thing that it does. -/
def Rollback (reservation : AdapterReservation) (sources : Multiset Nat) (past : Deeds) (result : Except PlatformFailure Unit)
    (owned' : Owned) (past' : Deeds) : Prop :=
  match result with
  | .ok _ => owned' = (0, sources) ∧ ∃ owned'' reply more, past' = ⟨owned'', .release reservation, reply, owned'⟩ :: more ∧
      past <:+ more
  | .error _ => owned' = ({reservation}, sources) ∧ past <:+ past'

theorem Still.rollback {m : Act Unit} (still : Still selection m) (reserves : Reserves selection reservation) :
    Does (some selection) (do m; releaseReservation (some reservation)) (Rollback reservation sources past)
      ({reservation}, sources) past := by
  refine Does.bind (still _ past reserves.holding) (fun _ owned' past' held => ?_) fun _ _ _ held => held
  obtain ⟨rfl, older⟩ := held
  refine (releaseReservation_does (Multiset.mem_singleton_self reservation)).mono fun result owned'' past'' released => ?_
  obtain ⟨rfl, rfl, reply, rfl⟩ := released
  have erased : (({reservation} : Multiset AdapterReservation)).erase reservation = 0 := by simp
  exact ⟨by rw [erased], _, reply, past', rfl, older⟩

/-- The original failure is handed back, once the rollback has worked. -/
theorem Does.rollback {α : Type} {m : Act Unit} {original : PlatformFailure}
    (does : Does (some selection) m (Rollback reservation sources past) owned past)
    (reserves : Reserves selection reservation) (blamed : original.kind = .cleanupFailed → Blamed past) :
    Does (some selection) (do orCleanupFailed m; throw original : Act α) (fun result owned' past' => past <:+ past' ∧
      owned'.2 = sources ∧ ∃ failed, result = .error failed ∧ Settled selection failed owned' past') owned past := by
  have ends : Does (some selection) (orCleanupFailed m) (Rollback reservation sources past) owned past := by
    refine Does.outcome does fun result owned' past' held => ?_
    cases result with
    | ok _ => exact does_pure held
    | error _ => exact does_throw held
  refine Does.bind ends (fun _ owned' past' held => does_throw ?_) fun failed owned' past' held => ?_
  · obtain ⟨rfl, owned'', reply, more, rfl, older⟩ := held
    refine ⟨older.trans (List.suffix_cons _ _), rfl, original, rfl, fun cleanup => .inl ?_⟩
    exact ⟨[], owned'', reservation, reply, _, more, rfl, (blamed cleanup).suffix older⟩
  · obtain ⟨rfl, older⟩ := held
    exact ⟨older, rfl, failed, rfl, fun _ => .inr reserves.holding⟩

theorem afterUncertainLaunchFailure_does {α : Type} {original : PlatformFailure}
    (reserved : self.reservation = some reservation) (reserves : Reserves self.selection reservation)
    (blamed : original.kind = .cleanupFailed → Blamed past) :
    Does (some self.selection) (self.afterUncertainLaunchFailure tools candidate artifact original : Act α)
      (fun result owned' past' => past <:+ past' ∧ owned'.2 = sources ∧
        ∃ failed, result = .error failed ∧ Settled self.selection failed owned' past') ({reservation}, sources) past := by
  refine Does.rollback ?_ reserves blamed
  refine Does.bind (cleanupDeadline_still _ past reserves.holding) (fun deadline owned' past' held => ?_) fun _ _ _ held => held
  obtain ⟨rfl, older⟩ := held
  refine Does.bind (matchingProcesses_still rfl _ past' reserves.holding) (fun processes owned' past'' held => ?_)
    fun _ _ _ held => ⟨held.1, older.trans held.2⟩
  obtain ⟨rfl, older'⟩ := held
  split
  · rw [reserved]
    exact (cleanupOwnedInstallation_still.rollback reserves).mono fun result owned' past' held => by
      cases result with
      | ok _ =>
          obtain ⟨same, owned'', reply, more, rfl, oldest⟩ := held
          exact ⟨same, owned'', reply, more, rfl, (older.trans older').trans oldest⟩
      | error _ => exact ⟨held.1, (older.trans older').trans held.2⟩
  · exact does_throw ⟨rfl, older.trans older'⟩

theorem cleanAfterOwnedLaunchFailure_does {α : Type} {original : PlatformFailure} {rounds : Nat}
    (reserved : self.reservation = some reservation) (reserves : Reserves self.selection reservation)
    (known : owner.udid = self.selection.deviceSelector) (blamed : original.kind = .cleanupFailed → Blamed past) :
    Does (some self.selection) (self.cleanAfterOwnedLaunchFailure tools rounds candidate artifact owner original : Act α)
      (fun result owned' past' => past <:+ past' ∧ owned'.2 = sources ∧
        ∃ failed, result = .error failed ∧ Settled self.selection failed owned' past') ({reservation}, sources) past := by
  refine Does.rollback ?_ reserves blamed
  refine Does.bind (cleanupDeadline_still _ past reserves.holding) (fun deadline owned' past' held => ?_) fun _ _ _ held => held
  obtain ⟨rfl, older⟩ := held
  refine Does.bind (terminateExactOwner_still known _ past' reserves.holding) (fun _ owned' past'' held => ?_)
    fun _ _ _ held => ⟨held.1, older.trans held.2⟩
  obtain ⟨rfl, older'⟩ := held
  rw [reserved]
  exact (cleanupOwnedInstallation_still.rollback reserves).mono fun result owned' past' held => by
    cases result with
    | ok _ =>
        obtain ⟨same, owned'', reply, more, rfl, oldest⟩ := held
        exact ⟨same, owned'', reply, more, rfl, (older.trans older').trans oldest⟩
    | error _ => exact ⟨held.1, (older.trans older').trans held.2⟩

theorem prelaunchFailure_does {α : Type} {original : PlatformFailure} (owns : owned = ownedBy self.reservation)
    (holding : original.kind = .cleanupFailed → Holding self.selection owned) :
    Does (some self.selection) (self.prelaunchFailure original : Act α) (fun result owned' past' => owned'.2 = 0 ∧
      ∃ failed, result = .error failed ∧ Settled self.selection failed owned' past') owned past := by
  unfold ApplePendingLaunch.prelaunchFailure
  subst owns
  split
  next cleanup =>
    refine does_throw ⟨?_, original, rfl, fun _ => .inr (holding cleanup)⟩
    cases self.reservation <;> rfl
  next other =>
    cases reserved : self.reservation with
    | none => exact does_throw ⟨rfl, original, rfl, fun cleanup => absurd cleanup other⟩
    | some reservation =>
        refine Does.outcome (releaseReservation_does (Multiset.mem_singleton_self reservation)) fun result owned' past' held => ?_
        obtain ⟨rfl, rfl, -⟩ := held
        exact does_throw ⟨rfl, original, rfl, fun cleanup => absurd cleanup other⟩

end

section
variable {selection : TargetSelection} {self : ApplePendingLaunch} {tools : Tools} {deadline : Raw.AbsoluteDeadline}
  {candidate : LaunchCandidate} {artifact : PreparedLaunchArtifact} {owner : TargetOwner} {reservation : AdapterReservation}
  {owned : Owned} {past : Deeds}

/-- What is owned stays, and only something broken makes for the report of a failed cleanup. -/
def Watched {α : Type} (owned : Owned) (past : Deeds) (result : Except PlatformFailure α) (owned' : Owned) (past' : Deeds) :
    Prop :=
  owned' = owned ∧ past <:+ past' ∧ ∀ failed, result = .error failed → failed.kind = .cleanupFailed → Blamed past'

theorem watched_tool {α : Type} {program : Chars} {descriptor : Option Chars} {cap : Nat} {cancellation : Cancellation}
    {command : SimctlCommand} {reads : ToolOutput → Except PlatformFailure α} (holding : Holding selection owned)
    (names : command.Names selection) (apart : ∀ output, Apart (reads output)) :
    Does (some selection) (Attempt.request (.tool program command.arguments descriptor cap cancellation deadline)
      fun reply => successful reply >>= reads) (Watched owned past) owned past :=
  (tool_does holding names).mono fun result owned' past' held => by
    obtain ⟨rfl, reply, same, rfl⟩ := held
    refine ⟨rfl, List.suffix_cons _ past, fun failed error cleanup => ?_⟩
    cases reply with
    | error broken =>
        rw [same] at error
        cases error
        exact ⟨_, List.mem_cons_self, failed, rfl, cleanup⟩
    | ok output =>
        rw [same] at error
        have read : Apart (successful (.ok output) >>= reads) := (apart_ite apart_rejected apart_ok).bind apart
        exact absurd cleanup (read failed error)

theorem start_does {encoded : Chars} (holding : Holding self.selection owned) :
    Does (some self.selection) (self.start tools deadline encoded candidate) (fun result owned' past' =>
      Watched owned past result owned' past' ∧
      ∀ owner, result = .ok owner → owner.udid = self.selection.deviceSelector) owned past := by
  refine Does.bind (watched_tool holding ⟨rfl, rfl⟩ fun _ => parseLaunchPid_apart) (fun pid owned' past' held => ?_)
    fun failed owned' past' held => ⟨⟨held.1, held.2.1, fun _ same => by cases same; exact held.2.2 failed rfl⟩, nofun⟩
  obtain ⟨rfl, older, -⟩ := held
  refine Does.bind (watched_tool holding rfl fun _ => parseProcessTable_apart) (fun processes owned'' past'' held => ?_)
    fun failed owned'' past'' held => ?_
  · obtain ⟨rfl, older', -⟩ := held
    split
    · refine Does.bind (idle_does (q := .identity pid candidate.appPath) trivial) (fun identity owned' past' held => ?_)
        fun failed owned' past' held => ?_
      · obtain ⟨rfl, reply, rfl, -⟩ := held
        refine does_pure ⟨⟨rfl, (older.trans older').trans (List.suffix_cons _ _), nofun⟩, ?_⟩
        rintro _ ⟨⟩
        rfl
      · obtain ⟨rfl, reply, rfl, same⟩ := held
        refine ⟨⟨rfl, (older.trans older').trans (List.suffix_cons _ _), ?_⟩, nofun⟩
        rintro _ ⟨⟩ cleanup
        exact ⟨_, List.mem_cons_self, failed, same.symm, cleanup⟩
    · refine does_throw ⟨⟨rfl, older.trans older', ?_⟩, nofun⟩
      rintro _ ⟨⟩ cleanup
      cases cleanup
  · obtain ⟨rfl, older', blamed⟩ := held
    refine ⟨⟨rfl, older.trans older', ?_⟩, nofun⟩
    rintro _ ⟨⟩
    exact blamed failed rfl

/-- How a launch ends, as its task sees it. -/
def Lands (selection : TargetSelection) (result : Except PlatformFailure LaunchedTargetIo) (owned' : Owned) (past' : Deeds) :
    Prop :=
  match result with
  | .ok io => ∃ reservation, Reserves selection reservation ∧ owned' = ({reservation}, {io.bootstrap.sourcePort}) ∧
      io.cleanup.selection = selection ∧ io.cleanup.owner.udid = selection.deviceSelector ∧
      io.cleanup.reservation = some reservation
  | .error failed => owned'.2 = 0 ∧ Settled selection failed owned' past'

theorem attach_does {connecting rounds : Nat} (reserved : self.reservation = some reservation)
    (reserves : Reserves self.selection reservation) (known : owner.udid = self.selection.deviceSelector) :
    Does (some self.selection)
      (self.attach tools deadline (connectReservedLoopback connecting) rounds candidate artifact owner)
      (Lands self.selection) ({reservation}, 0) past := by
  have clean {sources : Multiset Nat} {original : PlatformFailure} {past : Deeds}
      (blamed : original.kind = .cleanupFailed → Blamed past) :
      Does (some self.selection) (self.cleanAfterOwnedLaunchFailure tools rounds candidate artifact owner original :
        Act LaunchedTargetIo) (fun result owned' past' => past <:+ past' ∧ owned'.2 = sources ∧
          ∃ failed, result = .error failed ∧ Settled self.selection failed owned' past') ({reservation}, sources) past :=
    cleanAfterOwnedLaunchFailure_does reserved reserves known blamed
  have lands {result : Except PlatformFailure LaunchedTargetIo} {owned' : Owned} {past past' : Deeds}
      (held : past <:+ past' ∧ owned'.2 = 0 ∧ ∃ failed, result = .error failed ∧ Settled self.selection failed owned' past') :
      Lands self.selection result owned' past' := by
    obtain ⟨-, none, failed, rfl, settled⟩ := held
    exact ⟨none, settled⟩
  have unblamed {past : Deeds} (cleanup : (failure .rejected).kind = .cleanupFailed) : Blamed past := by cases cleanup
  refine Does.outcome (stillExact_still _ past reserves.holding) fun unchanged owned' past' held => ?_
  obtain ⟨rfl, -⟩ := held
  cases unchanged with
  | error _ => exact (clean unblamed).mono fun _ _ _ => lands
  | ok _ =>
      cases self.endpoint.iosPort with
      | none => exact does_throw ⟨rfl, nofun⟩
      | some port =>
          refine Does.outcome connectReservedLoopback_does fun connected owned' past'' held => ?_
          obtain ⟨-, held⟩ := held
          cases connected with
          | error original =>
              obtain ⟨rfl, blamed⟩ := held
              exact (afterUncertainLaunchFailure_does reserved reserves blamed).mono fun _ _ _ => lands
          | ok connection =>
              obtain rfl := held
              have there : connection.sourcePort ∈ connection.sourcePort ::ₘ (0 : Multiset Nat) := Multiset.mem_cons_self _ _
              refine Does.outcome (tcpRawDuplex_does there) fun wrapped owned' past' held => ?_
              obtain ⟨-, held⟩ := held
              cases wrapped with
              | error original =>
                  obtain ⟨rfl, blamed⟩ := held
                  have erased : ((connection.sourcePort ::ₘ (0 : Multiset Nat)).erase connection.sourcePort) = 0 := by simp
                  rw [erased]
                  exact (clean blamed).mono fun _ _ _ => lands
              | ok bootstrap =>
                  obtain ⟨rfl, rfl⟩ := held
                  refine Does.outcome (stillExact_still _ past' reserves.holding) fun unchanged owned' past'' held => ?_
                  obtain ⟨rfl, -⟩ := held
                  cases unchanged with
                  | ok _ => exact does_pure ⟨reservation, reserves, rfl, rfl, known, reserved⟩
                  | error _ =>
                      have cleans : Does (some self.selection) (self.cleanAfterOwnedLaunchFailure tools rounds candidate
                          artifact owner (failure .rejected) : Act Unit) (fun result owned' past' => past'' <:+ past' ∧
                            owned'.2 = {bootstrap.sourcePort} ∧
                            ∃ failed, result = .error failed ∧ Settled self.selection failed owned' past')
                          ({reservation}, {bootstrap.sourcePort}) past'' :=
                        cleanAfterOwnedLaunchFailure_does reserved reserves known unblamed
                      refine Does.outcome cleans fun failed owned' past' held => ?_
                      obtain ⟨-, sources, failed, rfl, settled⟩ := held
                      have there : bootstrap.sourcePort ∈ owned'.2 := sources ▸ Multiset.mem_singleton_self _
                      refine Does.bind (dropSource_does there) (fun _ owned'' past'' held => ?_) fun _ _ _ held => nomatch held.1
                      obtain ⟨-, rfl, older⟩ := held
                      refine does_throw ⟨by simp [sources], fun cleanup => ?_⟩
                      rcases settled cleanup with slipped | holding
                      · exact .inl (slipped.suffix older)
                      · exact .inr holding

theorem launch_does {connecting rounds : Nat} {encode : Wire.Bytes → Chars} {descriptor : Wire.Bytes}
    (pending : Pending self.selection self owned) :
    Does (some self.selection) (self.launch tools deadline (connectReservedLoopback connecting) encode rounds descriptor)
      (Lands self.selection) owned past := by
  obtain ⟨-, owns, target, apart⟩ := pending
  have lands {result : Except PlatformFailure LaunchedTargetIo} {owned' : Owned} {past' : Deeds}
      (held : owned'.2 = 0 ∧ ∃ failed, result = .error failed ∧ Settled self.selection failed owned' past') :
      Lands self.selection result owned' past' := by
    obtain ⟨none, failed, rfl, settled⟩ := held
    exact ⟨none, settled⟩
  unfold ApplePendingLaunch.launch
  cases refused : self.failure with
  | some original =>
      exact (prelaunchFailure_does owns fun cleanup => absurd cleanup (apart original refused)).mono fun _ _ _ => lands
  | none =>
      obtain ⟨reservation, reserved, target⟩ := target refused
      have reserves : Reserves self.selection reservation := ⟨target⟩
      have only : owned = ({reservation}, 0) := by rw [owns, reserved]; rfl
      refine Does.outcome (prepare_still _ past (only ▸ reserves.holding)) fun prepared owned' past' held => ?_
      obtain ⟨rfl, -⟩ := held
      cases prepared with
      | error original =>
          exact (prelaunchFailure_does owns fun _ => only ▸ reserves.holding).mono fun _ _ _ => lands
      | ok ready =>
          obtain ⟨candidate, artifact⟩ := ready
          subst only
          refine Does.outcome (start_does reserves.holding) fun started owned' past'' held => ?_
          obtain ⟨⟨rfl, -, blamed⟩, known⟩ := held
          cases started with
          | error original =>
              refine (afterUncertainLaunchFailure_does reserved reserves (blamed original rfl)).mono fun _ _ _ held => lands ?_
              exact ⟨held.2.1, held.2.2⟩
          | ok owner => exact attach_does reserved reserves (known owner rfl)

theorem abort_does (pending : Pending self.selection self owned) :
    Does (some self.selection) self.abort (fun result owned' _ => result = .ok () ∧ owned'.2 = 0) owned past := by
  have owns := pending.owned
  unfold ApplePendingLaunch.abort
  subst owns
  cases self.reservation with
  | none => exact does_pure ⟨rfl, rfl⟩
  | some reservation =>
      refine (releaseReservation_does (Multiset.mem_singleton_self reservation)).mono fun _ _ _ held => ?_
      obtain ⟨done, rfl, -⟩ := held
      exact ⟨done, rfl⟩

theorem cleanup_does {cleanup : AppleCleanup} {rounds : Nat} (reserves : Reserves cleanup.selection reservation)
    (known : cleanup.owner.udid = cleanup.selection.deviceSelector) (reserved : cleanup.reservation = some reservation) :
    Does (some cleanup.selection) (cleanup.cleanup tools deadline rounds) (fun result owned' past' => owned'.2 = 0 ∧
      ∀ failed, result = .error failed → Settled cleanup.selection failed owned' past') ({reservation}, 0) past := by
  have kept {failed : PlatformFailure} {owned' : Owned} {past past' : Deeds}
      (held : owned' = ({reservation}, 0) ∧ past <:+ past') : owned'.2 = 0 ∧
        ∀ other, (.error failed : Except PlatformFailure Unit) = .error other →
          Settled cleanup.selection other owned' past' := by
    obtain ⟨rfl, -⟩ := held
    exact ⟨rfl, fun _ _ _ => .inr reserves.holding⟩
  have first : Still cleanup.selection (Attempt.request .cancelStreams id : Act Unit) := still_request trivial
  have second : Still cleanup.selection (orCleanupFailed (terminateExactOwner tools .given deadline cleanup.owner rounds)) :=
    (terminateExactOwner_still known).orCleanupFailed
  refine Does.bind (first _ past reserves.holding) (fun _ owned' past' held => ?_) fun _ _ _ held => kept held
  obtain ⟨rfl, -⟩ := held
  refine Does.bind (second _ past' reserves.holding) (fun _ owned' past'' held => ?_) fun _ _ _ held => kept held
  obtain ⟨rfl, -⟩ := held
  rw [reserved]
  refine (cleanupOwnedInstallation_still.orCleanupFailed.rollback reserves).mono fun result owned' past' held => ?_
  cases result with
  | ok _ => exact ⟨by rw [held.1], nofun⟩
  | error failed => exact kept held

end

end AppPilotKit.Adapter.Apple
