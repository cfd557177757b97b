import AppPilotKit.Adapter.AppleHistory

/-! # Destructive commands are proven first

Whatever tools, files, clocks and sockets answer: a launch and its cleanup install only what was
reported absent, start only what was verified, stop only the process that is provably theirs and
remove only what they have installed.
-/

namespace AppPilotKit.Adapter.Apple

open Scripts Event

/-! ## Histories that grow -/

/-- More was asked, and no signal was sent. -/
structure Frame (past past' : History) : Prop where
  suffix : past <:+ past'
  signals : past'.filterMap Event.signal = past.filterMap Event.signal

section
variable {past past' more : History} {event : Event} {udid appId path : Chars} {owner : TargetOwner}

theorem Frame.refl (past : History) : Frame past past := ⟨List.suffix_refl past, rfl⟩

theorem Frame.trans (first : Frame past past') (second : Frame past' more) : Frame past more :=
  ⟨first.suffix.trans second.suffix, second.signals.trans first.signals⟩

theorem Frame.cons (frame : Frame past past') (silent : event.signal = none) : Frame past (event :: past') :=
  ⟨frame.suffix.trans (List.suffix_cons event past'), by rw [List.filterMap_cons_none silent, frame.signals]⟩

theorem IssuedInstall.mono (issued : IssuedInstall udid past) (suffix : past <:+ past') : IssuedInstall udid past' := by
  obtain ⟨event, there, install⟩ := issued
  exact ⟨event, suffix.subset there, install⟩

theorem LaunchedAt.mono (launched : LaunchedAt udid appId path past) (suffix : past <:+ past') :
    LaunchedAt udid appId path past' := by
  obtain ⟨front, launch, unchanged, older, rfl, proven⟩ := launched
  obtain ⟨more, rfl⟩ := suffix
  exact ⟨more ++ front, launch, unchanged, older, (List.append_assoc ..).symm, proven⟩

theorem Owns.mono (owns : Owns udid appId owner past) (suffix : past <:+ past') : Owns udid appId owner past' := by
  obtain ⟨front, identified, listed, started, older, rfl, proven⟩ := owns
  obtain ⟨more, rfl⟩ := suffix
  exact ⟨more ++ front, identified, listed, started, older, (List.append_assoc ..).symm, proven⟩

end

/-! ## Single requests -/

section
variable {strict : Prop} {udid appId : Chars} {tools : Tools} {cancellation : Cancellation} {deadline : Raw.AbsoluteDeadline}
  {selection : TargetSelection} {artifact : PreparedLaunchArtifact} {past : History}

theorem unixMs_holds : Holds udid appId strict unixMs
    (fun _ past' => ∃ event, past' = event :: past ∧ event.signal = none ∧ ReadsClock event) past :=
  holds_request (by simp) fun _ => ⟨_, rfl, rfl, trivial⟩

theorem remaining_holds : Holds udid appId strict (remaining deadline)
    (fun _ past' => ∃ event, past' = event :: past ∧ event.signal = none ∧ ReadsClock event) past := by
  refine Holds.bind unixMs_holds (fun now past' read => ?_) fun _ _ read => read
  split
  next => exact holds_throw read
  next => exact holds_pure read

theorem cleanupDeadline_holds : Holds udid appId strict cleanupDeadline (fun _ past' => Frame past past') past :=
  holds_request (by simp) fun _ => (Frame.refl past).cons rfl

theorem checkCancelDeadline_holds : Holds udid appId strict (checkCancelDeadline cancellation deadline)
    (fun _ past' => Frame past past') past := by
  have flag : Holds udid appId strict (Attempt.request (.cancelled cancellation) Except.ok : Act Bool)
      (fun _ past' => ∃ event, past' = event :: past ∧ event.signal = none) past :=
    holds_request (by simp) fun _ => ⟨_, rfl, rfl⟩
  refine Holds.bind flag (fun cancelled past' asked => ?_) fun failed past' asked => ?_
  · obtain ⟨event, rfl, silent⟩ := asked
    have frame := (Frame.refl past).cons silent
    split
    next => exact holds_throw frame
    next =>
      refine Holds.bind remaining_holds (fun left past' read => ?_) fun failed past' read => ?_
      · obtain ⟨event, rfl, silent, -⟩ := read
        exact holds_pure (frame.cons silent)
      · obtain ⟨event, rfl, silent, -⟩ := read
        exact frame.cons silent
  · obtain ⟨event, rfl, silent⟩ := asked
    exact (Frame.refl past).cons silent

/-- A command that asks leaves its event, and the result is what is read of its answer. -/
theorem ask_holds {α : Type} {command : SimctlCommand} {reads : ToolOutput → Except PlatformFailure α}
    (asks : command.Asks) : Holds udid appId strict (runSuccess tools cancellation deadline command reads)
      (fun result past' => ∃ event, past' = event :: past ∧ event.signal = none ∧ Runs command event ∧
        ∃ reply : Except PlatformFailure ToolOutput, result = (successful reply >>= reads) ∧
          event = ⟨(), .tool tools.program command.arguments none toolOutputCap cancellation deadline, reply, ()⟩) past := by
  refine holds_tool (fun _ => .of_asks udid appId asks) fun reply => ⟨_, rfl, ?_, rfl, reply, rfl, rfl⟩
  have runs : Runs command ⟨(), .tool tools.program command.arguments none toolOutputCap cancellation deadline, reply, ()⟩ := rfl
  rw [signal_of_runs runs]
  cases command with
  | kill => cases asks
  | _ => rfl

theorem matchingProcesses_holds {device installedApp : Chars} :
    Holds udid appId strict (matchingProcesses tools cancellation deadline device installedApp)
      (fun result past' => ∃ event, past' = event :: past ∧ event.signal = none ∧
        ∀ pids, result = .ok pids → Listed device installedApp pids event) past :=
  (ask_holds (show SimctlCommand.Asks (.ps device) from trivial)).mono fun result past' asked => by
    obtain ⟨event, rfl, silent, -, reply, rfl, rfl⟩ := asked
    exact ⟨_, rfl, silent, fun pids ok => ⟨rfl, ok⟩⟩

theorem installedAppPresent_holds : Holds udid appId strict (installedAppPresent tools cancellation deadline selection)
    (fun result past' => ∃ event, past' = event :: past ∧ event.signal = none ∧
      (result = .ok false → ReportedAbsent selection.deviceSelector selection.appId event)) past :=
  (ask_holds (show SimctlCommand.Asks (.listapps selection.deviceSelector) from trivial)).mono fun result past' asked => by
    obtain ⟨event, rfl, silent, -, reply, rfl, rfl⟩ := asked
    exact ⟨_, rfl, silent, fun ok => ⟨rfl, ok⟩⟩

theorem installedAppPath_holds : Holds udid appId strict (installedAppPath tools cancellation deadline selection)
    (fun result past' => Frame past past' ∧ ∀ path, result = .ok path → ∃ contained asked,
      past' = contained :: asked :: past ∧ Contained path contained ∧
      Runs (.getAppContainer selection.deviceSelector selection.appId) asked) past := by
  refine Holds.bind (ask_holds trivial) (fun installed past' asked => ?_) fun failed past' asked => ?_
  · obtain ⟨event, rfl, silent, runs, -⟩ := asked
    refine holds_request (by simp) fun reply => ⟨((Frame.refl past).cons silent).cons rfl, fun path ok => ?_⟩
    refine ⟨_, event, rfl, ?_, runs⟩
    cases reply with
    | none => cases ok
    | some found =>
        cases ok
        rfl
  · obtain ⟨event, rfl, silent, -⟩ := asked
    exact ⟨(Frame.refl past).cons silent, fun path ok => by cases ok⟩

theorem assertSnapshotUnchanged_holds : Holds udid appId strict (assertSnapshotUnchanged cancellation deadline artifact)
    (fun result past' => ∃ event, past' = event :: past ∧ event.signal = none ∧
      (result = .ok () → Unchanged event)) past :=
  holds_request (by simp) fun _ => ⟨_, rfl, rfl, id⟩

theorem verifyInstalled_holds {installed : Chars} : Holds udid appId strict (verifyInstalled cancellation deadline artifact installed)
    (fun result past' => ∃ event, past' = event :: past ∧ event.signal = none ∧
      (result = .ok () → Verified installed event)) past :=
  holds_request (by simp) fun _ => ⟨_, rfl, rfl, fun ok => ⟨rfl, ok⟩⟩

theorem processIdentity_holds {pid : Nat} {installedApp : Chars} : Holds udid appId strict (processIdentity pid installedApp)
    (fun result past' => ∃ event, past' = event :: past ∧ event.signal = none ∧
      ∀ identity, result = .ok identity → Identified pid installedApp identity event) past :=
  holds_request (by simp) fun _ => ⟨_, rfl, rfl, fun _ ok => ⟨rfl, rfl, ok⟩⟩

/-- An error is taken for a failed cleanup; the history is the same. -/
theorem orCleanupFailed_holds {α : Type} {m : Act α} {post : Except PlatformFailure α → History → Prop}
    (holds : Holds udid appId strict m (fun result past' => match result with
      | .ok value => post (.ok value) past'
      | .error _ => post (.error (failure .cleanupFailed)) past') past) :
    Holds udid appId strict (orCleanupFailed m) post past := by
  refine Holds.outcome holds fun result past' held => ?_
  cases result with
  | ok value => exact holds_pure held
  | error failed => exact holds_throw held

end

/-! ## The parts of a launch -/

section
variable {strict : Prop} {tools : Tools} {cancellation : Cancellation} {deadline : Raw.AbsoluteDeadline}
  {selection : TargetSelection} {artifact : PreparedLaunchArtifact} {candidate : LaunchCandidate} {owner : TargetOwner}
  {past : History}

theorem helpContains_holds {topic : Chars} {expected : List Chars} :
    Holds selection.deviceSelector selection.appId strict (helpContains tools cancellation deadline topic expected)
      (fun _ past' => Frame past past') past :=
  (ask_holds (show SimctlCommand.Asks (.help topic) from trivial)).mono fun result past' asked => by
    obtain ⟨event, rfl, silent, -⟩ := asked
    exact (Frame.refl past).cons silent

/-- One part after the other, where only the frame matters. -/
theorem Holds.frame {α β : Type} {m : Act α} {next : α → Act β} {udid appId : Chars}
    (first : Holds udid appId strict m (fun _ past' => Frame past past') past)
    (goes : ∀ value past', Holds udid appId strict (next value) (fun _ past'' => Frame past' past'') past') :
    Holds udid appId strict (m >>= next) (fun _ past' => Frame past past') past :=
  first.bind (fun value past' frame => (goes value past').mono fun _ _ more => frame.trans more) fun _ _ frame => frame

theorem featureProbe_holds : Holds selection.deviceSelector selection.appId strict (featureProbe tools cancellation deadline)
    (fun _ past' => Frame past past') past := by
  unfold featureProbe
  iterate 5 refine Holds.frame helpContains_holds fun _ _ => ?_
  exact helpContains_holds

theorem installIfAbsent_holds : Holds selection.deviceSelector selection.appId strict
    (installIfAbsent tools cancellation deadline selection artifact)
    (fun result past' => Frame past past' ∧ (result = .ok true → IssuedInstall selection.deviceSelector past')) past := by
  refine Holds.bind installedAppPresent_holds (fun present past' asked => ?_) fun failed past' asked => ?_
  · obtain ⟨listed, rfl, silent, absent⟩ := asked
    have frame := (Frame.refl past).cons silent
    split
    next => exact holds_pure ⟨frame, fun ok => by cases ok⟩
    next gone =>
      have absent := absent (by simpa using gone)
      refine Holds.bind assertSnapshotUnchanged_holds (fun _ past' checked => ?_) fun failed past' checked => ?_
      · obtain ⟨unchanged, rfl, quiet, same⟩ := checked
        have frame := frame.cons quiet
        have installs : Holds selection.deviceSelector selection.appId strict (orCleanupFailed (runSuccess tools cancellation deadline
            (.install selection.deviceSelector artifact.snapshotPath) fun _ => .ok ()))
            (fun _ past' => Frame past past' ∧ IssuedInstall selection.deviceSelector past') (unchanged :: listed :: past) := by
          have issued (event : Event) (runs : Runs (.install selection.deviceSelector artifact.snapshotPath) event) :
              Frame past (event :: unchanged :: listed :: past) ∧
                IssuedInstall selection.deviceSelector (event :: unchanged :: listed :: past) :=
            ⟨frame.cons (signal_of_runs runs), event, List.mem_cons_self, artifact.snapshotPath, runs⟩
          refine orCleanupFailed_holds (holds_tool (fun _ => ⟨rfl, unchanged, listed, past, rfl, same rfl, absent⟩) fun reply => ?_)
          split
          next => exact issued _ rfl
          next => exact issued _ rfl
        refine Holds.bind installs (fun _ past' issued => ?_) fun failed past' issued => ⟨issued.1, fun ok => by cases ok⟩
        obtain ⟨frame, issued⟩ := issued
        refine Holds.bind installedAppPresent_holds (fun present past'' asked => ?_) fun failed past'' asked => ?_
        · obtain ⟨event, rfl, silent, -⟩ := asked
          split
          next => exact holds_pure ⟨frame.cons silent, fun _ => issued.mono (List.suffix_cons _ _)⟩
          next => exact holds_throw ⟨frame.cons silent, fun ok => by cases ok⟩
        · obtain ⟨event, rfl, silent, -⟩ := asked
          exact ⟨frame.cons silent, fun ok => by cases ok⟩
      · obtain ⟨unchanged, rfl, quiet, -⟩ := checked
        exact ⟨frame.cons quiet, fun ok => by cases ok⟩
  · obtain ⟨listed, rfl, silent, -⟩ := asked
    exact ⟨(Frame.refl past).cons silent, fun ok => by cases ok⟩

theorem verifyExactCandidate_holds : Holds selection.deviceSelector selection.appId strict
    (verifyExactCandidate tools cancellation deadline selection artifact)
    (fun result past' => Frame past past' ∧ ∀ candidate, result = .ok candidate →
      (candidate.installedByLease = true → IssuedInstall selection.deviceSelector past') ∧
      Checked selection.deviceSelector selection.appId candidate.appPath past') past := by
  refine Holds.bind (ask_holds (show SimctlCommand.Asks (.list selection.deviceSelector) from trivial))
    (fun _ past' asked => ?_) fun failed past' asked => ?_
  · obtain ⟨event, rfl, silent, -⟩ := asked
    have frame := (Frame.refl past).cons silent
    refine Holds.bind installIfAbsent_holds (fun installedByLease past' installed => ?_)
      fun failed past' installed => ⟨frame.trans installed.1, fun _ ok => by cases ok⟩
    obtain ⟨more, issued⟩ := installed
    have frame := frame.trans more
    refine Holds.bind installedAppPath_holds (fun installed past'' resolved => ?_)
      fun failed past'' resolved => ⟨frame.trans resolved.1, fun _ ok => by cases ok⟩
    obtain ⟨more, found⟩ := resolved
    obtain ⟨contained, asked, rfl, isContained, runs⟩ := found installed rfl
    have frame := frame.trans more
    refine Holds.outcome verifyInstalled_holds fun result past'' checked => ?_
    obtain ⟨verified, rfl, quiet, isVerified⟩ := checked
    have frame := frame.cons quiet
    cases result with
    | error failed => exact holds_throw ⟨frame, fun _ ok => by cases ok⟩
    | ok _ =>
        refine Holds.bind matchingProcesses_holds (fun processes past'' shown => ?_) fun failed past'' shown => ?_
        · obtain ⟨listed, rfl, quiet, isListed⟩ := shown
          have frame := frame.cons quiet
          split
          next none =>
            refine holds_pure ⟨frame, fun candidate ok => ?_⟩
            cases ok
            refine ⟨fun byLease => ?_, listed, verified, contained, asked, past', rfl, isListed _ (by rw [none]), isVerified rfl,
              isContained, runs⟩
            exact (issued (by rw [← byLease])).mono ⟨[listed, verified, contained, asked], rfl⟩
          next => exact holds_throw ⟨frame, fun _ ok => by cases ok⟩
        · obtain ⟨listed, rfl, quiet, -⟩ := shown
          exact ⟨frame.cons quiet, fun _ ok => by cases ok⟩
  · obtain ⟨event, rfl, silent, -⟩ := asked
    exact ⟨(Frame.refl past).cons silent, fun _ ok => by cases ok⟩

theorem proveExactOwner_holds {installedApp : Chars} {pid : Nat} : Holds selection.deviceSelector selection.appId strict
    (proveExactOwner tools cancellation deadline selection installedApp pid)
    (fun result past' => Frame past past' ∧ ∀ owner, result = .ok owner → owner.pid = pid ∧
      ∃ identified listed, past' = identified :: listed :: past ∧
        Identified owner.pid owner.appPath owner.identity identified ∧
        Listed owner.udid owner.appPath [owner.pid] listed) past := by
  refine Holds.bind matchingProcesses_holds (fun processes past' shown => ?_) fun failed past' shown => ?_
  · obtain ⟨listed, rfl, silent, isListed⟩ := shown
    have frame := (Frame.refl past).cons silent
    split
    next alone =>
      refine Holds.bind processIdentity_holds (fun identity past' read => ?_) fun failed past' read => ?_
      · obtain ⟨identified, rfl, quiet, isIdentified⟩ := read
        refine holds_pure ⟨frame.cons quiet, fun owner ok => ?_⟩
        cases ok
        exact ⟨rfl, identified, listed, rfl, isIdentified identity rfl, isListed _ (by rw [alone])⟩
      · obtain ⟨identified, rfl, quiet, -⟩ := read
        exact ⟨frame.cons quiet, fun _ ok => by cases ok⟩
    next => exact holds_throw ⟨frame, fun _ ok => by cases ok⟩
  · obtain ⟨listed, rfl, silent, -⟩ := shown
    exact ⟨(Frame.refl past).cons silent, fun _ ok => by cases ok⟩

end

/-! ## Stopping the owner and removing the app -/

section
variable {strict : Prop} {tools : Tools} {cancellation : Cancellation} {deadline : Raw.AbsoluteDeadline}
  {selection : TargetSelection} {artifact : PreparedLaunchArtifact} {candidate : LaunchCandidate} {owner : TargetOwner}
  {past : History}

/-- The latest request was a listing without a process of the app. -/
def Gone (owner : TargetOwner) (past : History) : Prop :=
  ∃ listed older, past = listed :: older ∧ Listed owner.udid owner.appPath [] listed

theorem ownerRuns_holds : Holds selection.deviceSelector selection.appId strict (ownerRuns tools cancellation deadline owner)
    (fun result past' => Frame past past' ∧ (result = .ok false → Gone owner past') ∧ (result = .ok true →
      ∃ identified listed older, past' = identified :: listed :: older ∧
        Identified owner.pid owner.appPath owner.identity identified ∧
        Listed owner.udid owner.appPath [owner.pid] listed)) past := by
  refine Holds.bind matchingProcesses_holds (fun current past' shown => ?_) fun failed past' shown => ?_
  · obtain ⟨listed, rfl, silent, isListed⟩ := shown
    have frame := (Frame.refl past).cons silent
    split
    next empty =>
      exact holds_pure ⟨frame, fun _ => ⟨listed, past, rfl, isListed _ (by rw [empty])⟩, fun ok => by cases ok⟩
    split
    next => exact holds_throw ⟨frame, nofun, nofun⟩
    next alone =>
      refine Holds.bind processIdentity_holds (fun identity past' read => ?_) fun failed past' read => ?_
      · obtain ⟨identified, rfl, quiet, isIdentified⟩ := read
        have frame := frame.cons quiet
        split
        next => exact holds_throw ⟨frame, nofun, nofun⟩
        next same =>
          have same : identity = owner.identity := not_not.1 same
          have alone : current = [owner.pid] := not_not.1 alone
          exact holds_pure ⟨frame, nofun, fun _ => ⟨identified, listed, past, rfl,
            isIdentified _ (by rw [same]), isListed _ (by rw [alone])⟩⟩
      · obtain ⟨identified, rfl, quiet, -⟩ := read
        exact ⟨frame.cons quiet, nofun, nofun⟩
  · obtain ⟨listed, rfl, silent, -⟩ := shown
    exact ⟨(Frame.refl past).cons silent, nofun, nofun⟩

/-- A signal goes to the owner that is alone; it is one more, whatever becomes of it. -/
theorem sendSignal_holds (signal : Signal) (owns : strict → Owns selection.deviceSelector selection.appId owner past)
    (alone : Alone owner past) (sent : strict → past.filterMap Event.signal = match signal with
      | .term => []
      | .kill => [.term]) :
    Holds selection.deviceSelector selection.appId strict (sendSignal tools cancellation deadline owner signal)
      (fun _ past' => past <:+ past' ∧ past'.filterMap Event.signal = signal :: past.filterMap Event.signal) past := by
  refine orCleanupFailed_holds (holds_tool (fun must => ⟨owner, rfl, rfl, owns must, alone, sent must⟩) fun reply => ?_)
  have one (event : Event) (runs : Runs (.kill owner.udid signal owner.pid) event) : past <:+ event :: past ∧
      (event :: past).filterMap Event.signal = signal :: past.filterMap Event.signal :=
    ⟨List.suffix_cons event past, List.filterMap_cons_some (signal_of_runs runs)⟩
  split
  next => exact one _ rfl
  next => exact one _ rfl

/-- While the loop polls, the owner has been sent `TERM`, and perhaps `KILL` after it. -/
theorem awaitExit_holds {termDeadline rounds : Nat} {sentKill : Bool}
    (owns : strict → Owns selection.deviceSelector selection.appId owner past)
    (sent : strict → past.filterMap Event.signal = if sentKill then [.kill, .term] else [.term]) :
    Holds selection.deviceSelector selection.appId strict
      (awaitExit tools cancellation deadline owner termDeadline rounds sentKill)
      (fun result past' => past <:+ past' ∧ (result = .ok () → Gone owner past')) past := by
  induction rounds generalizing past sentKill with
  | zero => exact Attempt.ensures_cut
  | succ rounds ih =>
      refine Holds.bind ownerRuns_holds (fun runs past' seen => ?_) fun failed past' seen =>
        ⟨seen.1.suffix, fun ok => by cases ok⟩
      obtain ⟨frame, gone, alone⟩ := seen
      have sent (must : strict) : past'.filterMap Event.signal = if sentKill then [.kill, .term] else [.term] :=
        frame.signals.trans (sent must)
      split
      next stopped =>
        have stopped : runs = false := by simpa using stopped
        exact holds_pure ⟨frame.suffix, fun _ => gone (by rw [stopped])⟩
      next stopped =>
        have running : runs = true := by simpa using stopped
        obtain ⟨identified, listed, older, rfl, isIdentified, isListed⟩ := alone (by rw [running])
        have owns (must : strict) := (owns must).mono frame.suffix
        have escalates : Holds selection.deviceSelector selection.appId strict (if sentKill then pure true else do
            let now ← unixMs
            if now ≥ termDeadline then do
              sendSignal tools cancellation deadline owner .kill
              pure true
            else pure false : Act Bool)
            (fun result past' => identified :: listed :: older <:+ past' ∧ ∀ sentKill, result = .ok sentKill → strict →
              past'.filterMap Event.signal = if sentKill then [.kill, .term] else [.term])
            (identified :: listed :: older) := by
          split
          next before =>
            exact holds_pure ⟨List.suffix_refl _, fun _ ok must => by cases ok; simpa only [before] using sent must⟩
          next before =>
            have sent (must : strict) := (sent must).trans (if_neg before)
            refine Holds.bind unixMs_holds (fun now past' read => ?_) fun failed past' read => ?_
            · obtain ⟨clock, rfl, silent, reads⟩ := read
              have quiet := (Frame.refl (identified :: listed :: older)).cons silent
              split
              next =>
                have alone : Alone owner (clock :: identified :: listed :: older) :=
                  ⟨[clock], identified, listed, older, rfl, by simpa using reads, isIdentified, isListed⟩
                refine Holds.bind (sendSignal_holds .kill (fun must => (owns must).mono quiet.suffix) alone
                  fun must => quiet.signals.trans (sent must)) (fun _ past' one => holds_pure ⟨quiet.suffix.trans one.1, fun _ ok must => ?_⟩)
                  fun failed past' one => ⟨quiet.suffix.trans one.1, nofun⟩
                cases ok
                rw [one.2, quiet.signals, sent must]
                rfl
              next =>
                refine holds_pure ⟨quiet.suffix, fun _ ok must => ?_⟩
                cases ok
                exact quiet.signals.trans (sent must)
            · obtain ⟨clock, rfl, silent, -⟩ := read
              exact ⟨List.suffix_cons _ _, nofun⟩
        refine Holds.bind escalates (fun sentKill past' told => ?_) fun failed past' told =>
          ⟨frame.suffix.trans told.1, fun ok => by cases ok⟩
        obtain ⟨further, sent⟩ := told
        have owns (must : strict) := (owns must).mono further
        have more := frame.suffix.trans further
        refine Holds.outcome remaining_holds fun left past' read => ?_
        obtain ⟨clock, rfl, silent, -⟩ := read
        cases left with
        | error failed => exact holds_throw ⟨more.trans (List.suffix_cons _ _), fun ok => by cases ok⟩
        | ok _ =>
            have sent (must : strict) :
                (clock :: past').filterMap Event.signal = if sentKill then [.kill, .term] else [.term] := by
              rw [List.filterMap_cons_none silent]
              exact sent sentKill rfl must
            exact (ih (fun must => (owns must).mono (List.suffix_cons _ _)) sent).mono fun result past' held =>
              ⟨(more.trans (List.suffix_cons _ _)).trans held.1, held.2⟩

theorem terminateExactOwner_holds {rounds : Nat} (owns : strict → Owns selection.deviceSelector selection.appId owner past)
    (unsent : strict → past.filterMap Event.signal = []) : Holds selection.deviceSelector selection.appId strict
      (terminateExactOwner tools cancellation deadline owner rounds)
      (fun result past' => past <:+ past' ∧ (result = .ok () → Gone owner past')) past := by
  refine Holds.bind ownerRuns_holds (fun runs past' seen => ?_) fun failed past' seen => ⟨seen.1.suffix, nofun⟩
  obtain ⟨frame, gone, alone⟩ := seen
  split
  next stopped =>
    have stopped : runs = false := by simpa using stopped
    exact holds_pure ⟨frame.suffix, fun _ => gone (by rw [stopped])⟩
  next stopped =>
    have running : runs = true := by simpa using stopped
    obtain ⟨identified, listed, older, rfl, isIdentified, isListed⟩ := alone (by rw [running])
    have owns (must : strict) := (owns must).mono frame.suffix
    have alone : Alone owner (identified :: listed :: older) :=
      ⟨[], identified, listed, older, rfl, by simp, isIdentified, isListed⟩
    refine Holds.bind (sendSignal_holds .term owns alone fun must => frame.signals.trans (unsent must)) (fun _ past' one => ?_) fun failed past' one => ⟨frame.suffix.trans one.1, nofun⟩
    obtain ⟨more, sent⟩ := one
    have owns (must : strict) := (owns must).mono more
    have more := frame.suffix.trans more
    refine Holds.bind unixMs_holds (fun now past'' read => ?_) fun failed past'' read => ?_
    · obtain ⟨clock, rfl, silent, -⟩ := read
      have sent (must : strict) : (clock :: past').filterMap Event.signal = if false then [.kill, .term] else [.term] := by
        rw [List.filterMap_cons_none silent, sent, frame.signals, unsent must]
        rfl
      exact (awaitExit_holds (fun must => (owns must).mono (List.suffix_cons _ _)) sent).mono fun result past' held =>
        ⟨(more.trans (List.suffix_cons _ _)).trans held.1, held.2⟩
    · obtain ⟨clock, rfl, -⟩ := read
      exact ⟨more.trans (List.suffix_cons _ _), nofun⟩

theorem cleanupOwnedInstallation_holds (launched : LaunchedAt selection.deviceSelector selection.appId candidate.appPath past)
    (installed : candidate.installedByLease = true → IssuedInstall selection.deviceSelector past) :
    Holds selection.deviceSelector selection.appId strict
      (cleanupOwnedInstallation tools cancellation deadline selection artifact candidate) (fun _ past' => past <:+ past') past := by
  unfold cleanupOwnedInstallation
  split
  next => exact holds_pure (List.suffix_refl past)
  next byLease =>
    have installed := installed (by simpa using byLease)
    refine Holds.bind installedAppPresent_holds (fun present past' asked => ?_) fun failed past' asked => ?_
    · obtain ⟨event, rfl, silent, -⟩ := asked
      have frame := (Frame.refl past).cons silent
      split
      next => exact holds_pure frame.suffix
      refine Holds.bind installedAppPath_holds (fun current past'' resolved => ?_)
        fun failed past'' resolved => frame.suffix.trans resolved.1.suffix
      obtain ⟨more, found⟩ := resolved
      obtain ⟨contained, asked, rfl, isContained, runs⟩ := found current rfl
      have frame := frame.trans more
      split
      next => exact holds_throw frame.suffix
      next same =>
        have same : current = candidate.appPath := not_not.1 same
        refine Holds.outcome verifyInstalled_holds fun result past'' checked => ?_
        obtain ⟨verified, rfl, quiet, isVerified⟩ := checked
        have frame := frame.cons quiet
        cases result with
        | error failed => exact holds_throw frame.suffix
        | ok _ =>
            refine Holds.bind matchingProcesses_holds (fun processes past'' shown => ?_) fun failed past'' shown => ?_
            · obtain ⟨listed, rfl, quiet, isListed⟩ := shown
              have frame := frame.cons quiet
              split
              next => exact holds_throw frame.suffix
              next none =>
                have none : processes = [] := not_not.1 none
                subst same
                have checked : Checked selection.deviceSelector selection.appId candidate.appPath
                    (listed :: verified :: contained :: asked :: event :: past) :=
                  ⟨listed, verified, contained, asked, event :: past, rfl, isListed _ (by rw [none]), isVerified rfl,
                    isContained, runs⟩
                have uninstalls : Holds selection.deviceSelector selection.appId strict (orCleanupFailed (runSuccess tools
                    cancellation deadline (.uninstall selection.deviceSelector selection.appId) fun _ => .ok ()))
                    (fun _ past' => past <:+ past') (listed :: verified :: contained :: asked :: event :: past) := by
                  refine orCleanupFailed_holds (holds_tool (fun _ => ⟨rfl, rfl, installed.mono frame.suffix, _,
                    launched.mono frame.suffix, checked⟩) fun reply => ?_)
                  split
                  next => exact frame.suffix.trans (List.suffix_cons _ _)
                  next => exact frame.suffix.trans (List.suffix_cons _ _)
                refine Holds.bind uninstalls (fun _ past' more => ?_) fun failed past' more => more
                refine Holds.bind installedAppPresent_holds (fun present past'' asked => ?_) fun failed past'' asked => ?_
                · obtain ⟨event, rfl, -⟩ := asked
                  split
                  next => exact holds_throw (more.trans (List.suffix_cons _ _))
                  next => exact holds_pure (more.trans (List.suffix_cons _ _))
                · obtain ⟨event, rfl, -⟩ := asked
                  exact more.trans (List.suffix_cons _ _)
            · obtain ⟨listed, rfl, quiet, -⟩ := shown
              exact (frame.cons quiet).suffix
    · obtain ⟨event, rfl, -⟩ := asked
      exact List.suffix_cons _ _

theorem releaseReservation_holds {udid appId : Chars} {reservation : Option AdapterReservation} :
    Holds udid appId strict (releaseReservation reservation) (fun _ past' => Frame past past') past := by
  cases reservation with
  | none => exact holds_pure (Frame.refl past)
  | some reservation => exact holds_request (by simp) fun _ => (Frame.refl past).cons rfl

end

/-! ## Whole launches and cleanups -/

section
variable {strict : Prop} {self : ApplePendingLaunch} {tools : Tools} {deadline : Raw.AbsoluteDeadline} {artifact : PreparedLaunchArtifact}
  {candidate : LaunchCandidate} {owner : TargetOwner} {past : History} {rounds : Nat}

/-- The app was checked, and the snapshot after it. -/
def Ready (self : ApplePendingLaunch) (candidate : LaunchCandidate) (past : History) : Prop :=
  (candidate.installedByLease = true → IssuedInstall self.selection.deviceSelector past) ∧
  ∃ unchanged older, past = unchanged :: older ∧ Unchanged unchanged ∧
    Checked self.selection.deviceSelector self.selection.appId candidate.appPath older

/-- The app was launched where it was checked. -/
def Launched (self : ApplePendingLaunch) (candidate : LaunchCandidate) (past : History) : Prop :=
  (candidate.installedByLease = true → IssuedInstall self.selection.deviceSelector past) ∧
  LaunchedAt self.selection.deviceSelector self.selection.appId candidate.appPath past

theorem Launched.mono {past' : History} (launched : Launched self candidate past) (suffix : past <:+ past') :
    Launched self candidate past' :=
  ⟨fun byLease => (launched.1 byLease).mono suffix, launched.2.mono suffix⟩

theorem prepare_holds {descriptor : Wire.Bytes} : Holds self.selection.deviceSelector self.selection.appId strict
    (self.prepare tools deadline descriptor)
    (fun result past' => Frame past past' ∧ ∀ candidate artifact, result = .ok (candidate, artifact) →
      Ready self candidate past') past := by
  refine Holds.bind checkCancelDeadline_holds (fun _ past' frame => ?_) fun failed past' frame => ⟨frame, nofun⟩
  split
  next => exact holds_throw ⟨frame, nofun⟩
  next =>
    have asks : Holds self.selection.deviceSelector self.selection.appId strict
        (Attempt.request (.prepare self.selection .given deadline) id : Act PreparedLaunchArtifact)
        (fun _ past'' => Frame past' past'') past' := holds_request (by simp) fun _ => (Frame.refl past').cons rfl
    refine Holds.bind asks (fun artifact past' more => ?_) fun failed past' more => ⟨frame.trans more, nofun⟩
    have frame := frame.trans more
    refine Holds.bind featureProbe_holds (fun _ past' more => ?_) fun failed past' more => ⟨frame.trans more, nofun⟩
    have frame := frame.trans more
    refine Holds.bind verifyExactCandidate_holds (fun candidate past' found => ?_)
      fun failed past' found => ⟨frame.trans found.1, nofun⟩
    obtain ⟨more, checked⟩ := found
    have frame := frame.trans more
    obtain ⟨issued, checked⟩ := checked candidate rfl
    refine Holds.bind assertSnapshotUnchanged_holds (fun _ past'' asked => ?_) fun failed past'' asked => ?_
    · obtain ⟨unchanged, rfl, silent, same⟩ := asked
      refine holds_pure ⟨frame.cons silent, fun candidate artifact ok => ?_⟩
      cases ok
      exact ⟨fun byLease => (issued byLease).mono (List.suffix_cons _ _), unchanged, past', rfl, same rfl, checked⟩
    · obtain ⟨unchanged, rfl, silent, -⟩ := asked
      exact ⟨frame.cons silent, nofun⟩

theorem start_holds {encoded : Chars} (ready : Ready self candidate past) :
    Holds self.selection.deviceSelector self.selection.appId strict (self.start tools deadline encoded candidate)
      (fun result past' => Frame past past' ∧ Launched self candidate past' ∧ ∀ owner, result = .ok owner →
        Owns self.selection.deviceSelector self.selection.appId owner past') past := by
  obtain ⟨issued, unchanged, older, rfl, same, checked⟩ := ready
  have launches : Holds self.selection.deviceSelector self.selection.appId strict (Attempt.request
      (.tool tools.program (SimctlCommand.launch self.selection.deviceSelector self.selection.appId).arguments
        (some encoded) launchOutputCap .given deadline)
      fun reply => successful reply >>= fun output => parseLaunchPid output.stdout self.selection.appId)
      (fun result past' => ∃ launch, past' = launch :: unchanged :: older ∧ launch.signal = none ∧
        Runs (.launch self.selection.deviceSelector self.selection.appId) launch ∧ ∀ pid, result = .ok pid →
          Started self.selection.deviceSelector self.selection.appId pid launch) (unchanged :: older) :=
    holds_tool (fun _ => ⟨rfl, rfl, candidate.appPath, unchanged, older, rfl, same, checked⟩) fun reply =>
      ⟨_, rfl, rfl, rfl, fun pid ok => ⟨rfl, ok⟩⟩
  refine Holds.bind launches (fun pid past' started => ?_) fun failed past' started => ?_
  · obtain ⟨launch, rfl, silent, runs, isStarted⟩ := started
    have frame := (Frame.refl (unchanged :: older)).cons silent
    have launched : Launched self candidate (launch :: unchanged :: older) :=
      ⟨fun byLease => (issued byLease).mono frame.suffix, [], launch, unchanged, older, rfl, runs, same, checked⟩
    refine proveExactOwner_holds.mono fun result past' proven => ?_
    obtain ⟨more, found⟩ := proven
    refine ⟨frame.trans more, launched.mono more.suffix, fun owner ok => ?_⟩
    obtain ⟨rfl, identified, listed, rfl, isIdentified, isListed⟩ := found owner ok
    exact ⟨[], identified, listed, launch, unchanged :: older, rfl, isIdentified, isListed, isStarted _ rfl⟩
  · obtain ⟨launch, rfl, silent, runs, -⟩ := started
    have frame := (Frame.refl (unchanged :: older)).cons silent
    exact ⟨frame, ⟨fun byLease => (issued byLease).mono frame.suffix, [], launch, unchanged, older, rfl, runs, same, checked⟩,
      nofun⟩

theorem stillExact_holds : Holds self.selection.deviceSelector self.selection.appId strict
    (ApplePendingLaunch.stillExact deadline candidate artifact) (fun _ past' => Frame past past') past := by
  refine Holds.bind assertSnapshotUnchanged_holds (fun _ past' asked => ?_) fun failed past' asked => ?_
  · obtain ⟨unchanged, rfl, silent, -⟩ := asked
    refine verifyInstalled_holds.mono fun result past' checked => ?_
    obtain ⟨verified, rfl, quiet, -⟩ := checked
    exact ((Frame.refl past).cons silent).cons quiet
  · obtain ⟨unchanged, rfl, silent, -⟩ := asked
    exact (Frame.refl past).cons silent

theorem tcpRawDuplex_holds {udid appId : Chars} {connection : ConnectedLoopback} :
    Holds udid appId strict (tcpRawDuplex connection) (fun _ past' => Frame past past') past := by
  have wraps : Holds udid appId strict (Attempt.request .wrap id : Act Unit) (fun _ past' => Frame past past') past :=
    holds_request (by simp) fun _ => (Frame.refl past).cons rfl
  refine Holds.outcome wraps fun result past' frame => ?_
  cases result with
  | ok _ => exact holds_pure frame
  | error failed =>
      have drops : Holds udid appId strict (Attempt.request (.dropSource connection.sourcePort) Except.ok : Act Unit)
          (fun _ past' => Frame past past') past' := holds_request (by simp) fun _ => frame.cons rfl
      exact Holds.bind drops (fun _ _ frame => holds_throw frame) fun _ _ frame => frame

/-- What fails, and only that. -/
def Failing {α : Type} (result : Except PlatformFailure α) : Prop := ∃ failed, result = .error failed

theorem prelaunchFailure_holds {α : Type} {original : PlatformFailure} :
    Holds self.selection.deviceSelector self.selection.appId strict (self.prelaunchFailure original : Act α)
      (fun result _ => Failing result) past := by
  unfold ApplePendingLaunch.prelaunchFailure
  split
  next => exact holds_throw ⟨_, rfl⟩
  next =>
    refine Holds.outcome releaseReservation_holds fun result past' _ => ?_
    cases result with
    | ok _ => exact holds_throw ⟨_, rfl⟩
    | error failed => exact holds_throw ⟨_, rfl⟩

/-- After a cleanup of any outcome comes a failure. -/
theorem failing_after {udid appId : Chars} {m : Act Unit} (holds : Holds udid appId strict m (fun _ _ => True) past)
    {α : Type} {original : PlatformFailure} :
    Holds udid appId strict (do orCleanupFailed m; throw original : Act α) (fun result _ => Failing result) past := by
  have cleaned : Holds udid appId strict (orCleanupFailed m) (fun _ _ => True) past :=
    orCleanupFailed_holds (holds.mono fun result _ _ => by cases result <;> trivial)
  exact Holds.bind cleaned (fun _ _ _ => holds_throw ⟨_, rfl⟩) fun failed _ _ => ⟨failed, rfl⟩

theorem afterUncertainLaunchFailure_holds {α : Type} {original : PlatformFailure} (launched : Launched self candidate past) :
    Holds self.selection.deviceSelector self.selection.appId strict
      (self.afterUncertainLaunchFailure tools candidate artifact original : Act α) (fun result _ => Failing result) past := by
  refine failing_after (Holds.bind cleanupDeadline_holds (fun cleanup past' frame => ?_) fun _ _ _ => trivial)
  refine Holds.bind matchingProcesses_holds (fun processes past'' shown => ?_) fun _ _ _ => trivial
  obtain ⟨listed, rfl, silent, -⟩ := shown
  have launched := launched.mono (frame.cons silent).suffix
  split
  next =>
    refine Holds.bind (cleanupOwnedInstallation_holds launched.2 launched.1) (fun _ past' _ => ?_) fun _ _ _ => trivial
    exact releaseReservation_holds.mono fun _ _ _ => trivial
  next => exact holds_throw trivial

theorem cleanAfterOwnedLaunchFailure_holds {α : Type} {original : PlatformFailure} (launched : Launched self candidate past)
    (owns : Owns self.selection.deviceSelector self.selection.appId owner past) (unsent : past.filterMap Event.signal = []) :
    Holds self.selection.deviceSelector self.selection.appId strict
      (self.cleanAfterOwnedLaunchFailure tools rounds candidate artifact owner original : Act α)
      (fun result _ => Failing result) past := by
  refine failing_after (Holds.bind cleanupDeadline_holds (fun cleanup past' frame => ?_) fun _ _ _ => trivial)
  have launched := launched.mono frame.suffix
  refine Holds.bind (terminateExactOwner_holds (fun _ => owns.mono frame.suffix) fun _ => frame.signals.trans unsent)
    (fun _ past'' stopped => ?_) fun _ _ _ => trivial
  have launched := launched.mono stopped.1
  refine Holds.bind (cleanupOwnedInstallation_holds launched.2 launched.1) (fun _ past' _ => ?_) fun _ _ _ => trivial
  split
  next => exact releaseReservation_holds.mono fun _ _ _ => trivial
  next => exact holds_throw trivial

/-- What a launch hands over with its cleanup. -/
structure Leased (self : ApplePendingLaunch) (cleanup : AppleCleanup) (past : History) : Prop where
  selection : cleanup.selection = self.selection
  launched : Launched self cleanup.candidate past
  owns : Owns self.selection.deviceSelector self.selection.appId cleanup.owner past
  unsent : past.filterMap Event.signal = []

theorem attach_holds (launched : Launched self candidate past)
    (owns : Owns self.selection.deviceSelector self.selection.appId owner past) (unsent : past.filterMap Event.signal = []) :
    Holds self.selection.deviceSelector self.selection.appId strict
      (self.attach tools deadline anyConnector rounds candidate artifact owner)
      (fun result past' => ∀ io, result = .ok io → Leased self io.cleanup past') past := by
  have failing {result : Except PlatformFailure LaunchedTargetIo} {past' : History} (fails : Failing result) :
      ∀ io, result = .ok io → Leased self io.cleanup past' := by
    rintro io rfl
    obtain ⟨failed, ⟨⟩⟩ := fails
  refine Holds.outcome stillExact_holds fun result past' frame => ?_
  cases result with
  | error failed =>
      exact (cleanAfterOwnedLaunchFailure_holds (launched.mono frame.suffix) (owns.mono frame.suffix)
        (frame.signals.trans unsent)).mono fun _ _ => failing
  | ok _ =>
      dsimp only
      split
      next => exact holds_throw (failing ⟨_, rfl⟩)
      next port _ =>
        have connects : Holds self.selection.deviceSelector self.selection.appId strict (anyConnector port .given deadline)
            (fun _ past'' => Frame past past'') past' := holds_request (by simp) fun _ => frame.cons rfl
        refine Holds.outcome connects fun result past' frame => ?_
        cases result with
        | error original =>
            exact (afterUncertainLaunchFailure_holds (launched.mono frame.suffix)).mono fun _ _ => failing
        | ok connection =>
            refine Holds.outcome tcpRawDuplex_holds fun result past' more => ?_
            have frame := frame.trans more
            cases result with
            | error original =>
                exact (cleanAfterOwnedLaunchFailure_holds (launched.mono frame.suffix) (owns.mono frame.suffix)
                  (frame.signals.trans unsent)).mono fun _ _ => failing
            | ok bootstrap =>
                refine Holds.outcome stillExact_holds fun result past' more => ?_
                have frame := frame.trans more
                cases result with
                | error failed =>
                    refine Holds.outcome (cleanAfterOwnedLaunchFailure_holds (launched.mono frame.suffix)
                      (owns.mono frame.suffix) (frame.signals.trans unsent)) fun result past' _ => ?_
                    have drops : Holds self.selection.deviceSelector self.selection.appId strict
                        (Attempt.request (.dropSource bootstrap.sourcePort) Except.ok : Act Unit) (fun _ _ => True) past' :=
                      holds_request (by simp) fun _ => trivial
                    refine Holds.bind drops (fun _ past' _ => ?_) fun _ _ _ => failing ⟨_, rfl⟩
                    split
                    next => exact holds_throw (failing ⟨_, rfl⟩)
                    next => exact holds_throw (failing ⟨_, rfl⟩)
                | ok _ =>
                    refine holds_pure fun io ok => ?_
                    cases ok
                    exact ⟨rfl, launched.mono frame.suffix, owns.mono frame.suffix, frame.signals.trans unsent⟩

theorem launch_holds {encode : Wire.Bytes → Chars} {descriptor : Wire.Bytes} (unsent : past.filterMap Event.signal = []) :
    Holds self.selection.deviceSelector self.selection.appId strict
      (self.launch tools deadline anyConnector encode rounds descriptor)
      (fun result past' => ∀ io, result = .ok io → Leased self io.cleanup past') past := by
  have failing {result : Except PlatformFailure LaunchedTargetIo} {past' : History} (fails : Failing result) :
      ∀ io, result = .ok io → Leased self io.cleanup past' := by
    rintro io rfl
    obtain ⟨failed, ⟨⟩⟩ := fails
  unfold ApplePendingLaunch.launch
  split
  next => exact prelaunchFailure_holds.mono fun _ _ => failing
  next =>
    refine Holds.outcome prepare_holds fun result past' prepared => ?_
    obtain ⟨frame, ready⟩ := prepared
    cases result with
    | error failed => exact prelaunchFailure_holds.mono fun _ _ => failing
    | ok found =>
        obtain ⟨candidate, artifact⟩ := found
        refine Holds.outcome (start_holds (ready candidate artifact rfl)) fun result past' started => ?_
        obtain ⟨more, launched, owns⟩ := started
        cases result with
        | error original => exact (afterUncertainLaunchFailure_holds launched).mono fun _ _ => failing
        | ok owner => exact attach_holds launched (owns owner rfl) ((frame.trans more).signals.trans unsent)

theorem cleanup_holds {cleanup : AppleCleanup} (leased : Leased self cleanup past) :
    Holds self.selection.deviceSelector self.selection.appId strict (cleanup.cleanup tools deadline rounds)
      (fun _ _ => True) past := by
  obtain ⟨same, launched, owns, unsent⟩ := leased
  have cancels : Holds self.selection.deviceSelector self.selection.appId strict (Attempt.request .cancelStreams id : Act Unit)
      (fun _ past' => Frame past past') past := holds_request (by simp) fun _ => (Frame.refl past).cons rfl
  refine Holds.bind cancels (fun _ past' frame => ?_) fun _ _ _ => trivial
  have stops : Holds self.selection.deviceSelector self.selection.appId strict
      (orCleanupFailed (terminateExactOwner tools .given deadline cleanup.owner rounds))
      (fun _ past'' => past' <:+ past'') past' :=
    orCleanupFailed_holds ((terminateExactOwner_holds (fun _ => owns.mono frame.suffix)
      fun _ => frame.signals.trans unsent).mono fun result _ held => by cases result <;> exact held.1)
  refine Holds.bind stops (fun _ past'' more => ?_) fun _ _ _ => trivial
  have launched := launched.mono (frame.suffix.trans more)
  have removes : Holds self.selection.deviceSelector self.selection.appId strict
      (orCleanupFailed (cleanupOwnedInstallation tools .given deadline cleanup.selection cleanup.artifact cleanup.candidate))
      (fun _ _ => True) past'' := by
    rw [same]
    exact orCleanupFailed_holds ((cleanupOwnedInstallation_holds launched.2 launched.1).mono
      fun result _ _ => by cases result <;> trivial)
  refine Holds.bind removes (fun _ past' _ => ?_) fun _ _ _ => trivial
  split
  next => exact releaseReservation_holds.mono fun _ _ _ => trivial
  next => exact holds_throw trivial

end

/-! ## Every run -/

/-- A launch, and its cleanup once it has succeeded. -/
def lease (self : ApplePendingLaunch) (tools : Tools) (encode : Wire.Bytes → Chars) (descriptor : Wire.Bytes)
    (deadline cleanupDeadline : Raw.AbsoluteDeadline) (rounds : Nat) : Act Unit := do
  let io ← self.launch tools deadline anyConnector encode rounds descriptor
  io.cleanup.cleanup tools cleanupDeadline rounds

/-- Where each signal comes after those that it must come after, there is at most one of each. -/
theorem signals_of_justified {steps : List Event} (sent : ∀ front event back signal, steps = front ++ event :: back →
      event.signal = some signal → front.filterMap Event.signal = match signal with
        | .term => []
        | .kill => [.term]) : steps.filterMap Event.signal <+: [.term, .kill] := by
  induction steps using List.reverseRecOn with
  | nil => exact List.nil_prefix
  | append_singleton steps event ih =>
      have before := ih fun front other back signal split => sent front other (back ++ [event]) signal (by simp [split])
      rw [List.filterMap_append]
      cases signals : event.signal with
      | none => simpa [signals] using before
      | some signal =>
          rw [sent steps event [] signal rfl signals, List.filterMap_cons_some signals]
          cases signal with
          | term => exact ⟨[.kill], rfl⟩
          | kill => exact List.prefix_refl _

theorem exists_signal_runs {event : Event} {signal : Signal} {command : SimctlCommand} (runs : event.Runs command)
    (sends : event.signal = some signal) : ∃ udid pid, command = .kill udid signal pid := by
  rw [signal_of_runs runs] at sends
  cases command with
  | kill udid other pid =>
      cases sends
      exact ⟨udid, pid, rfl⟩
  | _ => cases sends

/-- Every tool that a launch and its cleanup run is a command that the history justifies, the
    signals are at most one `TERM` and then at most one `KILL`, and the owner counts as stopped
    only when the last listing shows no process. -/
theorem destructive_commands_are_proven_first {self : ApplePendingLaunch} {tools : Tools} {encode : Wire.Bytes → Chars}
    {descriptor : Wire.Bytes} {deadline cleanupDeadline : Raw.AbsoluteDeadline} {rounds : Nat} {steps : List Event}
    {result : Option (Except PlatformFailure Unit)}
    (run : Run anyWorld (lease self tools encode descriptor deadline cleanupDeadline rounds).run () steps result ()) :
    (∀ front event back, steps = front ++ event :: back → event.IsTool → ∃ command, event.Runs command ∧
      Justified self.selection.deviceSelector self.selection.appId front.reverse command) ∧
    steps.filterMap Event.signal <+: [.term, .kill] ∧
    ∀ owner cancellation deadline rounds more,
      Run anyWorld (terminateExactOwner tools cancellation deadline owner rounds).run () more (some (.ok ())) () →
        ∃ front listed, more = front ++ [listed] ∧ Listed owner.udid owner.appPath [] listed := by
  have proven : Holds self.selection.deviceSelector self.selection.appId True
      (lease self tools encode descriptor deadline cleanupDeadline rounds) (fun _ _ => True) [] :=
    Holds.bind (launch_holds rfl) (fun io past leased => cleanup_holds (leased io rfl)) fun _ _ _ => trivial
  have commands (front : List Event) (event : Event) (back : List Event) (split : steps = front ++ event :: back)
      (isTool : event.IsTool) : ∃ command, event.Runs command ∧
        Justified self.selection.deviceSelector self.selection.appId front.reverse command := by
    have fine := (Script.Safe.holds proven run).1 front event back split
    rw [List.append_nil] at fine
    obtain ⟨before, request, reply, after⟩ := event
    cases request with
    | tool => exact fine trivial
    | _ => cases isTool
  refine ⟨commands, signals_of_justified fun front event back signal split sends => ?_,
    fun owner cancellation deadline rounds more stops => ?_⟩
  · have isTool : event.IsTool := by
      obtain ⟨before, request, reply, after⟩ := event
      cases request with
      | tool => trivial
      | _ => cases sends
    obtain ⟨command, runs, justified⟩ := commands front event back split isTool
    obtain ⟨udid, pid, rfl⟩ := exists_signal_runs runs sends
    obtain ⟨owner, -, -, -, -, sent⟩ := justified
    rw [List.filterMap_reverse, List.reverse_eq_iff] at sent
    cases signal with
    | term => exact sent
    | kill => exact sent
  · have stopped : Holds self.selection.deviceSelector self.selection.appId False
        (terminateExactOwner tools cancellation deadline owner rounds) (fun result past' => [] <:+ past' ∧
          (result = .ok () → Gone owner past')) [] := terminateExactOwner_holds nofun nofun
    obtain ⟨-, gone⟩ := (Script.Safe.holds stopped stops).2 _ rfl
    obtain ⟨listed, older, same, isListed⟩ := gone rfl
    rw [List.append_nil, List.reverse_eq_iff, List.reverse_cons] at same
    exact ⟨older.reverse, listed, same, isListed⟩

/-! ## One run -/

def exampleUdid : Chars := "12345678-1234-1234-1234-123456789ABC".toList

def exampleSelection : TargetSelection :=
  { platform := .iosSimulator, deviceSelector := exampleUdid, appId := "dev.app".toList
    artifactPath := "/x.app".toList, artifactDigest := [] }

def examplePending : ApplePendingLaunch :=
  { endpoint := .iosLoopback 50000, selection := exampleSelection
    reservation := some { port := 50000, target := some (.fromSelection exampleSelection) }, failure := none }

def exampleDevices : JsonText :=
  .object [("devices", .object [("iOS", .array [.object [("udid", .string (String.ofList exampleUdid)),
    ("state", .string "Booted"), ("isAvailable", .word "true".toList)]])])]

def exampleTools : Tools := { program := "/usr/bin/xcrun".toList, strictJson := fun _ => some exampleDevices }

theorem exampleDeadline_nonzero : 1000 ≠ 0 := by decide

theorem exampleDeadline_small : 1000 < 2 ^ 64 := by decide

def exampleDeadline : Raw.AbsoluteDeadline :=
  { value := 1000, nonzero := exampleDeadline_nonzero, small := exampleDeadline_small }

def printedText (text : String) : Except PlatformFailure ToolOutput :=
  .ok { success := true, oversized := false, stdout := some text.toList, stderr := some [] }

def exampleHelp (topic : Chars) : String :=
  if topic = "list".toList then "--json devices"
  else if topic = "launch".toList then "SIMCTL_CHILD_ <device> bundle identifier"
  else if topic = "spawn".toList then "Spawn a process"
  else if topic = "listapps".toList then "Show the installed applications"
  else if topic = "install".toList then "Install an app"
  else "Uninstall an app"

/-- What a tool prints while the app is installed, and while process 7 of it runs. -/
def exampleOutput (installed running : Bool) (arguments : List Chars) : Except PlatformFailure ToolOutput :=
  match arguments with
  | [_, command, topic] =>
      if command = "help".toList then printedText (exampleHelp topic)
      else printedText (if installed then "\x7b \"dev.app\" = \"\"; \x7d" else "\x7b \x7d")
  | [_, command, _, _] => printedText (if command = "launch".toList then "dev.app: 7\n" else "\n")
  | [_, command, _, _, _] => printedText (if command = "list".toList then "devices" else "/c/x.app\n")
  | [_, _, _, command, _, _] => printedText (if command = "/bin/kill".toList then "\n"
      else if running then "1 launchd\n7 /c/x.app/x\n" else "1 launchd\n")
  | _ => .error (failure .rejected)

/-- The app is there from the install to its removal, and its process until it is killed. -/
def exampleAnswer (n : Nat) (_ : Unit) (q : Request) : q.Reply × Unit :=
  match q with
  | .cancelled _ => (false, ())
  | .now => (some (if n < 38 then 0 else 300), ())
  | .prepare .. => (.ok { snapshotPath := "/s.app".toList, digest := [], executable := "x".toList }, ())
  | .tool _ arguments _ _ _ _ => (exampleOutput (11 < n ∧ n < 49) (18 < n ∧ n < 40) arguments, ())
  | .directory path => (some path, ())
  | .identity .. => (.ok { startSeconds := 1, startMicroseconds := 2 }, ())
  | .connect .. => (.ok { sourcePort := 60000 }, ())
  | .bindListener | .bindSource => (none, ())
  | .reserve .. => (none, ())
  | .dropSource _ => ((), ())
  | .assertSnapshotUnchanged .. | .verifyInstalled .. | .connectSource .. | .wrap | .cancelStreams | .release _
  | .newSource _ => (.ok (), ())

/-- An app that is installed for its launch, ignores `TERM`, is killed and removed. -/
theorem stubborn_app_is_stopped_and_removed : ∃ steps result,
    Run anyWorld (lease examplePending exampleTools (fun _ => []) [] exampleDeadline exampleDeadline 5).run () steps result () ∧
    steps.filterMap Event.signal = [.term, .kill] ∧
    ∀ (front : List Event) (event : Event) back, steps = front ++ event :: back → event.IsTool → ∃ command,
      event.Runs command ∧ Justified exampleUdid "dev.app".toList front.reverse command := by
  have run := Script.run_follow exampleAnswer (fun n d q => show anyWorld d q _ _ from trivial) 0 ()
    (lease examplePending exampleTools (fun _ => []) [] exampleDeadline exampleDeadline 5).run
  exact ⟨_, _, run, by decide +kernel, (destructive_commands_are_proven_first run).1⟩

end AppPilotKit.Adapter.Apple
