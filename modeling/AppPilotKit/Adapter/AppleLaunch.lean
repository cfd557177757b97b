import AppPilotKit.Adapter.AppleDevice

/-! # What a launch leaves behind on the Simulator

Once `simctl launch` has been issued, a launch that fails puts everything back or says that it
could not. Before that there is one way to strand an app: to fail between its install and the
launch.
-/

namespace AppPilotKit.Adapter.Apple

open Scripts

/-- The steps of a run on the device. -/
abbrev Past := List (Step Request Request.Reply Device)

/-- How an attempt ends on the device, after which steps. -/
def Ends (container appId : Chars) {α : Type} (m : Act α) (post : Except PlatformFailure α → Device → Past → Prop)
    (d : Device) (past : Past) : Prop :=
  Attempt.Ensures (world container appId) (fun _ _ _ => True) m post d past

namespace Stage

/-- What a failing answer makes of a stage. -/
def failed : Stage → Stage
  | installed => stranded
  | stage => stage

/-- What the outcome of an answer makes of a stage. -/
def outcome {α : Type} (stage : Stage) : Except PlatformFailure α → Stage
  | .ok _ => stage
  | .error _ => stage.failed

end Stage

section
variable {container appId : Chars} {α β : Type} {m : Act α} {next : α → Act β} {d : Device} {past : Past}

theorem ends_pure {value : α} {post : Except PlatformFailure α → Device → Past → Prop} (held : post (.ok value) d past) :
    Ends container appId (pure value : Act α) post d past := held

theorem ends_throw {failed : PlatformFailure} {post : Except PlatformFailure α → Device → Past → Prop}
    (held : post (.error failed) d past) : Ends container appId (throw failed : Act α) post d past := held

theorem Ends.mono {post post' : Except PlatformFailure α → Device → Past → Prop} (ends : Ends container appId m post d past)
    (weaker : ∀ result d past, post result d past → post' result d past) : Ends container appId m post' d past :=
  Attempt.Ensures.mono ends weaker

theorem Ends.bind {mid : Except PlatformFailure α → Device → Past → Prop}
    {post : Except PlatformFailure β → Device → Past → Prop} (first : Ends container appId m mid d past)
    (ends : ∀ value d past, mid (.ok value) d past → Ends container appId (next value) post d past)
    (fails : ∀ failed d past, mid (.error failed) d past → post (.error failed) d past) :
    Ends container appId (m >>= next) post d past :=
  Attempt.Ensures.bind first ends fails

/-- Both outcomes of the first part go on. -/
theorem Ends.outcome {mid : Except PlatformFailure α → Device → Past → Prop} {next : Except PlatformFailure α → Act β}
    {post : Except PlatformFailure β → Device → Past → Prop} (first : Ends container appId m mid d past)
    (goes : ∀ result d past, mid result d past → Ends container appId (next result) post d past) :
    Ends container appId (m.outcome >>= next) post d past :=
  Attempt.ensures_bind.2 (Attempt.ensures_outcome.2 (Attempt.Ensures.mono first goes))

theorem orCleanupFailed_ends {post : Except PlatformFailure α → Device → Past → Prop}
    (ends : Ends container appId m (fun result d past => match result with
      | .ok value => post (.ok value) d past
      | .error _ => post (.error (failure .cleanupFailed)) d past) d past) :
    Ends container appId (orCleanupFailed m) post d past := by
  refine Ends.outcome ends fun result e past held => ?_
  cases result with
  | ok value => exact ends_pure held
  | error failed => exact ends_throw held

end

/-! ## Single requests -/

theorem Device.Idle.refl (d : Device) : d.Idle d := ⟨rfl, fun _ there => there, rfl⟩

theorem Device.Idle.trans {d e f : Device} (first : d.Idle e) (second : e.Idle f) : d.Idle f :=
  ⟨second.installed.trans first.installed, fun _ there => first.processes (second.processes there),
    second.ledger.trans first.ledger⟩

section
variable {container : Chars} {tools : Tools} {cancellation : Cancellation} {deadline : Raw.AbsoluteDeadline}
  {selection : TargetSelection} {artifact : PreparedLaunchArtifact} {d : Device} {past : Past}

/-- The requests that neither the device nor the ledger hears of. -/
def Request.Elsewhere : Request → Prop
  | .tool .. | .directory _ | .reserve .. | .release _ | .newSource _ | .dropSource _ | .assertSnapshotUnchanged .. => False
  | _ => True

theorem elsewhere_ends {appId : Chars} {α : Type} {q : Request} {reads : q.Reply → Except PlatformFailure α}
    (elsewhere : q.Elsewhere) : Ends container appId (Attempt.request q reads) (fun _ d' past' => d.Idle d' ∧
      Stage.after container appId past' = Stage.after container appId past) d past := by
  refine Attempt.ensures_request.2 ⟨trivial, fun reply d' may => ?_⟩
  cases q with
  | cancelled | now | prepare | verifyInstalled | identity | connect | bindListener | bindSource | connectSource | wrap
  | cancelStreams =>
      refine ⟨may, ?_⟩
      simp only [Stage.after, List.foldr_cons]
      cases past.foldr (Stage.next container appId) .before <;> rfl
  | tool | directory | reserve | release | newSource | dropSource | assertSnapshotUnchanged => cases elsewhere

/-- A command that asks changes nothing, and what it says is so. -/
theorem ask_ends {appId : Chars} {α : Type} {command : SimctlCommand} {reads : ToolOutput → Except PlatformFailure α}
    (asks : ∀ d d', command.Effect d d' → d' = d) : Ends container appId
      (runSuccess tools cancellation deadline command reads) (fun result d' past' => d.Idle d' ∧
        ∃ reply : Except PlatformFailure ToolOutput, result = (successful reply >>= reads) ∧
          (∀ output, successful reply = .ok output → command.Truthful container appId output d') ∧
          Stage.after container appId past' = Stage.next container appId
            ⟨d, .tool tools.program command.arguments none toolOutputCap cancellation deadline, reply, d'⟩
            (Stage.after container appId past)) d past := by
  refine Attempt.ensures_request.2 ⟨trivial, fun reply d' may => ?_⟩
  obtain ⟨mid, other, idle, same, answers⟩ := may
  obtain rfl := SimctlCommand.arguments_injective same
  have unchanged : d' = mid := by
    rcases answers.otherwise with same | effect
    · exact same
    · exact asks mid d' effect
  exact ⟨unchanged ▸ idle, reply, rfl, fun output ok => (answers.works output ok).2, rfl⟩

/-- A command that only asks, and whose answer strands nobody. -/
theorem quiet_ends {appId : Chars} {α : Type} {command : SimctlCommand} {reads : ToolOutput → Except PlatformFailure α}
    (asks : ∀ d d', command.Effect d d' → d' = d)
    (quiet : ∀ d reply d', Stage.next container appId
      ⟨d, .tool tools.program command.arguments none toolOutputCap cancellation deadline, reply, d'⟩ = id) :
    Ends container appId (runSuccess tools cancellation deadline command reads) (fun _ d' past' => d.Idle d' ∧
      Stage.after container appId past' = Stage.after container appId past) d past :=
  (ask_ends asks).mono fun _ _ _ asked => by
    obtain ⟨idle, reply, -, -, stage⟩ := asked
    exact ⟨idle, stage.trans (congrFun (quiet _ reply _) _)⟩

/-- How an answer that may strand the launch changes the stage. -/
theorem next_of_outcome {appId : Chars} {α : Type} {step : Step Request Request.Reply Device}
    {result : Except PlatformFailure α} {stage : Stage} (installs : Stage.installs step = false)
    (launches : Stage.launches step = false) (fails : Stage.fails container appId step = result.toOption.isNone) :
    Stage.next container appId step stage = stage.outcome result := by
  cases result with
  | ok value => cases stage <;> simp_all [Stage.next, Stage.outcome, Except.toOption]
  | error failed => cases stage <;> simp_all [Stage.next, Stage.outcome, Stage.failed, Except.toOption]

theorem installedAppPresent_ends : Ends container selection.appId
    (installedAppPresent tools cancellation deadline selection) (fun result d' past' => d.Idle d' ∧
      (∀ present, result = .ok present → present = d'.installed) ∧
      Stage.after container selection.appId past' = (Stage.after container selection.appId past).outcome result) d past :=
  (ask_ends fun _ _ => id).mono fun result d' past' asked => by
    obtain ⟨idle, reply, rfl, truthful, stage⟩ := asked
    refine ⟨idle, fun present ok => ?_, stage.trans (next_of_outcome rfl rfl ?_)⟩
    · cases output : successful reply with
      | error failed => rw [output] at ok; cases ok
      | ok output' => exact truthful output' output present (by rw [output] at ok; exact ok)
    · simp [Stage.fails, SimctlCommand.arguments]

theorem matchingProcesses_ends : Ends container selection.appId
    (matchingProcesses tools cancellation deadline selection.deviceSelector container) (fun result d' past' => d.Idle d' ∧
      (result = .ok [] → d'.processes = []) ∧
      Stage.after container selection.appId past' = (Stage.after container selection.appId past).outcome result) d past :=
  (ask_ends fun _ _ => id).mono fun result d' past' asked => by
    obtain ⟨idle, reply, rfl, truthful, stage⟩ := asked
    refine ⟨idle, fun ok => ?_, stage.trans (next_of_outcome rfl rfl ?_)⟩
    · cases output : successful reply with
      | error failed => rw [output] at ok; cases ok
      | ok output' =>
          rw [output] at ok
          have listed := truthful output' output [] ok
          rw [List.eq_nil_iff_forall_not_mem]
          exact fun process there => List.not_mem_nil ((listed process.pid).2 ⟨process, there, rfl⟩)
    · simp [Stage.fails, SimctlCommand.arguments]

theorem installedAppPath_ends : Ends container selection.appId
    (installedAppPath tools cancellation deadline selection) (fun result d' past' => d.Idle d' ∧
      (∀ path, result = .ok path → path = container) ∧
      Stage.after container selection.appId past' = (Stage.after container selection.appId past).outcome result) d past := by
  refine Ends.bind (ask_ends fun _ _ => id) (fun installed e past' asked => ?_) fun failed e past' asked => ?_
  · obtain ⟨idle, reply, same, -, stage⟩ := asked
    have answered : Stage.after container selection.appId past' = Stage.after container selection.appId past :=
      stage.trans (show _ = (Stage.after container selection.appId past).outcome (Except.ok installed) from
        next_of_outcome rfl rfl (by simp [Stage.fails, SimctlCommand.arguments, ← same, Except.toOption]))
    refine Attempt.ensures_request.2 ⟨trivial, fun reply d' may => ?_⟩
    obtain ⟨still, resolves⟩ := may
    refine ⟨idle.trans still, fun path ok => ?_, ?_⟩
    · cases reply with
      | none => cases ok
      | some found =>
          cases ok
          exact resolves _ rfl
    · show Stage.next container selection.appId _ (Stage.after container selection.appId past') = _
      rw [answered]
      exact next_of_outcome rfl rfl (by cases reply <;> rfl)
  · obtain ⟨idle, reply, same, -, stage⟩ := asked
    exact ⟨idle, (fun _ ok => by cases ok), stage.trans (next_of_outcome rfl rfl
      (by simp [Stage.fails, SimctlCommand.arguments, ← same, Except.toOption]))⟩

theorem assertSnapshotUnchanged_ends {appId : Chars} : Ends container appId
    (assertSnapshotUnchanged cancellation deadline artifact) (fun result d' past' => d.Idle d' ∧
      Stage.after container appId past' = (Stage.after container appId past).outcome result) d past := by
  refine Attempt.ensures_request.2 ⟨trivial, fun reply d' may => ⟨may, ?_⟩⟩
  exact next_of_outcome rfl rfl rfl

theorem verifyInstalled_ends {appId installed : Chars} : Ends container appId
    (verifyInstalled cancellation deadline artifact installed) (fun _ d' past' => d.Idle d' ∧
      Stage.after container appId past' = Stage.after container appId past) d past :=
  elsewhere_ends trivial

end

/-! ## Reservations -/

/-- The reservation is held, and the ledger without it is the one before. -/
structure ReservationLedger.Held (before : ReservationLedger) (reservation : AdapterReservation)
    (ledger : ReservationLedger) : Prop where
  port : reservation.port ∈ ledger.ports
  ports : ledger.ports.erase reservation.port = before.ports
  targets : match reservation.target with
    | none => ledger.targets = before.targets
    | some target => target ∈ ledger.targets ∧ ledger.targets.erase target = before.targets

theorem ReservationLedger.Held.release {before ledger : ReservationLedger} {reservation : AdapterReservation}
    (held : before.Held reservation ledger) :
    ∃ ledger', ledger.release reservation = (.ok (), ledger') ∧ before.Same ledger' := by
  obtain ⟨port, ports, targets⟩ := held
  obtain ⟨number, target⟩ := reservation
  cases target with
  | none =>
      refine ⟨{ ledger with ports := ledger.ports.erase number }, ?_, ports, targets⟩
      simp only [ReservationLedger.release]
      rw [if_pos port]
  | some target =>
      obtain ⟨there, rest⟩ := targets
      refine ⟨{ ledger with ports := ledger.ports.erase number, targets := ledger.targets.erase target }, ?_, ports, rest⟩
      simp only [ReservationLedger.release]
      rw [if_pos port, if_pos there]

/-- What is reserved is held. -/
theorem ReservationLedger.held_of_reserve {ledger ledger' : ReservationLedger} {port : Nat} {target : Option TargetKey}
    {reservation : AdapterReservation} {conflict : Bool}
    (reserved : (some (reservation, conflict), ledger') = ledger.reserve port target) : ledger.Held reservation ledger' := by
  unfold ReservationLedger.reserve at reserved
  split at reserved
  next => cases reserved
  next free =>
    have fresh : port ∉ ledger.ports := fun there => free (.inl there)
    have erased : (insert port ledger.ports).erase port = ledger.ports := Finset.erase_insert fresh
    cases target with
    | none =>
        cases reserved
        exact ⟨Finset.mem_insert_self _ _, erased, rfl⟩
    | some candidate =>
        dsimp only at reserved
        split at reserved
        next =>
          cases reserved
          exact ⟨Finset.mem_insert_self _ _, erased, rfl⟩
        next absent =>
          cases reserved
          exact ⟨Finset.mem_insert_self _ _, erased, Finset.mem_insert_self _ _, Finset.erase_insert absent⟩

/-! ## The parts of a launch -/

/-- Between two moments processes may have ended, and the launch is at the same stage. -/
structure Calm (container appId : Chars) (d : Device) (past : Past) (d' : Device) (past' : Past) : Prop where
  idle : d.Idle d'
  stage : Stage.after container appId past' = Stage.after container appId past

theorem Calm.trans {container appId : Chars} {d e f : Device} {past past' past'' : Past}
    (first : Calm container appId d past e past') (second : Calm container appId e past' f past'') :
    Calm container appId d past f past'' :=
  ⟨first.idle.trans second.idle, second.stage.trans first.stage⟩

section
variable {container : Chars} {tools : Tools} {cancellation : Cancellation} {deadline : Raw.AbsoluteDeadline}
  {selection : TargetSelection} {artifact : PreparedLaunchArtifact} {candidate : LaunchCandidate} {d : Device} {past : Past}

theorem releaseReservation_ends {appId : Chars} {before : ReservationLedger} {reservation : AdapterReservation}
    (held : before.Held reservation d.ledger) : Ends container appId (releaseReservation (some reservation))
      (fun result d' past' => result = .ok () ∧ d'.installed = d.installed ∧ d'.processes ⊆ d.processes ∧
        before.Same d'.ledger ∧ Stage.after container appId past' = Stage.after container appId past) d past := by
  refine Attempt.ensures_request.2 ⟨trivial, fun reply d' may => ?_⟩
  obtain ⟨idle, same⟩ := may
  obtain ⟨ledger', released, rest⟩ := held.release
  rw [released] at same
  cases same
  refine ⟨rfl, idle.installed, idle.processes, rest, ?_⟩
  simp only [Stage.after, List.foldr_cons]
  cases past.foldr (Stage.next container appId) .before <;> rfl

/-- Before `simctl launch`, a failure that does not speak of the cleanup has changed nothing or has
    stranded the app. -/
def Unready (container appId : Chars) (d : Device) (failed : PlatformFailure) (d' : Device) (past' : Past) : Prop :=
  failed.kind ≠ .cleanupFailed →
    Stage.after container appId past' = .before ∧ d'.installed = d.installed ∨
    Stage.after container appId past' = .stranded ∧ d.installed = false ∧ d'.installed = true

/-- The app is there, and it is known whether the launch has installed it. -/
structure Present (container appId : Chars) (d : Device) (byLease : Bool) (d' : Device) (past' : Past) : Prop where
  installed : d'.installed = true
  known : byLease = !d.installed
  stage : Stage.after container appId past' = if byLease then .installed else .before

theorem Present.calm {appId : Chars} {byLease : Bool} {e f : Device} {past' past'' : Past}
    (present : Present container appId d byLease e past') (calm : Calm container appId e past' f past'') :
    Present container appId d byLease f past'' :=
  ⟨calm.idle.installed.trans present.installed, present.known, calm.stage.trans present.stage⟩

/-- A failing answer strands what the launch has installed. -/
theorem Present.unready {appId : Chars} {byLease : Bool} {failed : PlatformFailure} {e f : Device} {past' past'' : Past}
    (present : Present container appId d byLease e past') (idle : e.Idle f)
    (stage : Stage.after container appId past'' = (Stage.after container appId past').failed) :
    Unready container appId d failed f past'' := by
  intro _
  rw [present.stage] at stage
  have installed := idle.installed.trans present.installed
  have byLease := present.known
  cases before : d.installed with
  | false =>
      rw [before] at byLease
      subst byLease
      exact .inr ⟨stage, rfl, installed⟩
  | true =>
      rw [before] at byLease
      subst byLease
      exact .inl ⟨stage, installed⟩

theorem installIfAbsent_ends (start : Stage.after container selection.appId past = .before) :
    Ends container selection.appId (installIfAbsent tools cancellation deadline selection artifact)
      (fun result d' past' => d'.ledger = d.ledger ∧ d'.processes ⊆ d.processes ∧ match result with
        | .ok byLease => Present container selection.appId d byLease d' past'
        | .error failed => Unready container selection.appId d failed d' past') d past := by
  have unready {failed : PlatformFailure} {e : Device} {past' : Past} (idle : d.Idle e)
      (stage : Stage.after container selection.appId past' = .before) : e.ledger = d.ledger ∧ e.processes ⊆ d.processes ∧
        Unready container selection.appId d failed e past' :=
    ⟨idle.ledger, idle.processes, fun _ => .inl ⟨stage, idle.installed⟩⟩
  refine Ends.bind installedAppPresent_ends (fun present e past' asked => ?_) fun failed e past' asked => ?_
  · obtain ⟨idle, told, stage⟩ := asked
    have stage : Stage.after container selection.appId past' = .before := stage.trans start
    have told := told present rfl
    split
    next there => exact ends_pure ⟨idle.ledger, idle.processes, told ▸ there, by rw [← idle.installed, ← told, there]; rfl, stage⟩
    next absent =>
      have absent : e.installed = false := by rw [← told]; simpa using absent
      have absentBefore : d.installed = false := idle.installed ▸ absent
      refine Ends.bind assertSnapshotUnchanged_ends (fun _ f past'' checked => ?_) fun failed f past'' checked => ?_
      · obtain ⟨still, same⟩ := checked
        have stage : Stage.after container selection.appId past'' = .before := same.trans stage
        have idle := idle.trans still
        have installs : Ends container selection.appId (orCleanupFailed (runSuccess tools cancellation deadline
            (.install selection.deviceSelector artifact.snapshotPath) fun _ => .ok ()))
            (fun result d' past' => d'.ledger = d.ledger ∧ d'.processes ⊆ d.processes ∧ match result with
              | .ok _ => d'.installed = true ∧ Stage.after container selection.appId past' = .installed
              | .error failed => failed.kind = .cleanupFailed) f past'' := by
          refine orCleanupFailed_ends (Attempt.ensures_request.2 ⟨trivial, fun reply d' may => ?_⟩)
          obtain ⟨mid, other, ended, sameArguments, answers⟩ := may
          obtain rfl := SimctlCommand.arguments_injective sameArguments
          have idle := idle.trans ended
          have kept : d'.ledger = d.ledger ∧ d'.processes ⊆ d.processes := by
            rcases answers.otherwise with rfl | rfl
            · exact ⟨idle.ledger, idle.processes⟩
            · exact ⟨idle.ledger, idle.processes⟩
          cases output : successful reply with
          | error failed => exact ⟨kept.1, kept.2, rfl⟩
          | ok output' =>
              have effect : d' = { mid with installed := true } := (answers.works output' output).1
              refine ⟨kept.1, kept.2, by rw [effect], ?_⟩
              show Stage.next container selection.appId _ (Stage.after container selection.appId past'') = _
              rw [stage]
              simp [Stage.next, Stage.installs, SimctlCommand.arguments, output, Except.toOption]
        refine Ends.bind installs (fun _ g past' installed => ?_)
          fun failed g past' installed => ⟨installed.1, installed.2.1, fun other => absurd installed.2.2 other⟩
        obtain ⟨ledger, fewer, installed, stage⟩ := installed
        have present : Present container selection.appId d true g past' := ⟨installed, by rw [absentBefore]; rfl, stage⟩
        refine Ends.bind installedAppPresent_ends (fun there h past'' asked => ?_) fun failed h past'' asked => ?_
        · obtain ⟨still, -, same⟩ := asked
          split
          next => exact ends_pure ⟨still.ledger.trans ledger, fun _ there => fewer (still.processes there), present.calm ⟨still, same⟩⟩
          next => exact ends_throw ⟨still.ledger.trans ledger, fun _ there => fewer (still.processes there), fun other => absurd rfl other⟩
        · obtain ⟨still, -, same⟩ := asked
          exact ⟨still.ledger.trans ledger, fun _ there => fewer (still.processes there), present.unready still same⟩
      · obtain ⟨still, same⟩ := checked
        exact unready (idle.trans still) (same.trans (by rw [stage]; rfl))
  · obtain ⟨idle, -, stage⟩ := asked
    exact unready idle (stage.trans (by rw [start]; rfl))

/-- A launch is ready: the app is there, and nothing of it runs. -/
structure Prepared (container appId : Chars) (d : Device) (candidate : LaunchCandidate) (d' : Device) (past' : Past) :
    Prop where
  present : Present container appId d candidate.installedByLease d' past'
  path : candidate.appPath = container
  stopped : d'.processes = []

/-- What comes before `simctl launch` leaves the ledger alone, and processes only end. -/
def Preparing (container appId : Chars) (d : Device) {α : Type} (ready : α → Device → Past → Prop)
    (result : Except PlatformFailure α) (d' : Device) (past' : Past) : Prop :=
  d'.ledger = d.ledger ∧ d'.processes ⊆ d.processes ∧ match result with
    | .ok value => ready value d' past'
    | .error failed => Unready container appId d failed d' past'

theorem verifyExactCandidate_ends (start : Stage.after container selection.appId past = .before) :
    Ends container selection.appId (verifyExactCandidate tools cancellation deadline selection artifact)
      (Preparing container selection.appId d (Prepared container selection.appId d)) d past := by
  have listed : Ends container selection.appId (runSuccess tools cancellation deadline (.list selection.deviceSelector)
      fun output => verifyDeviceJson tools.strictJson output.stdout selection.deviceSelector)
      (fun _ d' past' => d.Idle d' ∧
        Stage.after container selection.appId past' = Stage.after container selection.appId past) d past :=
    quiet_ends (fun _ _ => id) fun _ reply _ => by
      funext stage
      cases stage <;> simp [Stage.next, Stage.installs, Stage.launches, Stage.fails, SimctlCommand.arguments]
  refine Ends.bind listed (fun _ e past' asked => ?_) fun failed e past' asked =>
    ⟨asked.1.ledger, asked.1.processes, fun _ => .inl ⟨asked.2.trans start, asked.1.installed⟩⟩
  obtain ⟨idle, stage⟩ := asked
  refine Ends.bind (installIfAbsent_ends (stage.trans start)) (fun byLease f past' installed => ?_)
    fun failed f past' installed => ?_
  · obtain ⟨ledger, fewer, present⟩ := installed
    have present : Present container selection.appId d byLease f past' := ⟨present.installed, idle.installed ▸ present.known, present.stage⟩
    have ledger := ledger.trans idle.ledger
    have fewer : f.processes ⊆ d.processes := fun _ there => idle.processes (fewer there)
    refine Ends.bind installedAppPath_ends (fun installed g past'' resolved => ?_) fun failed g past'' resolved => ?_
    · obtain ⟨still, resolves, same⟩ := resolved
      obtain rfl : installed = container := resolves installed rfl
      have present := present.calm ⟨still, same⟩
      have ledger := still.ledger.trans ledger
      have fewer : g.processes ⊆ d.processes := fun _ there => fewer (still.processes there)
      refine Ends.outcome verifyInstalled_ends fun result h past' checked => ?_
      have present := present.calm ⟨checked.1, checked.2⟩
      have ledger := checked.1.ledger.trans ledger
      have fewer : h.processes ⊆ d.processes := fun _ there => fewer (checked.1.processes there)
      have refused : Preparing installed selection.appId d (Prepared installed selection.appId d)
          (.error (failure (if byLease then .cleanupFailed else .rejected))) h past' := by
        refine ⟨ledger, fewer, fun other => ?_⟩
        have known := present.known
        cases byLease with
        | true => exact absurd rfl other
        | false => exact .inl ⟨present.stage, by rw [present.installed]; simpa using known.symm⟩
      cases result with
      | error failed => exact ends_throw refused
      | ok _ =>
          refine Ends.bind matchingProcesses_ends (fun processes i past'' shown => ?_) fun failed i past'' shown => ?_
          · obtain ⟨still, none, same⟩ := shown
            have present := present.calm ⟨still, same⟩
            have ledger := still.ledger.trans ledger
            have fewer : i.processes ⊆ d.processes := fun _ there => fewer (still.processes there)
            split
            next empty => exact ends_pure ⟨ledger, fewer, present, rfl, none (by rw [empty])⟩
            next =>
              refine ends_throw ⟨ledger, fewer, fun other => ?_⟩
              have known := present.known
              cases byLease with
              | true => exact absurd rfl other
              | false => exact .inl ⟨present.stage, by rw [present.installed]; simpa using known.symm⟩
          · obtain ⟨still, -, same⟩ := shown
            exact ⟨still.ledger.trans ledger, fun _ there => fewer (still.processes there), present.unready still same⟩
    · obtain ⟨still, -, same⟩ := resolved
      exact ⟨still.ledger.trans ledger, fun _ there => fewer (still.processes there), present.unready still same⟩
  · obtain ⟨ledger, fewer, unready⟩ := installed
    exact ⟨ledger.trans idle.ledger, fun _ there => idle.processes (fewer there), fun other => idle.installed ▸ unready other⟩

theorem checkCancelDeadline_ends {appId : Chars} : Ends container appId (checkCancelDeadline cancellation deadline)
    (fun _ d' past' => Calm container appId d past d' past') d past := by
  have flag : Ends container appId (Attempt.request (.cancelled cancellation) Except.ok : Act Bool)
      (fun _ d' past' => d.Idle d' ∧ Stage.after container appId past' = Stage.after container appId past) d past :=
    elsewhere_ends trivial
  have clock {e : Device} {past' : Past} : Ends container appId (remaining deadline)
      (fun _ d' past'' => Calm container appId e past' d' past'') e past' := by
    refine Ends.bind (elsewhere_ends (q := .now) trivial) (fun now f past'' read => ?_) fun _ _ _ read => ⟨read.1, read.2⟩
    split
    next => exact ends_throw ⟨read.1, read.2⟩
    next => exact ends_pure ⟨read.1, read.2⟩
  refine Ends.bind flag (fun cancelled e past' asked => ?_) fun _ _ _ asked => ⟨asked.1, asked.2⟩
  have calm : Calm container appId d past e past' := ⟨asked.1, asked.2⟩
  split
  next => exact ends_throw calm
  next => exact Ends.bind clock (fun _ _ _ more => ends_pure (calm.trans more)) fun _ _ _ more => calm.trans more

theorem featureProbe_ends : Ends container selection.appId (featureProbe tools cancellation deadline)
    (fun _ d' past' => Calm container selection.appId d past d' past') d past := by
  have helps {topic : Chars} {expected : List Chars} {d : Device} {past : Past} : Ends container selection.appId
      (helpContains tools cancellation deadline topic expected)
      (fun _ d' past' => Calm container selection.appId d past d' past') d past :=
    (quiet_ends (fun _ _ => id) fun _ reply _ => by
      funext stage
      cases stage <;> simp [Stage.next, Stage.installs, Stage.launches, Stage.fails, SimctlCommand.arguments]).mono
        fun _ _ _ asked => ⟨asked.1, asked.2⟩
  have frame {next : Unit → Act Unit} {topic : Chars} {expected : List Chars} {d : Device} {past : Past}
      (goes : ∀ d past, Ends container selection.appId (next ())
        (fun _ d' past' => Calm container selection.appId d past d' past') d past) : Ends container selection.appId
      (helpContains tools cancellation deadline topic expected >>= next)
      (fun _ d' past' => Calm container selection.appId d past d' past') d past :=
    Ends.bind helps (fun _ e past' calm => (goes e past').mono fun _ _ _ more => calm.trans more) fun _ _ _ calm => calm
  unfold featureProbe
  iterate 5 refine frame fun _ _ => ?_
  exact helps

end

/-! ## After `simctl launch` -/

section
variable {container : Chars} {tools : Tools} {cancellation : Cancellation} {deadline : Raw.AbsoluteDeadline}
  {selection : TargetSelection} {artifact : PreparedLaunchArtifact} {candidate : LaunchCandidate} {owner : TargetOwner}
  {d : Device} {past : Past}

/-- Nothing can strand a launch any more. -/
theorem Stage.outcome_launched {α : Type} {stage stage' : Stage} {result : Except PlatformFailure α}
    (same : stage' = stage.outcome result) (launched : stage = .launched) : stage' = .launched := by
  subst launched
  cases result <;> exact same

/-- The process that is stopped is one of the app of this launch. -/
structure OfLaunch (container : Chars) (selection : TargetSelection) (owner : TargetOwner) : Prop where
  udid : owner.udid = selection.deviceSelector
  path : owner.appPath = container

theorem ownerRuns_ends (known : OfLaunch container selection owner)
    (launched : Stage.after container selection.appId past = .launched) : Ends container selection.appId
      (ownerRuns tools cancellation deadline owner) (fun result d' past' => d.Idle d' ∧
        (result = .ok false → d'.processes = []) ∧ Stage.after container selection.appId past' = .launched) d past := by
  obtain ⟨udid, path⟩ := known
  unfold ownerRuns
  rw [udid, path]
  refine Ends.bind matchingProcesses_ends (fun current e past' shown => ?_) fun failed e past' shown =>
    ⟨shown.1, nofun, Stage.outcome_launched shown.2.2 launched⟩
  obtain ⟨idle, none, same⟩ := shown
  have launched := Stage.outcome_launched same launched
  split
  next empty => exact ends_pure ⟨idle, fun _ => none (by rw [empty]), launched⟩
  split
  next => exact ends_throw ⟨idle, nofun, launched⟩
  next =>
    have identifies : Ends container selection.appId (processIdentity owner.pid container) (fun _ d' past'' => e.Idle d' ∧
        Stage.after container selection.appId past'' = Stage.after container selection.appId past') e past' :=
      elsewhere_ends trivial
    refine Ends.bind identifies (fun identity f past'' read => ?_) fun failed f past'' read =>
      ⟨idle.trans read.1, nofun, read.2.trans launched⟩
    have idle := idle.trans read.1
    have launched := read.2.trans launched
    split
    next => exact ends_throw ⟨idle, nofun, launched⟩
    next => exact ends_pure ⟨idle, nofun, launched⟩

theorem sendSignal_ends {signal : Signal} : Ends container selection.appId
    (sendSignal tools cancellation deadline owner signal)
    (fun _ d' past' => Calm container selection.appId d past d' past') d past := by
  have sends : Ends container selection.appId (runSuccess tools cancellation deadline (.kill owner.udid signal owner.pid)
      fun _ => .ok ()) (fun _ d' past' => d.Idle d' ∧
        Stage.after container selection.appId past' = Stage.after container selection.appId past) d past :=
    quiet_ends (fun _ _ => id) fun _ reply _ => by
      funext stage
      cases stage <;> simp [Stage.next, Stage.installs, Stage.launches, Stage.fails, SimctlCommand.arguments]
  exact orCleanupFailed_ends (sends.mono fun result _ _ sent => by cases result <;> exact ⟨sent.1, sent.2⟩)

theorem awaitExit_ends {termDeadline rounds : Nat} {sentKill : Bool} (known : OfLaunch container selection owner)
    (launched : Stage.after container selection.appId past = .launched) : Ends container selection.appId
      (awaitExit tools cancellation deadline owner termDeadline rounds sentKill) (fun result d' past' => d.Idle d' ∧
        (result = .ok () → d'.processes = []) ∧ Stage.after container selection.appId past' = .launched) d past := by
  induction rounds generalizing d past sentKill with
  | zero => exact Attempt.ensures_cut
  | succ rounds ih =>
      refine Ends.bind (ownerRuns_ends known launched) (fun runs e past' seen => ?_) fun failed e past' seen =>
        ⟨seen.1, nofun, seen.2.2⟩
      obtain ⟨idle, stopped, launched⟩ := seen
      split
      next gone =>
        have gone : runs = false := by simpa using gone
        exact ends_pure ⟨idle, fun _ => stopped (by rw [gone]), launched⟩
      next =>
        have clock {d : Device} {past : Past} : Ends container selection.appId unixMs
            (fun _ d' past' => d.Idle d' ∧
              Stage.after container selection.appId past' = Stage.after container selection.appId past) d past :=
          elsewhere_ends trivial
        have escalates : Ends container selection.appId (if sentKill then pure true else do
            let now ← unixMs
            if now ≥ termDeadline then do
              sendSignal tools cancellation deadline owner .kill
              pure true
            else pure false : Act Bool)
            (fun _ d' past'' => Calm container selection.appId e past' d' past'') e past' := by
          split
          next => exact ends_pure ⟨.refl e, rfl⟩
          next =>
            refine Ends.bind clock (fun now f past'' read => ?_) fun _ _ _ read => ⟨read.1, read.2⟩
            have calm : Calm container selection.appId e past' f past'' := ⟨read.1, read.2⟩
            split
            next => exact Ends.bind sendSignal_ends (fun _ _ _ more => ends_pure (calm.trans more)) fun _ _ _ more => calm.trans more
            next => exact ends_pure calm
        refine Ends.bind escalates (fun sentKill f past'' calm => ?_) fun failed f past'' calm =>
          ⟨idle.trans calm.idle, nofun, calm.stage.trans launched⟩
        have idle := idle.trans calm.idle
        have launched := calm.stage.trans launched
        have left : Ends container selection.appId (remaining deadline)
            (fun _ d' past' => Calm container selection.appId f past'' d' past') f past'' := by
          refine Ends.bind clock (fun now g past' read => ?_) fun _ _ _ read => ⟨read.1, read.2⟩
          split
          next => exact ends_throw ⟨read.1, read.2⟩
          next => exact ends_pure ⟨read.1, read.2⟩
        refine Ends.outcome left fun result g past' calm => ?_
        cases result with
        | error failed => exact ends_throw ⟨idle.trans calm.idle, nofun, calm.stage.trans launched⟩
        | ok _ =>
            exact (ih (calm.stage.trans launched)).mono fun _ _ _ held => ⟨(idle.trans calm.idle).trans held.1, held.2⟩

theorem terminateExactOwner_ends {rounds : Nat} (known : OfLaunch container selection owner)
    (launched : Stage.after container selection.appId past = .launched) : Ends container selection.appId
      (terminateExactOwner tools cancellation deadline owner rounds) (fun result d' past' => d.Idle d' ∧
        (result = .ok () → d'.processes = []) ∧ Stage.after container selection.appId past' = .launched) d past := by
  refine Ends.bind (ownerRuns_ends known launched) (fun runs e past' seen => ?_) fun failed e past' seen =>
    ⟨seen.1, nofun, seen.2.2⟩
  obtain ⟨idle, stopped, launched⟩ := seen
  split
  next gone =>
    have gone : runs = false := by simpa using gone
    exact ends_pure ⟨idle, fun _ => stopped (by rw [gone]), launched⟩
  next =>
    refine Ends.bind sendSignal_ends (fun _ f past'' calm => ?_) fun failed f past'' calm =>
      ⟨idle.trans calm.idle, nofun, calm.stage.trans launched⟩
    have idle := idle.trans calm.idle
    have launched := calm.stage.trans launched
    refine Ends.bind (elsewhere_ends (q := .now) trivial) (fun now g past' read => ?_) fun failed g past' read =>
      ⟨idle.trans read.1, nofun, read.2.trans launched⟩
    exact (awaitExit_ends known (read.2.trans launched)).mono fun _ _ _ held => ⟨(idle.trans read.1).trans held.1, held.2⟩

/-- While nothing runs, the cleanup of the installation only removes the app. -/
structure Removing (container appId : Chars) (d d' : Device) (past' : Past) : Prop where
  ledger : d'.ledger = d.ledger
  stopped : d'.processes = []
  stage : Stage.after container appId past' = .launched

theorem Removing.idle {appId : Chars} {e f : Device} {past' past'' : Past} {α : Type} {result : Except PlatformFailure α}
    (removing : Removing container appId d e past') (idle : e.Idle f)
    (stage : Stage.after container appId past'' = (Stage.after container appId past').outcome result) :
    Removing container appId d f past'' :=
  ⟨idle.ledger.trans removing.ledger, List.subset_nil.1 (removing.stopped ▸ idle.processes),
    Stage.outcome_launched stage removing.stage⟩

theorem Removing.calm {appId : Chars} {e f : Device} {past' past'' : Past} (removing : Removing container appId d e past')
    (calm : Calm container appId e past' f past'') : Removing container appId d f past'' :=
  ⟨calm.idle.ledger.trans removing.ledger, List.subset_nil.1 (removing.stopped ▸ calm.idle.processes),
    calm.stage.trans removing.stage⟩

theorem cleanupOwnedInstallation_ends (present : d.installed = true) (stopped : d.processes = [])
    (launched : Stage.after container selection.appId past = .launched) (path : candidate.appPath = container) :
    Ends container selection.appId (cleanupOwnedInstallation tools cancellation deadline selection artifact candidate)
      (fun result d' past' => Removing container selection.appId d d' past' ∧
        (result = .ok () → d'.installed = !candidate.installedByLease)) d past := by
  have removing : Removing container selection.appId d d past := ⟨rfl, stopped, launched⟩
  unfold cleanupOwnedInstallation
  split
  next notOurs =>
    have notOurs : candidate.installedByLease = false := by simpa using notOurs
    exact ends_pure ⟨removing, fun _ => by rw [present, notOurs]; rfl⟩
  next ours =>
    have ours : candidate.installedByLease = true := by simpa using ours
    refine Ends.bind installedAppPresent_ends (fun there e past' asked => ?_) fun failed e past' asked =>
      ⟨removing.idle asked.1 asked.2.2, nofun⟩
    obtain ⟨idle, told, same⟩ := asked
    have removing := removing.idle idle same
    split
    next absent =>
      have told := told there rfl
      exact ends_pure ⟨removing, fun _ => by rw [← told, ours]; simpa using absent⟩
    refine Ends.bind installedAppPath_ends (fun current f past'' resolved => ?_) fun failed f past'' resolved =>
      ⟨removing.idle resolved.1 resolved.2.2, nofun⟩
    obtain ⟨idle, resolves, same⟩ := resolved
    obtain rfl : current = container := resolves current rfl
    have removing := removing.idle idle same
    split
    next => exact ends_throw ⟨removing, nofun⟩
    refine Ends.outcome verifyInstalled_ends fun result g past' checked => ?_
    have removing := removing.calm ⟨checked.1, checked.2⟩
    cases result with
    | error failed => exact ends_throw ⟨removing, nofun⟩
    | ok _ =>
        refine Ends.bind matchingProcesses_ends (fun processes h past'' shown => ?_) fun failed h past'' shown =>
          ⟨removing.idle shown.1 shown.2.2, nofun⟩
        have removing := removing.idle shown.1 shown.2.2
        split
        next => exact ends_throw ⟨removing, nofun⟩
        have uninstalls : Ends current selection.appId (orCleanupFailed (runSuccess tools cancellation deadline
            (.uninstall selection.deviceSelector selection.appId) fun _ => .ok ()))
            (fun _ d' past' => Removing current selection.appId d d' past') h past'' := by
          refine orCleanupFailed_ends (Attempt.ensures_request.2 ⟨trivial, fun reply d' may => ?_⟩)
          obtain ⟨mid, other, idle, sameArguments, answers⟩ := may
          obtain rfl := SimctlCommand.arguments_injective sameArguments
          have removed : Removing current selection.appId d d' (⟨h, .tool tools.program
              (SimctlCommand.uninstall selection.deviceSelector selection.appId).arguments none toolOutputCap cancellation
              deadline, reply, d'⟩ :: past'') := by
            have quiet : Removing current selection.appId d mid past'' := removing.calm ⟨idle, rfl⟩
            refine ⟨?_, ?_, ?_⟩
            · rcases answers.otherwise with rfl | rfl <;> exact quiet.ledger
            · rcases answers.otherwise with rfl | rfl <;> exact quiet.stopped
            · show Stage.next current selection.appId _ (Stage.after current selection.appId past'') = _
              rw [removing.stage]
              rfl
          split
          next => exact removed
          next => exact removed
        refine Ends.bind uninstalls (fun _ i past' removing => ?_) fun failed i past' removing => ⟨removing, nofun⟩
        refine Ends.bind installedAppPresent_ends (fun there j past'' asked => ?_) fun failed j past'' asked =>
          ⟨removing.idle asked.1 asked.2.2, nofun⟩
        obtain ⟨idle, told, same⟩ := asked
        have removing := removing.idle idle same
        split
        next => exact ends_throw ⟨removing, nofun⟩
        next absent =>
          have told := told there rfl
          exact ends_pure ⟨removing, fun _ => by rw [← told, ours]; simpa using absent⟩

end

end AppPilotKit.Adapter.Apple
