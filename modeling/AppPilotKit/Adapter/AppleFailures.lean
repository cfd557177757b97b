import AppPilotKit.Adapter.AppleGuards
import AppPilotKit.Adapter.AppleLaunch

/-! # Failed launches on the Simulator

A launch that fails puts the app and its reservation back, unless it was stranded between its
install and `simctl launch`; and the cleanup of one that succeeds puts them back as well.
-/

namespace AppPilotKit.Adapter.Apple

open Scripts

section
variable {container appId : Chars} {α β : Type} {d e f : Device} {past past' past'' : Past}

/-! ## What keeps the app and the reservations -/

theorem ReservationLedger.Same.refl (ledger : ReservationLedger) : ledger.Same ledger := ⟨rfl, rfl⟩

theorem ReservationLedger.Same.trans {first second third : ReservationLedger} (one : first.Same second)
    (other : second.Same third) : first.Same third :=
  ⟨other.ports.trans one.ports, other.targets.trans one.targets⟩

theorem ReservationLedger.same_newSource (ledger : ReservationLedger) (port : Nat) :
    ledger.Same (ledger.newSource port).2 := by
  unfold ReservationLedger.newSource
  split <;> exact ⟨rfl, rfl⟩

theorem ReservationLedger.same_dropSource (ledger : ReservationLedger) (port : Nat) :
    ledger.Same (ledger.dropSource port) := by
  unfold ReservationLedger.dropSource
  split
  · exact .refl ledger
  · split <;> exact ⟨rfl, rfl⟩

/-- The app is installed as before, no process is new, and no reservation is made or released. -/
structure Kept (container appId : Chars) (d : Device) (past : Past) (d' : Device) (past' : Past) : Prop where
  installed : d'.installed = d.installed
  processes : d'.processes ⊆ d.processes
  ledger : d.ledger.Same d'.ledger
  stage : Stage.after container appId past' = Stage.after container appId past

theorem Kept.refl (d : Device) (past : Past) : Kept container appId d past d past :=
  ⟨rfl, fun _ there => there, .refl _, rfl⟩

theorem Kept.trans (first : Kept container appId d past e past') (second : Kept container appId e past' f past'') :
    Kept container appId d past f past'' :=
  ⟨second.installed.trans first.installed, fun _ there => first.processes (second.processes there),
    first.ledger.trans second.ledger, second.stage.trans first.stage⟩

theorem Device.Idle.kept (idle : d.Idle e) (stage : Stage.after container appId past' = Stage.after container appId past) :
    Kept container appId d past e past' :=
  ⟨idle.installed, idle.processes, ⟨congrArg _ idle.ledger, congrArg _ idle.ledger⟩, stage⟩

/-- An attempt that keeps them wherever it begins. -/
def Keeps (container appId : Chars) (m : Act α) : Prop :=
  ∀ d past, Ends container appId m (fun _ d' past' => Kept container appId d past d' past') d past

theorem keeps_pure {value : α} : Keeps container appId (pure value : Act α) := fun d past => Kept.refl d past

theorem keeps_throw {failed : PlatformFailure} : Keeps container appId (throw failed : Act α) :=
  fun d past => Kept.refl d past

theorem Keeps.bind {m : Act α} {next : α → Act β} (first : Keeps container appId m)
    (goes : ∀ value, Keeps container appId (next value)) : Keeps container appId (m >>= next) := fun d past =>
  Ends.bind (first d past) (fun value e past' kept => (goes value e past').mono fun _ _ _ more => kept.trans more)
    fun _ _ _ kept => kept

theorem Keeps.outcome {m : Act α} (keeps : Keeps container appId m) : Keeps container appId m.outcome := fun d past =>
  Attempt.ensures_outcome.2 (keeps d past)

theorem keeps_elsewhere {q : Request} {reads : q.Reply → Except PlatformFailure α} (elsewhere : q.Elsewhere) :
    Keeps container appId (Attempt.request q reads) := fun _ _ =>
  (elsewhere_ends elsewhere).mono fun _ _ _ asked => asked.1.kept asked.2

theorem keeps_newSource {port : Nat} : Keeps container appId (Attempt.request (.newSource port) id : Act Unit) := by
  refine fun d past => Attempt.ensures_request.2 ⟨trivial, fun reply d' may => ?_⟩
  obtain ⟨idle, same⟩ := may
  refine ⟨idle.installed, idle.processes, ?_, ?_⟩
  · rw [show d'.ledger = (d.ledger.newSource port).2 from congrArg Prod.snd same]
    exact d.ledger.same_newSource port
  · simp only [Stage.after, List.foldr_cons]
    cases past.foldr (Stage.next container appId) .before <;> rfl

theorem dropSource_ends {port : Nat} : Ends container appId (Attempt.request (.dropSource port) Except.ok : Act Unit)
    (fun result d' past' => result = .ok () ∧ Kept container appId d past d' past') d past := by
  refine Attempt.ensures_request.2 ⟨trivial, fun reply d' may => ?_⟩
  obtain ⟨idle, same⟩ := may
  refine ⟨rfl, idle.installed, idle.processes, ?_, ?_⟩
  · rw [same]
    exact d.ledger.same_dropSource port
  · simp only [Stage.after, List.foldr_cons]
    cases past.foldr (Stage.next container appId) .before <;> rfl

theorem keeps_dropSource {port : Nat} : Keeps container appId (Attempt.request (.dropSource port) Except.ok : Act Unit) :=
  fun _ _ => dropSource_ends.mono fun _ _ _ dropped => dropped.2

theorem keeps_remaining {deadline : Raw.AbsoluteDeadline} : Keeps container appId (remaining deadline) := by
  refine Keeps.bind (keeps_elsewhere (q := .now) trivial) fun now => ?_
  split
  · exact keeps_throw
  · exact keeps_pure

theorem keeps_checkCancelDeadline {cancellation : Cancellation} {deadline : Raw.AbsoluteDeadline} :
    Keeps container appId (checkCancelDeadline cancellation deadline) := fun _ _ =>
  checkCancelDeadline_ends.mono fun _ _ _ calm => calm.idle.kept calm.stage

theorem keeps_connectOnce {cancellation : Cancellation} {deadline : Raw.AbsoluteDeadline} :
    Keeps container appId (connectOnceWithReservedSource cancellation deadline) := by
  refine Keeps.bind (keeps_elsewhere (q := .bindSource) trivial) fun port => ?_
  refine Keeps.bind keeps_newSource fun _ => ?_
  refine Keeps.bind (Keeps.outcome (keeps_elsewhere (q := .connectSource ..) trivial)) fun connected => ?_
  cases connected with
  | ok _ => exact keeps_pure
  | error failed => exact Keeps.bind keeps_dropSource fun _ => keeps_throw

theorem keeps_connectRounds {cancellation : Cancellation} {deadline : Raw.AbsoluteDeadline} (rounds : Nat) :
    Keeps container appId (connectRounds cancellation deadline rounds) := by
  induction rounds with
  | zero => exact fun _ _ => Attempt.ensures_cut
  | succ rounds ih =>
      refine Keeps.bind keeps_checkCancelDeadline fun _ => Keeps.bind keeps_connectOnce.outcome fun connected => ?_
      cases connected with
      | ok connection => exact keeps_pure
      | error failed =>
          dsimp only
          split
          · exact ih
          · exact keeps_throw

theorem keeps_connectReservedLoopback {rounds port : Nat} {cancellation : Cancellation}
    {deadline : Raw.AbsoluteDeadline} :
    Keeps container appId (connectReservedLoopback rounds port cancellation deadline) := by
  unfold connectReservedLoopback
  split
  · exact keeps_throw
  · exact keeps_connectRounds rounds

theorem keeps_tcpRawDuplex {connection : ConnectedLoopback} : Keeps container appId (tcpRawDuplex connection) := by
  refine Keeps.bind (Keeps.outcome (keeps_elsewhere (q := .wrap) trivial)) fun wrapped => ?_
  cases wrapped with
  | ok _ => exact keeps_pure
  | error failed => exact Keeps.bind keeps_dropSource fun _ => keeps_throw

end

/-! ## The reservation of a launch -/

/-- What a launch holds of the ledger, compared with the one before. -/
def ReservationLedger.Holds (before : ReservationLedger) (reservation : Option AdapterReservation)
    (ledger : ReservationLedger) : Prop :=
  match reservation with
  | none => before.Same ledger
  | some reservation => before.Held reservation ledger

theorem ReservationLedger.Held.same {before ledger ledger' : ReservationLedger} {reservation : AdapterReservation}
    (held : before.Held reservation ledger) (same : ledger.Same ledger') : before.Held reservation ledger' := by
  obtain ⟨port, ports, targets⟩ := held
  refine ⟨same.ports ▸ port, same.ports ▸ ports, ?_⟩
  rw [same.targets]
  exact targets

section
variable {container appId : Chars} {d : Device} {past : Past}

/-- What begins a launch changes nothing of the app; what it reserves is held. -/
structure Reserving (container appId : Chars) (d : Device) (past : Past) (reservation : Option AdapterReservation)
    (d' : Device) (past' : Past) : Prop where
  installed : d'.installed = d.installed
  processes : d'.processes ⊆ d.processes
  ledger : d.ledger.Holds reservation d'.ledger
  stage : Stage.after container appId past' = Stage.after container appId past

theorem Kept.reserving {e f : Device} {past' past'' : Past} {reservation : Option AdapterReservation}
    (kept : Kept container appId d past e past') (reserving : Reserving container appId e past' reservation f past'') :
    Reserving container appId d past reservation f past'' := by
  refine ⟨reserving.installed.trans kept.installed, fun _ there => kept.processes (reserving.processes there), ?_,
    reserving.stage.trans kept.stage⟩
  cases reservation with
  | none => exact kept.ledger.trans reserving.ledger
  | some reservation =>
      have held : e.ledger.Held reservation f.ledger := reserving.ledger
      refine ⟨held.port, held.ports.trans kept.ledger.ports, ?_⟩
      have targets := held.targets
      cases named : reservation.target with
      | none =>
          rw [named] at targets
          exact targets.trans kept.ledger.targets
      | some target =>
          rw [named] at targets
          exact ⟨targets.1, targets.2.trans kept.ledger.targets⟩

/-- The reservation of an outcome of `reserve_dynamic_loopback`. -/
def reservationOf : Except PlatformFailure Reserved → Option AdapterReservation
  | .ok (_, reservation, _) => some reservation
  | .error _ => none

theorem reserveRounds_ends {target : Option TargetKey} (rounds : Nat) : ∀ d past,
    Ends container appId (reserveRounds target rounds) (fun result d' past' =>
      Reserving container appId d past (reservationOf result) d' past' ∧
      ∀ reserved, result = .ok reserved → ∃ port, reserved.1 = .iosLoopback port) d past := by
  induction rounds with
  | zero => exact fun d past => ends_throw ⟨⟨rfl, fun _ there => there, .refl _, rfl⟩, nofun⟩
  | succ rounds ih =>
      intro d past
      refine Ends.bind (keeps_elsewhere (q := .bindListener) trivial d past) (fun port e past' kept => ?_)
        fun failed e past' kept => ⟨⟨kept.installed, kept.processes, kept.ledger, kept.stage⟩, nofun⟩
      cases made : Raw.LaunchEndpoint.newIosLoopback port with
      | error _ =>
          dsimp only
          exact (ih e past').mono fun result f past'' held => ⟨kept.reserving held.1, held.2⟩
      | ok endpoint =>
          dsimp only
          have asked : Ends container appId (Attempt.request (.reserve port target) Except.ok :
              Act (Option (AdapterReservation × Bool))) (fun result d' past' =>
                ∃ reserved, result = .ok reserved ∧ Reserving container appId d past (reserved.map Prod.fst) d' past')
                e past' := by
            refine Attempt.ensures_request.2 ⟨trivial, fun reply f may => ⟨reply, rfl, kept.reserving ?_⟩⟩
            obtain ⟨idle, same⟩ := may
            refine ⟨idle.installed, idle.processes, ?_, ?_⟩
            · cases reply with
              | some reserved => exact ReservationLedger.held_of_reserve same
              | none =>
                  have unchanged : f.ledger = e.ledger := by
                    unfold ReservationLedger.reserve at same
                    split at same
                    next => exact congrArg Prod.snd same
                    next =>
                      cases target with
                      | none => cases congrArg Prod.fst same
                      | some candidate =>
                          dsimp only at same
                          split at same <;> cases congrArg Prod.fst same
                  rw [unchanged]
                  exact .refl e.ledger
            · simp only [Stage.after, List.foldr_cons]
              cases past'.foldr (Stage.next container appId) .before <;> rfl
          refine Ends.bind asked (fun reserved f past'' held => ?_) fun failed f past'' held => ?_
          · obtain ⟨_, ⟨⟩, reserving⟩ := held
            cases reserved with
            | none => exact (ih f past'').mono fun result g past''' held =>
                ⟨Kept.reserving ⟨reserving.installed, reserving.processes, reserving.ledger, reserving.stage⟩ held.1, held.2⟩
            | some reserved =>
                refine ends_pure ⟨reserving, ?_⟩
                rintro _ ⟨⟩
                unfold Raw.LaunchEndpoint.newIosLoopback at made
                split at made
                · cases made
                  exact ⟨port, rfl⟩
                · cases made
          · obtain ⟨_, ⟨⟩, -⟩ := held

/-- A launch that has begun: it has its reservation, or says why not. -/
structure Begun (container : Chars) (d : Device) (past : Past) (selection : TargetSelection) (pending : ApplePendingLaunch)
    (d' : Device) (past' : Past) : Prop where
  reserving : Reserving container selection.appId d past pending.reservation d' past'
  selected : pending.selection = selection
  endpoint : ∃ port, pending.endpoint = .iosLoopback port
  unreserved : pending.reservation = none → pending.failure ≠ none

theorem beginLaunch_ends {selection : TargetSelection} {deadline : Raw.AbsoluteDeadline} :
    Ends container selection.appId (beginLaunch selection deadline) (fun result d' past' =>
      ∃ self, result = .ok self ∧ Begun container d past selection self d' past') d past := by
  have reserves (target : Option TargetKey) : Ends container selection.appId (reserveDynamicLoopback target deadline)
      (fun result d' past' => Reserving container selection.appId d past (reservationOf result) d' past' ∧
        ∀ reserved, result = .ok reserved → ∃ port, reserved.1 = .iosLoopback port) d past :=
    Ends.bind (keeps_remaining d past)
      (fun _ e past' kept => (reserveRounds_ends 1024 e past').mono fun _ _ _ held => ⟨kept.reserving held.1, held.2⟩)
      fun _ _ _ kept => ⟨⟨kept.installed, kept.processes, kept.ledger, kept.stage⟩, nofun⟩
  refine Ends.outcome (reserves _) fun result e past' held => ?_
  cases result with
  | ok reserved =>
      obtain ⟨endpoint, reservation, conflict⟩ := reserved
      exact ends_pure ⟨_, rfl, held.1, rfl, held.2 _ rfl, nofun⟩
  | error failed => exact ends_pure ⟨_, rfl, held.1, rfl, ⟨49152, rfl⟩, fun _ => nofun⟩

end

/-! ## From the preparation to the cleanup -/

section
variable {container : Chars} {self : ApplePendingLaunch} {tools : Tools} {deadline : Raw.AbsoluteDeadline}
  {candidate : LaunchCandidate} {artifact : PreparedLaunchArtifact} {owner : TargetOwner} {before : ReservationLedger}
  {reservation : AdapterReservation} {d : Device} {past : Past}

theorem prepare_ends {descriptor : Wire.Bytes} (start : Stage.after container self.selection.appId past = .before) :
    Ends container self.selection.appId (self.prepare tools deadline descriptor)
      (Preparing container self.selection.appId d fun ready => Prepared container self.selection.appId d ready.1)
      d past := by
  have unready {failed : PlatformFailure} {e : Device} {past' : Past}
      (calm : Calm container self.selection.appId d past e past') :
      Preparing container self.selection.appId d
        (fun ready : LaunchCandidate × PreparedLaunchArtifact => Prepared container self.selection.appId d ready.1)
        (.error failed) e past' :=
    ⟨calm.idle.ledger, calm.idle.processes, fun _ => .inl ⟨calm.stage.trans start, calm.idle.installed⟩⟩
  refine Ends.bind checkCancelDeadline_ends (fun _ e past' calm => ?_) fun _ _ _ calm => unready calm
  split
  next => exact ends_throw (unready calm)
  next =>
    have snapshots : Ends container self.selection.appId (Attempt.request (.prepare self.selection .given deadline) id :
        Act PreparedLaunchArtifact) (fun _ d' past' => Calm container self.selection.appId d past d' past') e past' :=
      (elsewhere_ends (q := .prepare self.selection .given deadline) trivial).mono fun _ _ _ asked =>
        calm.trans ⟨asked.1, asked.2⟩
    refine Ends.bind snapshots (fun artifact f past'' calm => ?_) fun _ _ _ calm => unready calm
    refine Ends.bind featureProbe_ends (fun _ g past' probed => ?_) fun _ _ _ probed => unready (calm.trans probed)
    have calm := calm.trans probed
    refine Ends.bind (verifyExactCandidate_ends (calm.stage.trans start)) (fun candidate h past'' verified => ?_)
      fun failed h past'' verified => ?_
    · obtain ⟨ledger, fewer, present, path, stopped⟩ := verified
      have ledger := ledger.trans calm.idle.ledger
      have present : Present container self.selection.appId d candidate.installedByLease h past'' :=
        ⟨present.installed, calm.idle.installed ▸ present.known, present.stage⟩
      refine Ends.bind assertSnapshotUnchanged_ends (fun _ i past' checked => ends_pure ?_) fun failed i past' checked => ?_
      · have stopped : i.processes = [] := List.subset_nil.1 (stopped ▸ checked.1.processes)
        exact ⟨checked.1.ledger.trans ledger, fun _ there => calm.idle.processes (fewer (checked.1.processes there)),
          present.calm ⟨checked.1, checked.2⟩, path, stopped⟩
      · exact ⟨checked.1.ledger.trans ledger, fun _ there => calm.idle.processes (fewer (checked.1.processes there)),
          present.unready checked.1 checked.2⟩
    · obtain ⟨ledger, fewer, unready⟩ := verified
      exact ⟨ledger.trans calm.idle.ledger, fun _ there => calm.idle.processes (fewer there),
        fun other => calm.idle.installed ▸ unready other⟩

/-- `simctl launch` has been issued: the app is there, and the reservation is held. -/
structure Started (container appId : Chars) (before : ReservationLedger) (reservation : AdapterReservation) (d' : Device)
    (past' : Past) : Prop where
  installed : d'.installed = true
  held : before.Held reservation d'.ledger
  stage : Stage.after container appId past' = .launched

theorem Started.kept {appId : Chars} {e f : Device} {past' past'' : Past}
    (started : Started container appId before reservation e past') (kept : Kept container appId e past' f past'') :
    Started container appId before reservation f past'' :=
  ⟨kept.installed.trans started.installed, started.held.same kept.ledger, kept.stage.trans started.stage⟩

theorem Started.idle {appId : Chars} {e f : Device} {past' past'' : Past}
    (started : Started container appId before reservation e past') (idle : e.Idle f)
    (stage : Stage.after container appId past'' = .launched) : Started container appId before reservation f past'' :=
  started.kept (idle.kept (stage.trans started.stage.symm))

theorem start_ends {encoded : Chars} (held : before.Held reservation d.ledger) (installed : d.installed = true)
    (ready : Stage.after container self.selection.appId past = if candidate.installedByLease then .installed else .before)
    (path : candidate.appPath = container) :
    Ends container self.selection.appId (self.start tools deadline encoded candidate) (fun result d' past' =>
      Started container self.selection.appId before reservation d' past' ∧
      ∀ owner, result = .ok owner → OfLaunch container self.selection owner) d past := by
  have launches : Ends container self.selection.appId (Attempt.request
      (.tool tools.program (SimctlCommand.launch self.selection.deviceSelector self.selection.appId).arguments
        (some encoded) launchOutputCap .given deadline)
      (fun reply => successful reply >>= fun output => parseLaunchPid output.stdout self.selection.appId) : Act Nat)
      (fun _ d' past' => Started container self.selection.appId before reservation d' past') d past := by
    refine Attempt.ensures_request.2 ⟨trivial, fun reply d' may => ?_⟩
    obtain ⟨mid, other, idle, same, answers⟩ := may
    obtain rfl := SimctlCommand.arguments_injective same
    have kept : d'.installed = mid.installed ∧ d'.ledger = mid.ledger := by
      rcases answers.otherwise with rfl | ⟨pid, rfl⟩ | ⟨-, rfl⟩ <;> exact ⟨rfl, rfl⟩
    refine ⟨kept.1.trans (idle.installed.trans installed), by rw [kept.2, idle.ledger]; exact held, ?_⟩
    show Stage.next container self.selection.appId _ (Stage.after container self.selection.appId past) = _
    rw [ready]
    cases candidate.installedByLease <;> simp [Stage.next, Stage.installs, Stage.launches, SimctlCommand.arguments]
  refine Ends.bind launches (fun pid e past' started => ?_) fun _ _ _ started => ⟨started, fun _ ok => by cases ok⟩
  unfold proveExactOwner
  rw [path]
  refine Ends.bind matchingProcesses_ends (fun processes f past'' shown => ?_) fun _ _ _ shown =>
    ⟨started.idle shown.1 (Stage.outcome_launched shown.2.2 started.stage), fun _ ok => by cases ok⟩
  have started := started.idle shown.1 (Stage.outcome_launched shown.2.2 started.stage)
  split
  next =>
    have identifies : Ends container self.selection.appId (processIdentity pid container) (fun _ d' past' => f.Idle d' ∧
        Stage.after container self.selection.appId past' = Stage.after container self.selection.appId past'') f past'' :=
      elsewhere_ends trivial
    refine Ends.bind identifies (fun identity g past' read => ends_pure ⟨started.kept (read.1.kept read.2), ?_⟩)
      fun _ _ _ read => ⟨started.kept (read.1.kept read.2), fun _ ok => by cases ok⟩
    rintro _ ⟨⟩
    exact ⟨rfl, rfl⟩
  next => exact ends_throw ⟨started, fun _ ok => by cases ok⟩

/-- The launch has been undone. -/
structure Undone (before : ReservationLedger) (candidate : LaunchCandidate) (d' : Device) : Prop where
  stopped : d'.processes = []
  installed : d'.installed = !candidate.installedByLease
  ledger : before.Same d'.ledger

/-- A failure that does not speak of the cleanup has undone the launch. -/
def Reverting (container appId : Chars) (before : ReservationLedger) (candidate : LaunchCandidate) {α : Type}
    (result : Except PlatformFailure α) (d' : Device) (past' : Past) : Prop :=
  Stage.after container appId past' = .launched ∧
    ∃ failed, result = .error failed ∧ (failed.kind ≠ .cleanupFailed → Undone before candidate d')

/-- The clean-up of a failure, once it works, has undone the launch. -/
theorem reverting_of_cleanup {α : Type} {appId : Chars} {m : Act Unit} {original : PlatformFailure}
    (cleans : Ends container appId m (fun result d' past' => Stage.after container appId past' = .launched ∧
      (result = .ok () → Undone before candidate d')) d past) :
    Ends container appId (do orCleanupFailed m; throw original : Act α) (Reverting container appId before candidate)
      d past := by
  have ends : Ends container appId (orCleanupFailed m) (fun result d' past' => Stage.after container appId past' = .launched ∧
      match result with
      | .ok _ => Undone before candidate d'
      | .error failed => failed.kind = .cleanupFailed) d past :=
    orCleanupFailed_ends (cleans.mono fun result _ _ held => by
      cases result with
      | ok _ => exact ⟨held.1, held.2 rfl⟩
      | error _ => exact ⟨held.1, rfl⟩)
  exact Ends.bind ends (fun _ e past' held => ends_throw ⟨held.1, original, rfl, fun _ => held.2⟩)
    fun failed e past' held => ⟨held.1, failed, rfl, fun other => absurd held.2 other⟩

theorem removes_ends {selection : TargetSelection} {cancellation : Cancellation} (path : candidate.appPath = container)
    (started : Started container selection.appId before reservation d past) (stopped : d.processes = []) :
    Ends container selection.appId (do
        cleanupOwnedInstallation tools cancellation deadline selection artifact candidate
        releaseReservation (some reservation)) (fun result d' past' =>
      Stage.after container selection.appId past' = .launched ∧ (result = .ok () → Undone before candidate d')) d past := by
  refine Ends.bind (cleanupOwnedInstallation_ends started.installed stopped started.stage path)
    (fun _ e past' removed => ?_) fun _ _ _ removed => ⟨removed.1.stage, nofun⟩
  obtain ⟨removing, installed⟩ := removed
  have held : before.Held reservation e.ledger := by
    rw [removing.ledger]
    exact started.held
  refine (releaseReservation_ends held).mono fun result f past'' released => ?_
  obtain ⟨-, kept, fewer, same, stage⟩ := released
  exact ⟨stage.trans removing.stage, fun _ =>
    ⟨List.subset_nil.1 (removing.stopped ▸ fewer), kept.trans (installed rfl), same⟩⟩

theorem keeps_cleanupDeadline {appId : Chars} : Keeps container appId cleanupDeadline :=
  keeps_elsewhere trivial

theorem afterUncertainLaunchFailure_ends {α : Type} {original : PlatformFailure} (path : candidate.appPath = container)
    (reserved : self.reservation = some reservation)
    (started : Started container self.selection.appId before reservation d past) :
    Ends container self.selection.appId (self.afterUncertainLaunchFailure tools candidate artifact original : Act α)
      (Reverting container self.selection.appId before candidate) d past := by
  refine reverting_of_cleanup (Ends.bind (keeps_cleanupDeadline d past) (fun deadline e past' kept => ?_)
    fun _ _ _ kept => ⟨(started.kept kept).stage, nofun⟩)
  have started := started.kept kept
  rw [path]
  refine Ends.bind matchingProcesses_ends (fun processes f past'' shown => ?_) fun _ _ _ shown =>
    ⟨Stage.outcome_launched shown.2.2 started.stage, nofun⟩
  have started := started.idle shown.1 (Stage.outcome_launched shown.2.2 started.stage)
  split
  next empty =>
    rw [reserved]
    exact removes_ends path started (shown.2.1 (by rw [empty]))
  next => exact ends_throw ⟨started.stage, nofun⟩

theorem cleanAfterOwnedLaunchFailure_ends {α : Type} {original : PlatformFailure} {rounds : Nat}
    (path : candidate.appPath = container) (reserved : self.reservation = some reservation)
    (known : OfLaunch container self.selection owner)
    (started : Started container self.selection.appId before reservation d past) :
    Ends container self.selection.appId
      (self.cleanAfterOwnedLaunchFailure tools rounds candidate artifact owner original : Act α)
      (Reverting container self.selection.appId before candidate) d past := by
  refine reverting_of_cleanup (Ends.bind (keeps_cleanupDeadline d past) (fun deadline e past' kept => ?_)
    fun _ _ _ kept => ⟨(started.kept kept).stage, nofun⟩)
  have started := started.kept kept
  refine Ends.bind (terminateExactOwner_ends known started.stage) (fun _ f past'' stopped => ?_) fun _ _ _ stopped =>
    ⟨stopped.2.2, nofun⟩
  rw [reserved]
  exact removes_ends path (started.idle stopped.1 stopped.2.2) (stopped.2.1 rfl)

theorem stillExact_ends {appId : Chars} (started : Started container appId before reservation d past) :
    Ends container appId (ApplePendingLaunch.stillExact deadline candidate artifact)
      (fun _ d' past' => Started container appId before reservation d' past') d past := by
  refine Ends.bind assertSnapshotUnchanged_ends (fun _ e past' checked => ?_) fun _ _ _ checked =>
    started.idle checked.1 (Stage.outcome_launched checked.2 started.stage)
  have started := started.idle checked.1 (Stage.outcome_launched checked.2 started.stage)
  exact verifyInstalled_ends.mono fun _ _ _ checked => started.kept (checked.1.kept checked.2)

end

/-! ## The launch -/

section
variable {container : Chars} {self : ApplePendingLaunch} {tools : Tools} {deadline : Raw.AbsoluteDeadline}
  {candidate : LaunchCandidate} {artifact : PreparedLaunchArtifact} {owner : TargetOwner} {before : ReservationLedger}
  {reservation : AdapterReservation} {d : Device} {past : Past}

/-- The connection of a launch that has its owner. -/
structure Connected (container : Chars) (pending : ApplePendingLaunch) (before : ReservationLedger)
    (reservation : AdapterReservation) (byLease : Bool) (io : LaunchedTargetIo) (d' : Device) (past' : Past) : Prop where
  started : Started container pending.selection.appId before reservation d' past'
  selection : io.cleanup.selection = pending.selection
  path : io.cleanup.candidate.appPath = container
  byLease : io.cleanup.candidate.installedByLease = byLease
  owner : OfLaunch container pending.selection io.cleanup.owner
  reserved : io.cleanup.reservation = some reservation

/-- How a launch goes on that may still fail. -/
def Attaching (container : Chars) (self : ApplePendingLaunch) (before : ReservationLedger)
    (reservation : AdapterReservation) (candidate : LaunchCandidate) (result : Except PlatformFailure LaunchedTargetIo)
    (d' : Device) (past' : Past) : Prop :=
  Reverting container self.selection.appId before candidate result d' past' ∨
    ∃ io, result = .ok io ∧ Connected container self before reservation candidate.installedByLease io d' past'

theorem attach_ends {connect : LoopbackConnector} {rounds : Nat}
    (connects : ∀ port, Keeps container self.selection.appId (connect port .given deadline))
    (path : candidate.appPath = container) (reserved : self.reservation = some reservation)
    (endpoint : ∃ port, self.endpoint = .iosLoopback port) (known : OfLaunch container self.selection owner)
    (started : Started container self.selection.appId before reservation d past) :
    Ends container self.selection.appId (self.attach tools deadline connect rounds candidate artifact owner)
      (Attaching container self before reservation candidate) d past := by
  have clean {α : Type} {original : PlatformFailure} {e : Device} {past' : Past}
      (started : Started container self.selection.appId before reservation e past') :
      Ends container self.selection.appId
        (self.cleanAfterOwnedLaunchFailure tools rounds candidate artifact owner original : Act α)
        (Reverting container self.selection.appId before candidate) e past' :=
    cleanAfterOwnedLaunchFailure_ends path reserved known started
  obtain ⟨port, endpoint⟩ := endpoint
  refine Ends.outcome (stillExact_ends started) fun unchanged e past' started => ?_
  cases unchanged with
  | error _ => exact (clean started).mono fun _ _ _ => .inl
  | ok _ =>
      rw [endpoint]
      refine Ends.outcome (connects port e past') fun connected f past'' kept => ?_
      have started := started.kept kept
      cases connected with
      | error original => exact (afterUncertainLaunchFailure_ends path reserved started).mono fun _ _ _ => .inl
      | ok connection =>
          refine Ends.outcome (keeps_tcpRawDuplex f past'') fun wrapped g past' kept => ?_
          have started := started.kept kept
          cases wrapped with
          | error original => exact (clean started).mono fun _ _ _ => .inl
          | ok bootstrap =>
              refine Ends.outcome (stillExact_ends started) fun unchanged h past'' started => ?_
              cases unchanged with
              | ok _ => exact ends_pure (.inr ⟨_, rfl, started, rfl, path, rfl, known, reserved⟩)
              | error _ =>
                  refine Ends.outcome (clean started) fun failed i past' failing => ?_
                  obtain ⟨stage, failure, rfl, undone⟩ := failing
                  refine Ends.bind dropSource_ends (fun _ j past'' dropped => ends_throw (.inl ?_)) fun _ _ _ dropped =>
                    nomatch dropped.1
                  have kept := dropped.2
                  refine ⟨kept.stage.trans stage, failure, rfl, fun other => ?_⟩
                  obtain ⟨stopped, installed, ledger⟩ := undone other
                  exact ⟨List.subset_nil.1 (stopped ▸ kept.processes), kept.installed.trans installed,
                    ledger.trans kept.ledger⟩

/-- Nothing that the launch has started runs, the app is installed as before, and the reservation
    is gone. -/
structure Restored (d d' : Device) : Prop where
  stopped : ∀ process ∈ d'.processes, process.launched = false
  installed : d'.installed = d.installed
  ledger : d.ledger.Same d'.ledger

theorem prelaunchFailure_ends {α : Type} {appId : Chars} {original : PlatformFailure}
    (holds : before.Holds self.reservation d.ledger) : Ends container appId (self.prelaunchFailure original : Act α)
      (fun result d' past' => d'.installed = d.installed ∧ d'.processes ⊆ d.processes ∧
        Stage.after container appId past' = Stage.after container appId past ∧
        ∃ failed, result = .error failed ∧ (failed.kind ≠ .cleanupFailed → failed = original ∧ before.Same d'.ledger))
      d past := by
  unfold ApplePendingLaunch.prelaunchFailure
  split
  next cleanup => exact ends_throw ⟨rfl, fun _ there => there, rfl, original, rfl, fun other => absurd cleanup other⟩
  next =>
    cases reserved : self.reservation with
    | none =>
        rw [reserved] at holds
        exact ends_throw ⟨rfl, fun _ there => there, rfl, original, rfl, fun _ => ⟨rfl, holds⟩⟩
    | some reservation =>
        rw [reserved] at holds
        refine Ends.outcome (releaseReservation_ends holds) fun result e past' released => ?_
        obtain ⟨rfl, installed, fewer, same, stage⟩ := released
        exact ends_throw ⟨installed, fewer, stage, original, rfl, fun _ => ⟨rfl, same⟩⟩

/-- How a launch ends. -/
def Ending (container : Chars) (self : ApplePendingLaunch) (d : Device) (result : Except PlatformFailure LaunchedTargetIo)
    (d' : Device) (past' : Past) : Prop :=
  match result with
  | .ok io => ∃ reservation, Connected container self d.ledger reservation (!d.installed) io d' past'
  | .error failed => failed.kind ≠ .cleanupFailed →
      (Restored d d' ↔ Stage.after container self.selection.appId past' ≠ .stranded)

theorem launch_ends {d₀ : Device} {begin' : Past} {selection : TargetSelection} {connect : LoopbackConnector}
    {encode : Wire.Bytes → Chars} {rounds : Nat} {descriptor : Wire.Bytes}
    (found : ∀ process ∈ d₀.processes, process.launched = false) (begun : Begun container d₀ begin' selection self d past)
    (connects : ∀ port, Keeps container self.selection.appId (connect port .given deadline)) :
    Ends container self.selection.appId (self.launch tools deadline connect encode rounds descriptor)
      (Ending container self d₀) d [] := by
  obtain ⟨⟨installed, fewer, holds, -⟩, -, endpoint, unreserved⟩ := begun
  have untouched {e : Device} (fewer' : e.processes ⊆ d.processes) : ∀ process ∈ e.processes, process.launched = false :=
    fun process there => found process (fewer (fewer' there))
  unfold ApplePendingLaunch.launch
  cases refused : self.failure with
  | some original =>
      refine (prelaunchFailure_ends holds).mono fun result e past' held => ?_
      obtain ⟨kept, fewer', stage, failed, rfl, released⟩ := held
      intro other
      refine iff_of_true ⟨untouched fewer', kept.trans installed, (released other).2⟩ ?_
      rw [stage]
      nofun
  | none =>
      cases reserved : self.reservation with
      | none => exact absurd refused (unreserved reserved)
      | some reservation =>
          have held : d₀.ledger.Held reservation d.ledger := by
            rw [reserved] at holds
            exact holds
          refine Ends.outcome (prepare_ends rfl) fun prepared e past' preparing => ?_
          obtain ⟨ledger, fewer', preparing⟩ := preparing
          cases prepared with
          | error original =>
              have holds : d₀.ledger.Holds self.reservation e.ledger := by rw [ledger]; exact holds
              refine (prelaunchFailure_ends holds).mono fun result f past'' done => ?_
              obtain ⟨kept, fewer'', stage, failed, rfl, released⟩ := done
              intro other
              obtain ⟨rfl, same⟩ := released other
              have untouched := untouched fun _ there => fewer' (fewer'' there)
              rcases preparing other with ⟨before, still⟩ | ⟨stranded, absent, present⟩
              · refine iff_of_true ⟨untouched, kept.trans (still.trans installed), same⟩ ?_
                rw [stage, before]
                nofun
              · refine iff_of_false (fun restored => ?_) (not_not.2 (stage.trans stranded))
                have same := restored.installed
                rw [kept, present, ← installed, absent] at same
                cases same
          | ok ready =>
              obtain ⟨candidate, artifact⟩ := ready
              obtain ⟨⟨present, known, stage⟩, path, stopped⟩ := preparing
              have known : candidate.installedByLease = !d₀.installed := installed ▸ known
              have restored {e : Device} (undone : Undone d₀.ledger candidate e) : Restored d₀ e := by
                refine ⟨fun process there => ?_, ?_, undone.ledger⟩
                · rw [undone.stopped] at there
                  exact absurd there List.not_mem_nil
                · rw [undone.installed, known, Bool.not_not]
              have failing {result : Except PlatformFailure LaunchedTargetIo} {f : Device} {past'' : Past}
                  (failing : Reverting container self.selection.appId d₀.ledger candidate result f past'') :
                  Ending container self d₀ result f past'' := by
                obtain ⟨stage, failed, rfl, undone⟩ := failing
                intro other
                refine iff_of_true (restored (undone other)) ?_
                rw [stage]
                nofun
              refine Ends.outcome (start_ends (ledger ▸ held) present stage path) fun started f past'' begun => ?_
              obtain ⟨started', known'⟩ := begun
              cases started with
              | error original =>
                  exact (afterUncertainLaunchFailure_ends path reserved started').mono fun _ _ _ => failing
              | ok owner =>
                  refine (attach_ends connects path reserved endpoint (known' owner rfl) started').mono
                    fun result g past' attaching => ?_
                  rcases attaching with failed | ⟨io, rfl, launched⟩
                  · exact failing failed
                  · exact ⟨reservation, known ▸ launched⟩


theorem cleanup_ends {selection : TargetSelection} {cleanup : AppleCleanup} {rounds : Nat}
    (started : Started container selection.appId before reservation d past) (selected : cleanup.selection = selection)
    (path : cleanup.candidate.appPath = container) (known : OfLaunch container selection cleanup.owner)
    (reserved : cleanup.reservation = some reservation) :
    Ends container selection.appId (cleanup.cleanup tools deadline rounds)
      (fun result d' _ => result = .ok () → Undone before cleanup.candidate d') d past := by
  refine Ends.bind (keeps_elsewhere (q := .cancelStreams) trivial d past) (fun _ e past' kept => ?_) fun _ _ _ _ => nofun
  have started := started.kept kept
  have stops : Ends container selection.appId (orCleanupFailed (terminateExactOwner tools .given deadline cleanup.owner rounds))
      (fun result d' past' => Started container selection.appId before reservation d' past' ∧
        (result = .ok () → d'.processes = [])) e past' :=
    orCleanupFailed_ends ((terminateExactOwner_ends known started.stage).mono fun result f past'' stopped => by
      cases result with
      | ok _ => exact ⟨started.idle stopped.1 stopped.2.2, stopped.2.1⟩
      | error _ => exact ⟨started.idle stopped.1 stopped.2.2, nofun⟩)
  refine Ends.bind stops (fun _ f past'' stopped => ?_) fun _ _ _ _ => nofun
  obtain ⟨started, stopped⟩ := stopped
  have removes : Ends container selection.appId (orCleanupFailed (cleanupOwnedInstallation tools .given deadline
      cleanup.selection cleanup.artifact cleanup.candidate)) (fun result d' past' =>
        Removing container selection.appId f d' past' ∧
          (result = .ok () → d'.installed = !cleanup.candidate.installedByLease)) f past'' := by
    rw [selected]
    refine orCleanupFailed_ends ((cleanupOwnedInstallation_ends started.installed (stopped rfl) started.stage path).mono
      fun result g past' removed => ?_)
    cases result with
    | ok _ => exact removed
    | error _ => exact ⟨removed.1, nofun⟩
  refine Ends.bind removes (fun _ g past' removed => ?_) fun _ _ _ _ => nofun
  obtain ⟨removing, installed⟩ := removed
  rw [reserved]
  have held : before.Held reservation g.ledger := by
    rw [removing.ledger]
    exact started.held
  refine (releaseReservation_ends held).mono fun result h past'' released _ => ?_
  obtain ⟨-, kept, fewer, same, -⟩ := released
  exact ⟨List.subset_nil.1 (removing.stopped ▸ fewer), kept.trans (installed rfl), same⟩

end

/-- A launch that fails without speaking of the cleanup leaves everything as it was, exactly if no
    listing, container or snapshot check has failed between its install and `simctl launch`. A
    cleanup that works has ended the owner and leaves the app as before the launch. -/
theorem failed_launch_restores_iff {container : Chars} {selection : TargetSelection} {tools : Tools}
    {beginDeadline deadline : Raw.AbsoluteDeadline} {encode : Wire.Bytes → Chars} {descriptor : Wire.Bytes}
    {connecting rounds : Nat} {d₀ d d' : Device} {self : ApplePendingLaunch} {first steps : Past}
    {result : Except PlatformFailure LaunchedTargetIo} (found : ∀ process ∈ d₀.processes, process.launched = false)
    (begun : Run (world container selection.appId) (beginLaunch selection beginDeadline).run d₀ first (some (.ok self)) d)
    (run : Run (world container selection.appId)
      (self.launch tools deadline (connectReservedLoopback connecting) encode rounds descriptor).run d steps (some result) d') :
    (∀ failed, result = .error failed → failed.kind ≠ .cleanupFailed →
      (Restored d₀ d' ↔ Stage.after container selection.appId steps.reverse ≠ .stranded)) ∧
    ∀ io, result = .ok io → ∀ cleanupDeadline rounds more e,
      Run (world container selection.appId) (io.cleanup.cleanup tools cleanupDeadline rounds).run d' more (some (.ok ())) e →
        e.processes = [] ∧ e.installed = d₀.installed := by
  have begins : Ends container selection.appId (beginLaunch selection beginDeadline) (fun result d' past' =>
      ∃ pending, result = .ok pending ∧ Begun container d₀ [] selection pending d' past') d₀ [] := beginLaunch_ends
  obtain ⟨pending, same, begun⟩ := (Script.Safe.holds begins begun).2 _ rfl
  cases same
  obtain rfl := begun.selected
  have ends := (Script.Safe.holds (launch_ends found begun fun _ => keeps_connectReservedLoopback) run).2 result rfl
  rw [List.append_nil] at ends
  refine ⟨fun failed error other => ?_, fun io ok cleanupDeadline rounds more e cleaned => ?_⟩
  · subst error
    exact ends other
  · subst ok
    obtain ⟨reservation, started, selected, path, byLease, known, reserved⟩ := ends
    have undone := (Script.Safe.holds (cleanup_ends started selected path known reserved) cleaned).2 _ rfl rfl
    exact ⟨undone.stopped, by rw [undone.installed, byLease, Bool.not_not]⟩

/-! ## One run -/

/-- A Simulator without the app, and what it is asked to install. -/
def exampleDevice : Device := { installed := false, processes := [], ledger := {} }

def exampleArtifact : PreparedLaunchArtifact := { snapshotPath := "/s.app".toList, digest := [], executable := "x".toList }

/-- The Simulator while the launch holds its reservation. -/
def exampleHeld (installed : Bool) : Device :=
  { installed, processes := [], ledger := (exampleDevice.ledger.reserve 50000 (some (.fromSelection exampleSelection))).2 }

abbrev exampleWorld : World Request Request.Reply Device := world "/c/x.app".toList exampleSelection.appId

section
variable {α : Type} {d : Device}

/-- Something else than a tool is asked. -/
theorem run_of_elsewhere {q : Request} {reads : q.Reply → Except PlatformFailure α} (reply : q.Reply) {value : α}
    (may : exampleWorld d q reply d) (same : reads reply = .ok value) :
    ∃ steps, Run exampleWorld (Attempt.request q reads : Act α).run d steps (some (.ok value)) d :=
  ⟨_, Attempt.run_request may same⟩

/-- A tool is run, and its output read. -/
theorem run_of_tool (command : SimctlCommand) {reads : ToolOutput → Except PlatformFailure α} (text : String) {d' : Device}
    {value : α} (works : command.Effect d d') (tells : ∀ output, printedText text = .ok output →
      command.Truthful "/c/x.app".toList exampleSelection.appId output d')
    (same : (successful (printedText text) >>= reads) = .ok value) : ∃ steps, Run exampleWorld
      (runSuccess exampleTools .given exampleDeadline command reads).run d steps (some (.ok value)) d' := by
  refine ⟨_, Attempt.run_request ⟨d, command, .refl d, rfl, fun output done => ⟨works, tells output ?_⟩, .inr works⟩ same⟩
  unfold printedText successful at done
  exact done

theorem run_seq {β : Type} {m : Act α} {next : α → Act β} {value : α} {result : Except PlatformFailure β} {d' e : Device}
    (first : ∃ steps, Run exampleWorld m.run d steps (some (.ok value)) d')
    (second : ∃ steps, Run exampleWorld (next value).run d' steps (some result) e) :
    ∃ steps, Run exampleWorld (m >>= next).run d steps (some result) e := by
  obtain ⟨steps, first⟩ := first
  obtain ⟨more, second⟩ := second
  exact ⟨_, Attempt.run_ok first second⟩

theorem run_pure {value : α} : ∃ steps, Run exampleWorld (pure value : Act α).run d steps (some (.ok value)) d :=
  ⟨_, .done _ d⟩

theorem run_clock : ∃ steps, Run exampleWorld (remaining exampleDeadline).run d steps (some (.ok 1000)) d :=
  run_seq (run_of_elsewhere (q := .now) (some 0) (.refl d) rfl) run_pure

theorem run_begin : ∃ steps, Run exampleWorld (beginLaunch exampleSelection exampleDeadline).run exampleDevice steps
    (some (.ok examplePending)) (exampleHeld false) := by
  have reserves : ∃ steps, Run exampleWorld (reserveDynamicLoopback (some (.fromSelection exampleSelection))
      exampleDeadline).run exampleDevice steps (some (.ok (.iosLoopback 50000,
        { port := 50000, target := some (.fromSelection exampleSelection) }, none))) (exampleHeld false) := by
    refine run_seq run_clock (run_seq (run_of_elsewhere (q := .bindListener) (some 50000) (.refl _) rfl) ?_)
    have reserved : ∃ steps, Run exampleWorld (Attempt.request (.reserve 50000 (some (.fromSelection exampleSelection)))
        Except.ok : Act (Option (AdapterReservation × Bool))).run exampleDevice steps (some (.ok (some
          ({ port := 50000, target := some (.fromSelection exampleSelection) }, false)))) (exampleHeld false) :=
      ⟨_, Attempt.run_request ⟨.refl _, rfl⟩ rfl⟩
    exact run_seq reserved run_pure
  obtain ⟨steps, reserves⟩ := reserves
  have valid : validateSelection exampleSelection = .ok () := by decide +kernel
  unfold beginLaunch
  rw [valid]
  exact run_seq ⟨_, Attempt.run_outcome reserves⟩ run_pure

theorem run_check : ∃ steps, Run exampleWorld (checkCancelDeadline .given exampleDeadline).run d steps (some (.ok ())) d :=
  run_seq (run_of_elsewhere (q := .cancelled .given) false (.refl d) rfl) (run_seq run_clock run_pure)

theorem run_probe : ∃ steps, Run exampleWorld (featureProbe exampleTools .given exampleDeadline).run d steps
    (some (.ok ())) d := by
  have helps (topic : String) (expected : List Chars) (text : String)
      (same : (successful (printedText text) >>= fun output => strictHelpText output >>= fun text =>
        if expected.all fun word => word <:+: text then .ok () else .error (failure .unavailable)) = .ok ()) :
      ∃ steps, Run exampleWorld (helpContains exampleTools .given exampleDeadline topic.toList expected).run d steps
        (some (.ok ())) d :=
    run_of_tool (.help topic.toList) text rfl (fun _ _ => trivial) same
  refine run_seq (helps "list" _ "--json devices" (by decide +kernel)) ?_
  refine run_seq (helps "launch" _ "SIMCTL_CHILD_ <device> bundle identifier" (by decide +kernel)) ?_
  refine run_seq (helps "spawn" _ "Spawn a process" (by decide +kernel)) ?_
  refine run_seq (helps "listapps" _ "Show the installed applications" (by decide +kernel)) ?_
  refine run_seq (helps "install" _ "Install an app" (by decide +kernel)) ?_
  exact helps "uninstall" _ "Uninstall an app" (by decide +kernel)

/-- The listing after the install does not answer in time. -/
theorem run_of_late_listing : ∃ steps, Run exampleWorld (examplePending.launch exampleTools exampleDeadline
    (connectReservedLoopback 1) (fun _ => []) 1 []).run (exampleHeld false) steps (some (.error (failure .timedOut)))
    { exampleHeld true with ledger := ((exampleHeld true).ledger.release
      { port := 50000, target := some (.fromSelection exampleSelection) }).2 } := by
  have listed : ∃ steps, Run exampleWorld (runSuccess exampleTools .given exampleDeadline (.list exampleUdid) fun output =>
      verifyDeviceJson exampleTools.strictJson output.stdout exampleUdid).run (exampleHeld false) steps (some (.ok ()))
      (exampleHeld false) :=
    run_of_tool (.list exampleUdid) "devices" rfl (fun _ _ => trivial) (by decide +kernel)
  have absent : ∃ steps, Run exampleWorld (installedAppPresent exampleTools .given exampleDeadline exampleSelection).run
      (exampleHeld false) steps (some (.ok false)) (exampleHeld false) := by
    refine run_of_tool (.listapps exampleUdid) "\x7b \x7d" rfl ?_ (by decide +kernel)
    rintro _ ⟨⟩ present read
    have told : parseListappsContains (some "\x7b \x7d".toList) exampleSelection.appId = .ok false := by decide +kernel
    rw [told] at read
    cases read
    rfl
  have unchanged : ∃ steps, Run exampleWorld (assertSnapshotUnchanged .given exampleDeadline exampleArtifact).run
      (exampleHeld false) steps (some (.ok ())) (exampleHeld false) :=
    run_of_elsewhere (q := .assertSnapshotUnchanged ..) (.ok ()) (.refl _) rfl
  have done : ∃ steps, Run exampleWorld (runSuccess exampleTools .given exampleDeadline
      (.install exampleUdid exampleArtifact.snapshotPath) fun _ => .ok ()).run (exampleHeld false) steps (some (.ok ()))
      (exampleHeld true) := run_of_tool _ "" rfl (fun _ _ => trivial) rfl
  obtain ⟨_, done⟩ := done
  have installs : ∃ steps, Run exampleWorld (orCleanupFailed (runSuccess exampleTools .given exampleDeadline
      (.install exampleUdid exampleArtifact.snapshotPath) fun _ => .ok ())).run (exampleHeld false) steps (some (.ok ()))
      (exampleHeld true) :=
    run_seq ⟨_, Attempt.run_outcome done⟩ run_pure
  have unanswered : (SimctlCommand.listapps exampleUdid).Answers "/c/x.app".toList exampleSelection.appId (exampleHeld true)
      (.error (failure .timedOut)) (exampleHeld true) := ⟨nofun, .inl rfl⟩
  have late : ∃ steps, Run exampleWorld (installedAppPresent exampleTools .given exampleDeadline exampleSelection).run
      (exampleHeld true) steps (some (.error (failure .timedOut))) (exampleHeld true) :=
    ⟨_, Attempt.run_request ⟨_, .listapps exampleUdid, .refl _, rfl, unanswered⟩ rfl⟩
  obtain ⟨_, late⟩ := late
  have verifies : ∃ steps, Run exampleWorld (verifyExactCandidate exampleTools .given exampleDeadline exampleSelection
      exampleArtifact).run (exampleHeld false) steps (some (.error (failure .timedOut))) (exampleHeld true) := by
    have present : ∃ steps, Run exampleWorld (installIfAbsent exampleTools .given exampleDeadline exampleSelection
        exampleArtifact).run (exampleHeld false) steps (some (.error (failure .timedOut))) (exampleHeld true) :=
      run_seq absent (run_seq unchanged (run_seq installs ⟨_, Attempt.run_error late⟩))
    obtain ⟨_, present⟩ := present
    exact run_seq listed ⟨_, Attempt.run_error present⟩
  obtain ⟨_, verifies⟩ := verifies
  have prepares : ∃ steps, Run exampleWorld (examplePending.prepare exampleTools exampleDeadline []).run (exampleHeld false)
      steps (some (.error (failure .timedOut))) (exampleHeld true) := by
    have snapshots : ∃ steps, Run exampleWorld (Attempt.request (.prepare exampleSelection .given exampleDeadline) id :
        Act PreparedLaunchArtifact).run (exampleHeld false) steps (some (.ok exampleArtifact)) (exampleHeld false) :=
      run_of_elsewhere (q := .prepare ..) (.ok exampleArtifact) (.refl _) rfl
    exact run_seq run_check (run_seq snapshots (run_seq run_probe ⟨_, Attempt.run_error verifies⟩))
  obtain ⟨_, prepares⟩ := prepares
  have released : ∃ steps, Run exampleWorld (releaseReservation examplePending.reservation).run (exampleHeld true) steps
      (some (.ok ())) { exampleHeld true with ledger := ((exampleHeld true).ledger.release
        { port := 50000, target := some (.fromSelection exampleSelection) }).2 } :=
    ⟨_, Attempt.run_request ⟨.refl _, rfl⟩ rfl⟩
  obtain ⟨_, released⟩ := released
  exact run_seq ⟨_, Attempt.run_outcome prepares⟩ (run_seq ⟨_, Attempt.run_outcome released⟩ ⟨_, .done _ _⟩)

end

/-- The app that the launch has installed stays after a failure that does not speak of the cleanup. -/
theorem late_listing_leaves_the_app : ∃ first steps d' failed,
    Run exampleWorld (beginLaunch exampleSelection exampleDeadline).run exampleDevice first (some (.ok examplePending))
      (exampleHeld false) ∧
    Run exampleWorld (examplePending.launch exampleTools exampleDeadline (connectReservedLoopback 1) (fun _ => []) 1 []).run
      (exampleHeld false) steps (some (.error failed)) d' ∧
    failed.kind ≠ .cleanupFailed ∧ exampleDevice.installed = false ∧ d'.installed = true := by
  obtain ⟨first, begun⟩ := run_begin
  obtain ⟨steps, run⟩ := run_of_late_listing
  exact ⟨first, steps, _, _, begun, run, by decide, rfl, rfl⟩

/-- The late listing strands the launch. -/
theorem late_listing_strands : ∃ steps d', Run exampleWorld (examplePending.launch exampleTools exampleDeadline
      (connectReservedLoopback 1) (fun _ => []) 1 []).run (exampleHeld false) steps (some (.error (failure .timedOut))) d' ∧
    Stage.after "/c/x.app".toList exampleSelection.appId steps.reverse = .stranded := by
  obtain ⟨first, begun⟩ := run_begin
  obtain ⟨steps, run⟩ := run_of_late_listing
  refine ⟨steps, _, run, Classical.byContradiction fun apart => ?_⟩
  have found : ∀ process ∈ exampleDevice.processes, process.launched = false := by
    intro process there
    cases there
  have restored := ((failed_launch_restores_iff found begun run).1 _ rfl (by decide)).2 apart
  cases restored.installed

end AppPilotKit.Adapter.Apple
