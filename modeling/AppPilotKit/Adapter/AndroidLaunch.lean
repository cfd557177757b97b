import AppPilotKit.Adapter.AndroidDevice

/-! # What a launch leaves behind on the Emulator

Past `am start`, a launch that fails stops the app and takes its forward back, or says that it
could not. It never takes away a forward of someone else.
-/

namespace AppPilotKit.Adapter.Android

open Scripts
open AdbClient (localOf remoteOf)

/-! ## Reading back -/

/-- The port of a forward is read from its local side. -/
theorem parseLocalPort_localOf {port : Nat} (positive : 0 < port) (small : port < 2 ^ 16) :
    parseLocalPort (localOf port) = .ok port := by
  have rest : stripPrefix "tcp:".toList (localOf port) = some (Nat.toDigits 10 port) := by
    simp [stripPrefix, localOf]
  unfold parseLocalPort
  rw [rest]
  simp [parseU16, parseUnsigned_toDigits small, Option.filter, Nat.pos_iff_ne_zero.1 positive]

section
variable {own : ForwardEntry → Prop} {client : AdbClient} {d : Device} {cancellation : Cancellation}
  {deadline : Raw.AbsoluteDeadline} {localabstract : Chars}

theorem reads_ok {α : Type} {reply : Except PlatformFailure ProcessOutput} {reads : Chars → Except PlatformFailure α}
    {value : α} (ok : (printed reply >>= reads) = .ok value) :
    ∃ text, printed reply = .ok text ∧ reads text = .ok value := by
  cases got : printed reply with
  | error failed => rw [got] at ok; cases ok
  | ok text => exact ⟨text, rfl, by rw [got] at ok; exact ok⟩

/-! ## Single commands -/

/-- A command that only asks. -/
theorem query_leaves {α : Type} {command : AdbCommand} {reads : Chars → Except PlatformFailure α}
    (asks : ∀ d d', command.Effect client.serial d d' ↔ d' = d)
    (other : ∀ component descriptor, command ≠ .start component descriptor)
    (keeps : ∀ localSpec, command ≠ .forwardRemove localSpec) :
    Leaves own (client.run command cancellation deadline reads) (fun _ d' => d' = d) d :=
  leaves_run other (fun localSpec same => absurd same (keeps localSpec)) fun reply d' answers => by
    rcases answers.otherwise with same | effect
    · exact same
    · exact (asks d d').1 effect

theorem forwardList_leaves : Leaves own (client.forwardList cancellation deadline)
    (fun result d' => d' = d ∧ ∀ entries, result = .ok entries → ∀ entry, entry ∈ entries ↔ entry ∈ d.forwards) d :=
  leaves_run (by simp) (by simp) fun reply d' answers => by
    refine ⟨?_, fun entries ok => ?_⟩
    · rcases answers.otherwise with same | effect
      · exact same
      · exact effect
    · obtain ⟨text, prints, reads⟩ := reads_ok ok
      exact answers.truthful text prints ⟨entries, reads⟩ entries reads

theorem forceStop_leaves {package : Chars} : Leaves own (client.forceStop package deadline)
    (fun result d' => d'.forwards = d.forwards ∧ (result = .ok () → d'.processes = [])) d :=
  leaves_run (by simp) (by simp) fun reply d' answers => by
    refine ⟨?_, fun ok => ?_⟩
    · rcases answers.otherwise with same | effect
      · rw [same]
      · rw [effect]
    · obtain ⟨text, prints, reads⟩ := reads_ok ok
      have effect : d' = { d with processes := [] } := answers.works ⟨text, prints, reads⟩
      rw [effect]

/-- The forward that a launch makes. -/
def AdbClient.forwardTo (client : AdbClient) (localabstract : Chars) (port : Nat) : ForwardEntry :=
  { serial := client.serial, localSpec := localOf port, remote := remoteOf localabstract }

/-- The forward is there, or it may be there. -/
theorem createForward_leaves : Leaves own (client.createForward localabstract cancellation deadline)
    (fun result d' => d'.processes = d.processes ∧
      match result with
      | .ok port => d'.forwards = d.forwards ++ [client.forwardTo localabstract port]
      | .error _ => d'.forwards = d.forwards ∨ ∃ port, 0 < port ∧ port < 2 ^ 16 ∧
          d'.forwards = d.forwards ++ [client.forwardTo localabstract port]) d :=
  leaves_run (by simp) (by simp) fun reply d' answers => by
    have kept : d'.processes = d.processes := by
      rcases answers.otherwise with same | ⟨port, -, -, same⟩ <;> rw [same]
    refine ⟨kept, ?_⟩
    cases result : printed reply >>= parsePort with
    | ok port =>
        obtain ⟨text, prints, reads⟩ := reads_ok result
        have told := answers.truthful text prints ⟨port, reads⟩ port reads
        show d'.forwards = _
        rw [told]
        rfl
    | error failed =>
        rcases answers.otherwise with same | ⟨port, positive, small, same⟩
        · exact .inl (by rw [same])
        · exact .inr ⟨port, positive, small, by rw [same]; rfl⟩

theorem mem_localEntries {port : Nat} {entries : List ForwardEntry} {entry : ForwardEntry} :
    entry ∈ client.localEntries port entries ↔
      entry ∈ entries ∧ entry.serial = client.serial ∧ entry.localSpec = localOf port := by
  simp [AdbClient.localEntries]

theorem mem_remoteEntries {entries : List ForwardEntry} {entry : ForwardEntry} :
    entry ∈ client.remoteEntries localabstract entries ↔
      entry ∈ entries ∧ entry.serial = client.serial ∧ entry.remote = remoteOf localabstract := by
  simp [AdbClient.remoteEntries]

/-! ## Taking a forward back -/

/-- Nothing but the one forward is gone. -/
structure Dropped (client : AdbClient) (localabstract : Chars) (port : Nat) (d d' : Device) : Prop where
  processes : d'.processes = d.processes
  less : ∀ entry ∈ d'.forwards, entry ∈ d.forwards
  kept : ∀ entry ∈ d.forwards, entry ∈ d'.forwards ∨ entry = client.forwardTo localabstract port

theorem Dropped.refl {port : Nat} : Dropped client localabstract port d d :=
  ⟨rfl, fun _ there => there, fun _ there => .inl there⟩

theorem removeExact_leaves {port : Nat}
    (allowed : client.forwardTo localabstract port ∈ d.forwards → own (client.forwardTo localabstract port)) :
    Leaves own (client.removeExactWithCancellation port localabstract cancellation deadline)
      (fun result d' => Dropped client localabstract port d d' ∧ (result = .ok () →
        ∀ entry ∈ d'.forwards, entry.serial = client.serial → entry.localSpec ≠ localOf port)) d := by
  refine Leaves.bind forwardList_leaves (fun entries e listed => ?_)
    fun failed e listed => ⟨listed.1 ▸ .refl, fun ok => by cases ok⟩
  obtain ⟨rfl, told⟩ := listed
  have told := told entries rfl
  have found : ∀ entry ∈ e.forwards, entry.serial = client.serial → entry.localSpec = localOf port →
      entry ∈ client.localEntries port entries := fun entry there ofSerial ofLocal =>
    mem_localEntries.2 ⟨(told entry).2 there, ofSerial, ofLocal⟩
  split
  next none =>
    refine leaves_pure ⟨.refl, fun _ entry there ofSerial ofLocal => ?_⟩
    have := found entry there ofSerial ofLocal
    rw [none] at this
    cases this
  next entry one =>
    have there : entry ∈ client.localEntries port entries := by rw [one]; exact List.mem_singleton_self entry
    obtain ⟨listed, ofSerial, ofLocal⟩ := mem_localEntries.1 there
    split
    next ofRemote =>
      have isExact : entry = client.forwardTo localabstract port := by
        cases entry
        simp_all [AdbClient.forwardTo]
      have only : ∀ other ∈ e.forwards, other.serial = client.serial → other.localSpec = localOf port →
          other = client.forwardTo localabstract port := fun other there ofSerial ofLocal => by
        have := found other there ofSerial ofLocal
        rw [one] at this
        rw [List.mem_singleton.1 this, isExact]
      have removed : Leaves own (client.run (.forwardRemove (localOf port)) cancellation deadline (requireExactLine · []))
          (fun _ f => Dropped client localabstract port e f) e := by
        refine leaves_run (by simp) (fun localSpec same other there ofSerial ofLocal => ?_) fun reply f answers => ?_
        · cases same
          obtain rfl := only other there ofSerial ofLocal
          exact allowed there
        · rcases answers.otherwise with rfl | effect
          · exact .refl
          · obtain rfl : f = _ := effect
            refine ⟨rfl, fun other there => (List.mem_filter.1 there).1, fun other there => ?_⟩
            by_cases named : other.serial = client.serial ∧ other.localSpec = localOf port
            · exact .inr (only other there named.1 named.2)
            · exact .inl (List.mem_filter.2 ⟨there, decide_eq_true named⟩)
      refine Leaves.bind removed (fun _ f dropped => ?_) fun failed f dropped => ⟨dropped, fun ok => by cases ok⟩
      refine Leaves.bind forwardList_leaves (fun after g listed => ?_)
        fun failed g listed => ⟨listed.1 ▸ dropped, fun ok => by cases ok⟩
      obtain ⟨rfl, told⟩ := listed
      split
      next none =>
        refine leaves_pure ⟨dropped, fun _ other there ofSerial ofLocal => ?_⟩
        have : other ∈ client.localEntries port after := mem_localEntries.2 ⟨(told after rfl other).2 there, ofSerial, ofLocal⟩
        rw [none] at this
        cases this
      next => exact leaves_throw ⟨dropped, fun ok => by cases ok⟩
    next => exact leaves_throw ⟨.refl, fun ok => by cases ok⟩
  next => exact leaves_throw ⟨.refl, fun ok => by cases ok⟩

/-- The forward is one of this name. -/
def AdbClient.Named (client : AdbClient) (localabstract : Chars) (entry : ForwardEntry) : Prop :=
  entry.serial = client.serial ∧ entry.remote = remoteOf localabstract

/-- There is no forward of this name. -/
def AdbClient.Unnamed (client : AdbClient) (localabstract : Chars) (forwards : List ForwardEntry) : Prop :=
  ∀ entry ∈ forwards, ¬ client.Named localabstract entry

theorem removeByRemote_leaves
    (made : ∀ entry ∈ d.forwards, client.Named localabstract entry →
      ∃ port, 0 < port ∧ port < 2 ^ 16 ∧ entry = client.forwardTo localabstract port ∧ own entry) :
    Leaves own (client.removeByRemote localabstract deadline)
      (fun result d' => (∀ entry ∈ d.forwards, entry ∈ d'.forwards ∨ client.Named localabstract entry) ∧
        (result = .ok () → client.Unnamed localabstract d'.forwards)) d := by
  have stays : ∀ entry ∈ d.forwards, entry ∈ d.forwards ∨ client.Named localabstract entry := fun _ there => .inl there
  refine Leaves.bind forwardList_leaves (fun entries e listed => ?_)
    fun failed e listed => ⟨listed.1 ▸ stays, fun ok => by cases ok⟩
  obtain ⟨rfl, told⟩ := listed
  have found : ∀ entry ∈ e.forwards, client.Named localabstract entry →
      entry ∈ client.remoteEntries localabstract entries := fun entry there named =>
    mem_remoteEntries.2 ⟨(told entries rfl entry).2 there, named⟩
  split
  next none =>
    refine leaves_pure ⟨stays, fun _ entry there named => ?_⟩
    have := found entry there named
    rw [none] at this
    cases this
  next entry more one =>
    have there : entry ∈ client.remoteEntries localabstract entries := by rw [one]; exact List.mem_cons_self
    obtain ⟨listed, named⟩ := mem_remoteEntries.1 there
    obtain ⟨port, positive, small, isExact, owned⟩ := made entry ((told entries rfl entry).1 listed) named
    have reads : parseLocalPort entry.localSpec = .ok port := by
      rw [isExact]
      exact parseLocalPort_localOf positive small
    rw [reads]
    change Leaves own (if more = [] then client.removeExact port localabstract deadline else _) _ e
    split
    next alone =>
      refine (removeExact_leaves fun _ => isExact ▸ owned).mono fun result f dropped =>
        ⟨fun other there => ?_, fun ok other inside named => ?_⟩
      · rcases dropped.1.kept other there with kept | rfl
        · exact .inl kept
        · exact .inr ⟨rfl, rfl⟩
      · have only := found other (dropped.1.less other inside) named
        rw [one, alone] at only
        obtain rfl := List.mem_singleton.1 only
        exact dropped.2 ok other inside named.1 (by rw [isExact]; rfl)
    next => exact leaves_throw ⟨stays, fun ok => by cases ok⟩

/-! ## The rollback -/

theorem rollbackAfterStarted_leaves {α : Type} {original : PlatformFailure} {package : Chars}
    {removeForward : Raw.AbsoluteDeadline → Act Unit} (kept gone : List ForwardEntry → Prop)
    (removes : ∀ deadline, Leaves own (removeForward deadline)
      (fun result d' => kept d'.forwards ∧ (result = .ok () → gone d'.forwards)) d)
    (unchanged : kept d.forwards) :
    Leaves own (rollbackAfterStarted original client package removeForward : Act α)
      (fun result d' => kept d'.forwards ∧ ∃ failed, result = .error failed ∧
        (failed.kind ≠ .cleanupFailed → d'.processes = [] ∧ gone d'.forwards)) d := by
  have clock : Leaves own rollbackDeadline (fun _ d' => d' = d) d := leaves_request (by simp) fun _ => rfl
  unfold rollbackAfterStarted rollbackAfter
  refine Leaves.outcome (?_ : Leaves own _ (fun (result : Except PlatformFailure Unit) d' => kept d'.forwards ∧
    (result = .ok () → d'.processes = [] ∧ gone d'.forwards)) d) fun result e held => ?_
  · refine Leaves.bind clock (fun deadline e same => ?_) fun failed e same => ⟨same ▸ unchanged, fun ok => by cases ok⟩
    obtain rfl := same
    refine Leaves.outcome (removes deadline) fun forward f removed => ?_
    refine Leaves.outcome forceStop_leaves fun stopped g stops => ?_
    have same := stops.1
    rw [← same] at removed
    cases forward with
    | error failed => exact leaves_throw ⟨removed.1, fun ok => by cases ok⟩
    | ok _ =>
        cases stopped with
        | error failed => exact leaves_throw ⟨removed.1, fun ok => by cases ok⟩
        | ok _ => exact leaves_pure ⟨removed.1, fun _ => ⟨stops.2 rfl, removed.2 rfl⟩⟩
  · cases result with
    | ok _ => exact leaves_throw ⟨held.1, original, rfl, fun _ => held.2 rfl⟩
    | error failed => exact leaves_throw ⟨held.1, _, rfl, fun other => absurd rfl other⟩

end

/-! ## The launch -/

section
variable {self : AndroidPendingLaunch} {own : ForwardEntry → Prop} {d : Device} {deadline : Raw.AbsoluteDeadline}
  {descriptor : Wire.Bytes}

theorem ensureActive_leaves {cancellation : Cancellation} :
    Leaves own (ensureActive cancellation deadline) (fun _ d' => d' = d) d := by
  have flag : ∀ reads : Bool → Except PlatformFailure Unit,
      Leaves own (Attempt.request (.cancelled cancellation) reads : Act Unit) (fun _ d' => d' = d) d :=
    fun reads => leaves_request (by simp) fun _ => rfl
  refine Leaves.bind (flag _) (fun _ e same => ?_) fun _ _ same => same
  obtain rfl := same
  exact leaves_request (by simp) fun _ => rfl

/-- Before `am start` the launch can only have ended processes. -/
theorem prepare_leaves : Leaves own (self.prepare descriptor deadline)
    (fun _ d' => d'.forwards = d.forwards ∧ d'.processes ⊆ d.processes) d := by
  have refl : d.forwards = d.forwards ∧ d.processes ⊆ d.processes := ⟨rfl, fun _ there => there⟩
  unfold AndroidPendingLaunch.prepare
  split
  next => exact leaves_throw refl
  next =>
    refine Leaves.bind ensureActive_leaves (fun _ e same => ?_) fun _ _ same => same ▸ refl
    obtain rfl := same
    split
    next => exact leaves_throw refl
    next =>
      have snapshot : Leaves own (Attempt.request
          (.snapshotCreate self.artifact self.artifactDigest self.package deadline) id : Act Chars) (fun _ e' => e' = e) e :=
        leaves_request (by simp) fun _ => rfl
      refine Leaves.bind snapshot (fun path f same => ?_) fun _ _ same => same ▸ refl
      obtain rfl := same
      have installs : Leaves own (do
          self.client.probe .given deadline
          self.client.requireOnline .given deadline
          self.client.install path .given deadline)
          (fun _ d' => d'.forwards = f.forwards ∧ d'.processes ⊆ f.processes) f := by
        refine Leaves.bind (query_leaves (by simp [AdbCommand.Effect]) (by simp) (by simp)) (fun _ _ same => ?_)
          fun _ _ same => same ▸ refl
        obtain rfl := same
        refine Leaves.bind (query_leaves (by simp [AdbCommand.Effect]) (by simp) (by simp)) (fun _ _ same => ?_)
          fun _ _ same => same ▸ refl
        obtain rfl := same
        refine leaves_run (by simp) (by simp) fun reply d' answers => ?_
        rcases answers.otherwise with rfl | effect
        · exact refl
        · exact effect
      refine Leaves.outcome installs fun install g held => ?_
      have cleans : Leaves own (Attempt.request (.snapshotCleanup path) Except.ok : Act Bool) (fun _ g' => g' = g) g :=
        leaves_request (by simp) fun _ => rfl
      refine Leaves.bind cleans (fun cleaned _ same => ?_) fun _ _ same => same ▸ held
      obtain rfl := same
      split
      next =>
        cases install with
        | ok _ => exact leaves_pure held
        | error failed => exact leaves_throw held
      next => exact leaves_throw held

theorem requireRemoteAbsent_leaves {client : AdbClient} {localabstract : Chars} {cancellation : Cancellation} :
    Leaves own (client.requireRemoteAbsent localabstract cancellation deadline)
      (fun result d' => d' = d ∧ (result = .ok () → client.Unnamed localabstract d.forwards)) d := by
  refine Leaves.bind forwardList_leaves (fun entries e listed => ?_)
    fun failed e listed => ⟨listed.1, fun ok => by cases ok⟩
  obtain ⟨rfl, told⟩ := listed
  split
  next none =>
    refine leaves_pure ⟨rfl, fun _ entry there named => ?_⟩
    have : entry ∈ client.remoteEntries localabstract entries :=
      mem_remoteEntries.2 ⟨(told entries rfl entry).2 there, named⟩
    rw [none] at this
    cases this
  next => exact leaves_throw ⟨rfl, fun ok => by cases ok⟩

theorem requireExactForward_leaves {client : AdbClient} {localabstract : Chars} {cancellation : Cancellation}
    {port : Nat} : Leaves own (client.requireExactForward port localabstract cancellation deadline)
      (fun _ d' => d' = d) d := by
  refine Leaves.bind forwardList_leaves (fun entries e listed => ?_) fun failed e listed => listed.1
  obtain ⟨rfl, -⟩ := listed
  split
  next =>
    split
    next => exact leaves_pure rfl
    next => exact leaves_throw rfl
  next => exact leaves_throw rfl

/-- What is left by the part of a launch that comes after `am start`. -/
structure SetUp (pending : AndroidPendingLaunch) (d : Device) (result : Except PlatformFailure AndroidCleanup)
    (d' : Device) : Prop where
  kept : ∀ entry ∈ d.forwards, entry ∈ d'.forwards
  fails : ∀ failed, result = .error failed → failed.kind ≠ .cleanupFailed → d'.processes = [] ∧
    (pending.client.Unnamed pending.localabstract d'.forwards ↔ pending.client.Unnamed pending.localabstract d.forwards)
  ends : ∀ receipt, result = .ok receipt → pending.client.Unnamed pending.localabstract d.forwards ∧ ∃ port,
    receipt = { adbPath := pending.adbPath, serial := pending.serial, localabstract := pending.localabstract, port } ∧
    d'.forwards = d.forwards ++ [pending.client.forwardTo pending.localabstract port]

/-- A rollback that takes the new forward back. -/
theorem setUp_of_rollback {original : PlatformFailure} {e : Device}
    {removeForward : Raw.AbsoluteDeadline → Act Unit} (absent : self.client.Unnamed self.localabstract d.forwards)
    (more : ∀ entry ∈ d.forwards, entry ∈ e.forwards)
    (removes : ∀ deadline, Leaves own (removeForward deadline)
      (fun result d' => (∀ entry ∈ e.forwards, entry ∈ d'.forwards ∨ self.client.Named self.localabstract entry) ∧
        (result = .ok () → self.client.Unnamed self.localabstract d'.forwards)) e) :
    Leaves own (rollbackAfterStarted original self.client self.package removeForward) (SetUp self d) e := by
  refine (rollbackAfterStarted_leaves
    (fun forwards => ∀ entry ∈ e.forwards, entry ∈ forwards ∨ self.client.Named self.localabstract entry)
    (self.client.Unnamed self.localabstract) removes fun entry there => .inl there).mono fun result f held => ?_
  obtain ⟨kept, failed, rfl, left⟩ := held
  refine ⟨fun entry there => (kept entry (more entry there)).resolve_right (absent entry there), ?_, fun _ ok => by cases ok⟩
  rintro _ ⟨⟩ proven
  exact ⟨(left proven).1, iff_of_true (left proven).2 absent⟩

theorem setUp_leaves (allowed : ∀ port, self.client.Unnamed self.localabstract d.forwards →
      own (self.client.forwardTo self.localabstract port)) :
    Leaves own (self.setUp deadline) (SetUp self d) d := by
  refine Leaves.outcome requireRemoteAbsent_leaves fun result e held => ?_
  obtain ⟨rfl, told⟩ := held
  cases result with
  | error original =>
      refine (rollbackAfterStarted_leaves (fun forwards => ∀ entry ∈ e.forwards, entry ∈ forwards)
        (fun forwards => self.client.Unnamed self.localabstract forwards ↔
          self.client.Unnamed self.localabstract e.forwards)
        (fun _ => leaves_pure ⟨fun _ there => there, fun _ => Iff.rfl⟩) fun _ there => there).mono fun result f held => ?_
      obtain ⟨kept, failed, rfl, left⟩ := held
      exact ⟨kept, fun _ same => by cases same; exact left, fun _ ok => by cases ok⟩
  | ok _ =>
      have absent := told rfl
      refine Leaves.outcome createForward_leaves fun result f held => ?_
      obtain ⟨-, made⟩ := held
      cases result with
      | error original =>
          have more : ∀ entry ∈ e.forwards, entry ∈ f.forwards := fun entry there => by
            rcases made with same | ⟨port, -, -, same⟩
            · exact same ▸ there
            · exact same ▸ List.mem_append_left _ there
          refine setUp_of_rollback absent more fun _ => removeByRemote_leaves fun entry there named => ?_
          rcases made with same | ⟨port, positive, small, same⟩
          · exact absurd named (absent entry (same ▸ there))
          · rw [same] at there
            rcases List.mem_append.1 there with before | new
            · exact absurd named (absent entry before)
            · exact ⟨port, positive, small, List.mem_singleton.1 new, List.mem_singleton.1 new ▸ allowed port absent⟩
      | ok port =>
          have made : f.forwards = e.forwards ++ [self.client.forwardTo self.localabstract port] := made
          have more : ∀ entry ∈ e.forwards, entry ∈ f.forwards := fun entry there =>
            made ▸ List.mem_append_left _ there
          have removes : ∀ deadline, Leaves own (self.client.removeExact port self.localabstract deadline)
              (fun result d' => (∀ entry ∈ f.forwards, entry ∈ d'.forwards ∨ self.client.Named self.localabstract entry) ∧
                (result = .ok () → self.client.Unnamed self.localabstract d'.forwards)) f := fun deadline => by
            refine (removeExact_leaves fun _ => allowed port absent).mono fun result g dropped =>
              ⟨fun entry there => ?_, fun ok entry there named => ?_⟩
            · rcases dropped.1.kept entry there with kept | rfl
              · exact .inl kept
              · exact .inr ⟨rfl, rfl⟩
            · have old := dropped.1.less entry there
              rw [made] at old
              rcases List.mem_append.1 old with before | new
              · exact absent entry before named
              · rw [List.mem_singleton.1 new] at there
                exact dropped.2 ok _ there rfl rfl
          refine Leaves.outcome requireExactForward_leaves fun result g same => ?_
          obtain rfl := same
          cases result with
          | error original => exact setUp_of_rollback absent more removes
          | ok _ =>
              have connects : Leaves own (Attempt.request (.connect port deadline) id : Act Unit) (fun _ g' => g' = g) g :=
                leaves_request (by simp) fun _ => rfl
              refine Leaves.outcome connects fun result _ same => ?_
              obtain rfl := same
              cases result with
              | error original => exact setUp_of_rollback absent more removes
              | ok _ =>
                  refine leaves_pure ⟨more, fun _ other => (by cases other), fun receipt same => ?_⟩
                  cases same
                  exact ⟨absent, port, rfl, made⟩

end

/-! ## Whole launches -/

/-- The device before a launch: nothing on it is of the launch. -/
def Device.found (pids : List Nat) (forwards : List ForwardEntry) : Device :=
  { processes := pids.map fun pid => { pid, launched := false }, forwards }

/-- Nothing of a launch is left. -/
def NothingLeft (self : AndroidPendingLaunch) (d : Device) : Prop :=
  (∀ process ∈ d.processes, ¬ process.launched) ∧ self.client.Unnamed self.localabstract d.forwards

section
variable (self : AndroidPendingLaunch) (encode : Wire.Bytes → Chars) (descriptor : Wire.Bytes)
  (deadline : Raw.AbsoluteDeadline) (pids : List Nat) (forwards : List ForwardEntry)

/-- The forwards that a launch may take away: its own. -/
def AndroidPendingLaunch.Own (entry : ForwardEntry) : Prop :=
  entry ∉ forwards ∧ ∃ port, entry = self.client.forwardTo self.localabstract port

/-- How a launch ends. -/
structure Launched (pending : AndroidPendingLaunch) (forwards : List ForwardEntry)
    (result : Except PlatformFailure AndroidCleanup) (d' : Device) (past : List (Step Request Request.Reply Device)) :
    Prop where
  fails : ∀ failed, result = .error failed → failed.kind ≠ .cleanupFailed →
    (NothingLeft pending d' ↔ Calm past ∧ pending.client.Unnamed pending.localabstract forwards)
  ends : ∀ receipt, result = .ok receipt → pending.client.Unnamed pending.localabstract forwards ∧ ∃ port,
    receipt = { adbPath := pending.adbPath, serial := pending.serial, localabstract := pending.localabstract, port } ∧
    d'.forwards = forwards ++ [pending.client.forwardTo pending.localabstract port]

theorem launch_ends : Attempt.Ensures world (removes (self.Own forwards)) (self.launch encode descriptor deadline)
    (fun result d' past => Launched self forwards result d' past) (Device.found pids forwards) [] := by
  have quiet : ∀ process ∈ (Device.found pids forwards).processes, ¬ process.launched := by simp [Device.found]
  refine (prepare_leaves [] (by simp [Calm])).bind (fun _ e past held => ?_) fun failed e past held => ?_
  · obtain ⟨calm, same, less⟩ := held
    have same : e.forwards = forwards := same
    -- the one command that may go astray
    refine Attempt.ensures_bind.2 (Attempt.ensures_request.2 ⟨fun localSpec starts => ?_, fun reply f may => ?_⟩)
    · cases AdbCommand.arguments_injective starts
    obtain ⟨command, starts, answers⟩ := may
    obtain rfl := AdbCommand.arguments_injective starts
    have forwardsSame : f.forwards = forwards := by
      rcases answers.otherwise with rfl | effect
      · exact same
      · exact effect.1.trans same
    cases result : printed reply >>= (parseStart · (self.package ++ bootstrapActivity)) with
    | error failed =>
        refine ⟨fun _ _ _ => ?_, fun _ ok => by cases ok⟩
        have refused : ¬ (AdbCommand.start (self.package ++ bootstrapActivity) (encode descriptor)).Accepted reply := by
          rintro ⟨text, prints, accepts⟩
          have accepts : parseStart text (self.package ++ bootstrapActivity) = .ok () := accepts
          rw [prints] at result
          exact absurd (accepts.symm.trans result) (by simp)
        unfold NothingLeft
        rw [forwardsSame]
        refine and_congr_left fun _ => ⟨fun none => List.forall_mem_cons.2 ⟨?_, calm⟩, fun calm process there isLaunched => ?_⟩
        · rintro ⟨component, descriptor, -, -, process, there, isLaunched⟩
          exact none process there isLaunched
        · exact List.forall_mem_cons.1 calm |>.1 ⟨_, _, rfl, refused, process, there, isLaunched⟩
    | ok _ =>
        obtain ⟨text, prints, reads⟩ := reads_ok result
        have calm : Calm (⟨e, _, reply, f⟩ :: past) := List.forall_mem_cons.2 ⟨by
          rintro ⟨component, descriptor, starts, refused, -⟩
          cases AdbCommand.arguments_injective starts
          exact refused ⟨text, prints, reads⟩, calm⟩
        have allowed : ∀ port, self.client.Unnamed self.localabstract f.forwards →
            self.Own forwards (self.client.forwardTo self.localabstract port) := fun port absent =>
          ⟨fun there => absent _ (forwardsSame ▸ there) ⟨rfl, rfl⟩, port, rfl⟩
        refine (setUp_leaves allowed _ calm).mono fun result g past held => ?_
        obtain ⟨calm, done⟩ := held
        refine ⟨fun failed error proven => ?_, fun receipt ok => ?_⟩
        · obtain ⟨stopped, named⟩ := done.fails failed error proven
          unfold NothingLeft
          rw [stopped, named, forwardsSame]
          exact and_congr_left fun _ => iff_of_true (by simp) calm
        · have := done.ends receipt ok
          rwa [forwardsSame] at this
  · obtain ⟨calm, same, less⟩ := held
    have same : e.forwards = forwards := same
    refine ⟨fun _ _ _ => ?_, fun _ ok => by cases ok⟩
    unfold NothingLeft
    rw [same]
    exact and_congr_left fun _ => iff_of_true (fun process there => quiet process (less there)) calm

/-- The cleanup of a launch removes its forward, and nothing else. -/
theorem cleanup_ends (receipt : AndroidCleanup) (d : Device) :
    Leaves (fun entry => entry = AdbClient.forwardTo ⟨receipt.adbPath, receipt.serial⟩ receipt.localabstract receipt.port)
      (receipt.cleanup deadline)
      (fun result d' => (∀ entry ∈ d'.forwards, entry ∈ d.forwards) ∧ (result = .ok () →
        ∀ entry ∈ d'.forwards, entry.serial = receipt.serial → entry.localSpec ≠ localOf receipt.port)) d := by
  refine Leaves.outcome (removeExact_leaves fun _ => rfl) fun result e dropped => ?_
  cases result with
  | ok _ => exact leaves_pure ⟨dropped.1.less, fun _ => dropped.2 rfl⟩
  | error failed => exact leaves_throw ⟨dropped.1.less, fun ok => by cases ok⟩

variable {self encode descriptor deadline pids forwards} in
/-- A launch that fails and does not say that its cleanup failed has left nothing exactly when no
    `am start` went astray and the name was new. A launch takes no forward of anyone else away,
    and its cleanup, once it has worked, leaves no forward of the name. -/
theorem failed_launch_leaves_nothing_iff {steps : List (Step Request Request.Reply Device)}
    {result : Except PlatformFailure AndroidCleanup} {d' : Device}
    (run : Run world (self.launch encode descriptor deadline).run (Device.found pids forwards) steps (some result) d') :
    (∀ failed, result = .error failed → failed.kind ≠ .cleanupFailed →
      (NothingLeft self d' ↔ (∀ step ∈ steps, ¬ Stray step) ∧ self.client.Unnamed self.localabstract forwards)) ∧
    (∀ step ∈ steps, ∀ entry ∈ step.before.forwards, entry ∉ step.after.forwards →
      entry ∉ forwards ∧ ∃ port, entry = self.client.forwardTo self.localabstract port) ∧
    ∀ receipt, result = .ok receipt → ∀ cleanupDeadline more outcome e,
      Run world (receipt.cleanup cleanupDeadline).run d' more (some outcome) e →
        (outcome = .ok () → self.client.Unnamed self.localabstract e.forwards) ∧
        ∀ step ∈ more, ∀ entry ∈ step.before.forwards, entry ∉ step.after.forwards →
          entry = self.client.forwardTo self.localabstract receipt.port := by
  have launched := launch_ends self encode descriptor deadline pids forwards
  have held := (Script.Safe.holds launched run).2 result rfl
  refine ⟨fun failed error proven => ?_, removed_own launched run, fun receipt ok cleanupDeadline more outcome e ran => ?_⟩
  · simpa [Calm] using held.fails failed error proven
  · obtain ⟨absent, port, rfl, made⟩ := held.ends receipt ok
    have cleaned := cleanup_ends cleanupDeadline
      { adbPath := self.adbPath, serial := self.serial, localabstract := self.localabstract, port } d' [] (by simp [Calm])
    refine ⟨fun done entry there named => ?_, removed_own cleaned ran⟩
    obtain ⟨-, less, gone⟩ := (Script.Safe.holds cleaned ran).2 outcome rfl
    have old := less entry there
    rw [made] at old
    rcases List.mem_append.1 old with before | new
    · exact absent entry before named
    · rw [List.mem_singleton.1 new] at there
      exact gone done _ there rfl rfl

end

/-- A launch of one package on one Emulator. -/
def exampleLaunch : AndroidPendingLaunch :=
  { adbPath := "adb".toList, serial := "emulator-5554".toList, package := "dev.app".toList
    artifact := "/app.apk".toList, artifactDigest := [], localabstract := "apppilotkit-android-0".toList, validation := none }

def exampleDeadline : Raw.AbsoluteDeadline := { value := 1000, nonzero := by decide, small := by decide }

/-- `am start` starts the app and then does not answer in time. -/
theorem run_of_late_start : ∃ steps, Run world (exampleLaunch.launch (fun _ => []) [] exampleDeadline).run
    (Device.found [] []) steps (some (.error (failure .timedOut)))
    { processes := [{ pid := 7, launched := true }], forwards := [] } := by
  have asked (command : AdbCommand) (text : Chars) (reads : Chars → Except PlatformFailure Unit)
      (asks : command.Effect exampleLaunch.serial (Device.found [] []) (Device.found [] []))
      (tells : command.Truthful exampleLaunch.serial text (Device.found [] []) (Device.found [] []))
      (same : reads text = .ok ()) : ∃ steps,
      Run world (exampleLaunch.client.run command .given exampleDeadline reads).run (Device.found [] []) steps
        (some (.ok ())) (Device.found [] []) := by
    let reply : Except PlatformFailure ProcessOutput := .ok { stdout := some text, stderr := some [] }
    have answers : command.Answers exampleLaunch.serial (Device.found [] []) reply (Device.found [] []) := by
      refine ⟨fun _ => asks, ?_, .inl rfl⟩
      rintro _ ⟨⟩ -
      exact tells
    exact ⟨_, Attempt.run_request ⟨command, rfl, answers⟩ same⟩
  obtain ⟨a, helps⟩ := asked .help "tcp:0 localabstract:".toList AdbClient.readProbe rfl trivial (by decide)
  obtain ⟨b, online⟩ := asked .getState "device".toList (requireExactLine · "device".toList) rfl trivial (by decide)
  obtain ⟨c, installs⟩ := asked (.install "/tmp/app.apk".toList) "Success".toList parseInstall ⟨rfl, by simp⟩ trivial
    (by decide)
  have elsewhere (q : Request) (answer : q.Reply) (other : world (Device.found [] []) q answer (Device.found [] []))
      {α : Type} (reads : q.Reply → Except PlatformFailure α) (value : α) (same : reads answer = .ok value) : ∃ steps,
      Run world (Attempt.request q reads : Act α).run (Device.found [] []) steps (some (.ok value)) (Device.found [] []) :=
    ⟨_, Attempt.run_request other same⟩
  have active : ∃ steps, Run world (ensureActive .given exampleDeadline).run (Device.found [] []) steps (some (.ok ()))
      (Device.found [] []) :=
    ⟨_, Attempt.run_ok (Attempt.run_request (show world _ (.cancelled .given) false _ from rfl) rfl)
      (Attempt.run_request (show world _ .now (some 0) _ from rfl) rfl)⟩
  obtain ⟨_, active⟩ := active
  obtain ⟨_, snapshot⟩ := elsewhere (.snapshotCreate exampleLaunch.artifact [] exampleLaunch.package exampleDeadline)
    (.ok "/tmp/app.apk".toList) rfl id _ rfl
  obtain ⟨_, cleaned⟩ := elsewhere (.snapshotCleanup "/tmp/app.apk".toList) true rfl Except.ok _ rfl
  have prepares : ∃ steps, Run world (exampleLaunch.prepare [] exampleDeadline).run (Device.found [] []) steps
      (some (.ok ())) (Device.found [] []) :=
    ⟨_, Attempt.run_ok active (Attempt.run_ok snapshot
      (Attempt.run_ok (Attempt.run_outcome (Attempt.run_ok helps (Attempt.run_ok online installs)))
        (Attempt.run_ok cleaned (.done _ _))))⟩
  obtain ⟨g, prepares⟩ := prepares
  let reply : Except PlatformFailure ProcessOutput := .error (failure .timedOut)
  have answers : (AdbCommand.start "dev.app/.AppPilotKitBootstrapActivity".toList []).Answers exampleLaunch.serial
      (Device.found [] []) reply { processes := [{ pid := 7, launched := true }], forwards := [] } := by
    refine ⟨?_, ?_, .inr ⟨rfl, 7, rfl⟩⟩
    · rintro ⟨_, ⟨⟩, -⟩
    · rintro _ ⟨⟩
  exact ⟨_, Attempt.run_ok prepares (Attempt.run_error (Attempt.run_request ⟨_, rfl, answers⟩ rfl))⟩

/-- The app is left running after a failure that does not speak of the cleanup. -/
theorem late_start_leaves_the_app : ∃ steps d' failed,
    Run world (exampleLaunch.launch (fun _ => []) [] exampleDeadline).run (Device.found [] []) steps
      (some (.error failed)) d' ∧ failed.kind ≠ .cleanupFailed ∧ ∃ process ∈ d'.processes, process.launched := by
  obtain ⟨steps, run⟩ := run_of_late_start
  exact ⟨steps, _, _, run, by decide, _, List.mem_singleton_self _, rfl⟩

/-- The late start is an `am start` that went astray. -/
theorem late_start_is_stray : ∃ steps d', Run world (exampleLaunch.launch (fun _ => []) [] exampleDeadline).run
      (Device.found [] []) steps (some (.error (failure .timedOut))) d' ∧
    ¬ ((∀ step ∈ steps, ¬ Stray step) ∧ exampleLaunch.client.Unnamed exampleLaunch.localabstract []) := by
  obtain ⟨steps, run⟩ := run_of_late_start
  refine ⟨steps, _, run, fun condition => ?_⟩
  have left := ((failed_launch_leaves_nothing_iff run).1 _ rfl (by decide)).2 condition
  exact left.1 _ (List.mem_singleton_self _) rfl

end AppPilotKit.Adapter.Android
