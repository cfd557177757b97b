import AppPilotKit.Adapter.Android

/-! # An Emulator behind `adb`

The device has the processes of one package, and `adb` has its forwards. A command whose output
the adapter accepts has done its work and has told the truth; any other command may have done
its work or nothing. Nobody else changes the device.
-/

namespace AppPilotKit.Adapter.Android

open Scripts
open AdbClient (localOf remoteOf readProbe)

structure Device where
  processes : List Process
  forwards : List ForwardEntry
  deriving DecidableEq

namespace AdbCommand

/-- What a command does that does its work. -/
def Effect (serial : Chars) : AdbCommand → Device → Device → Prop
  | .help, d, d' | .getState, d, d' | .forwardList, d, d' => d' = d
  | .install _, d, d' => d'.forwards = d.forwards ∧ d'.processes ⊆ d.processes
  | .start _ _, d, d' => d'.forwards = d.forwards ∧ ∃ pid, d'.processes = [{ pid, launched := true }]
  | .forceStop _, d, d' => d' = { d with processes := [] }
  | .forward remote, d, d' => ∃ port, 0 < port ∧ port < 2 ^ 16 ∧
      d' = { d with forwards := d.forwards ++ [{ serial, localSpec := localOf port, remote }] }
  | .forwardRemove localSpec, d, d' => d' = { d with
      forwards := d.forwards.filter fun entry => ¬ (entry.serial = serial ∧ entry.localSpec = localSpec) }

/-- The adapter takes the text for an answer. -/
def Accepts (text : Chars) : AdbCommand → Prop
  | .help => readProbe text = .ok ()
  | .getState => requireExactLine text "device".toList = .ok ()
  | .install _ => parseInstall text = .ok ()
  | .start component _ => parseStart text component = .ok ()
  | .forceStop _ | .forwardRemove _ => requireExactLine text [] = .ok ()
  | .forward _ => ∃ port, parsePort text = .ok port
  | .forwardList => ∃ entries, parseForwardList text = .ok entries

def Accepted (command : AdbCommand) (reply : Except PlatformFailure ProcessOutput) : Prop :=
  ∃ text, printed reply = .ok text ∧ command.Accepts text

/-- What the text says is so. -/
def Truthful (serial text : Chars) (d d' : Device) : AdbCommand → Prop
  | .forward remote => ∀ port, parsePort text = .ok port →
      d' = { d with forwards := d.forwards ++ [{ serial, localSpec := localOf port, remote }] }
  | .forwardList => ∀ entries, parseForwardList text = .ok entries → ∀ entry, entry ∈ entries ↔ entry ∈ d.forwards
  | _ => True

structure Answers (serial : Chars) (command : AdbCommand) (d : Device) (reply : Except PlatformFailure ProcessOutput)
    (d' : Device) : Prop where
  works : command.Accepted reply → command.Effect serial d d'
  truthful : ∀ text, printed reply = .ok text → command.Accepts text → command.Truthful serial text d d'
  otherwise : d' = d ∨ command.Effect serial d d'

/-- The arguments tell which command it is. -/
theorem arguments_injective {command other : AdbCommand} (same : command.arguments = other.arguments) :
    command = other := by
  cases command <;> cases other <;> simp_all [arguments]

end AdbCommand

/-- What the device may do when it is asked. -/
def world : World Request Request.Reply Device
  | d, .adb _ serial arguments _ _, reply, d' =>
      ∃ command : AdbCommand, command.arguments = arguments ∧ command.Answers serial d reply d'
  | d, _, _, d' => d' = d

/-- An `am start` that has started the app although its output is not accepted. -/
def Stray (step : Step Request Request.Reply Device) : Prop :=
  match step with
  | ⟨_, .adb _ _ arguments _ _, reply, after⟩ => ∃ component descriptor,
      arguments = (AdbCommand.start component descriptor).arguments ∧
      ¬ (AdbCommand.start component descriptor).Accepted reply ∧ ∃ process ∈ after.processes, process.launched
  | _ => False

/-- Only forwards of the given kind are removed. -/
def removes (own : ForwardEntry → Prop) : Guard Request Request.Reply Device
  | d, _, .adb _ serial arguments _ _ => ∀ localSpec, arguments = (AdbCommand.forwardRemove localSpec).arguments →
      ∀ entry ∈ d.forwards, entry.serial = serial → entry.localSpec = localSpec → own entry
  | _, _, _ => True

section
variable {serial : Chars} {command : AdbCommand} {d d' : Device}

/-- Only a removal takes forwards away, and only those it names. -/
theorem AdbCommand.Effect.removed (effect : command.Effect serial d d') {entry : ForwardEntry}
    (there : entry ∈ d.forwards) (gone : entry ∉ d'.forwards) :
    ∃ localSpec, command = .forwardRemove localSpec ∧ entry.serial = serial ∧ entry.localSpec = localSpec := by
  cases command with
  | help | getState | forwardList => exact absurd (effect ▸ there) gone
  | install artifact => exact absurd (effect.1 ▸ there) gone
  | start component descriptor => exact absurd (effect.1 ▸ there) gone
  | forceStop package => exact absurd (by rw [effect]; exact there) gone
  | forward remote =>
      obtain ⟨port, -, -, rfl⟩ := effect
      exact absurd (List.mem_append_left _ there) gone
  | forwardRemove localSpec =>
      have named : entry.serial = serial ∧ entry.localSpec = localSpec := by
        by_contra other
        exact gone (by rw [effect]; exact List.mem_filter.2 ⟨there, decide_eq_true other⟩)
      exact ⟨localSpec, rfl, named⟩

/-- A step that removes a forward was fine with it. -/
theorem own_of_removes {own : ForwardEntry → Prop} {step : Step Request Request.Reply Device}
    {past : List (Step Request Request.Reply Device)} (may : world step.before step.request step.reply step.after)
    (fine : removes own step.before past step.request) {entry : ForwardEntry}
    (there : entry ∈ step.before.forwards) (gone : entry ∉ step.after.forwards) : own entry := by
  obtain ⟨before, request, reply, after⟩ := step
  cases request with
  | adb executable serial arguments cancellation deadline =>
      obtain ⟨command, rfl, answers⟩ := may
      rcases answers.otherwise with same | effect
      · exact absurd (same ▸ there) gone
      obtain ⟨localSpec, rfl, ofSerial, ofLocal⟩ := effect.removed there gone
      exact fine localSpec rfl entry there ofSerial ofLocal
  | cancelled | now | snapshotCreate | snapshotCleanup | connect => exact absurd (may ▸ there) gone

/-- A run of an attempt whose removals are fine removes nothing else. -/
theorem removed_own {own : ForwardEntry → Prop} {α : Type} {m : Act α}
    {post : Except PlatformFailure α → Device → List (Step Request Request.Reply Device) → Prop}
    {steps : List (Step Request Request.Reply Device)} {value : Option (Except PlatformFailure α)}
    (ensured : Attempt.Ensures world (removes own) m post d []) (run : Run world m.run d steps value d')
    (step : Step Request Request.Reply Device) (member : step ∈ steps) (entry : ForwardEntry)
    (there : entry ∈ step.before.forwards) (gone : entry ∉ step.after.forwards) : own entry := by
  obtain ⟨front, back, split⟩ := List.append_of_mem member
  exact own_of_removes (run.chained step member) ((ensured.holds run).1 front step back split) there gone

end

/-! ## Attempts without an `am start` -/

/-- No step so far was an `am start` that went astray. -/
def Calm (past : List (Step Request Request.Reply Device)) : Prop := ∀ step ∈ past, ¬ Stray step

/-- An attempt leaves the device as stated, and no `am start` goes astray. -/
def Leaves (own : ForwardEntry → Prop) {α : Type} (m : Act α) (post : Except PlatformFailure α → Device → Prop)
    (d : Device) : Prop :=
  ∀ past, Calm past → Attempt.Ensures world (removes own) m (fun result d past => Calm past ∧ post result d) d past

section
variable {own : ForwardEntry → Prop} {α β : Type} {m : Act α} {next : α → Act β} {d : Device}

theorem leaves_pure {value : α} {post : Except PlatformFailure α → Device → Prop} (held : post (.ok value) d) :
    Leaves own (pure value : Act α) post d := fun _ calm => ⟨calm, held⟩

theorem leaves_throw {failed : PlatformFailure} {post : Except PlatformFailure α → Device → Prop}
    (held : post (.error failed) d) : Leaves own (throw failed : Act α) post d := fun _ calm => ⟨calm, held⟩

theorem Leaves.mono {post post' : Except PlatformFailure α → Device → Prop} (leaves : Leaves own m post d)
    (weaker : ∀ result d, post result d → post' result d) : Leaves own m post' d :=
  fun past calm => (leaves past calm).mono fun result d _ held => ⟨held.1, weaker result d held.2⟩

theorem Leaves.bind {mid : Except PlatformFailure α → Device → Prop} {post : Except PlatformFailure β → Device → Prop}
    (first : Leaves own m mid d) (ends : ∀ value d, mid (.ok value) d → Leaves own (next value) post d)
    (fails : ∀ failed d, mid (.error failed) d → post (.error failed) d) : Leaves own (m >>= next) post d :=
  fun past calm => (first past calm).bind (fun value d past held => ends value d held.2 past held.1)
    fun failed d _ held => ⟨held.1, fails failed d held.2⟩

/-- Both outcomes of the first part go on. -/
theorem Leaves.outcome {mid : Except PlatformFailure α → Device → Prop}
    {next : Except PlatformFailure α → Act β} {post : Except PlatformFailure β → Device → Prop}
    (first : Leaves own m mid d) (goes : ∀ result d, mid result d → Leaves own (next result) post d) :
    Leaves own (m.outcome >>= next) post d :=
  fun past calm => Attempt.ensures_bind.2 (Attempt.ensures_outcome.2
    ((first past calm).mono fun result d past held => goes result d held.2 past held.1))

/-- A request that does not go to the device. -/
theorem leaves_request {q : Request} {reads : q.Reply → Except PlatformFailure α}
    {post : Except PlatformFailure α → Device → Prop}
    (elsewhere : ∀ executable serial arguments cancellation deadline,
      q ≠ .adb executable serial arguments cancellation deadline)
    (held : ∀ reply, post (reads reply) d) : Leaves own (Attempt.request q reads : Act α) post d := by
  intro past calm
  cases q with
  | adb executable serial arguments cancellation deadline => exact absurd rfl (elsewhere _ _ _ _ _)
  | cancelled | now | snapshotCreate | snapshotCleanup | connect =>
      refine Attempt.ensures_request.2 ⟨trivial, fun reply d' same => ?_⟩
      cases same
      exact ⟨List.forall_mem_cons.2 ⟨id, calm⟩, held reply⟩

/-- A command to the device that is no `am start`. -/
theorem leaves_run {client : AdbClient} {command : AdbCommand} {cancellation : Cancellation}
    {deadline : Raw.AbsoluteDeadline} {reads : Chars → Except PlatformFailure α}
    {post : Except PlatformFailure α → Device → Prop}
    (other : ∀ component descriptor, command ≠ .start component descriptor)
    (fine : ∀ localSpec, command = .forwardRemove localSpec →
      ∀ entry ∈ d.forwards, entry.serial = client.serial → entry.localSpec = localSpec → own entry)
    (held : ∀ reply d', command.Answers client.serial d reply d' → post (printed reply >>= reads) d') :
    Leaves own (client.run command cancellation deadline reads) post d := by
  intro past calm
  refine Attempt.ensures_request.2 ⟨fun localSpec same => ?_, fun reply d' may => ?_⟩
  · exact fine localSpec (AdbCommand.arguments_injective same)
  · obtain ⟨known, same, answers⟩ := may
    obtain rfl := AdbCommand.arguments_injective same
    refine ⟨List.forall_mem_cons.2 ⟨?_, calm⟩, held reply d' answers⟩
    rintro ⟨component, descriptor, starts, -⟩
    exact other component descriptor (AdbCommand.arguments_injective starts)

end

end AppPilotKit.Adapter.Android
