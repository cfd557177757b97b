import AppPilotKit.Adapter.Apple

/-! # What must have been seen before a destructive command

The history of a launch is the list of its requests with their answers, the latest first. What
justifies a command is a pattern of the latest requests; everything else may be answered in any
way.
-/

namespace AppPilotKit.Adapter.Apple

open Scripts

/-- A request that was made, and its answer. -/
abbrev Event := Step Request Request.Reply Unit

abbrev History := List Event

/-- Any answer may come. -/
def anyWorld : World Request Request.Reply Unit := fun _ _ _ _ => True

namespace Event

def IsTool : Event → Prop
  | ⟨_, .tool .., _, _⟩ => True
  | _ => False

/-- The event is a run of the command. -/
def Runs (command : SimctlCommand) : Event → Prop
  | ⟨_, .tool _ arguments _ _ _ _, _, _⟩ => arguments = command.arguments
  | _ => False

/-- A listing has shown these processes of the app. -/
def Listed (udid installedApp : Chars) (pids : List Nat) : Event → Prop
  | ⟨_, .tool _ arguments _ _ _ _, reply, _⟩ => arguments = (SimctlCommand.ps udid).arguments ∧
      (successful reply >>= fun output => parseProcessTable output.stdout installedApp) = .ok pids
  | _ => False

/-- A listing has shown that the app is not installed. -/
def ReportedAbsent (udid appId : Chars) : Event → Prop
  | ⟨_, .tool _ arguments _ _ _ _, reply, _⟩ => arguments = (SimctlCommand.listapps udid).arguments ∧
      (successful reply >>= fun output => parseListappsContains output.stdout appId) = .ok false
  | _ => False

/-- `simctl launch` has named this process. -/
def Started (udid appId : Chars) (pid : Nat) : Event → Prop
  | ⟨_, .tool _ arguments _ _ _ _, reply, _⟩ => arguments = (SimctlCommand.launch udid appId).arguments ∧
      (successful reply >>= fun output => parseLaunchPid output.stdout appId) = .ok pid
  | _ => False

def Identified (pid : Nat) (installedApp : Chars) (identity : ProcessIdentity) : Event → Prop
  | ⟨_, .identity asked path, reply, _⟩ => asked = pid ∧ path = installedApp ∧ reply = .ok identity
  | _ => False

def Verified (installed : Chars) : Event → Prop
  | ⟨_, .verifyInstalled path _ _ _, reply, _⟩ => path = installed ∧ reply = .ok ()
  | _ => False

def Unchanged : Event → Prop
  | ⟨_, .assertSnapshotUnchanged .., reply, _⟩ => reply = .ok ()
  | _ => False

/-- The path of the container has been resolved to this one. -/
def Contained (path : Chars) : Event → Prop
  | ⟨_, .directory _, reply, _⟩ => reply = some path
  | _ => False

def ReadsClock : Event → Prop
  | ⟨_, .now, _, _⟩ => True
  | _ => False

/-- The signal that the event sends. -/
def signal : Event → Option Signal
  | ⟨_, .tool _ [_, _, _, command, flag, _] _ _ _ _, _, _⟩ =>
      if command = "/bin/kill".toList then some (if flag = Signal.term.flag then .term else .kill) else none
  | _ => none

end Event

open Event

variable (udid appId : Chars)

/-- The container was asked for and resolved to the path, the app there was verified, and a
    listing showed no process of it: the four latest requests but one. -/
def Checked (path : Chars) (past : History) : Prop :=
  ∃ listed verified contained asked older, past = listed :: verified :: contained :: asked :: older ∧
    Listed udid path [] listed ∧ Verified path verified ∧ Contained path contained ∧
    Runs (.getAppContainer udid appId) asked

/-- `simctl launch` was issued for the app at the path, right after it was checked. -/
def LaunchedAt (path : Chars) (past : History) : Prop :=
  ∃ front launch unchanged older, past = front ++ launch :: unchanged :: older ∧
    Runs (.launch udid appId) launch ∧ Unchanged unchanged ∧ Checked udid appId path older

def IssuedInstall (past : History) : Prop := ∃ event ∈ past, ∃ path, Runs (.install udid path) event

/-- The launch has named the process, a listing showed it alone, and its identity was read. -/
def Owns (owner : TargetOwner) (past : History) : Prop :=
  ∃ front identified listed started older, past = front ++ identified :: listed :: started :: older ∧
    Identified owner.pid owner.appPath owner.identity identified ∧
    Listed owner.udid owner.appPath [owner.pid] listed ∧ Started udid appId owner.pid started

/-- The owner is alone and is itself: the latest requests, readings of the clock apart. -/
def Alone (owner : TargetOwner) (past : History) : Prop :=
  ∃ clocks identified listed older, past = clocks ++ identified :: listed :: older ∧
    (∀ event ∈ clocks, ReadsClock event) ∧ Identified owner.pid owner.appPath owner.identity identified ∧
    Listed owner.udid owner.appPath [owner.pid] listed

/-- What justifies a command. -/
def Justified (past : History) : SimctlCommand → Prop
  | .kill device signal pid => ∃ owner, device = owner.udid ∧ pid = owner.pid ∧ Owns udid appId owner past ∧
      Alone owner past ∧ past.filterMap Event.signal = (match signal with
        | .term => []
        | .kill => [.term])
  | .uninstall device app => device = udid ∧ app = appId ∧ IssuedInstall udid past ∧
      ∃ path, LaunchedAt udid appId path past ∧ Checked udid appId path past
  | .install device _ => device = udid ∧
      ∃ unchanged listed older, past = unchanged :: listed :: older ∧ Unchanged unchanged ∧ ReportedAbsent udid appId listed
  | .launch device app => device = udid ∧ app = appId ∧
      ∃ path unchanged older, past = unchanged :: older ∧ Unchanged unchanged ∧ Checked udid appId path older
  | _ => True

/-- Every command of a history must be justified, where it must be. -/
def justified (strict : Prop) : Guard Request Request.Reply Unit
  | _, past, .tool _ arguments _ _ _ _ => strict → ∃ command : SimctlCommand, arguments = command.arguments ∧
      Justified udid appId past command
  | _, _, _ => True

/-- The command changes nothing. -/
def SimctlCommand.Asks : SimctlCommand → Prop
  | .kill .. | .uninstall .. | .install .. | .launch .. => False
  | _ => True

theorem Justified.of_asks {past : History} {command : SimctlCommand} (asks : command.Asks) :
    Justified udid appId past command := by
  cases command with
  | kill | uninstall | install | launch => cases asks
  | help | list | listapps | getAppContainer | ps => trivial

theorem signal_of_runs {event : Event} {command : SimctlCommand} (runs : event.Runs command) :
    event.signal = match command with
      | .kill _ signal _ => some signal
      | _ => none := by
  obtain ⟨before, request, reply, after⟩ := event
  cases request with
  | tool program arguments descriptor cap cancellation deadline =>
      have same : arguments = command.arguments := runs
      subst same
      cases command with
      | kill _ signal _ => cases signal <;> rfl
      | help | list | listapps | install | uninstall | getAppContainer | ps | launch => rfl
  | _ => cases runs

/-! ## Attempts and their histories -/

/-- Every command along the attempt is justified, and it ends with the stated history. -/
def Holds (strict : Prop) {α : Type} (m : Act α) (post : Except PlatformFailure α → History → Prop) (past : History) : Prop :=
  Attempt.Ensures anyWorld (justified udid appId strict) m (fun result _ past => post result past) () past

section
variable {udid appId}
variable {strict : Prop} {α β : Type} {m : Act α} {next : α → Act β} {past : History}

theorem holds_pure {value : α} {post : Except PlatformFailure α → History → Prop} (held : post (.ok value) past) :
    Holds udid appId strict (pure value : Act α) post past := held

theorem holds_throw {failed : PlatformFailure} {post : Except PlatformFailure α → History → Prop}
    (held : post (.error failed) past) : Holds udid appId strict (throw failed : Act α) post past := held

theorem Holds.mono {post post' : Except PlatformFailure α → History → Prop} (holds : Holds udid appId strict m post past)
    (weaker : ∀ result past, post result past → post' result past) : Holds udid appId strict m post' past :=
  Attempt.Ensures.mono holds fun result _ past held => weaker result past held

theorem Holds.bind {mid : Except PlatformFailure α → History → Prop} {post : Except PlatformFailure β → History → Prop}
    (first : Holds udid appId strict m mid past) (ends : ∀ value past, mid (.ok value) past → Holds udid appId strict (next value) post past)
    (fails : ∀ failed past, mid (.error failed) past → post (.error failed) past) :
    Holds udid appId strict (m >>= next) post past :=
  Attempt.Ensures.bind first (fun value _ past held => ends value past held) fun failed _ past held => fails failed past held

/-- Both outcomes of the first part go on. -/
theorem Holds.outcome {mid : Except PlatformFailure α → History → Prop} {next : Except PlatformFailure α → Act β}
    {post : Except PlatformFailure β → History → Prop} (first : Holds udid appId strict m mid past)
    (goes : ∀ result past, mid result past → Holds udid appId strict (next result) post past) :
    Holds udid appId strict (m.outcome >>= next) post past :=
  Attempt.ensures_bind.2 (Attempt.ensures_outcome.2 (Attempt.Ensures.mono first fun result _ past held =>
    goes result past held))

/-- A request that is no tool. -/
theorem holds_request {q : Request} {reads : q.Reply → Except PlatformFailure α}
    {post : Except PlatformFailure α → History → Prop}
    (elsewhere : ∀ program arguments descriptor cap cancellation deadline,
      q ≠ .tool program arguments descriptor cap cancellation deadline)
    (held : ∀ reply, post (reads reply) (⟨(), q, reply, ()⟩ :: past)) :
    Holds udid appId strict (Attempt.request q reads) post past := by
  refine Attempt.ensures_request.2 ⟨?_, fun reply _ _ => held reply⟩
  cases q with
  | tool => exact absurd rfl (elsewhere _ _ _ _ _ _)
  | _ => trivial

/-- A tool that runs a justified command. -/
theorem holds_tool {program : Chars} {command : SimctlCommand} {descriptor : Option Chars} {cap : Nat}
    {cancellation : Cancellation} {deadline : Raw.AbsoluteDeadline}
    {reads : Except PlatformFailure ToolOutput → Except PlatformFailure α} {post : Except PlatformFailure α → History → Prop}
    (proven : strict → Justified udid appId past command)
    (held : ∀ reply : Except PlatformFailure ToolOutput, post (reads reply)
      (⟨(), .tool program command.arguments descriptor cap cancellation deadline, reply, ()⟩ :: past)) :
    Holds udid appId strict (Attempt.request (.tool program command.arguments descriptor cap cancellation deadline) reads) post past :=
  Attempt.ensures_request.2 ⟨fun must => ⟨command, rfl, proven must⟩, fun reply _ _ => held reply⟩

end

end AppPilotKit.Adapter.Apple
