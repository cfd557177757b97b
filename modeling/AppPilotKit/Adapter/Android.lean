import AppPilotKit.Adapter.Common

/-! # Launching on an Android Emulator

A launch snapshots the artifact, installs and starts the app through `adb`, forwards a port to
the socket of the app and connects. Every command goes to a runner whose answers are not in the
hands of the adapter. Text is a list of characters; an output that is not UTF-8 is no text.
-/

namespace AppPilotKit.Adapter

open Wire (Bytes)
open Raw (PlatformFailureKind AbsoluteDeadline saturatingAdd)
open Scripts (Attempt)

namespace Android

def bootstrapActivity : Chars := "/.AppPilotKitBootstrapActivity".toList
def descriptorExtra : Chars := "dev.apppilotkit.transport.DESCRIPTOR".toList
def descriptorLimit : Nat := 4 * 1024
def forwardRollbackMs : Nat := 2000

/-! ## Reading what `adb` prints -/

def stripOneLineEnding (output : Chars) : Except PlatformFailure Chars :=
  let value := ((stripSuffix ['\r', '\n'] output).orElse fun _ => stripSuffix ['\n'] output).getD output
  if ['\r'] <:+ value ∨ '\x00' ∈ value ∨ ['\n'] <:+ value then .error (failure .rejected) else .ok value

def requireExactLine (output expected : Chars) : Except PlatformFailure Unit :=
  stripOneLineEnding output >>= fun line => if line = expected then .ok () else .error (failure .rejected)

/-- `str::parse::<u16>`. -/
def parseU16 (text : Chars) : Option Nat := parseUnsigned 16 text

def parsePort (output : Chars) : Except PlatformFailure Nat :=
  stripOneLineEnding output >>= fun line =>
    if line = [] ∨ ¬ line.all Char.isDigit then .error (failure .rejected)
    else match (parseU16 line).filter (· ≠ 0) with
      | some port => .ok port
      | none => .error (failure .rejected)

def parseLocalPort (localSpec : Chars) : Except PlatformFailure Nat :=
  match (stripPrefix "tcp:".toList localSpec).bind fun port => (parseU16 port).filter (· ≠ 0) with
  | some port => .ok port
  | none => .error (failure .cleanupFailed)

def parseInstall (output : Chars) : Except PlatformFailure Unit :=
  stripOneLineEnding output >>= fun value =>
    if value ∈ ["Success".toList, "Performing Streamed Install\nSuccess".toList,
        "Performing Push Install\nSuccess".toList, "Performing Incremental Install\nSuccess".toList] then .ok ()
    else .error (failure .rejected)

def digitsOnly (value : Chars) : Bool := value ≠ [] ∧ value.all Char.isDigit

def numericField (line front : Chars) : Bool := (stripPrefix front line).any digitsOnly

def unknownLaunchState (line : Chars) : Bool :=
  ((stripPrefix "LaunchState: UNKNOWN (".toList line).bind (stripSuffix [')'])).any digitsOnly

/-- How often each line that must be there once has been seen. -/
structure StartLines where
  status : Nat := 0
  activity : Nat := 0
  complete : Nat := 0
  launchState : Nat := 0
  deriving DecidableEq

def StartLines.count (component : Chars) (seen : StartLines) (line : Chars) : Except PlatformFailure StartLines :=
  if line = "Status: ok".toList then .ok { seen with status := seen.status + 1 }
  else if line = "Activity: ".toList ++ component then .ok { seen with activity := seen.activity + 1 }
  else if line = "Complete".toList then .ok { seen with complete := seen.complete + 1 }
  else if line = "LaunchState: COLD".toList ∨ unknownLaunchState line then
    .ok { seen with launchState := seen.launchState + 1 }
  else if "Stopping: ".toList <+: line ∨ "Starting: Intent \x7b ".toList <+: line ∨ numericField line "TotalTime: ".toList
      ∨ numericField line "WaitTime: ".toList ∨ numericField line "ThisTime: ".toList then .ok seen
  else .error (failure .rejected)

def parseStart (output component : Chars) : Except PlatformFailure Unit := do
  let value ← stripOneLineEnding output
  let seen ← (value.splitOn '\n').foldlM (StartLines.count component) {}
  if seen = { status := 1, activity := 1, complete := 1, launchState := 1 } then .ok () else .error (failure .rejected)

structure ForwardEntry where
  serial : Chars
  localSpec : Chars
  remote : Chars
  deriving DecidableEq

/-- `u8::is_ascii_graphic` of every byte. -/
def safeToolField (value : Chars) : Bool := value ≠ [] ∧ value.all fun c => 33 ≤ c.toNat ∧ c.toNat ≤ 126

def normalizeForwardList (output : Chars) : Except PlatformFailure Chars :=
  match stripSuffix ['\n', '\n'] output with
  | some entries => if ['\n'] <:+ entries then .error (failure .rejected) else .ok entries
  | none => stripOneLineEnding output

def parseForwardEntry (line : Chars) : Except PlatformFailure ForwardEntry :=
  match line.splitOn ' ' with
  | [serial, localSpec, remote] =>
      if safeToolField serial ∧ safeToolField localSpec ∧ safeToolField remote then .ok { serial, localSpec, remote }
      else .error (failure .rejected)
  | _ => .error (failure .rejected)

def parseForwardList (output : Chars) : Except PlatformFailure (List ForwardEntry) := do
  let normalized ← normalizeForwardList output
  if normalized = [] then .ok [] else (normalized.splitOn '\n').mapM parseForwardEntry

/-! ## What is asked of the world -/

/-- The commands that the adapter gives to `adb -s SERIAL`. -/
inductive AdbCommand where
  | help
  | getState
  | install (artifact : Chars)
  | start (component descriptor : Chars)
  | forceStop (package : Chars)
  | forward (remote : Chars)
  | forwardList
  | forwardRemove (localSpec : Chars)
  deriving DecidableEq

def AdbCommand.arguments : AdbCommand → List Chars
  | .help => ["help".toList]
  | .getState => ["get-state".toList]
  | .install artifact => ["install".toList, "-r".toList, "-t".toList, artifact]
  | .start component descriptor => ["shell".toList, "am".toList, "start".toList, "-W".toList, "-S".toList, "-n".toList,
      component, "--es".toList, descriptorExtra, descriptor]
  | .forceStop package => ["shell".toList, "am".toList, "force-stop".toList, package]
  | .forward remote => ["forward".toList, "tcp:0".toList, remote]
  | .forwardList => ["forward".toList, "--list".toList]
  | .forwardRemove localSpec => ["forward".toList, "--remove".toList, localSpec]

/-- What a command printed; `none` is not UTF-8. -/
structure ProcessOutput where
  stdout : Option Chars
  stderr : Option Chars
  deriving DecidableEq

inductive Request where
  | cancelled (cancellation : Cancellation)
  /-- The wall clock in milliseconds, unless it is before the epoch. -/
  | now
  | snapshotCreate (artifact : Chars) (digest : Bytes) (package : Chars) (deadline : AbsoluteDeadline)
  | snapshotCleanup (path : Chars)
  | adb (executable serial : Chars) (arguments : List Chars) (cancellation : Cancellation) (deadline : AbsoluteDeadline)
  | connect (port : Nat) (deadline : AbsoluteDeadline)

def Request.Reply : Request → Type
  | .cancelled _ => Bool
  | .now => Option Nat
  | .snapshotCreate .. => Except PlatformFailure Chars
  | .snapshotCleanup _ => Bool
  | .adb .. => Except PlatformFailure ProcessOutput
  | .connect .. => Except PlatformFailure Unit

abbrev Act (α : Type) : Type := Attempt Request Request.Reply PlatformFailure α

/-! ## The steps of a launch -/

def expired (deadline : AbsoluteDeadline) : Option Nat → Bool
  | some now => now ≥ deadline.value
  | none => true

def ensureActive (cancellation : Cancellation) (deadline : AbsoluteDeadline) : Act Unit := do
  Attempt.request (.cancelled cancellation) fun
    | true => .error (failure .cancelled)
    | false => .ok ()
  Attempt.request .now fun now => if expired deadline now then .error (failure .timedOut) else .ok ()

def rollbackDeadline : Act AbsoluteDeadline :=
  Attempt.request .now fun
    | some now =>
        if now < 2 ^ 64 then
          (AbsoluteDeadline.new (saturatingAdd now forwardRollbackMs) (by unfold saturatingAdd; omega)).mapError
            fun _ => failure .cleanupFailed
        else .error (failure .cleanupFailed)
    | none => .error (failure .cleanupFailed)

def benignStderr (stderr : Option Chars) : Bool :=
  stderr = some [] ∨
    stderr = some "* daemon not running; starting now at tcp:5037\n* daemon started successfully\n".toList

/-- What is left of an answer before the command's own reading of it. -/
def printed : Except PlatformFailure ProcessOutput → Except PlatformFailure Chars
  | .error failed => .error failed
  | .ok output =>
      if benignStderr output.stderr then
        match output.stdout with
        | some text => .ok text
        | none => .error (failure .rejected)
      else .error (failure .rejected)

structure AdbClient where
  executable : Chars
  serial : Chars

namespace AdbClient

variable (client : AdbClient)

def run {α : Type} (command : AdbCommand) (cancellation : Cancellation) (deadline : AbsoluteDeadline)
    (reads : Chars → Except PlatformFailure α) : Act α :=
  Attempt.request (.adb client.executable client.serial command.arguments cancellation deadline)
    fun reply => printed reply >>= reads

def readProbe (output : Chars) : Except PlatformFailure Unit :=
  if "tcp:0".toList <:+: output ∧ "localabstract:".toList <:+: output then .ok () else .error (failure .rejected)

def probe (cancellation : Cancellation) (deadline : AbsoluteDeadline) : Act Unit :=
  client.run .help cancellation deadline readProbe

def requireOnline (cancellation : Cancellation) (deadline : AbsoluteDeadline) : Act Unit :=
  client.run .getState cancellation deadline (requireExactLine · "device".toList)

def install (artifact : Chars) (cancellation : Cancellation) (deadline : AbsoluteDeadline) : Act Unit :=
  client.run (.install artifact) cancellation deadline parseInstall

def start (component descriptor : Chars) (cancellation : Cancellation) (deadline : AbsoluteDeadline) : Act Unit :=
  client.run (.start component descriptor) cancellation deadline (parseStart · component)

def forceStop (package : Chars) (deadline : AbsoluteDeadline) : Act Unit :=
  client.run (.forceStop package) .new deadline (requireExactLine · [])

def remoteOf (localabstract : Chars) : Chars := "localabstract:".toList ++ localabstract

def localOf (port : Nat) : Chars := "tcp:".toList ++ Nat.toDigits 10 port

def createForward (localabstract : Chars) (cancellation : Cancellation) (deadline : AbsoluteDeadline) : Act Nat :=
  client.run (.forward (remoteOf localabstract)) cancellation deadline parsePort

def forwardList (cancellation : Cancellation) (deadline : AbsoluteDeadline) : Act (List ForwardEntry) :=
  client.run .forwardList cancellation deadline parseForwardList

def localEntries (port : Nat) (entries : List ForwardEntry) : List ForwardEntry :=
  entries.filter fun entry => entry.serial = client.serial ∧ entry.localSpec = localOf port

def remoteEntries (localabstract : Chars) (entries : List ForwardEntry) : List ForwardEntry :=
  entries.filter fun entry => entry.serial = client.serial ∧ entry.remote = remoteOf localabstract

def requireExactForward (port : Nat) (localabstract : Chars) (cancellation : Cancellation)
    (deadline : AbsoluteDeadline) : Act Unit := do
  let entries ← client.forwardList cancellation deadline
  match client.localEntries port entries with
  | [entry] => if entry.remote = remoteOf localabstract then pure () else throw (failure .rejected)
  | _ => throw (failure .rejected)

def requireRemoteAbsent (localabstract : Chars) (cancellation : Cancellation) (deadline : AbsoluteDeadline) :
    Act Unit := do
  let entries ← client.forwardList cancellation deadline
  if client.remoteEntries localabstract entries = [] then pure () else throw (failure .rejected)

def removeExactWithCancellation (port : Nat) (localabstract : Chars) (cancellation : Cancellation)
    (deadline : AbsoluteDeadline) : Act Unit := do
  let entries ← client.forwardList cancellation deadline
  match client.localEntries port entries with
  | [] => pure ()
  | [entry] =>
      if entry.remote = remoteOf localabstract then do
        client.run (.forwardRemove (localOf port)) cancellation deadline (requireExactLine · [])
        let after ← client.forwardList cancellation deadline
        if client.localEntries port after = [] then pure () else throw (failure .cleanupFailed)
      else throw (failure .cleanupFailed)
  | _ => throw (failure .cleanupFailed)

def removeExact (port : Nat) (localabstract : Chars) (deadline : AbsoluteDeadline) : Act Unit :=
  client.removeExactWithCancellation port localabstract .new deadline

def removeByRemote (localabstract : Chars) (deadline : AbsoluteDeadline) : Act Unit := do
  let entries ← client.forwardList .new deadline
  match client.remoteEntries localabstract entries with
  | [] => pure ()
  | entry :: more =>
      match parseLocalPort entry.localSpec with
      | .error failed => throw failed
      | .ok port => if more = [] then client.removeExact port localabstract deadline else throw (failure .cleanupFailed)

end AdbClient

/-! ## The launch and its cleanup -/

/-- A launch gives up with the original failure once the rollback has worked. -/
def rollbackAfter {α : Type} (original : PlatformFailure) (rollback : Act Unit) : Act α := do
  match ← rollback.outcome with
  | .ok () => throw original
  | .error _ => throw (.cleanupFailedAfter original.primaryKind)

def rollbackAfterStarted {α : Type} (original : PlatformFailure) (client : AdbClient) (package : Chars)
    (removeForward : AbsoluteDeadline → Act Unit) : Act α :=
  rollbackAfter original do
    let cleanupDeadline ← rollbackDeadline
    let forward ← (removeForward cleanupDeadline).outcome
    let stopped ← (client.forceStop package cleanupDeadline).outcome
    match forward with
    | .error failed => throw failed
    | .ok () =>
        match stopped with
        | .error failed => throw failed
        | .ok () => pure ()

structure AndroidCleanup where
  adbPath : Chars
  serial : Chars
  localabstract : Chars
  port : Nat
  deriving DecidableEq

def AndroidCleanup.cleanup (self : AndroidCleanup) (deadline : AbsoluteDeadline) : Act Unit := do
  let client : AdbClient := { executable := self.adbPath, serial := self.serial }
  match ← (client.removeExactWithCancellation self.port self.localabstract .given deadline).outcome with
  | .ok () => pure ()
  | .error _ => throw (failure .cleanupFailed)

structure AndroidPendingLaunch where
  adbPath : Chars
  serial : Chars
  package : Chars
  artifact : Chars
  artifactDigest : Bytes
  localabstract : Chars
  validation : Option PlatformFailureKind

namespace AndroidPendingLaunch

variable (self : AndroidPendingLaunch)

def client : AdbClient := { executable := self.adbPath, serial := self.serial }

/-- What comes before `am start`. -/
def prepare (descriptor : Bytes) (deadline : AbsoluteDeadline) : Act Unit := do
  match self.validation with
  | some kind => throw (failure kind)
  | none => do
      ensureActive .given deadline
      if descriptor.length > descriptorLimit then throw (failure .rejected) else do
        let path ← Attempt.request (.snapshotCreate self.artifact self.artifactDigest self.package deadline) id
        let install ← Attempt.outcome do
          self.client.probe .given deadline
          self.client.requireOnline .given deadline
          self.client.install path .given deadline
        let cleaned : Bool ← Attempt.request (.snapshotCleanup path) Except.ok
        if cleaned then
          match install with
          | .ok () => pure ()
          | .error failed => throw failed
        else throw (failure .cleanupFailed)

/-- What comes after `am start`. -/
def setUp (deadline : AbsoluteDeadline) : Act AndroidCleanup := do
  match ← (self.client.requireRemoteAbsent self.localabstract .given deadline).outcome with
  | .error original => rollbackAfterStarted original self.client self.package fun _ => pure ()
  | .ok () =>
      match ← (self.client.createForward self.localabstract .given deadline).outcome with
      | .error original =>
          rollbackAfterStarted original self.client self.package (self.client.removeByRemote self.localabstract)
      | .ok port =>
          let removeForward := self.client.removeExact port self.localabstract
          match ← (self.client.requireExactForward port self.localabstract .given deadline).outcome with
          | .error original => rollbackAfterStarted original self.client self.package removeForward
          | .ok () =>
              match ← (Attempt.request (.connect port deadline) id : Act Unit).outcome with
              | .error original => rollbackAfterStarted original self.client self.package removeForward
              | .ok () =>
                  pure { adbPath := self.adbPath, serial := self.serial, localabstract := self.localabstract, port }

/-- `encode` writes base64url without padding. -/
def launch (encode : Bytes → Chars) (descriptor : Bytes) (deadline : AbsoluteDeadline) : Act AndroidCleanup := do
  self.prepare descriptor deadline
  self.client.start (self.package ++ bootstrapActivity) (encode descriptor) .given deadline
  self.setUp deadline

end AndroidPendingLaunch

end Android
end AppPilotKit.Adapter
