import AppPilotKit.Adapter.AppleTools
import AppPilotKit.Adapter.Ledger
import AppPilotKit.Raw.Launch

/-! # Launching on an Apple Simulator

A launch installs the app where it is absent, starts it with `simctl` and connects to the port
that it has reserved. It removes only what it has put there itself, and stops only the process
that it has proven to be its own. Tools, files, clocks, sockets and the ledger are the world.
-/

namespace AppPilotKit.Adapter.Apple

open Wire (Bytes)
open Raw (PlatformFailureKind AbsoluteDeadline LaunchEndpoint saturatingAdd)
open Broker (Platform)
open Scripts (Attempt)

def descriptorCap : Nat := 8192
def termGraceMs : Nat := 250
def cleanupBudgetMs : Nat := 2000

structure TargetSelection where
  platform : Platform
  deviceSelector : Chars
  appId : Chars
  artifactPath : Chars
  artifactDigest : Bytes

def TargetKey.fromSelection (selection : TargetSelection) : TargetKey :=
  { udid := selection.deviceSelector, appId := selection.appId }

structure PreparedLaunchArtifact where
  snapshotPath : Chars
  digest : Bytes
  executable : Chars
  deriving DecidableEq

structure ProcessIdentity where
  startSeconds : Nat
  startMicroseconds : Nat
  deriving DecidableEq

structure LaunchCandidate where
  appPath : Chars
  installedByLease : Bool
  deriving DecidableEq

structure TargetOwner where
  udid : Chars
  appPath : Chars
  pid : Nat
  identity : ProcessIdentity
  deriving DecidableEq

/-- A connected socket and the source port that is reserved for it. -/
structure ConnectedLoopback where
  sourcePort : Nat
  deriving DecidableEq

/-! ## The world -/

inductive Request where
  | cancelled (cancellation : Cancellation)
  /-- The wall clock in milliseconds, unless it is before the epoch. -/
  | now
  | prepare (selection : TargetSelection) (cancellation : Cancellation) (deadline : AbsoluteDeadline)
  | assertSnapshotUnchanged (artifact : PreparedLaunchArtifact) (cancellation : Cancellation) (deadline : AbsoluteDeadline)
  | verifyInstalled (installed : Chars) (artifact : PreparedLaunchArtifact) (cancellation : Cancellation)
      (deadline : AbsoluteDeadline)
  | tool (program : Chars) (arguments : List Chars) (descriptor : Option Chars) (cap : Nat)
      (cancellation : Cancellation) (deadline : AbsoluteDeadline)
  /-- The canonical path, where it is one of a directory. -/
  | directory (path : Chars)
  | identity (pid : Nat) (installedApp : Chars)
  /-- A connector other than the one of the system. -/
  | connect (port : Nat) (cancellation : Cancellation) (deadline : AbsoluteDeadline)
  /-- A listener on a port that the system picks. -/
  | bindListener
  /-- A socket bound to a source port that the system picks. -/
  | bindSource
  /-- Connect the bound socket; a call may also not be done yet. -/
  | connectSource (port : Nat) (cancellation : Cancellation) (deadline : AbsoluteDeadline)
  /-- The calls on a connected socket before it becomes a raw stream. -/
  | wrap
  | cancelStreams
  | reserve (port : Nat) (target : Option TargetKey)
  | release (reservation : AdapterReservation)
  | newSource (port : Nat)
  | dropSource (port : Nat)

def Request.Reply : Request → Type
  | .cancelled _ => Bool
  | .now => Option Nat
  | .prepare .. => Except PlatformFailure PreparedLaunchArtifact
  | .tool .. => Except PlatformFailure ToolOutput
  | .directory _ => Option Chars
  | .identity .. => Except PlatformFailure ProcessIdentity
  | .connect .. => Except PlatformFailure ConnectedLoopback
  | .bindListener | .bindSource => Option Nat
  | .reserve .. => Option (AdapterReservation × Bool)
  | .dropSource _ => Unit
  | .assertSnapshotUnchanged .. | .verifyInstalled .. | .connectSource .. | .wrap | .cancelStreams | .release _
  | .newSource _ => Except PlatformFailure Unit

abbrev Act (α : Type) : Type := Attempt Request Request.Reply PlatformFailure α

/-! ## Clocks -/

def unixMs : Act Nat := Attempt.request .now fun
  | some now => if now < 2 ^ 64 then .ok now else .error (failure .internal)
  | none => .error (failure .internal)

def remaining (deadline : AbsoluteDeadline) : Act Nat := do
  let now ← unixMs
  if deadline.value - now = 0 then throw (failure .timedOut) else pure (deadline.value - now)

def checkCancelDeadline (cancellation : Cancellation) (deadline : AbsoluteDeadline) : Act Unit := do
  let cancelled : Bool ← Attempt.request (.cancelled cancellation) Except.ok
  if cancelled then throw (failure .cancelled) else do
    let _ ← remaining deadline

def cleanupDeadline : Act AbsoluteDeadline := Attempt.request .now fun
  | some now =>
      if now < 2 ^ 64 then
        (AbsoluteDeadline.new (saturatingAdd now cleanupBudgetMs) (by unfold saturatingAdd; omega)).mapError failure
      else .error (failure .internal)
  | none => .error (failure .internal)

/-! ## Tools -/

/-- The path of `xcrun`, and the JSON parser. -/
structure Tools where
  program : Chars
  strictJson : Chars → Option JsonText

def successful : Except PlatformFailure ToolOutput → Except PlatformFailure ToolOutput
  | .error failed => .error failed
  | .ok output => if output.oversized ∨ ¬ output.success then .error (failure .rejected) else .ok output

section
variable (tools : Tools) (cancellation : Cancellation) (deadline : AbsoluteDeadline)

/-- `run_success`, and the reading of its output. -/
def runSuccess {α : Type} (command : SimctlCommand) (reads : ToolOutput → Except PlatformFailure α) : Act α :=
  Attempt.request (.tool tools.program command.arguments none toolOutputCap cancellation deadline)
    fun reply => successful reply >>= reads

def helpContains (topic : Chars) (expected : List Chars) : Act Unit :=
  runSuccess tools cancellation deadline (.help topic) fun output =>
    strictHelpText output >>= fun text =>
      if expected.all fun word => word <:+: text then .ok () else .error (failure .unavailable)

def featureProbe : Act Unit := do
  helpContains tools cancellation deadline "list".toList ["--json".toList, "devices".toList]
  helpContains tools cancellation deadline "launch".toList
    ["SIMCTL_CHILD_".toList, "<device>".toList, "bundle identifier".toList]
  helpContains tools cancellation deadline "spawn".toList ["Spawn a process".toList]
  helpContains tools cancellation deadline "listapps".toList ["Show the installed applications".toList]
  helpContains tools cancellation deadline "install".toList ["Install an app".toList]
  helpContains tools cancellation deadline "uninstall".toList ["Uninstall an app".toList]

variable (selection : TargetSelection)

def installedAppPresent : Act Bool :=
  runSuccess tools cancellation deadline (.listapps selection.deviceSelector) fun output =>
    parseListappsContains output.stdout selection.appId

def installedAppPath : Act Chars := do
  let installed ← runSuccess tools cancellation deadline
    (.getAppContainer selection.deviceSelector selection.appId) fun output => singleLinePath output.stdout
  Attempt.request (.directory installed) fun
    | some installed => .ok installed
    | none => .error (failure .rejected)

def matchingProcesses (udid installedApp : Chars) : Act (List Nat) :=
  runSuccess tools cancellation deadline (.ps udid) fun output => parseProcessTable output.stdout installedApp

def processIdentity (pid : Nat) (installedApp : Chars) : Act ProcessIdentity :=
  Attempt.request (.identity pid installedApp) id

variable (artifact : PreparedLaunchArtifact)

def assertSnapshotUnchanged : Act Unit :=
  Attempt.request (.assertSnapshotUnchanged artifact cancellation deadline) id

def verifyInstalled (installed : Chars) : Act Unit :=
  Attempt.request (.verifyInstalled installed artifact cancellation deadline) id

/-- What an error of a command that may have done its work is taken for. -/
def orCleanupFailed {α : Type} (m : Act α) : Act α := do
  match ← m.outcome with
  | .ok value => pure value
  | .error _ => throw (failure .cleanupFailed)

/-- Install the app, where it is absent. -/
def installIfAbsent : Act Bool := do
  let present ← installedAppPresent tools cancellation deadline selection
  if present then pure false else do
    assertSnapshotUnchanged cancellation deadline artifact
    orCleanupFailed (runSuccess tools cancellation deadline
      (.install selection.deviceSelector artifact.snapshotPath) fun _ => .ok ())
    let present ← installedAppPresent tools cancellation deadline selection
    if present then pure true else throw (failure .cleanupFailed)

def verifyExactCandidate : Act LaunchCandidate := do
  runSuccess tools cancellation deadline (.list selection.deviceSelector) fun output =>
    verifyDeviceJson tools.strictJson output.stdout selection.deviceSelector
  let installedByLease ← installIfAbsent tools cancellation deadline selection artifact
  let installed ← installedAppPath tools cancellation deadline selection
  match ← (verifyInstalled cancellation deadline artifact installed).outcome with
  | .error _ => throw (failure (if installedByLease then .cleanupFailed else .rejected))
  | .ok () =>
      let processes ← matchingProcesses tools cancellation deadline selection.deviceSelector installed
      if processes = [] then pure { appPath := installed, installedByLease }
      else throw (failure (if installedByLease then .cleanupFailed else .rejected))

def proveExactOwner (installedApp : Chars) (pid : Nat) : Act TargetOwner := do
  let processes ← matchingProcesses tools cancellation deadline selection.deviceSelector installedApp
  if processes = [pid] then do
    let identity ← processIdentity pid installedApp
    pure { udid := selection.deviceSelector, appPath := installedApp, pid, identity }
  else throw (failure .rejected)

/-! ## Cleaning up -/

def cleanupOwnedInstallation (candidate : LaunchCandidate) : Act Unit := do
  if ¬ candidate.installedByLease then pure () else do
    let present ← installedAppPresent tools cancellation deadline selection
    if ¬ present then pure () else do
      let current ← installedAppPath tools cancellation deadline selection
      if current ≠ candidate.appPath then throw (failure .cleanupFailed) else do
        match ← (verifyInstalled cancellation deadline artifact current).outcome with
        | .error _ => throw (failure .cleanupFailed)
        | .ok () =>
            let processes ← matchingProcesses tools cancellation deadline selection.deviceSelector current
            if processes ≠ [] then throw (failure .cleanupFailed) else do
              orCleanupFailed (runSuccess tools cancellation deadline
                (.uninstall selection.deviceSelector selection.appId) fun _ => .ok ())
              let present ← installedAppPresent tools cancellation deadline selection
              if present then throw (failure .cleanupFailed) else pure ()

variable (owner : TargetOwner)

def sendSignal (signal : Signal) : Act Unit :=
  orCleanupFailed (runSuccess tools cancellation deadline (.kill owner.udid signal owner.pid) fun _ => .ok ())

/-- What runs of the app: nothing, or exactly the owner. -/
def ownerRuns : Act Bool := do
  let current ← matchingProcesses tools cancellation deadline owner.udid owner.appPath
  if current = [] then pure false
  else if current ≠ [owner.pid] then throw (failure .cleanupFailed)
  else do
    let identity ← processIdentity owner.pid owner.appPath
    if identity ≠ owner.identity then throw (failure .cleanupFailed) else pure true

/-- The polling loop, followed for some rounds. -/
def awaitExit (termDeadline : Nat) : Nat → Bool → Act Unit
  | 0, _ => Attempt.cut
  | rounds + 1, sentKill => do
      let runs ← ownerRuns tools cancellation deadline owner
      if ¬ runs then pure () else do
        let sentKill ← (if sentKill then pure true else do
          let now ← unixMs
          if now ≥ termDeadline then do
            sendSignal tools cancellation deadline owner .kill
            pure true
          else pure false : Act Bool)
        match ← (remaining deadline).outcome with
        | .error _ => throw (failure .cleanupFailed)
        | .ok _ => awaitExit termDeadline rounds sentKill

def terminateExactOwner (rounds : Nat) : Act Unit := do
  let runs ← ownerRuns tools cancellation deadline owner
  if ¬ runs then pure () else do
    sendSignal tools cancellation deadline owner .term
    let now ← unixMs
    awaitExit tools cancellation deadline owner (saturatingAdd now termGraceMs) rounds false

end

def releaseReservation : Option AdapterReservation → Act Unit
  | some reservation => Attempt.request (.release reservation) id
  | none => pure ()

/-! ## The reservation and the connector -/

def isExactUdid (value : Chars) : Bool :=
  value.length = 36 ∧ (value.zipIdx.all fun (c, index) =>
    if index ∈ [8, 13, 18, 23] then c = '-' else c.isDigit ∨ ('A' ≤ c ∧ c ≤ 'F'))

def isBundleId (value : Chars) : Bool :=
  3 ≤ value.length ∧ value.length ≤ 255 ∧ '.' ∈ value ∧
    (value.splitOn '.').all fun part => part ≠ [] ∧ part.all fun c => c.isAlphanum ∨ c = '-' ∨ c = '_'

/-- `Path::extension`: what follows the last dot of the last component. -/
def pathExtension (path : Chars) : Option Chars :=
  match ((path.splitOn '/').filter fun part => part ≠ [] ∧ part ≠ ['.']).getLast? with
  | none => none
  | some name =>
      let before := name.reverse.dropWhile (· ≠ '.')
      if name = ['.', '.'] ∨ before.length ≤ 1 then none else some (name.reverse.takeWhile (· ≠ '.')).reverse

def validateSelection (selection : TargetSelection) : Except PlatformFailure Unit :=
  if selection.platform ≠ .iosSimulator ∨ ¬ isExactUdid selection.deviceSelector ∨ ¬ isBundleId selection.appId
      ∨ ¬ ['/'] <+: selection.artifactPath ∨ pathExtension selection.artifactPath ≠ some "app".toList
      ∨ '\x00' ∈ selection.artifactPath ∨ '\x00' ∈ selection.appId then .error (failure .rejected)
  else .ok ()

abbrev Reserved := LaunchEndpoint × AdapterReservation × Option PlatformFailure

def reserveRounds (target : Option TargetKey) : Nat → Act Reserved
  | 0 => throw (failure .unavailable)
  | rounds + 1 => do
      let port ← Attempt.request .bindListener fun
        | some port => .ok port
        | none => .error (failure .unavailable)
      match LaunchEndpoint.newIosLoopback port with
      | .error _ => reserveRounds target rounds
      | .ok endpoint =>
          let reserved : Option (AdapterReservation × Bool) ← Attempt.request (.reserve port target) Except.ok
          match reserved with
          | none => reserveRounds target rounds
          | some (reservation, conflict) =>
              pure (endpoint, reservation, if conflict then some (failure .rejected) else none)

def reserveDynamicLoopback (target : Option TargetKey) (deadline : AbsoluteDeadline) : Act Reserved := do
  let _ ← remaining deadline
  reserveRounds target 1024

/-- One connection from a source port of its own. -/
def connectOnceWithReservedSource (cancellation : Cancellation) (deadline : AbsoluteDeadline) :
    Act ConnectedLoopback := do
  let sourcePort ← Attempt.request .bindSource fun
    | some port => .ok port
    | none => .error (failure .unavailable)
  Attempt.request (.newSource sourcePort) id
  match ← (Attempt.request (.connectSource sourcePort cancellation deadline) id : Act Unit).outcome with
  | .ok () => pure { sourcePort }
  | .error failed => do
      Attempt.request (.dropSource sourcePort) Except.ok
      throw failed

/-- The retries of `connect_reserved_loopback`, followed for some rounds. -/
def connectRounds (cancellation : Cancellation) (deadline : AbsoluteDeadline) : Nat → Act ConnectedLoopback
  | 0 => Attempt.cut
  | rounds + 1 => do
      checkCancelDeadline cancellation deadline
      match ← (connectOnceWithReservedSource cancellation deadline).outcome with
      | .ok connection => pure connection
      | .error failed =>
          if failed.kind = .unavailable then connectRounds cancellation deadline rounds else throw failed

def connectReservedLoopback (rounds port : Nat) (cancellation : Cancellation) (deadline : AbsoluteDeadline) :
    Act ConnectedLoopback :=
  if port < 49152 then throw (failure .rejected) else connectRounds cancellation deadline rounds

/-- `LoopbackConnector::connect`. -/
abbrev LoopbackConnector := Nat → Cancellation → AbsoluteDeadline → Act ConnectedLoopback

/-- A connector of which nothing is known. -/
def anyConnector : LoopbackConnector := fun port cancellation deadline =>
  Attempt.request (.connect port cancellation deadline) id

/-! ## The launch -/

structure ApplePendingLaunch where
  endpoint : LaunchEndpoint
  selection : TargetSelection
  reservation : Option AdapterReservation
  failure : Option PlatformFailure

structure AppleCleanup where
  selection : TargetSelection
  artifact : PreparedLaunchArtifact
  candidate : LaunchCandidate
  owner : TargetOwner
  reservation : Option AdapterReservation

structure LaunchedTargetIo where
  bootstrap : ConnectedLoopback
  cleanup : AppleCleanup

/-- `TcpRawDuplex::new`: a socket that does not become a stream is dropped with its source port. -/
def tcpRawDuplex (connection : ConnectedLoopback) : Act ConnectedLoopback := do
  match ← (Attempt.request .wrap id : Act Unit).outcome with
  | .ok () => pure connection
  | .error failed => do
      Attempt.request (.dropSource connection.sourcePort) Except.ok
      throw failed

namespace ApplePendingLaunch

variable (self : ApplePendingLaunch) (tools : Tools)

def prelaunchFailure {α : Type} (original : PlatformFailure) : Act α :=
  if original.kind = .cleanupFailed then throw original
  else do
    match ← (releaseReservation self.reservation).outcome with
    | .ok () => throw original
    | .error _ => throw (Adapter.failure .cleanupFailed)

def afterUncertainLaunchFailure {α : Type} (candidate : LaunchCandidate) (artifact : PreparedLaunchArtifact)
    (original : PlatformFailure) : Act α := do
  orCleanupFailed do
    let deadline ← cleanupDeadline
    let processes ← matchingProcesses tools .new deadline self.selection.deviceSelector candidate.appPath
    if processes = [] then do
      cleanupOwnedInstallation tools .new deadline self.selection artifact candidate
      releaseReservation self.reservation
    else throw (Adapter.failure .cleanupFailed)
  throw original

def cleanAfterOwnedLaunchFailure {α : Type} (rounds : Nat) (candidate : LaunchCandidate)
    (artifact : PreparedLaunchArtifact) (owner : TargetOwner) (original : PlatformFailure) : Act α := do
  orCleanupFailed do
    let deadline ← cleanupDeadline
    terminateExactOwner tools .new deadline owner rounds
    cleanupOwnedInstallation tools .new deadline self.selection artifact candidate
    match self.reservation with
    | some reservation => releaseReservation (some reservation)
    | none => throw (Adapter.failure .cleanupFailed)
  throw original

variable (deadline : AbsoluteDeadline)

/-- What comes before `simctl launch`. -/
def prepare (descriptor : Bytes) : Act (LaunchCandidate × PreparedLaunchArtifact) := do
  checkCancelDeadline .given deadline
  if descriptor.length > descriptorCap then throw (Adapter.failure .rejected) else do
    let artifact ← Attempt.request (.prepare self.selection .given deadline) id
    featureProbe tools .given deadline
    let candidate ← verifyExactCandidate tools .given deadline self.selection artifact
    assertSnapshotUnchanged .given deadline artifact
    pure (candidate, artifact)

/-- The app is still the one that was prepared. -/
def stillExact (candidate : LaunchCandidate) (artifact : PreparedLaunchArtifact) : Act Unit := do
  assertSnapshotUnchanged .given deadline artifact
  verifyInstalled .given deadline artifact candidate.appPath

/-- `simctl launch`, and what proves the process it names to be the owner. -/
def start (encoded : Chars) (candidate : LaunchCandidate) : Act TargetOwner := do
  let pid ← Attempt.request
    (.tool tools.program (SimctlCommand.launch self.selection.deviceSelector self.selection.appId).arguments
      (some encoded) launchOutputCap .given deadline)
    fun reply => successful reply >>= fun output => parseLaunchPid output.stdout self.selection.appId
  proveExactOwner tools .given deadline self.selection candidate.appPath pid

/-- What comes after the owner is proven. -/
def attach (connect : LoopbackConnector) (rounds : Nat)
    (candidate : LaunchCandidate) (artifact : PreparedLaunchArtifact) (owner : TargetOwner) : Act LaunchedTargetIo := do
  let clean {α : Type} : PlatformFailure → Act α := self.cleanAfterOwnedLaunchFailure tools rounds candidate artifact owner
  match ← (stillExact deadline candidate artifact).outcome with
  | .error _ => clean (Adapter.failure .rejected)
  | .ok () =>
      match self.endpoint.iosPort with
      | none => throw (Adapter.failure .internal)
      | some port =>
          match ← (connect port .given deadline).outcome with
          | .error original => self.afterUncertainLaunchFailure tools candidate artifact original
          | .ok connection =>
              match ← (tcpRawDuplex connection).outcome with
              | .error original => clean original
              | .ok bootstrap =>
                  match ← (stillExact deadline candidate artifact).outcome with
                  | .error _ => do
                      let failed ← (clean (Adapter.failure .rejected) : Act Unit).outcome
                      -- the stream goes out of scope
                      Attempt.request (.dropSource bootstrap.sourcePort) Except.ok
                      match failed with
                      | .error failed => throw failed
                      | .ok () => throw (Adapter.failure .rejected)
                  | .ok () =>
                      pure { bootstrap, cleanup :=
                        { selection := self.selection, artifact, candidate, owner, reservation := self.reservation } }

/-- `encode` writes base64url without padding. -/
def launch (connect : LoopbackConnector) (encode : Bytes → Chars) (rounds : Nat) (descriptor : Bytes) : Act LaunchedTargetIo := do
  match self.failure with
  | some failed => self.prelaunchFailure failed
  | none =>
      match ← (self.prepare tools deadline descriptor).outcome with
      | .error failed => self.prelaunchFailure failed
      | .ok (candidate, artifact) =>
          match ← (self.start tools deadline (encode descriptor) candidate).outcome with
          | .error original => self.afterUncertainLaunchFailure tools candidate artifact original
          | .ok owner => self.attach tools deadline connect rounds candidate artifact owner

def abort : Act Unit := releaseReservation self.reservation

end ApplePendingLaunch

def beginLaunch (selection : TargetSelection) (deadline : AbsoluteDeadline) : Act ApplePendingLaunch := do
  let validationFailure := match validateSelection selection with
    | .ok () => none
    | .error failed => some failed
  let targetKey := if validationFailure = none then some (TargetKey.fromSelection selection) else none
  match ← (reserveDynamicLoopback targetKey deadline).outcome with
  | .ok (endpoint, owner, reservationFailure) =>
      pure { endpoint, selection, reservation := some owner, failure := reservationFailure.or validationFailure }
  | .error failed =>
      pure { endpoint := .iosLoopback 49152, selection, reservation := none, failure := some failed }

def AppleCleanup.cleanup (self : AppleCleanup) (tools : Tools) (deadline : AbsoluteDeadline) (rounds : Nat) :
    Act Unit := do
  Attempt.request .cancelStreams id
  orCleanupFailed (terminateExactOwner tools .given deadline self.owner rounds)
  orCleanupFailed (cleanupOwnedInstallation tools .given deadline self.selection self.artifact self.candidate)
  match self.reservation with
  | some reservation => releaseReservation (some reservation)
  | none => throw (failure .cleanupFailed)

end AppPilotKit.Adapter.Apple
