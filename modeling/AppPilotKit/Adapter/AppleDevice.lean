import AppPilotKit.Adapter.Apple

/-! # A Simulator behind `simctl`

The device has the app or not, and processes of the app. A command that is reported successful has
done its work and tells the truth; any other command may have done its work or nothing. Processes
may end at any time. Beside the device there is the ledger, and nobody else changes either.
-/

namespace AppPilotKit.Adapter.Apple

open Scripts

structure Device where
  installed : Bool
  processes : List Process
  ledger : ReservationLedger

/-- No reservation is made or released. -/
structure ReservationLedger.Same (ledger ledger' : ReservationLedger) : Prop where
  ports : ledger'.ports = ledger.ports
  targets : ledger'.targets = ledger.targets

/-- Nothing happens but that processes end. -/
structure Device.Idle (d d' : Device) : Prop where
  installed : d'.installed = d.installed
  processes : d'.processes ⊆ d.processes
  ledger : d'.ledger = d.ledger

namespace SimctlCommand

/-- What a command does that does its work. A signal only makes the process end later. -/
def Effect : SimctlCommand → Device → Device → Prop
  | .install _ _, d, d' => d' = { d with installed := true }
  | .uninstall _ _, d, d' => d' = { d with installed := false }
  | .launch _ _, d, d' => (∃ pid, d' = { d with processes := d.processes ++ [{ pid, launched := true }] }) ∨
      d.processes ≠ [] ∧ d' = d
  | _, d, d' => d' = d

/-- What the output says is so. -/
def Truthful (container appId : Chars) (output : ToolOutput) (d' : Device) : SimctlCommand → Prop
  | .listapps _ => ∀ present, parseListappsContains output.stdout appId = .ok present → present = d'.installed
  | .ps _ => ∀ pids, parseProcessTable output.stdout container = .ok pids →
      ∀ pid, pid ∈ pids ↔ ∃ process ∈ d'.processes, process.pid = pid
  | .launch _ _ => ∀ pid, parseLaunchPid output.stdout appId = .ok pid → ∃ process ∈ d'.processes, process.pid = pid
  | _ => True

structure Answers (container appId : Chars) (command : SimctlCommand) (d : Device)
    (reply : Except PlatformFailure ToolOutput) (d' : Device) : Prop where
  works : ∀ output, successful reply = .ok output → command.Effect d d' ∧ command.Truthful container appId output d'
  otherwise : d' = d ∨ command.Effect d d'

end SimctlCommand

/-- What the device and the ledger may do when they are asked. The container is the one directory
    that paths of the app resolve to. -/
def world (container appId : Chars) : World Request Request.Reply Device
  | d, .tool _ arguments _ _ _ _, reply, d' => ∃ mid command, d.Idle mid ∧ SimctlCommand.arguments command = arguments ∧
      command.Answers container appId mid reply d'
  | d, .directory _, reply, d' => d.Idle d' ∧ ∀ path, reply = some path → path = container
  | d, .reserve port target, reply, d' => d.Idle { d' with ledger := d.ledger } ∧
      (reply, d'.ledger) = d.ledger.reserve port target
  | d, .release reservation, reply, d' => d.Idle { d' with ledger := d.ledger } ∧
      (reply, d'.ledger) = d.ledger.release reservation
  | d, .newSource port, reply, d' => d.Idle { d' with ledger := d.ledger } ∧ (reply, d'.ledger) = d.ledger.newSource port
  | d, .dropSource port, _, d' => d.Idle { d' with ledger := d.ledger } ∧ d'.ledger = d.ledger.dropSource port
  | d, _, _, d' => d.Idle d'

/-! ## How far a launch has come -/

/-- Before the install of a launch, after it, after `simctl launch`; or stranded in between. -/
inductive Stage where
  | before
  | installed
  | launched
  | stranded
  deriving DecidableEq

namespace Stage

/-- An install that was reported successful. -/
def installs : Step Request Request.Reply Device → Bool
  | ⟨_, .tool _ [_, command, _, _] _ _ _ _, reply, _⟩ => command == "install".toList && (successful reply).toOption.isSome
  | _ => false

def launches : Step Request Request.Reply Device → Bool
  | ⟨_, .tool _ [_, command, _, _] _ _ _ _, _, _⟩ => command == "launch".toList
  | _ => false

/-- A listing, the container or the snapshot check that does not answer, or not readably. -/
def fails (container appId : Chars) : Step Request Request.Reply Device → Bool
  | ⟨_, .tool _ [_, command, _] _ _ _ _, reply, _⟩ => command == "listapps".toList &&
      (successful reply >>= fun output => parseListappsContains output.stdout appId).toOption.isNone
  | ⟨_, .tool _ [_, command, _, _, _] _ _ _ _, reply, _⟩ => command == "get_app_container".toList &&
      (successful reply >>= fun output => singleLinePath output.stdout).toOption.isNone
  | ⟨_, .tool _ [_, _, _, command, _, _] _ _ _ _, reply, _⟩ => command == "/bin/ps".toList &&
      (successful reply >>= fun output => parseProcessTable output.stdout container).toOption.isNone
  | ⟨_, .directory _, reply, _⟩ => Option.isNone reply
  | ⟨_, .assertSnapshotUnchanged .., reply, _⟩ => (Except.toOption reply).isNone
  | _ => false

def next (container appId : Chars) (step : Step Request Request.Reply Device) : Stage → Stage
  | before => if installs step then installed else if launches step then launched else before
  | installed => if launches step then launched else if fails container appId step then stranded else installed
  | launched => launched
  | stranded => stranded

/-- The stage after the steps, the latest first. -/
def after (container appId : Chars) (past : List (Step Request Request.Reply Device)) : Stage :=
  past.foldr (next container appId) before

end Stage

end AppPilotKit.Adapter.Apple
