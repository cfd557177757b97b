import AppPilotKit.Adapter.Common
import AppPilotKit.Lib.JsonText

/-! # The tools of the Apple adapter

The `simctl` commands of a launch, and how their output is read. Reading is strict: what is not
as expected is rejected.
-/

namespace AppPilotKit.Adapter.Apple

def toolOutputCap : Nat := 1048576
def launchOutputCap : Nat := 65536
def openStepDepthCap : Nat := 128
def openStepNodeCap : Nat := 65536

/-! ## Commands -/

inductive Signal where
  | term
  | kill
  deriving DecidableEq

inductive SimctlCommand where
  | help (topic : Chars)
  | list (udid : Chars)
  | listapps (udid : Chars)
  | install (udid path : Chars)
  | uninstall (udid appId : Chars)
  | getAppContainer (udid appId : Chars)
  | ps (udid : Chars)
  | kill (udid : Chars) (signal : Signal) (pid : Nat)
  | launch (udid appId : Chars)
  deriving DecidableEq

def Signal.flag : Signal → Chars
  | .term => "-TERM".toList
  | .kill => "-KILL".toList

def SimctlCommand.arguments : SimctlCommand → List Chars
  | .help topic => ["simctl".toList, "help".toList, topic]
  | .list udid => ["simctl".toList, "list".toList, "--json".toList, "devices".toList, udid]
  | .listapps udid => ["simctl".toList, "listapps".toList, udid]
  | .install udid path => ["simctl".toList, "install".toList, udid, path]
  | .uninstall udid appId => ["simctl".toList, "uninstall".toList, udid, appId]
  | .getAppContainer udid appId => ["simctl".toList, "get_app_container".toList, udid, appId, "app".toList]
  | .ps udid => ["simctl".toList, "spawn".toList, udid, "/bin/ps".toList, "-axo".toList, "pid=,command=".toList]
  | .kill udid signal pid =>
      ["simctl".toList, "spawn".toList, udid, "/bin/kill".toList, signal.flag, Nat.toDigits 10 pid]
  | .launch udid appId => ["simctl".toList, "launch".toList, udid, appId]

/-- The arguments tell which command it is. -/
theorem SimctlCommand.arguments_injective {command other : SimctlCommand} (same : command.arguments = other.arguments) :
    command = other := by
  cases command <;> cases other <;> simp_all [arguments]
  next udid signal pid other signal' pid' =>
    refine ⟨?_, toDigits_injective same.2.2⟩
    cases signal <;> cases signal' <;> simp_all [Signal.flag]

/-- What a tool printed; `none` is not UTF-8. -/
structure ToolOutput where
  success : Bool
  oversized : Bool
  stdout : Option Chars
  stderr : Option Chars
  deriving DecidableEq

/-! ## Reading -/

/-- `str::len`. -/
def byteLength (text : Chars) : Nat := (text.map Char.utf8Size).sum

def strictUtf8 : Option Chars → Except PlatformFailure Chars
  | some text => .ok text
  | none => .error (failure .rejected)

/-- A printed text that is neither empty nor longer than `cap`. -/
def bounded (cap : Nat) (printed : Option Chars) : Except PlatformFailure Chars := do
  let text ← strictUtf8 printed
  if text = [] ∨ byteLength text > cap then .error (failure .rejected) else .ok text

/-- The text before the line ending that it must have. -/
def beforeNewline (text : Chars) : Except PlatformFailure Chars :=
  match stripSuffix ['\n'] text with
  | some line => .ok line
  | none => .error (failure .rejected)

def strictHelpText (output : ToolOutput) : Except PlatformFailure Chars :=
  match decide (output.stdout = some []), decide (output.stderr = some []) with
  | false, true => strictUtf8 output.stdout
  | true, false => strictUtf8 output.stderr
  | _, _ => .error (failure .rejected)

def singleLinePath (output : Option Chars) : Except PlatformFailure Chars := do
  let line ← bounded 16384 output >>= beforeNewline
  if line = [] ∨ '\n' ∈ line ∨ '\r' ∈ line ∨ '\x00' ∈ line ∨ ¬ ['/'] <+: line then .error (failure .rejected)
  else .ok line

def parseLaunchPid (output : Option Chars) (appId : Chars) : Except PlatformFailure Nat := do
  let line ← bounded 4096 output >>= beforeNewline
  if '\n' ∈ line ∨ '\r' ∈ line ∨ '\x00' ∈ line then .error (failure .rejected)
  else match (((stripPrefix appId line).bind (stripPrefix ": ".toList)).bind (parseUnsigned 32)).filter (0 < ·) with
    | some pid => .ok pid
    | none => .error (failure .rejected)

/-- `str::lines`, of a text that ends with a newline: a carriage return before it goes, too. -/
def linesOf (text : Chars) : List Chars :=
  (text.splitOn '\n').dropLast.map fun line => (stripSuffix ['\r'] line).getD line

/-- One line of `ps`, and whether it is a process of the app. -/
def parseProcessLine (installedApp line : Chars) : Except PlatformFailure (Option Nat) :=
  let line := line.dropWhile (· = ' ')
  match line.dropWhile (· ≠ ' ') with
  | [] => .error (failure .rejected)
  | _ :: rest =>
      match (parseUnsigned 32 (line.takeWhile (· ≠ ' '))).filter (0 < ·) with
      | none => .error (failure .rejected)
      | some pid =>
          let command := rest.dropWhile (· = ' ')
          if command = [] then .error (failure .rejected)
          else match stripPrefix (installedApp ++ ['/']) command with
            | none => .ok none
            | some relativeCommand =>
                let relative := relativeCommand.takeWhile (· ≠ ' ')
                .ok (if relative ≠ [] ∧ '/' ∉ relative then some pid else none)

def parseProcessTable (output : Option Chars) (installedApp : Chars) : Except PlatformFailure (List Nat) := do
  let text ← bounded toolOutputCap output
  let _ ← beforeNewline text
  let found ← (linesOf text).mapM (parseProcessLine installedApp)
  .ok ((found.filterMap id).insertionSort (· ≤ ·)).dedup

/-! ## The OpenStep list of apps -/

/-- What is left to read, and how many values have been entered. -/
structure OpenStep where
  rest : Chars
  nodes : Nat := 0

/-- A parser of the list; it fails by rejecting. -/
abbrev OpenStepParser (α : Type) : Type := StateT OpenStep Option α

namespace OpenStepParser

def reject {α : Type} : OpenStepParser α := fun _ => none

def isAsciiWhitespace (c : Char) : Bool := c = ' ' ∨ c = '\t' ∨ c = '\n' ∨ c = '\x0c' ∨ c = '\r'

def isHexDigit (c : Char) : Bool := c.isDigit ∨ ('a' ≤ c ∧ c ≤ 'f') ∨ ('A' ≤ c ∧ c ≤ 'F')

def hexValue (c : Char) : Nat :=
  if c.isDigit then c.toNat - '0'.toNat else if 'a' ≤ c then c.toNat - 'a'.toNat + 10 else c.toNat - 'A'.toNat + 10

def isOctal (c : Char) : Bool := '0' ≤ c ∧ c ≤ '7'

def isBare (c : Char) : Bool := c.isAlphanum ∨ c ∈ ['_', '$', '/', ':', '.', '-', '+']

/-- After `*/`, where there is one. -/
def afterComment : Chars → Option Chars
  | '*' :: '/' :: rest => some rest
  | _ :: rest => afterComment rest
  | [] => none

/-- Whitespace and comments; every round but the last takes a comment away. -/
def trivia : Nat → Chars → Option Chars
  | 0, _ => none
  | rounds + 1, text =>
      match text.dropWhile isAsciiWhitespace with
      | '/' :: '/' :: rest => trivia rounds (rest.dropWhile fun c => c ≠ '\n' ∧ c ≠ '\r')
      | '/' :: '*' :: rest => afterComment rest >>= trivia rounds
      | rest => some rest

def skipTrivia : OpenStepParser Unit := fun state => do
  let rest ← trivia (state.rest.length + 1) state.rest
  some ((), { state with rest })

def enter (depth : Nat) : OpenStepParser Unit := fun state =>
  if depth > openStepDepthCap ∨ state.nodes + 1 > openStepNodeCap then none
  else some ((), { state with nodes := state.nodes + 1 })

def consume (expected : Char) : OpenStepParser Bool := fun state =>
  match state.rest with
  | c :: rest => if c = expected then some (true, { state with rest }) else some (false, state)
  | [] => some (false, state)

def requireChar (expected : Char) : OpenStepParser Unit := do
  if ← consume expected then pure () else reject

/-- The character that an escape stands for, and what follows. -/
def escape : Chars → Option (Char × Chars)
  | '"' :: rest => some ('"', rest)
  | '\\' :: rest => some ('\\', rest)
  | 'a' :: rest => some ('\x07', rest)
  | 'b' :: rest => some ('\x08', rest)
  | 'f' :: rest => some ('\x0c', rest)
  | 'n' :: rest => some ('\n', rest)
  | 'r' :: rest => some ('\r', rest)
  | 't' :: rest => some ('\t', rest)
  | 'v' :: rest => some ('\x0b', rest)
  | 'U' :: rest =>
      let digits := rest.take 4
      let scalar := digits.foldl (fun n c => 16 * n + hexValue c) 0
      if digits.length = 4 ∧ digits.all isHexDigit ∧ scalar.isValidChar then some (Char.ofNat scalar, rest.drop 4) else none
  | c :: rest =>
      if isOctal c then
        let digits := c :: (rest.take 2).takeWhile isOctal
        some (Char.ofNat (Nat.ofDigitChars 8 digits 0), (c :: rest).drop digits.length)
      else none
  | [] => none

/-- The inside of a quoted string, up to its quote; every round takes a character. -/
def quoted : Nat → Chars → Chars → Option (Chars × Chars)
  | 0, _, _ => none
  | rounds + 1, value, text =>
      match text with
      | [] => none
      | '"' :: rest => some (value, rest)
      | '\\' :: rest => escape rest >>= fun (c, rest) => quoted rounds (value ++ [c]) rest
      | c :: rest => if c.toNat < 0x20 then none else quoted rounds (value ++ [c]) rest

/-- A quoted or a bare string. A key may not be empty. -/
def parseString (capture : Bool) : OpenStepParser Chars := do
  skipTrivia
  if ← consume '"' then
    fun state => do
      let (value, rest) ← quoted (state.rest.length + 1) [] state.rest
      if capture ∧ value = [] then none else some (value, { state with rest })
  else
    fun state =>
      let value := state.rest.takeWhile isBare
      if value = [] then none else some (value, { state with rest := state.rest.drop value.length })

/-- The inside of `<` and `>`: hex digits, an even number of them. -/
def dataRest (even : Bool) : Chars → Option Chars
  | [] => none
  | c :: rest =>
      if c = '>' ∧ even then some rest
      else if isHexDigit c then dataRest (!even) rest
      else if isAsciiWhitespace c then dataRest even rest
      else none

def parseData : OpenStepParser Unit := do
  requireChar '<'
  fun state => do
    let rest ← dataRest true state.rest
    some ((), { state with rest })

-- The first argument bounds the recursion: no value takes more calls than four for each character.
mutual
def parseDictionary : Nat → Nat → OpenStepParser (List Chars)
  | 0, _ => reject
  | fuel + 1, depth => do
      enter depth
      requireChar '{'
      parseMembers fuel depth []

/-- The members that are left, after the keys so far. -/
def parseMembers : Nat → Nat → List Chars → OpenStepParser (List Chars)
  | 0, _, _ => reject
  | fuel + 1, depth, keys => do
      skipTrivia
      if ← consume '}' then pure keys
      else do
        let key ← parseString true
        if key ∈ keys then reject
        else do
          skipTrivia
          requireChar '='
          parseValue fuel (depth + 1)
          skipTrivia
          requireChar ';'
          parseMembers fuel depth (key :: keys)

def parseValue : Nat → Nat → OpenStepParser Unit
  | 0, _ => reject
  | fuel + 1, depth => do
      enter depth
      skipTrivia
      match (← get).rest with
      | '{' :: _ => do
          let _ ← parseDictionary fuel depth
      | '(' :: _ => parseArray fuel depth
      | '<' :: _ => parseData
      | _ :: _ => do
          let _ ← parseString false
      | [] => reject

def parseArray : Nat → Nat → OpenStepParser Unit
  | 0, _ => reject
  | fuel + 1, depth => do
      requireChar '('
      skipTrivia
      if ← consume ')' then pure () else parseItems fuel depth

/-- The items that are left: at least one. -/
def parseItems : Nat → Nat → OpenStepParser Unit
  | 0, _ => reject
  | fuel + 1, depth => do
      parseValue fuel (depth + 1)
      skipTrivia
      if ← consume ')' then pure ()
      else do
        requireChar ','
        skipTrivia
        if ← consume ')' then pure () else parseItems fuel depth
end

/-- The keys of the one dictionary that the text is. -/
def parseRootDictionary (text : Chars) : Option (List Chars) := do
  let parser : OpenStepParser (List Chars) := do
    skipTrivia
    let keys ← parseDictionary (4 * text.length + 4) 0
    skipTrivia
    pure keys
  let (keys, state) ← parser { rest := text }
  if state.rest = [] then some keys else none

end OpenStepParser

def parseListappsContains (output : Option Chars) (appId : Chars) : Except PlatformFailure Bool := do
  let text ← bounded toolOutputCap output
  match OpenStepParser.parseRootDictionary text with
  | some keys => .ok (appId ∈ keys)
  | none => .error (failure .rejected)

/-- The devices of `simctl list --json`; `strictJson` is the JSON parser, without duplicate members. -/
def verifyDeviceJson (strictJson : Chars → Option JsonText) (output : Option Chars) (exactUdid : Chars) :
    Except PlatformFailure Unit := do
  let text ← bounded toolOutputCap output
  let members : JsonText → Option (List (String × JsonText))
    | .object members => some members
    | _ => none
  let entryOf (entry : JsonText) : Option (Chars × Chars × Bool) := do
    let entry ← members entry
    let .string udid ← entry.lookup "udid" | none
    let .string state ← entry.lookup "state" | none
    let .word available ← entry.lookup "isAvailable" | none
    if available = "true".toList then some (udid.toList, state.toList, true)
    else if available = "false".toList then some (udid.toList, state.toList, false)
    else none
  let runtimeOf (runtime : JsonText) : Option (List (Chars × Chars × Bool)) :=
    match runtime with
    | .array entries => entries.mapM entryOf
    | _ => none
  let read : Option (List (Chars × Chars × Bool)) := do
    let root ← strictJson text >>= members
    let devices ← root.lookup "devices" >>= members
    return (← devices.mapM fun runtime => runtimeOf runtime.2).flatten
  match read with
  | none => .error (failure .rejected)
  | some entries =>
      if (entries.filter (·.1 = exactUdid)).map (·.2) = [("Booted".toList, true)] then .ok ()
      else .error (failure .rejected)

end AppPilotKit.Adapter.Apple
