import AppPilotKit.Adapter.Common
import AppPilotKit.Lib.Utf8

/-! # The tree of an iOS app

An app is a directory. The adapter collects its entries by recursion, in the order in which the
names are read, sorts them by path and streams them with their contents: the stream is what is
hashed. The files do not change meanwhile.
-/

namespace AppPilotKit.Adapter.Artifact

open Wire

def magic : Bytes := "APPPILOTKIT-IOS-APP-TREE".toList.map (fun c => UInt8.ofNat c.toNat) ++ [0, 1]

def maxEntries : Nat := 65535
def maxPathBytes : Nat := 4096
def maxComponentBytes : Nat := 255
def maxDepth : Nat := 64
def maxFileBytes : Nat := 512 * 1024 * 1024
def maxTotalFileBytes : Nat := 1024 * 1024 * 1024
def copyBufferBytes : Nat := 64 * 1024

def slash : UInt8 := 0x2f

/-- What a directory can have as a name. -/
structure Name where
  bytes : Bytes
  nonempty : bytes ≠ []
  noSlash : slash ∉ bytes
  deriving DecidableEq

/-- A directory, with its names in the order in which they are read. Special are symbolic links,
    hard links, devices, and what has a resource fork. -/
inductive Directory where
  | empty
  | directory (name : Name) (children others : Directory)
  | file (name : Name) (executable : Bool) (content : Bytes) (others : Directory)
  | special (name : Name) (others : Directory)

inductive EntryKind where
  | directory
  | file
  deriving DecidableEq

structure Entry where
  path : Bytes
  kind : EntryKind
  executable : Bool
  size : Nat
  deriving DecidableEq

abbrev Inspected := Except PlatformFailure

def reject {α : Type} : Inspected α := .error (failure .rejected)

/-! ## Collecting -/

def validatePath (path : Bytes) : Inspected Unit :=
  if path = [] ∨ maxPathBytes < path.length ∨ 0 ∈ path ∨ ¬ Cbor.validUtf8 path then reject
  else
    let components := path.splitOn slash
    if maxDepth < components.length ∨ ∃ component ∈ components,
        component = [] ∨ maxComponentBytes < component.length ∨ component = [0x2e] ∨ component = [0x2e, 0x2e] then reject
    else .ok ()

def joinRelative (parent name : Bytes) : Inspected Bytes := do
  let path := parent ++ (if parent = [] then [] else [slash]) ++ name
  validatePath path
  .ok path

/-- The bytes of all files so far, with another file. -/
def requireFileBudget (size total : Nat) : Inspected Nat :=
  if maxFileBytes < size then reject
  else if maxTotalFileBytes < total + size then reject
  else .ok (total + size)

/-- The path of the next entry, while there is room for it. -/
def nextPath (parentPath : Bytes) (name : Name) (entries : List Entry) : Inspected Bytes := do
  let path ← joinRelative parentPath name.bytes
  if maxEntries ≤ entries.length then reject else .ok path

def collectDirectory : Directory → Bytes → List Entry → Nat → Inspected (List Entry × Nat)
  | .empty, _, entries, total => .ok (entries, total)
  | .directory name children others, parentPath, entries, total => do
      let path ← nextPath parentPath name entries
      let (entries, total) ←
        collectDirectory children path (entries ++ [{ path, kind := .directory, executable := false, size := 0 }]) total
      collectDirectory others parentPath entries total
  | .file name executable content others, parentPath, entries, total => do
      let path ← nextPath parentPath name entries
      let total ← requireFileBudget content.length total
      collectDirectory others parentPath (entries ++ [{ path, kind := .file, executable, size := content.length }]) total
  | .special name _, parentPath, entries, _ => do
      let _ ← nextPath parentPath name entries
      reject

/-- `rposition` of a slash. -/
def lastSlash (path : Bytes) : Option Nat := (path.reverse.findIdx? (· = slash)).map fun i => path.length - 1 - i

/-- Directories are looked up by their paths. -/
local instance path_lawful : LawfulBEq Bytes := inferInstance

def validateTopology (entries : List Entry) : Inspected Unit :=
  let directories := (entries.filter (·.kind = .directory)).map (·.path)
  if ∀ entry ∈ entries, ∀ separator ∈ lastSlash entry.path, entry.path.take separator ∈ directories then .ok () else reject

def sortEntries (entries : List Entry) : List Entry := entries.mergeSort fun left right => decide (¬ right.path < left.path)

def collectEntries (root : Directory) : Inspected (List Entry) := do
  let (collected, _) ← collectDirectory root [] [] 0
  let entries := sortEntries collected
  if maxEntries < entries.length ∨ ¬ entries.IsChain (fun left right => left.path < right.path) then reject
  validateTopology entries
  .ok entries

/-! ## The stream -/

/-- What a name stands for. -/
inductive Object where
  | directory (children : Directory)
  | file (content : Bytes)
  | special

def Directory.find (name : Bytes) : Directory → Option Object
  | .empty => none
  | .directory other children others => if other.bytes = name then some (.directory children) else others.find name
  | .file other _ content others => if other.bytes = name then some (.file content) else others.find name
  | .special other others => if other.bytes = name then some .special else others.find name

/-- The directories down to the last component are opened, then the file. -/
def openComponents : Directory → List Bytes → Inspected Bytes
  | _, [] => reject
  | directory, [name] =>
      match directory.find name with
      | some (.file content) => .ok content
      | _ => reject
  | directory, component :: components =>
      match directory.find component with
      | some (.directory children) => openComponents children components
      | _ => reject

def openRelativeFile (root : Directory) (relative : Bytes) : Inspected Bytes := openComponents root (relative.splitOn slash)

/-- The loop over the buffers: what is emitted, and what of the file is left. -/
def copyFile (remaining : Nat) (file : Bytes) : Inspected (Bytes × Bytes) :=
  if remaining = 0 then .ok ([], file)
  else
    let amount := min remaining copyBufferBytes
    if file.length < amount then reject
    else do
      let (emitted, rest) ← copyFile (remaining - amount) (file.drop amount)
      .ok (file.take amount ++ emitted, rest)
termination_by remaining
decreasing_by
  unfold copyBufferBytes
  omega

def EntryKind.code : EntryKind → UInt8
  | .directory => 1
  | .file => 2

def recordHeader (entry : Entry) : Bytes :=
  entry.kind.code :: (be 4 entry.path.length ++ entry.path ++ [if entry.executable then 1 else 0] ++
    if entry.kind = .file then be 8 entry.size else [])

def emitRecord (root : Directory) (entry : Entry) : Inspected Bytes := do
  if 2 ^ 32 ≤ entry.path.length then reject
  match entry.kind with
  | .directory => .ok (recordHeader entry)
  | .file => do
      let file ← openRelativeFile root entry.path
      let (payload, trailing) ← copyFile entry.size file
      if trailing ≠ [] then reject
      .ok (recordHeader entry ++ payload)

def emitRecords (root : Directory) : List Entry → Inspected Bytes
  | [] => .ok []
  | entry :: entries => do
      let record ← emitRecord root entry
      let others ← emitRecords root entries
      .ok (record ++ others)

/-- All that is given to the hasher. -/
def emitEntries (root : Directory) (entries : List Entry) : Inspected Bytes := do
  if 2 ^ 32 ≤ entries.length then reject
  let records ← emitRecords root entries
  .ok (magic ++ be 4 entries.length ++ records)

def hashEntries {Digest : Type} (sha256 : Bytes → Digest) (root : Directory) (entries : List Entry) : Inspected Digest := do
  let stream ← emitEntries root entries
  .ok (sha256 stream)

/-! ## The tree and its encoding -/

/-- What is at a path. -/
inductive Node where
  | directory
  | file (executable : Bool) (content : Bytes)
  deriving DecidableEq

/-- What is in a directory and below, by its names from there. -/
def Directory.places : Directory → List (List Name × Node)
  | .empty => []
  | .directory name children others =>
      ([name], .directory) :: (children.places.map (fun place => (name :: place.1, place.2)) ++ others.places)
  | .file name executable content others => ([name], .file executable content) :: others.places
  | .special _ others => others.places

def pathOf (names : List Name) : Bytes := [slash].intercalate (names.map (·.bytes))

/-- The tree: its paths and what is there. -/
def Directory.tree (root : Directory) : Set (Bytes × Node) := {record | record ∈ root.places.map fun place => (pathOf place.1, place.2)}

/-- A record of the stream, read back with what follows it. -/
def readRecord : Bytes → Option ((Bytes × Node) × Bytes)
  | kind :: rest =>
      let length := beNat (rest.take 4)
      let path := (rest.drop 4).take length
      match (rest.drop 4).drop length with
      | executable :: rest =>
          if kind = 1 then some ((path, .directory), rest)
          else
            let size := beNat (rest.take 8)
            some ((path, .file (decide (executable = 1)) ((rest.drop 8).take size)), (rest.drop 8).drop size)
      | [] => none
  | [] => none

def readRecords : Nat → Bytes → Option (List (Bytes × Node) × Bytes)
  | 0, rest => some ([], rest)
  | count + 1, bytes => do
      let (record, rest) ← readRecord bytes
      let (records, rest) ← readRecords count rest
      some (record :: records, rest)

/-- The records of a whole stream. -/
def readTree (stream : Bytes) : Option (List (Bytes × Node)) :=
  if stream.take magic.length ≠ magic then none
  else
    let counted := stream.drop magic.length
    match readRecords (beNat (counted.take 4)) (counted.drop 4) with
    | some (records, []) => some records
    | _ => none

end AppPilotKit.Adapter.Artifact
