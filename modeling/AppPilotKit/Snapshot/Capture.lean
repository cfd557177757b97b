import AppPilotKit.Lib.Patterns

/-! # Provider captures

What a snapshot provider returns and how `UISnapshotRuntime` checks it: the
metadata of each source, then its nodes, which are one tree in native depth-first
order.
-/

namespace AppPilotKit.Snapshot

inductive UIPlatform where
  | iOS
  | android
deriving DecidableEq, Repr

inductive UIRepresentation where
  | native
  | semantics
  | accessibility
deriving DecidableEq, Repr

inductive UICoordinateUnit where
  | point
  | pixel
deriving DecidableEq, Repr

inductive UISourceCoverage where
  | complete
  | partly
deriving DecidableEq, Repr

/-- A `Double`: its value, when it is finite. -/
abbrev Double := Option ℚ

def Double.isFinite (d : Double) : Bool := Option.isSome d

structure UICoordinateSpace where
  unit : UICoordinateUnit
  scale : Double
deriving DecidableEq

structure UIRect where
  x : Double
  y : Double
  width : Double
  height : Double
deriving DecidableEq

structure UIProviderDescriptor where
  name : String
  platform : UIPlatform
deriving DecidableEq

inductive JSONValue where
  | null
  | bool (value : Bool)
  | integer (value : Int)
  | unsignedInteger (value : Nat)
  | number (value : Double)
  | string (value : String)
  | array (values : List JSONValue)
  | object (fields : List (String × JSONValue))

structure UISnapshotScope where
  sessionID : String
  processGeneration : Nat
deriving DecidableEq

structure UISnapshotIdentity where
  id : String
  generation : Nat
deriving DecidableEq

structure RedactedNodeIndex where
  identifier : Option String := none
  text : Option String := none
  className : Option String := none
  typeName : Option String := none
  traits : Option (List String) := none
  frame : Option UIRect := none
  visible : Option Bool := none
  interactive : Option Bool := none

structure RedactedNodeCapture where
  id : String
  parentID : Option String := none
  childIndex : Option Int := none
  depth : Int
  childCount : Int
  index : Option RedactedNodeIndex := none
  native : Option (List (String × JSONValue)) := none

structure RedactedSourceCapture where
  id : String
  provider : String
  platform : UIPlatform
  representation : UIRepresentation
  nativeSchema : String
  coordinateSpace : UICoordinateSpace
  coverage : UISourceCoverage
  limitations : Option (List String) := none
  nodes : List RedactedNodeCapture

structure RedactedProviderCapture where
  sources : List RedactedSourceCapture

/-! ## Validation -/

/-- `ProviderCaptureValidationError`, by its reason. -/
abbrev Checked := Except String

def require (condition : Bool) (reason : String) : Checked Unit := if condition then .ok () else .error reason

/-- `matches`: the pattern matches all of a value of bounded length. The patterns
    allow ASCII only, so that characters and scalars are the same. -/
def matchesWithin (pattern : String → Bool) (maximumLength : Nat) (value : String) : Bool :=
  decide (value.length ≤ maximumLength) && pattern value

/-- `^[a-z][a-z0-9._-]{0,63}$`. -/
def sourceID (s : String) : Bool :=
  Patterns.word Patterns.lower (fun c => Patterns.lowerOrDigit c || c == '.' || c == '_' || c == '-') s.toList &&
    decide (s.length ≤ 64)

/-- `^[a-z][a-z0-9.-]*@[1-9][0-9]*$`. -/
def nativeSchemaName (s : String) : Bool :=
  let name := s.toList.takeWhile (· != '@')
  let version := s.toList.drop (name.length + 1)
  s.toList.contains '@' &&
    Patterns.word Patterns.lower (fun c => Patterns.lowerOrDigit c || c == '.' || c == '-') name &&
    Patterns.word (fun c => Patterns.digit c && c != '0') Patterns.digit version

/-- `valid`: an absent text is. -/
def validLength (value : Option String) (minimumLength maximumLength : Nat) : Bool :=
  value.all fun text => decide (minimumLength ≤ text.length) && decide (text.length ≤ maximumLength)

mutual
def isJSONSafe : JSONValue → Bool
  | .null | .bool _ | .integer _ | .unsignedInteger _ | .string _ => true
  | .number number => number.isFinite
  | .array values => allJSONSafe values
  | .object fields => fieldsJSONSafe fields

def allJSONSafe : List JSONValue → Bool
  | [] => true
  | value :: values => isJSONSafe value && allJSONSafe values

def fieldsJSONSafe : List (String × JSONValue) → Bool
  | [] => true
  | (_, value) :: fields => isJSONSafe value && fieldsJSONSafe fields
end

def distinct (values : List String) : Bool := decide values.Nodup

def invalidGraph (source : RedactedSourceCapture) (reason : String) : String :=
  "Invalid graph for source " ++ source.id ++ ": " ++ reason

def nonnegative (d : Double) : Bool := d.any fun value => decide (0 ≤ value)

def validatePayload (node : RedactedNodeCapture) (source : RedactedSourceCapture) : Checked Unit := do
  if let some index := node.index then
    let hasValue := index.identifier.isSome || index.text.isSome || index.className.isSome || index.typeName.isSome ||
      index.traits.isSome || index.frame.isSome || index.visible.isSome || index.interactive.isSome
    require (hasValue && validLength index.identifier 1 512 && validLength index.text 0 4096 &&
      validLength index.className 1 512 && validLength index.typeName 1 512) (invalidGraph source "invalid node index")
    if let some traits := index.traits then
      require (distinct traits && traits.all fun trait => trait != "" && decide (trait.length ≤ 128))
        (invalidGraph source "invalid node traits")
    if let some frame := index.frame then
      require (frame.x.isFinite && frame.y.isFinite && frame.width.isFinite && frame.height.isFinite &&
        nonnegative frame.width && nonnegative frame.height) (invalidGraph source "invalid node frame")
  if let some native := node.native then
    require (fieldsJSONSafe native) (invalidGraph source "native payload is not JSON-safe")

/-- What `validateGraph` knows of the nodes so far. -/
structure GraphState where
  nodeIDs : List String := []
  /-- The path to the last node, root first. -/
  stack : List RedactedNodeCapture := []
  /-- `childIndicesByParent`, as the pairs that were appended. -/
  childIndices : List (String × Int) := []

def GraphState.children (g : GraphState) (parentID : String) : Nat := g.childIndices.countP (·.1 == parentID)

/-- One round of the loop of `validateGraph`. -/
def visit (source : RedactedSourceCapture) (offset : Nat) (node : RedactedNodeCapture) (g : GraphState) :
    Checked GraphState := do
  require (node.id != "") (invalidGraph source "empty provider-local node ID")
  validatePayload node source
  require (!g.nodeIDs.contains node.id) (invalidGraph source ("duplicate node ID " ++ node.id))
  let g := { g with nodeIDs := node.id :: g.nodeIDs }
  require (decide (0 ≤ node.depth) && decide (0 ≤ node.childCount))
    (invalidGraph source "negative depth or child count")
  if node.depth = 0 then
    require (offset == 0 && node.parentID.isNone && node.childIndex.isNone) (invalidGraph source "missing or extra root")
    return { g with stack := [node] }
  match node.parentID, node.childIndex with
  | some parentID, some childIndex =>
      require (decide (0 ≤ childIndex)) (invalidGraph source "non-root node is missing adjacency")
      let stack := g.stack.take node.depth.toNat
      require (stack.length == node.depth.toNat && stack.getLast?.any (·.id == parentID))
        (invalidGraph source "nodes are not in native depth-first order")
      require (childIndex == g.children parentID) (invalidGraph source "siblings are not in native child order")
      return { g with stack := stack ++ [node], childIndices := g.childIndices ++ [(parentID, childIndex)] }
  | _, _ => throw (invalidGraph source "non-root node is missing adjacency")

def visitAll (source : RedactedSourceCapture) : Nat → List RedactedNodeCapture → GraphState → Checked GraphState
  | _, [], g => return g
  | offset, node :: nodes, g => do visitAll source (offset + 1) nodes (← visit source offset node g)

def validateGraph (source : RedactedSourceCapture) : Checked Unit := do
  let g ← visitAll source 0 source.nodes {}
  require (source.nodes.head?.any fun node => decide (node.depth = 0)) (invalidGraph source "missing root")
  require (source.nodes.all fun node => decide ((g.children node.id : Int) = node.childCount))
    (invalidGraph source "child count does not match captured nodes")

/-- `validate`, with the source IDs seen so far. -/
def validateSource (source : RedactedSourceCapture) (descriptor : UIProviderDescriptor) (sourceIDs : List String) :
    Checked (List String) := do
  require (source.provider == descriptor.name) ("Source " ++ source.id ++ " does not match provider " ++ descriptor.name)
  require (matchesWithin sourceID 64 source.id) ("Invalid source ID: " ++ source.id)
  require (matchesWithin nativeSchemaName 128 source.nativeSchema) ("Invalid native schema for source " ++ source.id)
  require (descriptor.platform == .iOS && source.platform == descriptor.platform)
    ("Source " ++ source.id ++ " is not an iOS source")
  require (source.coordinateSpace.unit == .point && source.coordinateSpace.scale.any fun scale => decide (0 < scale))
    ("Source " ++ source.id ++ " has an invalid iOS coordinate space")
  require (!sourceIDs.contains source.id) ("Duplicate source ID: " ++ source.id)
  match source.coverage, source.limitations with
  | .complete, none => pure ()
  | .complete, some _ => throw ("Complete source " ++ source.id ++ " cannot declare limitations")
  | .partly, none => throw ("Partial source " ++ source.id ++ " must declare limitations")
  | .partly, some limitations =>
      require (limitations != []) ("Partial source " ++ source.id ++ " must declare limitations")
      require (distinct limitations && limitations.all fun text => text != "" && decide (text.length ≤ 256))
        ("Source " ++ source.id ++ " has invalid limitations")
  require (!source.nodes.isEmpty) ("Source " ++ source.id ++ " returned no nodes")
  validateGraph source
  return source.id :: sourceIDs

def validateSources (descriptor : UIProviderDescriptor) :
    List RedactedSourceCapture → List String → Checked (List String)
  | [], sourceIDs => return sourceIDs
  | source :: sources, sourceIDs => do
      validateSources descriptor sources (← validateSource source descriptor sourceIDs)

end AppPilotKit.Snapshot
