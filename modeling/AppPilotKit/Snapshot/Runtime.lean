import AppPilotKit.Lib.Runs
import AppPilotKit.Snapshot.Store

/-! # The snapshot runtime

`UISnapshotRuntime` is an actor. A capture is accepted in one step; its operation
waits for the one accepted before it, then awaits its providers one by one, and
other calls run meanwhile. After the last provider it validates, stores and commits
in one step. Cancellation is seen at the checks only, so each check has an answer
of its own.
-/

namespace AppPilotKit.Snapshot

/-- What ends a capture. -/
inductive CaptureError where
  | failed (error : UISnapshotRuntimeError)
  | cancelled
deriving DecidableEq

inductive ProviderResult where
  | captured (capture : RedactedProviderCapture)
  | cancelled
  | failed

/-- The calls of `Task.checkCancellation` after a provider has returned. -/
inductive Check where
  | provided
  | validated (provider : Nat)
  | assigned
  | encoded
  | commit
deriving DecidableEq

structure Captured where
  descriptor : UIProviderDescriptor
  capture : RedactedProviderCapture

inductive Phase where
  | waiting
  | capturing (provider : UIProviderDescriptor) (rest : List UIProviderDescriptor) (captures : List Captured)
  | finished (result : Except CaptureError StoredUISnapshot)

structure Operation where
  scope : UISnapshotScope
  first : UIProviderDescriptor
  rest : List UIProviderDescriptor
  phase : Phase

structure UISnapshotRuntime where
  providers : List UIProviderDescriptor
  limits : UISnapshotStoreLimits
  store : Store := {}
  /-- Every accepted capture, in call order. -/
  operations : List Operation := []
  /-- The process has trapped. -/
  trapped : Bool := false

/-! ## Creation -/

def register : List UIProviderDescriptor → List String → Except UISnapshotRuntimeError Unit
  | [], _ => return
  | descriptor :: rest, names => do
      if descriptor.platform ≠ .iOS then
        throw (.invalidParams ("iOS runtime cannot register provider " ++ descriptor.name ++ " for android"))
      if !matchesWithin Patterns.dotted 128 descriptor.name then
        throw (.invalidParams ("Invalid provider name: " ++ descriptor.name))
      if names.contains descriptor.name then
        throw (.invalidParams ("Duplicate provider name: " ++ descriptor.name))
      register rest (descriptor.name :: names)

/-- `init`. -/
def UISnapshotRuntime.create (providers : List UIProviderDescriptor) (maximumSnapshotCount maximumStoredBytes : Nat) :
    Except UISnapshotRuntimeError UISnapshotRuntime :=
  if positive : 0 < maximumSnapshotCount ∧ 0 < maximumStoredBytes then do
    register providers []
    return { providers, limits := { maximumSnapshotCount, maximumStoredBytes, positive } }
  else throw (.invalidParams "Snapshot store limits must be positive")

/-! ## One capture -/

/-- `capture` up to the queueing of its operation: the first selected provider and the
    others. -/
def select (providers : List UIProviderDescriptor) (requested : Option (List String)) (scope : UISnapshotScope) :
    Except UISnapshotRuntimeError (UIProviderDescriptor × List UIProviderDescriptor) := do
  if scope.sessionID = "" ∨ scope.processGeneration = 0 then
    throw (.invalidParams "Invalid snapshot scope")
  if let some names := requested then
    if names = [] then throw (.invalidParams "Provider selection cannot be empty")
    if !distinct names then throw (.invalidParams "Provider selection contains duplicates")
  let registered := providers.map (·.name)
  let names := requested.getD registered
  if let some unknown := names.find? (!registered.contains ·) then
    throw (.invalidParams ("Unknown provider: " ++ unknown))
  match providers.filter (names.contains ·.name) with
  | [] => throw (.invalidParams "No providers are registered")
  | first :: rest => return (first, rest)

/-- The source IDs stay unique over all providers. -/
def validateCaptures (check : Check → Bool) : Nat → List Captured → List String → Except CaptureError Unit
  | _, [], _ => return
  | n, captured :: rest, sourceIDs =>
      match validateSources captured.descriptor captured.capture.sources sourceIDs with
      | .error _ =>
          throw (.failed (.internalError ("Provider " ++ captured.descriptor.name ++ " returned an invalid capture")))
      | .ok sourceIDs => do
          if check (.validated n) then throw .cancelled
          validateCaptures check (n + 1) rest sourceIDs

/-- `node_<token>_<number>` for each node, counted from `offset`. -/
def nodeReferences (token : String) (offset : Nat) (nodes : List RedactedNodeCapture) : List (String × String) :=
  nodes.zipIdx.map fun (node, n) => (node.id, "node_" ++ token ++ "_" ++ toString (offset + n + 1))

def storeNode (references : List (String × String)) (sourceID : String) (node : RedactedNodeCapture) : StoredUINode :=
  { reference := (references.lookup node.id).getD "", sourceID
    parentReference := node.parentID.bind fun parent => references.lookup parent
    childIndex := node.childIndex, depth := node.depth, childCount := node.childCount, index := node.index
    native := node.native }

/-- References are assigned over all sources in order. -/
def storeSources (token : String) : List RedactedSourceCapture → List StoredUISource × List StoredUINode →
    List StoredUISource × List StoredUINode
  | [], stored => stored
  | source :: rest, (sources, nodes) =>
      let references := nodeReferences token nodes.length source.nodes
      let sourceNodes := source.nodes.map (storeNode references source.id)
      storeSources token rest
        (sources ++ [{ id := source.id, platform := source.platform, provider := source.provider
                       representation := source.representation, nativeSchema := source.nativeSchema
                       coordinateSpace := source.coordinateSpace
                       rootReference := (sourceNodes.head?.map (·.reference)).getD ""
                       coverage := source.coverage, limitations := source.limitations }],
          nodes ++ sourceNodes)

section
variable (encodedSize : StoredSnapshotRecord → Option Nat)

/-- `performCapture` after its last provider, up to the commit: the snapshot to commit. -/
def prepare (limits : UISnapshotStoreLimits) (store : Store) (scope : UISnapshotScope) (captures : List Captured)
    (token : String) (check : Check → Bool) : Except CaptureError StoredUISnapshot := do
  validateCaptures check 0 captures []
  let identity := { id := "snapshot_" ++ token, generation := store.nextGeneration }
  let (sources, nodes) := storeSources token (captures.flatMap (·.capture.sources)) ([], [])
  if check .assigned then throw .cancelled
  let record := { scope, identity, sources, nodes }
  match encodedSize record with
  | none => throw (.failed (.internalError "Validated provider capture could not be encoded"))
  | some storedBytes =>
      if check .encoded then throw .cancelled
      if storedBytes > limits.maximumStoredBytes then
        throw (.failed (.resourceExhausted "Snapshot exceeds the configured byte capacity"))
      if store.totalStoredBytes + storedBytes ≥ 2 ^ 63 then
        throw (.failed (.resourceExhausted "Snapshot store byte accounting overflowed"))
      if check .commit then throw .cancelled
      return { record with storedBytes }

/-! ## The actor -/

inductive Input where
  | capture (requested : Option (List String)) (scope : UISnapshotScope)
  /-- The operation finds its predecessor finished. -/
  | start (index : Nat) (cancelled : Bool)
  /-- The awaited provider returns. -/
  | provide (index : Nat) (result : ProviderResult) (token : String) (check : Check → Bool)
  | resolve (identity : UISnapshotIdentity) (scope : UISnapshotScope)
  | invalidate (scope : UISnapshotScope)

inductive Output where
  | rejected (error : UISnapshotRuntimeError)
  | accepted (index : Nat)
  | suspended (index : Nat)
  | finished (index : Nat) (result : Except CaptureError StoredUISnapshot)
  | resolved (result : Except UISnapshotRuntimeError StoredUISnapshot)
  | invalidated
  | trapped
  /-- The input does not fit the state. -/
  | ignored

namespace UISnapshotRuntime

def withPhase (r : UISnapshotRuntime) (index : Nat) (phase : Phase) : UISnapshotRuntime :=
  { r with operations := r.operations.modify index fun operation => { operation with phase } }

def finish (r : UISnapshotRuntime) (index : Nat) (result : Except CaptureError StoredUISnapshot) :
    Output × UISnapshotRuntime :=
  (.finished index result, r.withPhase index (.finished result))

/-- `captureTail` of the operation: the one before it has finished. -/
def previousFinished (r : UISnapshotRuntime) (index : Nat) : Bool :=
  index == 0 || match r.operations[index - 1]? with
    | some { phase := .finished _, .. } => true
    | _ => false

/-- The last provider has returned. -/
def complete (r : UISnapshotRuntime) (index : Nat) (scope : UISnapshotScope) (captures : List Captured) (token : String)
    (check : Check → Bool) : Output × UISnapshotRuntime :=
  match prepare encodedSize r.limits r.store scope captures token check with
  | .error error => r.finish index (.error error)
  | .ok snapshot =>
      match r.store.commit r.limits snapshot with
      | some store => { r with store }.finish index (.ok snapshot)
      | none => (.trapped, { r with trapped := true })

/-- The loop over the providers, from the return of one to the next await. -/
def provide (r : UISnapshotRuntime) (index : Nat) (operation : Operation) (provider : UIProviderDescriptor)
    (rest : List UIProviderDescriptor) (captures : List Captured) (result : ProviderResult) (token : String)
    (check : Check → Bool) : Output × UISnapshotRuntime :=
  match result with
  | .cancelled => r.finish index (.error .cancelled)
  | .failed => r.finish index (.error (.failed (.internalError ("Provider " ++ provider.name ++ " failed"))))
  | .captured capture =>
      if check .provided then r.finish index (.error .cancelled)
      else if capture.sources.isEmpty then
        r.finish index
          (.error (.failed (.internalError ("Provider " ++ provider.name ++ " returned an invalid capture"))))
      else
        let captures := captures ++ [{ descriptor := provider, capture }]
        match rest with
        | next :: rest => (.suspended index, r.withPhase index (.capturing next rest captures))
        | [] => r.complete encodedSize index operation.scope captures token check

def step (r : UISnapshotRuntime) (input : Input) : Output × UISnapshotRuntime :=
  if r.trapped then (.ignored, r)
  else
    match input with
    | .capture requested scope =>
        match select r.providers requested scope with
        | .error error => (.rejected error, r)
        | .ok (first, rest) =>
            (.accepted r.operations.length,
              { r with operations := r.operations ++ [{ scope, first, rest, phase := .waiting }] })
    | .start index cancelled =>
        match r.operations[index]? with
        | some { phase := .waiting, first, rest, .. } =>
            if !r.previousFinished index then (.ignored, r)
            else if cancelled then r.finish index (.error .cancelled)
            else (.suspended index, r.withPhase index (.capturing first rest []))
        | _ => (.ignored, r)
    | .provide index result token check =>
        match r.operations[index]? with
        | some operation =>
            match operation.phase with
            | .capturing provider rest captures =>
                r.provide encodedSize index operation provider rest captures result token check
            | _ => (.ignored, r)
        | none => (.ignored, r)
    | .resolve identity scope => (.resolved (r.store.resolve identity scope), r)
    | .invalidate scope => (.invalidated, { r with store := r.store.invalidate scope })

end UISnapshotRuntime

end

end AppPilotKit.Snapshot
