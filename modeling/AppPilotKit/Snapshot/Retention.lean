import AppPilotKit.Snapshot.Runs

/-! # What the snapshot runtime promises

The store stays consistent and within its limits over every run, captures commit in
the order of their calls, and an invalidated scope loses the snapshots it had.
-/

namespace AppPilotKit.Snapshot

abbrev RuntimeStep := Runs.Step UISnapshotRuntime Input Output

section
variable (encodedSize : StoredSnapshotRecord → Option Nat) {r₀ : UISnapshotRuntime}

/-- The state after a run. -/
def reached (r₀ : UISnapshotRuntime) (inputs : List Input) : UISnapshotRuntime :=
  Runs.final (UISnapshotRuntime.step encodedSize) r₀ inputs

/-- The steps of a run. -/
def history (r₀ : UISnapshotRuntime) (inputs : List Input) : List RuntimeStep :=
  Runs.trace (UISnapshotRuntime.step encodedSize) r₀ inputs

theorem create_healthy {providers : List UIProviderDescriptor} {maximumSnapshotCount maximumStoredBytes : Nat}
    (made : UISnapshotRuntime.create providers maximumSnapshotCount maximumStoredBytes = .ok r₀) : Healthy r₀ := by
  unfold UISnapshotRuntime.create at made
  split at made
  · cases registered : register providers [] with
    | error error =>
        rw [registered] at made
        cases made
    | ok _ =>
        rw [registered] at made
        cases made
        refine ⟨Store.good_empty _, fun i j phase _ at_j => ?_, ⟨fun i snapshot at_i => ?_, fun i j older newer _ at_i => ?_⟩⟩
        · cases at_j
        · cases at_i
        · cases at_i
  · cases made

/-- Every successful capture stays on record. -/
def Recorded (past : List RuntimeStep) (r : UISnapshotRuntime) : Prop :=
  ∀ step ∈ past, ∀ i snapshot, step.output = .finished i (.ok snapshot) →
    phaseAt r.operations i = some (.finished (.ok snapshot))

variable {r r' : UISnapshotRuntime} {input : Input} {output : Output}

/-- What has finished stays finished. -/
theorem Move.keeps (move : Move r input output r') {i : Nat} {result : Except CaptureError StoredUISnapshot}
    (finished : phaseAt r.operations i = some (.finished result)) :
    phaseAt r'.operations i = some (.finished result) := by
  have other {index : Nat} {operation : Operation} (found : r.operations[index]? = some operation)
      (unfinished : ∀ result, operation.phase ≠ .finished result) : i ≠ index := by
    rintro rfl
    rw [phaseAt_found found] at finished
    exact unfinished result (Option.some.inj finished)
  cases move with
  | rejected | ignored | resolved | trapped | invalidated => exact finished
  | accepted requested scope first rest =>
      have inside : i < r.operations.length := by
        by_contra outside
        unfold phaseAt at finished
        rw [List.getElem?_eq_none (Nat.le_of_not_lt outside)] at finished
        cases finished
      unfold phaseAt at finished ⊢
      rw [List.getElem?_append_left inside]
      exact finished
  | started cancelled found waiting _ _ =>
      rw [phaseAt_withPhase found, if_neg (other found (fun result => by simp [waiting]))]
      exact finished
  | advanced _ _ _ found capturing _ =>
      rw [phaseAt_withPhase found, if_neg (other found (fun result => by simp [capturing]))]
      exact finished
  | committed provided token check found capturing generation fits scope commit =>
      rename_i store
      rw [phaseAt_withPhase (r := { r with store }) found, if_neg (other found (fun result => by simp [capturing]))]
      exact finished

theorem Move.records (move : Move r input output r') {i : Nat} {snapshot : StoredUISnapshot}
    (success : output = .finished i (.ok snapshot)) : phaseAt r'.operations i = some (.finished (.ok snapshot)) := by
  cases move with
  | rejected | ignored | resolved | trapped | accepted | invalidated => cases success
  | started _ _ _ _ outcome =>
      cases outcome with
      | suspended => cases success
      | failed => cases success
  | advanced _ _ _ _ _ outcome =>
      cases outcome with
      | suspended => cases success
      | failed => cases success
  | committed provided token check found capturing generation fits scope commit =>
      rename_i store
      cases success
      rw [phaseAt_withPhase (r := { r with store }) found, if_pos rfl]

theorem reached_healthy (healthy : Healthy r₀) (inputs : List Input) :
    Healthy (reached encodedSize r₀ inputs) ∧ Recorded (history encodedSize r₀ inputs) (reached encodedSize r₀ inputs) := by
  refine Runs.invariant_trace (fun past r => Healthy r ∧ Recorded past r) ?_ [] r₀ inputs ⟨healthy, ?_⟩
  · rintro past r input ⟨held, recorded⟩
    have move := step_move encodedSize r input
    refine ⟨move.healthy held, fun step member i snapshot success => ?_⟩
    rcases List.mem_append.mp member with old | new
    · exact move.keeps (recorded step old i snapshot success)
    · cases List.mem_singleton.mp new
      exact move.records success
  · intro step member
    cases member

/-- The inputs that belong to a capture. -/
def Input.isCapture : Input → Bool
  | .capture _ _ | .start _ _ | .provide _ _ _ _ => true
  | .resolve _ _ | .invalidate _ => false

theorem Move.store_same (move : Move r input output r') (capture : input.isCapture = true)
    (failed : ∀ i snapshot, output ≠ .finished i (.ok snapshot)) : r'.store = r.store := by
  cases move with
  | rejected | ignored | resolved | trapped | accepted | started | advanced => rfl
  | committed => exact absurd rfl (failed _ _)
  | invalidated => cases capture

/-- The step that ends a capture with a snapshot. -/
theorem Move.succeeds (healthy : Healthy r) (move : Move r input output r') {i : Nat} {snapshot : StoredUISnapshot}
    (success : output = .finished i (.ok snapshot)) :
    r'.store.resolve snapshot.identity snapshot.scope = .ok snapshot ∧
      (∃ evicted, r.store.snapshotOrder ++ [snapshot.identity] = evicted ++ r'.store.snapshotOrder) ∧
      (∀ identity ∈ r'.store.snapshotOrder, identity ≠ snapshot.identity →
        r'.store.snapshots.lookup identity = r.store.snapshots.lookup identity) ∧
      ∀ j earlier, phaseAt r.operations j = some (.finished (.ok earlier)) →
        j < i ∧ earlier.identity.generation < snapshot.identity.generation := by
  cases move with
  | rejected | ignored | resolved | trapped | accepted | invalidated => cases success
  | started _ _ _ _ outcome =>
      cases outcome with
      | suspended => cases success
      | failed => cases success
  | advanced _ _ _ _ _ outcome =>
      cases outcome with
      | suspended => cases success
      | failed => cases success
  | committed _ _ _ found capturing generation fits scope commit =>
      cases success
      obtain ⟨-, -, evicted, stored, same⟩ := Store.commit_spec healthy.good generation fits commit
      refine ⟨?_, evicted, same, fun j earlier finished => ⟨?_, ?_⟩⟩
      · show Store.resolve _ _ _ = _
        unfold Store.resolve
        rw [show AList.lookup snapshot.identity _ = some snapshot from stored]
        exact if_pos rfl
      · rcases Nat.lt_trichotomy j i with before | rfl | after
        · exact before
        · rw [phaseAt_found found, capturing] at finished
          cases finished
        · obtain ⟨result, finished'⟩ := healthy.serial i j _ after finished (by simp)
          rw [phaseAt_found found, capturing] at finished'
          cases finished'
      · rw [generation]
        exact healthy.ordered.past j earlier finished

end

/-! ## The store over whole runs -/

/-- In every state of every run the store is consistent and within its limits and at most
    one capture is at work. A capture that succeeds keeps its snapshot, evicts only the
    oldest and comes after all that succeeded before, in call order as in generation; a
    step of any other capture leaves the store as it was. -/
theorem store_invariant (encodedSize : StoredSnapshotRecord → Option Nat) {providers : List UIProviderDescriptor}
    {maximumSnapshotCount maximumStoredBytes : Nat} {r₀ : UISnapshotRuntime}
    (made : UISnapshotRuntime.create providers maximumSnapshotCount maximumStoredBytes = .ok r₀) (inputs : List Input) :
    ((reached encodedSize r₀ inputs).store.Good (reached encodedSize r₀ inputs).limits ∧
      (reached encodedSize r₀ inputs).store.snapshotOrder.Nodup) ∧
    (∀ i j provider rest captures provider' rest' captures',
      phaseAt (reached encodedSize r₀ inputs).operations i = some (.capturing provider rest captures) →
      phaseAt (reached encodedSize r₀ inputs).operations j = some (.capturing provider' rest' captures') → i = j) ∧
    ∀ past b rest, history encodedSize r₀ inputs = past ++ b :: rest →
      (∀ i snapshot, b.output = .finished i (.ok snapshot) →
        b.after.store.resolve snapshot.identity snapshot.scope = .ok snapshot ∧
        (∃ evicted, b.before.store.snapshotOrder ++ [snapshot.identity] = evicted ++ b.after.store.snapshotOrder) ∧
        (∀ identity ∈ b.after.store.snapshotOrder, identity ≠ snapshot.identity →
          b.after.store.snapshots.lookup identity = b.before.store.snapshots.lookup identity) ∧
        ∀ step ∈ past, ∀ j earlier, step.output = .finished j (.ok earlier) →
          j < i ∧ earlier.identity.generation < snapshot.identity.generation) ∧
      (b.input.isCapture = true → (∀ i snapshot, b.output ≠ .finished i (.ok snapshot)) →
        b.after.store = b.before.store) := by
  have start := create_healthy made
  have healthy := (reached_healthy encodedSize start inputs).1
  refine ⟨⟨healthy.good, healthy.good.listed.nodup⟩, ?_, ?_⟩
  · intro i j provider rest captures provider' rest' captures' at_i at_j
    rcases Nat.lt_trichotomy i j with before | same | after
    · obtain ⟨result, finished⟩ := healthy.serial i j _ before at_j (by simp)
      rw [at_i] at finished
      cases finished
    · exact same
    · obtain ⟨result, finished⟩ := healthy.serial j i _ after at_i (by simp)
      rw [at_j] at finished
      cases finished
  · intro past b rest split
    obtain ⟨first, input, last, rfl, rfl, rfl, -⟩ := Runs.trace_split split
    obtain ⟨before, recorded⟩ := reached_healthy encodedSize start first
    have move := step_move encodedSize (reached encodedSize r₀ first) input
    constructor
    · intro i snapshot success
      obtain ⟨resolves, evicted, same, earlier⟩ := move.succeeds before success
      exact ⟨resolves, evicted, same, fun step member j other finished =>
        earlier j other (recorded step member j other finished)⟩
    · exact move.store_same

/-! ## A view hierarchy of one node -/

def viewsProvider : UIProviderDescriptor := { name := "views", platform := .iOS }

def sessionScope : UISnapshotScope := { sessionID := "s", processGeneration := 1 }

def captureToken : String := "00000000000040008000000000000000"

def singleView : RedactedProviderCapture where
  sources :=
    [{ id := "main", provider := "views", platform := .iOS, representation := .native, nativeSchema := "uikit@1"
       coordinateSpace := { unit := .point, scale := some 1 }, coverage := .complete
       nodes := [{ id := "window", depth := 0, childCount := 0 }] }]

def viewsRuntime : UISnapshotRuntime where
  providers := [viewsProvider]
  limits := { maximumSnapshotCount := 1, maximumStoredBytes := 1024, positive := by decide }

/-- The bytes of the JSON record of `singleView` at generation 1. -/
def singleViewSize : StoredSnapshotRecord → Option Nat := fun _ => some 473

def singleViewSnapshot : StoredUISnapshot where
  scope := sessionScope
  identity := { id := "snapshot_" ++ captureToken, generation := 1 }
  sources :=
    [{ id := "main", platform := .iOS, provider := "views", representation := .native, nativeSchema := "uikit@1"
       coordinateSpace := { unit := .point, scale := some 1 }, rootReference := "node_" ++ captureToken ++ "_1"
       coverage := .complete, limitations := none }]
  nodes :=
    [{ reference := "node_" ++ captureToken ++ "_1", sourceID := "main", parentReference := none, childIndex := none
       depth := 0, childCount := 0, index := none, native := none }]
  storedBytes := 473

/-- The provider returns `singleView` and nothing is cancelled. -/
def provideView : Input := .provide 0 (.captured singleView) captureToken (fun _ => false)

theorem viewsRuntime_created : UISnapshotRuntime.create [viewsProvider] 1 1024 = .ok viewsRuntime := by
  rfl

/-- The calls of one capture that commits `singleView`. -/
def captureView : List Input := [.capture none sessionScope, .start 0 false, provideView]

theorem captured_view_retained :
    (reached singleViewSize viewsRuntime captureView).store.totalStoredBytes = 473 ∧
      (reached singleViewSize viewsRuntime captureView).store.Good (reached singleViewSize viewsRuntime captureView).limits ∧
      (reached singleViewSize viewsRuntime captureView).store.resolve singleViewSnapshot.identity sessionScope =
        .ok singleViewSnapshot := by
  obtain ⟨⟨good, -⟩, -, steps⟩ := store_invariant singleViewSize viewsRuntime_created captureView
  obtain ⟨committed, -⟩ := steps ((history singleViewSize viewsRuntime captureView).take 2) _ [] rfl
  exact ⟨rfl, good, (committed 0 singleViewSnapshot rfl).1⟩

/-! ## Revocation -/

section
variable (encodedSize : StoredSnapshotRecord → Option Nat) {r r' : UISnapshotRuntime} {input : Input} {output : Output}

/-- Every snapshot of the scope was committed at a generation from `least` on. -/
def NoneOlder (scope : UISnapshotScope) (least : Nat) (r : UISnapshotRuntime) : Prop :=
  least ≤ r.store.nextGeneration ∧ ∀ identity snapshot, r.store.snapshots.lookup identity = some snapshot →
    snapshot.scope = scope → least ≤ snapshot.identity.generation

theorem Move.noneOlder (healthy : Healthy r) (move : Move r input output r') {scope : UISnapshotScope} {least : Nat}
    (held : NoneOlder scope least r) : NoneOlder scope least r' := by
  cases move with
  | rejected | ignored | resolved | trapped | accepted | started | advanced => exact held
  | committed provided token check found capturing generation fits ofOperation commit =>
      rename_i snapshot store
      obtain ⟨good, next, -, stored, same⟩ := Store.commit_spec healthy.good generation fits commit
      refine ⟨?_, fun identity other there ofScope => ?_⟩
      · show least ≤ store.nextGeneration
        have := held.1
        omega
      · change store.snapshots.lookup identity = some other at there
        by_cases new : identity = snapshot.identity
        · rw [new, stored] at there
          cases there
          rw [generation]
          exact held.1
        · have member := (good.listed.listed identity).mpr (by rw [there]; rfl)
          rw [same identity member new] at there
          exact held.2 identity other there ofScope
  | invalidated scope' =>
      exact ⟨held.1, fun identity other there => held.2 identity other (Store.lookup_invalidate.mp there).1⟩

theorem reached_noneOlder (healthy : Healthy r) {scope : UISnapshotScope} {least : Nat} (held : NoneOlder scope least r)
    (inputs : List Input) : NoneOlder scope least (reached encodedSize r inputs) := by
  have preserved : ∀ r input, Healthy r ∧ NoneOlder scope least r →
      Healthy (UISnapshotRuntime.step encodedSize r input).2 ∧
        NoneOlder scope least (UISnapshotRuntime.step encodedSize r input).2 := by
    rintro r input ⟨healthy, held⟩
    have move := step_move encodedSize r input
    exact ⟨move.healthy healthy, move.noneOlder healthy held⟩
  exact (Runs.invariant preserved r inputs ⟨healthy, held⟩).2

theorem Move.revokes {scope : UISnapshotScope} (move : Move r (.invalidate scope) .invalidated r') :
    NoneOlder scope r.store.nextGeneration r' := by
  cases move with
  | invalidated =>
      refine ⟨Nat.le_refl _, fun identity snapshot there ofScope => ?_⟩
      exact absurd ofScope (Store.lookup_invalidate.mp there).2

theorem Move.resolves {identity : UISnapshotIdentity} {scope : UISnapshotScope} {snapshot : StoredUISnapshot}
    (move : Move r (.resolve identity scope) output r') (answer : output = .resolved (.ok snapshot)) :
    r.store.snapshots.lookup identity = some snapshot ∧ snapshot.scope = scope := by
  cases move with
  | ignored => cases answer
  | resolved =>
      injection answer with answer
      unfold Store.resolve at answer
      split at answer
      · rename_i found
        split at answer
        · rename_i same
          cases answer
          exact ⟨found, same⟩
        · cases answer
      · cases answer

/-- The steps around an invalidation of `scope` and a later resolve in it. -/
structure Around (scope : UISnapshotScope) (past : List RuntimeStep) (invalidation : RuntimeStep)
    (meanwhile : List RuntimeStep) (resolution : RuntimeStep) : Prop where
  invalidates : invalidation.input = .invalidate scope ∧ invalidation.output = .invalidated
  resolves : ∃ identity, resolution.input = .resolve identity scope

/-- Once a scope is invalidated, no capture of it that was called before can be resolved. -/
def RevokesCalled (steps : List RuntimeStep) : Prop :=
  ∀ past invalidation meanwhile resolution rest scope i snapshot,
    steps = past ++ invalidation :: (meanwhile ++ resolution :: rest) → Around scope past invalidation meanwhile resolution →
    (∃ call ∈ past, call.output = .accepted i) →
    (∃ step ∈ past ++ meanwhile, step.output = .finished i (.ok snapshot)) → resolution.output ≠ .resolved (.ok snapshot)

end

/-- Once a scope is invalidated, no snapshot of it that was committed before can be resolved. -/
theorem committed_revoked (encodedSize : StoredSnapshotRecord → Option Nat) {providers : List UIProviderDescriptor}
    {maximumSnapshotCount maximumStoredBytes : Nat} {r₀ : UISnapshotRuntime}
    (made : UISnapshotRuntime.create providers maximumSnapshotCount maximumStoredBytes = .ok r₀) (inputs : List Input)
    {past meanwhile rest : List RuntimeStep} {invalidation resolution : RuntimeStep} {scope : UISnapshotScope}
    (split : history encodedSize r₀ inputs = past ++ invalidation :: (meanwhile ++ resolution :: rest))
    (around : Around scope past invalidation meanwhile resolution) {i : Nat} {snapshot : StoredUISnapshot}
    (committed : ∃ step ∈ past, step.output = .finished i (.ok snapshot)) :
    resolution.output ≠ .resolved (.ok snapshot) := by
  obtain ⟨first, input, others, rfl, rfl, rfl, back⟩ := Runs.trace_split split
  obtain ⟨healthy, recorded⟩ := reached_healthy encodedSize (create_healthy made) first
  obtain ⟨⟨isInvalidate, done⟩, identity, isResolve⟩ := around
  obtain ⟨later, other, last, rfl, rfl, rfl, -⟩ := Runs.trace_split back.symm
  cases isInvalidate
  cases isResolve
  intro resolved
  have invalidates := step_move encodedSize (reached encodedSize r₀ first) (.invalidate scope)
  have revoked : NoneOlder scope _ (UISnapshotRuntime.step encodedSize (reached encodedSize r₀ first) (.invalidate scope)).2 :=
    Move.revokes (by rw [← done]; exact invalidates)
  have noneOlder := reached_noneOlder encodedSize (invalidates.healthy healthy) revoked later
  have resolves := step_move encodedSize (reached encodedSize
    (UISnapshotRuntime.step encodedSize (reached encodedSize r₀ first) (.invalidate scope)).2 later) (.resolve identity scope)
  obtain ⟨found, ofScope⟩ := resolves.resolves resolved
  have large := noneOlder.2 identity snapshot found ofScope
  obtain ⟨step, member, success⟩ := committed
  have small := healthy.ordered.past i snapshot (recorded step member i snapshot success)
  exact absurd large (Nat.not_le_of_lt small)

/-- A view is captured, its scope is invalidated, its snapshot is asked for. -/
def captureThenInvalidate : List Input :=
  captureView ++ [.invalidate sessionScope, .resolve singleViewSnapshot.identity sessionScope]

theorem captured_view_revoked :
    (history singleViewSize viewsRuntime captureThenInvalidate).map (·.output) =
        [.accepted 0, .suspended 0, .finished 0 (.ok singleViewSnapshot), .invalidated, .resolved (.error .snapshotExpired)] ∧
      ∀ resolution, (history singleViewSize viewsRuntime captureThenInvalidate)[4]? = some resolution →
        resolution.output ≠ .resolved (.ok singleViewSnapshot) := by
  refine ⟨rfl, fun resolution last => ?_⟩
  cases last
  exact committed_revoked singleViewSize viewsRuntime_created captureThenInvalidate
    (show _ = (history singleViewSize viewsRuntime captureThenInvalidate).take 3 ++ _ :: ([] ++ _ :: []) from rfl)
    ⟨⟨rfl, rfl⟩, _, rfl⟩ ⟨_, List.mem_of_getElem? (show _[2]? = some _ from rfl), rfl⟩

/-- The scope is invalidated while the provider is at work; the capture commits after it. -/
def invalidateMeanwhile : List Input :=
  [.capture none sessionScope, .start 0 false, .invalidate sessionScope, provideView,
    .resolve singleViewSnapshot.identity sessionScope]

theorem suspended_capture_not_revoked : ¬ RevokesCalled (history singleViewSize viewsRuntime invalidateMeanwhile) := by
  intro revokes
  refine revokes ((history singleViewSize viewsRuntime invalidateMeanwhile).take 2) _
    (((history singleViewSize viewsRuntime invalidateMeanwhile).drop 3).take 1) _ [] sessionScope 0 singleViewSnapshot
    rfl ⟨⟨rfl, rfl⟩, _, rfl⟩ ?_ ?_ rfl
  · exact ⟨_, List.mem_of_getElem? (show _[0]? = some _ from rfl), rfl⟩
  · exact ⟨_, List.mem_of_getElem? (show _[2]? = some _ from rfl), rfl⟩

end AppPilotKit.Snapshot
