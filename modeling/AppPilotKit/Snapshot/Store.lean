import AppPilotKit.Lib.Weighted
import AppPilotKit.Snapshot.Capture

/-! # The snapshot store

Snapshots are kept in a map, a list of their identities in commit order and a total
of their bytes. A commit appends and then evicts from the front until both limits
hold; an invalidated scope leaves all three.
-/

namespace AppPilotKit.Snapshot

structure StoredUISource where
  id : String
  platform : UIPlatform
  provider : String
  representation : UIRepresentation
  nativeSchema : String
  coordinateSpace : UICoordinateSpace
  rootReference : String
  coverage : UISourceCoverage
  limitations : Option (List String)

structure StoredUINode where
  reference : String
  sourceID : String
  parentReference : Option String
  childIndex : Option Int
  depth : Int
  childCount : Int
  index : Option RedactedNodeIndex
  native : Option (List (String × JSONValue))

structure StoredSnapshotRecord where
  scope : UISnapshotScope
  identity : UISnapshotIdentity
  sources : List StoredUISource
  nodes : List StoredUINode

structure StoredUISnapshot extends StoredSnapshotRecord where
  storedBytes : Nat

/-- Limits that `init` accepts. -/
structure UISnapshotStoreLimits where
  maximumSnapshotCount : Nat
  maximumStoredBytes : Nat
  positive : 0 < maximumSnapshotCount ∧ 0 < maximumStoredBytes

structure Store where
  nextGeneration : Nat := 1
  snapshots : Weighted.Dict UISnapshotIdentity StoredUISnapshot := ∅
  snapshotOrder : List UISnapshotIdentity := []
  totalStoredBytes : Int := 0

inductive UISnapshotRuntimeError where
  | invalidParams (reason : String)
  | snapshotExpired
  | resourceExhausted (reason : String)
  | internalError (reason : String)
deriving DecidableEq

namespace Store

/-- The loop at the end of a commit. It traps when it has to remove the first of no
    snapshots. -/
def evict (limits : UISnapshotStoreLimits) : List UISnapshotIdentity →
    Weighted.Dict UISnapshotIdentity StoredUISnapshot → Int →
    Option (List UISnapshotIdentity × Weighted.Dict UISnapshotIdentity StoredUISnapshot × Int)
  | [], snapshots, total => if total > limits.maximumStoredBytes then none else some ([], snapshots, total)
  | identity :: rest, snapshots, total =>
      if (identity :: rest).length > limits.maximumSnapshotCount ∨ total > limits.maximumStoredBytes then
        match snapshots.lookup identity with
        | some evicted => evict limits rest (snapshots.erase identity) (total - evicted.storedBytes)
        | none => evict limits rest snapshots total
      else some (identity :: rest, snapshots, total)

/-- The end of `performCapture`, from the byte accounting on: the new store, unless the
    process traps. -/
def commit (limits : UISnapshotStoreLimits) (store : Store) (snapshot : StoredUISnapshot) : Option Store := do
  let (order, snapshots, total) ← evict limits (store.snapshotOrder ++ [snapshot.identity])
    (store.snapshots.insert snapshot.identity snapshot) (store.totalStoredBytes + snapshot.storedBytes)
  guard (store.nextGeneration + 1 < 2 ^ 64)
  return { nextGeneration := store.nextGeneration + 1, snapshots, snapshotOrder := order, totalStoredBytes := total }

def resolve (store : Store) (identity : UISnapshotIdentity) (scope : UISnapshotScope) :
    Except UISnapshotRuntimeError StoredUISnapshot :=
  match store.snapshots.lookup identity with
  | some snapshot => if snapshot.scope = scope then .ok snapshot else .error .snapshotExpired
  | none => .error .snapshotExpired

def invalidate (store : Store) (scope : UISnapshotScope) : Store :=
  let invalidatedBytes := ((store.snapshots.entries.filter fun entry => decide (entry.2.scope = scope)).map
    fun entry => (entry.2.storedBytes : Int)).sum
  let snapshots := Weighted.retain (fun snapshot => decide (snapshot.scope ≠ scope)) store.snapshots
  { store with
    snapshots, snapshotOrder := store.snapshotOrder.filter fun identity => (snapshots.lookup identity).isSome
    totalStoredBytes := store.totalStoredBytes - invalidatedBytes }

/-! ## What a store keeps -/

def storedBytes (snapshots : Weighted.Dict UISnapshotIdentity StoredUISnapshot) : Int :=
  Weighted.total (fun snapshot => (snapshot.storedBytes : Int)) snapshots

/-- The order lists the stored snapshots, each under its own identity and oldest first,
    and the total counts their bytes. -/
structure Listed (order : List UISnapshotIdentity) (snapshots : Weighted.Dict UISnapshotIdentity StoredUISnapshot)
    (total : Int) : Prop where
  bytes : total = storedBytes snapshots
  increasing : order.Pairwise fun a b => a.generation < b.generation
  listed : ∀ identity, identity ∈ order ↔ (snapshots.lookup identity).isSome
  named : ∀ identity snapshot, snapshots.lookup identity = some snapshot → snapshot.identity = identity

structure Good (limits : UISnapshotStoreLimits) (store : Store) : Prop where
  listed : Listed store.snapshotOrder store.snapshots store.totalStoredBytes
  count : store.snapshotOrder.length ≤ limits.maximumSnapshotCount
  total : store.totalStoredBytes ≤ limits.maximumStoredBytes
  past : ∀ identity ∈ store.snapshotOrder, identity.generation < store.nextGeneration

theorem good_empty (limits : UISnapshotStoreLimits) : Good limits {} := by
  refine ⟨⟨rfl, List.Pairwise.nil, fun identity => ?_, fun identity snapshot found => ?_⟩, ?_, ?_, ?_⟩
  · simp
  · cases found
  · exact Nat.zero_le _
  · exact Int.natCast_nonneg _
  · intro identity member
    cases member

section
variable {order rest : List UISnapshotIdentity} {snapshots : Weighted.Dict UISnapshotIdentity StoredUISnapshot}
  {total : Int} {identity : UISnapshotIdentity} {snapshot : StoredUISnapshot}

theorem Listed.nodup (h : Listed order snapshots total) : order.Nodup := by
  refine h.increasing.imp fun smaller same => ?_
  rw [same] at smaller
  exact lt_irrefl _ smaller

theorem Listed.found (h : Listed order snapshots total) (member : identity ∈ order) :
    ∃ snapshot, snapshots.lookup identity = some snapshot :=
  Option.isSome_iff_exists.mp ((h.listed identity).mp member)

/-- Removing the first snapshot. -/
theorem Listed.tail (h : Listed (identity :: rest) snapshots total) (found : snapshots.lookup identity = some snapshot) :
    Listed rest (snapshots.erase identity) (total - snapshot.storedBytes) := by
  have outside : identity ∉ rest := (List.nodup_cons.mp h.nodup).1
  refine ⟨?_, (List.pairwise_cons.mp h.increasing).2, fun other => ?_, fun other stored there => ?_⟩
  · rw [h.bytes]
    exact (Weighted.total_erase found).symm
  · by_cases same : other = identity
    · rw [same, AList.lookup_erase]
      simp [outside]
    · rw [AList.lookup_erase_ne same, ← h.listed other]
      simp [same]
  · by_cases same : other = identity
    · rw [same, AList.lookup_erase] at there
      cases there
    · rw [AList.lookup_erase_ne same] at there
      exact h.named other stored there

theorem Listed.of_nil (h : Listed [] snapshots total) : total = 0 := by
  have empty : snapshots.entries = [] := by
    refine List.eq_nil_iff_forall_not_mem.mpr fun entry member => ?_
    have found : snapshots.lookup entry.1 = some entry.2 := AList.mem_lookup_iff.mpr member
    have listed := (h.listed entry.1).mpr (by rw [found]; rfl)
    cases listed
  rw [h.bytes, storedBytes, Weighted.total, empty]
  rfl

theorem Listed.of_singleton (h : Listed [identity] snapshots total) (found : snapshots.lookup identity = some snapshot) :
    total = snapshot.storedBytes := by
  have rest := (h.tail found).of_nil
  omega

/-- Eviction removes the oldest snapshots and stops before the newest, when that fits
    by itself. -/
theorem evict_spec (limits : UISnapshotStoreLimits) (h : Listed order snapshots total) {newest : UISnapshotIdentity}
    (last : order.getLast? = some newest) (found : snapshots.lookup newest = some snapshot)
    (fits : snapshot.storedBytes ≤ limits.maximumStoredBytes) :
    ∃ evicted kept snapshots' total', evict limits order snapshots total = some (kept, snapshots', total') ∧
      order = evicted ++ kept ∧ newest ∈ kept ∧ Listed kept snapshots' total' ∧
      kept.length ≤ limits.maximumSnapshotCount ∧ total' ≤ limits.maximumStoredBytes ∧
      ∀ identity ∈ kept, snapshots'.lookup identity = snapshots.lookup identity := by
  induction order generalizing snapshots total with
  | nil => cases last
  | cons first rest ih =>
      unfold evict
      split
      · rename_i full
        obtain ⟨oldest, there⟩ := h.found (List.mem_cons_self ..)
        rw [there]
        dsimp only
        have next := h.tail there
        cases rest with
        | nil =>
            -- only the newest is left, and it fits
            obtain rfl : first = newest := Option.some.inj last
            have bytes := h.of_singleton found
            have positive := limits.positive.1
            simp only [List.length_singleton] at full
            omega
        | cons second others =>
            have last' : (second :: others).getLast? = some newest := by
              rw [← last, List.getLast?_cons_cons]
            have differs : newest ≠ first := by
              rintro rfl
              exact (List.nodup_cons.mp h.nodup).1 (List.mem_of_getLast? last')
            have found' : (snapshots.erase first).lookup newest = some snapshot := by
              rw [AList.lookup_erase_ne differs]
              exact found
            obtain ⟨evicted, kept, snapshots', total', eq, split, inside, listed, count, bytes, same⟩ :=
              ih next last' found'
            refine ⟨first :: evicted, kept, snapshots', total', eq, ?_, inside, listed, count, bytes, ?_⟩
            · rw [split]
              rfl
            · intro identity member
              have other : identity ≠ first := by
                rintro rfl
                refine (List.nodup_cons.mp h.nodup).1 ?_
                rw [split]
                exact List.mem_append_right _ member
              rw [same identity member, AList.lookup_erase_ne other]
      · rename_i within
        push Not at within
        exact ⟨[], first :: rest, snapshots, total, rfl, rfl, List.mem_of_getLast? last, h, within.1, within.2,
          fun _ _ => rfl⟩

end

section
variable {limits : UISnapshotStoreLimits} {store store' : Store} {snapshot : StoredUISnapshot}

/-- The order and the map with the new snapshot, before the eviction. -/
theorem Good.listed_insert (h : Good limits store) (generation : snapshot.identity.generation = store.nextGeneration) :
    Listed (store.snapshotOrder ++ [snapshot.identity]) (store.snapshots.insert snapshot.identity snapshot)
      (store.totalStoredBytes + snapshot.storedBytes) := by
  have new : snapshot.identity ∉ store.snapshotOrder := by
    intro member
    have small := h.past _ member
    omega
  have fresh : store.snapshots.lookup snapshot.identity = none := by
    have absent := mt (h.listed.listed snapshot.identity).mpr new
    simpa using absent
  refine ⟨?_, ?_, fun identity => ?_, fun identity stored found => ?_⟩
  · rw [h.listed.bytes]
    exact (Weighted.total_insert snapshot fresh).symm
  · refine List.pairwise_append.mpr ⟨h.listed.increasing, List.pairwise_singleton _ _, fun a member b single => ?_⟩
    rw [List.mem_singleton.mp single, generation]
    exact h.past a member
  · rw [List.mem_append, List.mem_singleton]
    by_cases same : identity = snapshot.identity
    · rw [same, AList.lookup_insert]
      simp
    · rw [AList.lookup_insert_ne same, ← h.listed.listed identity]
      simp [same]
  · by_cases same : identity = snapshot.identity
    · rw [same, AList.lookup_insert] at found
      cases found
      exact same.symm
    · rw [AList.lookup_insert_ne same] at found
      exact h.listed.named identity stored found

/-- A commit keeps the store good. It keeps the new snapshot and evicts only the oldest. -/
theorem commit_spec (h : Good limits store) (generation : snapshot.identity.generation = store.nextGeneration)
    (fits : snapshot.storedBytes ≤ limits.maximumStoredBytes) (committed : store.commit limits snapshot = some store') :
    Good limits store' ∧ store'.nextGeneration = store.nextGeneration + 1 ∧
      (∃ evicted, store.snapshotOrder ++ [snapshot.identity] = evicted ++ store'.snapshotOrder) ∧
      store'.snapshots.lookup snapshot.identity = some snapshot ∧
      ∀ identity ∈ store'.snapshotOrder, identity ≠ snapshot.identity →
        store'.snapshots.lookup identity = store.snapshots.lookup identity := by
  have listed := h.listed_insert generation
  have last : (store.snapshotOrder ++ [snapshot.identity]).getLast? = some snapshot.identity := by simp
  obtain ⟨evicted, kept, snapshots', total', eq, split, inside, listed', count, bytes, same⟩ :=
    evict_spec limits listed last (AList.lookup_insert _) fits
  unfold commit at committed
  rw [eq] at committed
  simp only [Option.bind_eq_bind, Option.bind_some, Option.pure_def] at committed
  rw [Option.bind_eq_some_iff] at committed
  obtain ⟨-, -, done⟩ := committed
  cases done
  refine ⟨⟨listed', count, bytes, fun identity member => ?_⟩, rfl, ⟨evicted, split⟩, ?_, fun identity member other => ?_⟩
  · have old : identity ∈ store.snapshotOrder ++ [snapshot.identity] := by
      rw [split]
      exact List.mem_append_right _ member
    rcases List.mem_append.mp old with old | old
    · exact (h.past identity old).trans (Nat.lt_succ_self _)
    · rw [List.mem_singleton.mp old, generation]
      exact Nat.lt_succ_self _
  · rw [same _ inside, AList.lookup_insert]
  · rw [same identity member, AList.lookup_insert_ne other]

theorem lookup_invalidate {scope : UISnapshotScope} {identity : UISnapshotIdentity} {stored : StoredUISnapshot} :
    (store.invalidate scope).snapshots.lookup identity = some stored ↔
      store.snapshots.lookup identity = some stored ∧ stored.scope ≠ scope := by
  show (Weighted.retain _ store.snapshots).lookup identity = some stored ↔ _
  rw [Weighted.lookup_retain, decide_eq_true_iff]

theorem Good.invalidate (h : Good limits store) (scope : UISnapshotScope) : Good limits (store.invalidate scope) := by
  have total : (store.invalidate scope).totalStoredBytes = storedBytes (store.invalidate scope).snapshots := by
    have bytes := h.listed.bytes
    unfold storedBytes at bytes ⊢
    unfold Store.invalidate
    dsimp only
    rw [Weighted.total_retain, bytes]
    simp
  have fewer : (store.invalidate scope).snapshotOrder.Sublist store.snapshotOrder := List.filter_sublist
  refine ⟨⟨total, h.listed.increasing.sublist fewer, fun identity => ?_, fun identity stored found => ?_⟩,
    fewer.length_le.trans h.count, ?_, fun identity member => h.past identity (fewer.subset member)⟩
  · show identity ∈ store.snapshotOrder.filter (fun identity => ((store.invalidate scope).snapshots.lookup identity).isSome) ↔ _
    rw [List.mem_filter]
    constructor
    · exact fun member => member.2
    · intro there
      obtain ⟨stored, found⟩ := Option.isSome_iff_exists.mp there
      refine ⟨(h.listed.listed identity).mpr ?_, there⟩
      rw [(lookup_invalidate.mp found).1]
      rfl
  · exact h.listed.named identity stored (lookup_invalidate.mp found).1
  · refine le_trans ?_ h.total
    have light : (0 : Int) ≤ ((store.snapshots.entries.filter fun entry => decide (entry.2.scope = scope)).map
        fun entry => (entry.2.storedBytes : Int)).sum := by
      refine List.sum_nonneg fun x member => ?_
      obtain ⟨entry, -, rfl⟩ := List.mem_map.mp member
      exact Int.natCast_nonneg _
    show store.totalStoredBytes - _ ≤ store.totalStoredBytes
    omega

end

end Store

end AppPilotKit.Snapshot
