import AppPilotKit.Snapshot.Retention
import AppPilotKit.Snapshot.Trees

/-! # References

A snapshot names its nodes by references of its own, numbered over all sources in
capture order. They stand for the captured trees: each source can be read back from
them.
-/

namespace AppPilotKit.Snapshot

/-- The number of a node, from 0, in its reference. -/
def nodeReference (token : String) (n : Nat) : String := "node_" ++ token ++ "_" ++ toString (n + 1)

theorem nodeReference_injective (token : String) : Function.Injective (nodeReference token) := by
  intro a b same
  have numbers := congrArg String.toList same
  unfold nodeReference at numbers
  simp only [String.toList_append, List.append_cancel_left_eq] at numbers
  have equal : a + 1 = b + 1 := Nat.repr_injective (String.toList_injective numbers)
  omega

/-! ## One source -/

/-- The stored nodes of a source before which `offset` nodes are stored. -/
def sourceNodes (token : String) (offset : Nat) (source : RedactedSourceCapture) : List StoredUINode :=
  source.nodes.map (storeNode (nodeReferences token offset source.nodes) source.id)

def storeSource (token : String) (offset : Nat) (source : RedactedSourceCapture) : StoredUISource :=
  { id := source.id, platform := source.platform, provider := source.provider, representation := source.representation
    nativeSchema := source.nativeSchema, coordinateSpace := source.coordinateSpace
    rootReference := ((sourceNodes token offset source).head?.map (·.reference)).getD ""
    coverage := source.coverage, limitations := source.limitations }

section
variable {token : String} {offset i : Nat} {source : RedactedSourceCapture} {nodes : List RedactedNodeCapture}
  {node : RedactedNodeCapture}

theorem nodeReferences_cons : nodeReferences token offset (node :: nodes) =
    (node.id, nodeReference token offset) :: nodeReferences token (offset + 1) nodes := by
  unfold nodeReferences nodeReference
  rw [List.zipIdx_cons', List.map_cons, List.map_map]
  refine congrArg₂ _ rfl (List.map_congr_left fun entry _ => ?_)
  exact congrArg (fun n => (entry.1.id, "node_" ++ token ++ "_" ++ toString n))
    (show offset + (entry.2 + 1) + 1 = offset + 1 + entry.2 + 1 by omega)

theorem lookup_references (distinct : (nodes.map (·.id)).Nodup) (at_i : nodes[i]? = some node) :
    (nodeReferences token offset nodes).lookup node.id = some (nodeReference token (offset + i)) := by
  induction nodes generalizing offset i with
  | nil => cases at_i
  | cons first nodes ih =>
      obtain ⟨fresh, distinct⟩ := List.nodup_cons.mp distinct
      rw [nodeReferences_cons, List.lookup_cons]
      cases i with
      | zero =>
          cases at_i
          simp
      | succ i =>
          have other : (node.id == first.id) = false := by
            refine beq_eq_false_iff_ne.mpr fun same => fresh ?_
            exact List.mem_map.mpr ⟨node, List.mem_of_getElem? at_i, same⟩
          rw [other]
          dsimp only
          rw [ih distinct at_i, Nat.add_right_comm, Nat.add_assoc]

theorem getElem_sourceNodes : (sourceNodes token offset source)[i]? =
    source.nodes[i]?.map (storeNode (nodeReferences token offset source.nodes) source.id) := List.getElem?_map ..

theorem sourceNodes_references (distinct : (source.nodes.map (·.id)).Nodup) :
    (sourceNodes token offset source).map (·.reference) =
      (List.range' offset source.nodes.length).map (nodeReference token) := by
  refine List.ext_getElem? fun i => ?_
  rw [List.getElem?_map, getElem_sourceNodes, List.getElem?_map]
  cases at_i : source.nodes[i]? with
  | none =>
      have outside := List.getElem?_eq_none_iff.mp at_i
      rw [List.getElem?_eq_none (by simpa using outside)]
      rfl
  | some node =>
      have inside : i < source.nodes.length := (List.getElem?_eq_some_iff.mp at_i).1
      rw [List.getElem?_range' inside]
      simp [storeNode, lookup_references distinct at_i]

/-- What `validateGraph` has established of a source. -/
structure Captures (source : RedactedSourceCapture) (tree : Preorder.Tree RedactedNodeCapture) : Prop where
  distinct : (source.nodes.map (·.id)).Nodup
  listed : source.nodes = tree.listing
  labelled : tree.Labelled captured

variable {tree : Preorder.Tree RedactedNodeCapture}

theorem Captures.parentReference (token : String) (offset : Nat) (captures : Captures source tree) (at_i : source.nodes[i]? = some node) :
    (i = 0 ∧ node.parentID = none) ∨ ∃ j < i, ∃ parent, source.nodes[j]? = some parent ∧ node.parentID = some parent.id ∧
      (nodeReferences token offset source.nodes).lookup parent.id = some (nodeReference token (offset + j)) := by
  have in_tree := at_i
  rw [captures.listed] at in_tree
  cases i with
  | zero =>
      cases in_tree
      exact .inl ⟨rfl, captures.labelled.parent⟩
  | succ i =>
      obtain ⟨parent, earlier, named⟩ := captures.labelled.parent_before in_tree
      rw [← captures.listed] at earlier
      obtain ⟨j, bound, at_j⟩ := List.mem_take_iff_getElem.mp earlier
      have found : source.nodes[j]? = some parent := List.getElem?_eq_some_iff.mpr ⟨_, at_j⟩
      exact .inr ⟨j, by omega, parent, found, named, lookup_references captures.distinct found⟩

variable {stored parent : StoredUINode}

theorem sourceID_of_mem (member : stored ∈ sourceNodes token offset source) : stored.sourceID = source.id := by
  obtain ⟨node, -, rfl⟩ := List.mem_map.mp member
  rfl

theorem Captures.reference (captures : Captures source tree) (at_i : source.nodes[i]? = some node) :
    (storeNode (nodeReferences token offset source.nodes) source.id node).reference = nodeReference token (offset + i) := by
  unfold storeNode
  rw [lookup_references captures.distinct at_i, Option.getD_some]

theorem Captures.parent_earlier (captures : Captures source tree) (at_i : (sourceNodes token offset source)[i]? = some stored)
    {reference : String} (refers : stored.parentReference = some reference) :
    ∃ j < i, ∃ parent, (sourceNodes token offset source)[j]? = some parent ∧ parent.reference = reference := by
  rw [getElem_sourceNodes, Option.map_eq_some_iff] at at_i
  obtain ⟨node, at_i, rfl⟩ := at_i
  rcases captures.parentReference token offset at_i with ⟨rfl, root⟩ | ⟨j, earlier, parent, at_j, named, found⟩
  · simp [storeNode, root] at refers
  · refine ⟨j, earlier, _, by rw [getElem_sourceNodes, at_j, Option.map_some], ?_⟩
    rw [captures.reference at_j]
    simpa [storeNode, named, found] using refers

/-- Only the root of a source has no parent. -/
theorem Captures.root (captures : Captures source tree) :
    ((sourceNodes token offset source).filter (·.parentReference.isNone)).map (·.reference) =
      [(storeSource token offset source).rootReference] := by
  have head : source.nodes[0]? = some tree.root := by rw [captures.listed]; rfl
  have others (node : RedactedNodeCapture) (member : node ∈ tree.children.listing) :
      (storeNode (nodeReferences token offset source.nodes) source.id node).parentReference.isNone = false := by
    obtain ⟨i, at_i⟩ := List.mem_iff_getElem?.mp member
    have in_source : source.nodes[i + 1]? = some node := by rw [captures.listed]; exact at_i
    rcases captures.parentReference token offset in_source with ⟨zero, -⟩ | ⟨j, -, parent, -, named, found⟩
    · cases zero
    · simp [storeNode, named, found]
  have listed : sourceNodes token offset source =
      storeNode (nodeReferences token offset source.nodes) source.id tree.root ::
        tree.children.listing.map (storeNode (nodeReferences token offset source.nodes) source.id) := by
    unfold sourceNodes
    rw [captures.listed]
    rfl
  have alone : (tree.children.listing.map (storeNode (nodeReferences token offset source.nodes) source.id)).filter
      (·.parentReference.isNone) = [] := by
    refine List.filter_eq_nil_iff.mpr fun stored member => ?_
    obtain ⟨node, there, rfl⟩ := List.mem_map.mp member
    simp [others node there]
  have top : (storeNode (nodeReferences token offset source.nodes) source.id tree.root).parentReference.isNone = true := by
    have unnamed : tree.root.parentID = none := captures.labelled.parent
    simp [storeNode, unnamed]
  unfold storeSource
  rw [listed, List.filter_cons, if_pos top, alone]
  rfl

/-- The captured node, when `back` reads references back to provider-local IDs. -/
def StoredUINode.recover (back : String → String) (node : StoredUINode) : RedactedNodeCapture :=
  { id := back node.reference, parentID := node.parentReference.map back, childIndex := node.childIndex
    depth := node.depth, childCount := node.childCount, index := node.index, native := node.native }

theorem Captures.recover (captures : Captures source tree) {back : String → String}
    (reads : ∀ i node, source.nodes[i]? = some node → back (nodeReference token (offset + i)) = node.id) :
    (sourceNodes token offset source).map (StoredUINode.recover back) = source.nodes := by
  refine List.ext_getElem? fun i => ?_
  rw [List.getElem?_map, getElem_sourceNodes]
  cases at_i : source.nodes[i]? with
  | none => rfl
  | some node =>
      have named : back (nodeReference token (offset + i)) = node.id := reads i node at_i
      have parent : (storeNode (nodeReferences token offset source.nodes) source.id node).parentReference.map back =
          node.parentID := by
        rcases captures.parentReference token offset at_i with ⟨-, root⟩ | ⟨j, -, parent, at_j, below, found⟩
        · simp [storeNode, root]
        · simp [storeNode, below, found, reads j parent at_j]
      simp only [Option.map_some, StoredUINode.recover, captures.reference at_i, named, parent]
      rfl

end

/-! ## All sources -/

/-- How many nodes the sources have. -/
def nodeCount (sources : List RedactedSourceCapture) : Nat := (sources.flatMap (·.nodes)).length

def storedNodes (token : String) : Nat → List RedactedSourceCapture → List StoredUINode
  | _, [] => []
  | offset, source :: rest => sourceNodes token offset source ++ storedNodes token (offset + source.nodes.length) rest

def storedSources (token : String) : Nat → List RedactedSourceCapture → List StoredUISource
  | _, [] => []
  | offset, source :: rest => storeSource token offset source :: storedSources token (offset + source.nodes.length) rest

section
variable {token : String} {offset : Nat} {source : RedactedSourceCapture} {sources before after : List RedactedSourceCapture}

theorem storeSources_eq (stored : List StoredUISource) (nodes : List StoredUINode) :
    storeSources token sources (stored, nodes) =
      (stored ++ storedSources token nodes.length sources, nodes ++ storedNodes token nodes.length sources) := by
  induction sources generalizing stored nodes with
  | nil => simp [storeSources, storedSources, storedNodes]
  | cons source rest ih =>
      have long : (sourceNodes token nodes.length source).length = source.nodes.length := List.length_map ..
      have next := ih (stored ++ [storeSource token nodes.length source]) (nodes ++ sourceNodes token nodes.length source)
      rw [List.length_append, long, List.append_assoc, List.append_assoc] at next
      exact next

theorem storedNodes_append : storedNodes token offset (before ++ after) =
    storedNodes token offset before ++ storedNodes token (offset + nodeCount before) after := by
  induction before generalizing offset with
  | nil => rfl
  | cons source before ih => simp [storedNodes, ih, nodeCount, Nat.add_assoc]

theorem storedNodes_references (distinct : ∀ source ∈ sources, (source.nodes.map (·.id)).Nodup) :
    (storedNodes token offset sources).map (·.reference) =
      (List.range' offset (nodeCount sources)).map (nodeReference token) := by
  induction sources generalizing offset with
  | nil => rfl
  | cons source rest ih =>
      obtain ⟨here, rest_distinct⟩ := List.forall_mem_cons.mp distinct
      have numbers : List.range' offset (nodeCount (source :: rest)) =
          List.range' offset source.nodes.length ++ List.range' (offset + source.nodes.length) (nodeCount rest) := by
        simp [nodeCount, List.range'_append_1]
      rw [storedNodes, List.map_append, sourceNodes_references here, ih rest_distinct, numbers, List.map_append]

theorem storedNodes_sourceID {stored : StoredUINode} (member : stored ∈ storedNodes token offset sources) :
    stored.sourceID ∈ sources.map (·.id) := by
  induction sources generalizing offset with
  | nil => cases member
  | cons source rest ih =>
      rcases List.mem_append.mp member with here | later
      · rw [sourceID_of_mem here]
        exact List.mem_cons_self ..
      · exact List.mem_cons_of_mem _ (ih later)

/-- Nothing of a source is stored elsewhere. -/
theorem nodes_of_source (distinct : ((before ++ source :: after).map (·.id)).Nodup) :
    (storedNodes token offset (before ++ source :: after)).filter (·.sourceID == source.id) =
      sourceNodes token (offset + nodeCount before) source := by
  rw [List.map_append, List.map_cons, List.nodup_append] at distinct
  obtain ⟨-, from_here, apart⟩ := distinct
  have none_before : (storedNodes token offset before).filter (·.sourceID == source.id) = [] := by
    refine List.filter_eq_nil_iff.mpr fun stored member => ?_
    exact fun same => apart _ (storedNodes_sourceID member) _ (List.mem_cons_self ..) (beq_iff_eq.mp same)
  have none_after (from_offset : Nat) : (storedNodes token from_offset after).filter (·.sourceID == source.id) = [] := by
    refine List.filter_eq_nil_iff.mpr fun stored member same => (List.nodup_cons.mp from_here).1 ?_
    rw [← beq_iff_eq.mp same]
    exact storedNodes_sourceID member
  have all_here (from_offset : Nat) : (sourceNodes token from_offset source).filter (·.sourceID == source.id) =
      sourceNodes token from_offset source :=
    List.filter_eq_self.mpr fun stored member => beq_iff_eq.mpr (sourceID_of_mem member)
  rw [storedNodes_append, storedNodes, List.filter_append, List.filter_append, none_before, none_after, all_here,
    List.nil_append, List.append_nil]

theorem mem_storedSources {stored : StoredUISource} (member : stored ∈ storedSources token offset sources) :
    ∃ before source after, sources = before ++ source :: after ∧
      stored = storeSource token (offset + nodeCount before) source := by
  induction sources generalizing offset with
  | nil => cases member
  | cons source rest ih =>
      rcases List.mem_cons.mp member with rfl | later
      · exact ⟨[], source, rest, rfl, rfl⟩
      · obtain ⟨before, found, after, rfl, rfl⟩ := ih later
        exact ⟨source :: before, found, after, rfl, by simp [nodeCount, Nat.add_assoc]⟩

/-- A parent is stored before its children, in the same source. -/
theorem storedNodes_parent (captures : ∀ source ∈ sources, ∃ tree, Captures source tree) {i : Nat} {stored : StoredUINode}
    (at_i : (storedNodes token offset sources)[i]? = some stored) {reference : String}
    (refers : stored.parentReference = some reference) :
    ∃ j < i, ∃ parent, (storedNodes token offset sources)[j]? = some parent ∧ parent.reference = reference ∧
      parent.sourceID = stored.sourceID := by
  induction sources generalizing offset i with
  | nil => cases at_i
  | cons source rest ih =>
      obtain ⟨⟨tree, here⟩, rest_captures⟩ := List.forall_mem_cons.mp captures
      unfold storedNodes at at_i ⊢
      rw [List.getElem?_append] at at_i
      split at at_i
      · obtain ⟨j, earlier, parent, at_j, named⟩ := here.parent_earlier at_i refers
        refine ⟨j, earlier, parent, ?_, named, ?_⟩
        · rw [List.getElem?_append_left (by omega)]
          exact at_j
        · rw [sourceID_of_mem (List.mem_of_getElem? at_j), sourceID_of_mem (List.mem_of_getElem? at_i)]
      · rename_i outside
        obtain ⟨j, earlier, parent, at_j, named, same⟩ := ih rest_captures at_i
        refine ⟨j + (sourceNodes token offset source).length, by omega, parent, ?_, named, same⟩
        rw [List.getElem?_append_right (by omega), Nat.add_sub_cancel]
        exact at_j

end

/-! ## What passes the checks -/

theorem validateSource_ok {source : RedactedSourceCapture} {descriptor : UIProviderDescriptor}
    {sourceIDs sourceIDs' : List String} (valid : validateSource source descriptor sourceIDs = .ok sourceIDs') :
    validateGraph source = .ok () ∧ source.id ∉ sourceIDs ∧ sourceIDs' = source.id :: sourceIDs := by
  unfold validateSource at valid
  simp only [Checks.bind_ok] at valid
  obtain ⟨_, -, _, -, _, -, _, -, _, -, _, unseen, valid⟩ := valid
  have fresh : source.id ∉ sourceIDs := by simpa using require_ok.mp unseen
  split at valid
  · simp only [pure_bind, Checks.bind_ok] at valid
    obtain ⟨_, -, _, graph, result⟩ := valid
    cases result
    exact ⟨graph, fresh, rfl⟩
  · cases valid
  · cases valid
  · simp only [Checks.bind_ok] at valid
    obtain ⟨_, -, _, -, _, -, _, graph, result⟩ := valid
    cases result
    exact ⟨graph, fresh, rfl⟩

/-- The sources checked after those with the IDs `sourceIDs`. -/
structure Valid (sourceIDs : List String) (sources : List RedactedSourceCapture) : Prop where
  graphs : ∀ source ∈ sources, validateGraph source = .ok ()
  apart : ∀ source ∈ sources, source.id ∉ sourceIDs
  distinct : (sources.map (·.id)).Nodup

theorem Valid.append {sourceIDs : List String} {first second : List RedactedSourceCapture} (valid : Valid sourceIDs first)
    (later : Valid ((first.map (·.id)).reverse ++ sourceIDs) second) : Valid sourceIDs (first ++ second) := by
  refine ⟨fun source member => ?_, fun source member => ?_, ?_⟩
  · rcases List.mem_append.mp member with here | there
    · exact valid.graphs source here
    · exact later.graphs source there
  · rcases List.mem_append.mp member with here | there
    · exact valid.apart source here
    · exact fun known => later.apart source there (List.mem_append_right _ known)
  · rw [List.map_append, List.nodup_append]
    refine ⟨valid.distinct, later.distinct, fun id known other there same => ?_⟩
    obtain ⟨source, member, rfl⟩ := List.mem_map.mp there
    exact later.apart source member (List.mem_append_left _ (List.mem_reverse.mpr (same ▸ known)))

theorem validateSources_ok {descriptor : UIProviderDescriptor} {sources : List RedactedSourceCapture}
    {sourceIDs sourceIDs' : List String} (valid : validateSources descriptor sources sourceIDs = .ok sourceIDs') :
    Valid sourceIDs sources ∧ sourceIDs' = (sources.map (·.id)).reverse ++ sourceIDs := by
  induction sources generalizing sourceIDs with
  | nil =>
      cases valid
      exact ⟨⟨by simp, by simp, by simp⟩, rfl⟩
  | cons source rest ih =>
      obtain ⟨next, checked, valid⟩ := Checks.bind_ok.mp valid
      obtain ⟨graph, apart, rfl⟩ := validateSource_ok checked
      obtain ⟨later, rfl⟩ := ih valid
      have first : Valid sourceIDs [source] := ⟨by simpa using graph, by simpa using apart, by simp⟩
      exact ⟨first.append later, by simp⟩

theorem validateCaptures_ok {check : Check → Bool} {n : Nat} {captures : List Captured} {sourceIDs : List String}
    (valid : validateCaptures check n captures sourceIDs = .ok ()) :
    Valid sourceIDs (captures.flatMap (·.capture.sources)) := by
  induction captures generalizing n sourceIDs with
  | nil => exact ⟨by simp, by simp, by simp⟩
  | cons captured rest ih =>
      unfold validateCaptures at valid
      cases checked : validateSources captured.descriptor captured.capture.sources sourceIDs with
      | error reason =>
          rw [checked] at valid
          cases valid
      | ok next =>
          rw [checked] at valid
          dsimp only at valid
          split at valid
          · cases valid
          · obtain ⟨here, rfl⟩ := validateSources_ok checked
            exact here.append (ih valid)

theorem Valid.captures {sourceIDs : List String} {sources : List RedactedSourceCapture} (valid : Valid sourceIDs sources) :
    ∀ source ∈ sources, ∃ tree, Captures source tree := by
  intro source member
  obtain ⟨-, -, distinct, tree, listed, labelled⟩ := validateGraph_sound (valid.graphs source member)
  exact ⟨tree, distinct, listed, labelled⟩

/-! ## Reading a snapshot back -/

namespace StoredSnapshotRecord

def nodesOf (record : StoredSnapshotRecord) (source : StoredUISource) : List StoredUINode :=
  record.nodes.filter (·.sourceID == source.id)

/-- The captured sources, when `back` reads references back to provider-local IDs. -/
def recover (back : String → String) (record : StoredSnapshotRecord) : List RedactedSourceCapture :=
  record.sources.map fun source =>
    { id := source.id, provider := source.provider, platform := source.platform, representation := source.representation
      nativeSchema := source.nativeSchema, coordinateSpace := source.coordinateSpace, coverage := source.coverage
      limitations := source.limitations, nodes := (record.nodesOf source).map (StoredUINode.recover back) }

/-- The record stands for the captured sources. -/
structure StandsFor (record : StoredSnapshotRecord) (sources : List RedactedSourceCapture) : Prop where
  distinct : (record.nodes.map (·.reference)).Nodup
  parents : ∀ (i : Nat) (node : StoredUINode) (reference : String), record.nodes[i]? = some node →
    node.parentReference = some reference →
      ∃ j < i, ∃ parent, record.nodes[j]? = some parent ∧ parent.reference = reference ∧ parent.sourceID = node.sourceID
  roots : ∀ source ∈ record.sources,
    ((record.nodesOf source).filter (·.parentReference.isNone)).map (·.reference) = [source.rootReference]
  order : record.nodes = record.sources.flatMap record.nodesOf
  recovered : ∃ back, record.recover back = sources

end StoredSnapshotRecord

section
variable {token : String} {sources : List RedactedSourceCapture}

theorem flatMap_storedSources {offset : Nat} {f : StoredUISource → List StoredUINode}
    (own : ∀ before source after, sources = before ++ source :: after →
      f (storeSource token (offset + nodeCount before) source) = sourceNodes token (offset + nodeCount before) source) :
    (storedSources token offset sources).flatMap f = storedNodes token offset sources := by
  induction sources generalizing offset with
  | nil => rfl
  | cons source rest ih =>
      rw [storedSources, List.flatMap_cons, storedNodes]
      refine congrArg₂ _ (own [] source rest rfl) (ih fun before other after split => ?_)
      have later := own (source :: before) other after (by rw [split]; rfl)
      simpa [nodeCount, Nat.add_assoc] using later

theorem map_storedSources {offset : Nat} {f : StoredUISource → RedactedSourceCapture}
    (own : ∀ before source after, sources = before ++ source :: after →
      f (storeSource token (offset + nodeCount before) source) = source) :
    (storedSources token offset sources).map f = sources := by
  induction sources generalizing offset with
  | nil => rfl
  | cons source rest ih =>
      rw [storedSources, List.map_cons]
      refine congrArg₂ _ (own [] source rest rfl) (ih fun before other after split => ?_)
      have later := own (source :: before) other after (by rw [split]; rfl)
      simpa [nodeCount, Nat.add_assoc] using later

theorem stored_standsFor (scope : UISnapshotScope) (identity : UISnapshotIdentity) (valid : Valid [] sources) :
    StoredSnapshotRecord.StandsFor
      { scope, identity, sources := storedSources token 0 sources, nodes := storedNodes token 0 sources } sources := by
  have captures := valid.captures
  have own (before : List RedactedSourceCapture) (source : RedactedSourceCapture) (after : List RedactedSourceCapture)
      (split : sources = before ++ source :: after) :
      (storedNodes token 0 sources).filter (·.sourceID == (storeSource token (0 + nodeCount before) source).id) =
        sourceNodes token (0 + nodeCount before) source := by
    have distinct := valid.distinct
    rw [split] at distinct ⊢
    exact nodes_of_source distinct
  have distinct : ((storedNodes token 0 sources).map (·.reference)).Nodup := by
    rw [storedNodes_references fun source member => (captures source member).elim fun _ here => here.distinct]
    exact List.Nodup.map (nodeReference_injective token) List.nodup_range'
  -- the captured IDs in their global order
  let ids (n : Nat) : String := ((sources.flatMap (·.nodes))[n]?.map (·.id)).getD ""
  refine ⟨distinct, fun i node reference at_i refers => storedNodes_parent captures at_i refers, fun stored member => ?_,
    (flatMap_storedSources own).symm, Function.extend (nodeReference token) ids fun _ => "",
    map_storedSources fun before source after split => ?_⟩
  · obtain ⟨before, source, after, split, rfl⟩ := mem_storedSources member
    obtain ⟨tree, here⟩ := captures source (by simp [split])
    dsimp only [StoredSnapshotRecord.nodesOf]
    rw [own before source after split]
    exact here.root
  · obtain ⟨tree, here⟩ := captures source (by simp [split])
    have nodes : (sourceNodes token (0 + nodeCount before) source).map
        (StoredUINode.recover (Function.extend (nodeReference token) ids fun _ => "")) = source.nodes := by
      refine here.recover fun i node at_i => ?_
      have at_all : (sources.flatMap (·.nodes))[nodeCount before + i]? = some node := by
        rw [split, List.flatMap_append, List.flatMap_cons, nodeCount, List.getElem?_append_right (Nat.le_add_right ..),
          Nat.add_sub_cancel_left, List.getElem?_append_left (List.getElem?_eq_some_iff.mp at_i).1]
        exact at_i
      rw [(nodeReference_injective token).extend_apply, Nat.zero_add]
      simp [ids, at_all]
    dsimp only [StoredSnapshotRecord.nodesOf]
    rw [own before source after split, nodes]
    rfl

end

/-- A snapshot stands for the sources that its providers returned. -/
theorem snapshot_standsFor (encodedSize : StoredSnapshotRecord → Option Nat) {limits : UISnapshotStoreLimits} {store : Store}
    {scope : UISnapshotScope} {captures : List Captured} {token : String} {check : Check → Bool}
    {snapshot : StoredUISnapshot}
    (built : prepare encodedSize limits store scope captures token check = .ok snapshot) :
    snapshot.toStoredSnapshotRecord.StandsFor (captures.flatMap (·.capture.sources)) := by
  obtain ⟨_, checked, prepared⟩ := Checks.bind_ok.mp built
  have valid := validateCaptures_ok checked
  have stored : storeSources token (captures.flatMap (·.capture.sources)) ([], []) =
      (storedSources token 0 (captures.flatMap (·.capture.sources)), storedNodes token 0 (captures.flatMap (·.capture.sources))) := by
    simpa using storeSources_eq [] []
  rw [stored] at prepared
  simp only [bind, Except.bind, pure, Except.pure, throw, throwThe, MonadExceptOf.throw] at prepared
  split at prepared
  · cases prepared
  · split at prepared
    · cases prepared
    · split at prepared
      · cases prepared
      · split at prepared
        · cases prepared
        · split at prepared
          · cases prepared
          · split at prepared
            · cases prepared
            · cases prepared
              exact stored_standsFor scope _ valid

/-- Two sources with the same node IDs. -/
def twoWindows : RedactedProviderCapture where
  sources := singleView.sources.flatMap fun source => ["main", "second"].map fun id =>
    { source with
      id, nodes := [{ id := "window", depth := 0, childCount := 1 },
        { id := "label", parentID := some "window", childIndex := some 0, depth := 1, childCount := 0 }] }

theorem twoWindows_standsFor : ∃ snapshot : StoredUISnapshot,
    snapshot.nodes.map (·.parentReference) =
      [none, some ("node_" ++ captureToken ++ "_1"), none, some ("node_" ++ captureToken ++ "_3")] ∧
      snapshot.toStoredSnapshotRecord.StandsFor twoWindows.sources := by
  cases built : prepare singleViewSize viewsRuntime.limits {} sessionScope
      [{ descriptor := viewsProvider, capture := twoWindows }] captureToken (fun _ => false) with
  | error error => cases built
  | ok snapshot =>
      refine ⟨snapshot, ?_, snapshot_standsFor singleViewSize built⟩
      cases built
      rfl

end AppPilotKit.Snapshot
