import AppPilotKit.Lib.Checks
import AppPilotKit.Lib.Preorder
import AppPilotKit.Snapshot.Capture

/-! # Captured trees

A source passes the graph check when its nodes are the depth-first listing of one tree
and say so. Node IDs stand for their canonical forms, as Swift compares them.
-/

namespace AppPilotKit.Snapshot

open Preorder (Walk Placed childrenIn)

/-- What a node says of its place. -/
def captured : Preorder.Labels RedactedNodeCapture String where
  name := (·.id)
  parent := (·.parentID)
  place := (·.childIndex)
  depth := (·.depth)
  arity := (·.childCount)

theorem require_ok {condition : Bool} {reason : String} : require condition reason = .ok () ↔ condition = true :=
  Checks.guard_ok

/-- What is checked of a node by itself. -/
structure Plain (source : RedactedSourceCapture) (node : RedactedNodeCapture) : Prop where
  named : node.id ≠ ""
  payload : validatePayload node source = .ok ()
  counted : 0 ≤ node.childCount

/-- The state agrees with the nodes before. -/
structure Seen (before : List RedactedNodeCapture) (g : GraphState) : Prop where
  names : ∀ id, id ∈ g.nodeIDs ↔ id ∈ before.map (·.id)
  counts : ∀ id, g.children id = childrenIn captured before id

variable {source : RedactedSourceCapture} {node : RedactedNodeCapture} {before nodes : List RedactedNodeCapture}
  {g g' : GraphState} {offset : Nat}

/-- The first node: the root. -/
structure First (offset : Nat) (g : GraphState) (node : RedactedNodeCapture) (g' : GraphState) : Prop where
  first : offset = 0
  deep : node.depth = 0
  named : node.parentID = none
  placed : node.childIndex = none
  next : g' = { nodeIDs := node.id :: g.nodeIDs, stack := [node], childIndices := g.childIndices }

/-- A node below a parent on the stack. -/
structure Below (g : GraphState) (node : RedactedNodeCapture) (g' : GraphState) (popped : List RedactedNodeCapture)
    (parent : RedactedNodeCapture) (path : List RedactedNodeCapture) : Prop where
  stack : g.stack.reverse = popped ++ parent :: path
  deep : node.depth = path.length + 1
  named : node.parentID = some parent.id
  placed : node.childIndex = some (g.children parent.id : Int)
  next : g' = { nodeIDs := node.id :: g.nodeIDs, stack := (node :: parent :: path).reverse
                childIndices := g.childIndices ++ [(parent.id, (g.children parent.id : Int))] }

/-- The last node within a depth is the parent there: what is popped, and the path that
    stays. -/
theorem take_split {stack : List RedactedNodeCapture} {depth : Nat} {parentID : String} :
    ((stack.take depth).length = depth ∧ (stack.take depth).getLast?.any (·.id == parentID) = true) ↔
      ∃ popped parent path, stack.reverse = popped ++ parent :: path ∧ depth = path.length + 1 ∧ parentID = parent.id ∧
        stack.take depth = (parent :: path).reverse := by
  constructor
  · rintro ⟨long, last⟩
    cases at_last : (stack.take depth).getLast? with
    | none =>
        rw [at_last] at last
        cases last
    | some parent =>
        rw [at_last, Option.any_some, beq_iff_eq] at last
        obtain ⟨path, split⟩ := List.getLast?_eq_some_iff.mp at_last
        refine ⟨(stack.drop depth).reverse, parent, path.reverse, ?_, ?_, last.symm, ?_⟩
        · rw [← List.take_append_drop depth stack, List.reverse_append, List.take_append_drop, split]
          simp
        · rw [split] at long
          simpa using long.symm
        · simpa using split
  · rintro ⟨popped, parent, path, split, rfl, rfl, taken⟩
    rw [taken]
    simp

theorem visit_ok : visit source offset node g = .ok g' ↔ Plain source node ∧ node.id ∉ g.nodeIDs ∧
    (First offset g node g' ∨ ∃ popped parent path, Below g node g' popped parent path) := by
  unfold visit
  simp only [Checks.and_then_ok, require_ok, bne_iff_ne, Bool.not_eq_true', List.contains_eq_mem,
    decide_eq_false_iff_not, Bool.and_eq_true, decide_eq_true_eq]
  by_cases root : node.depth = 0
  · rw [if_pos root]
    simp only [Checks.and_then_ok, require_ok, Bool.and_eq_true, beq_iff_eq, Option.isNone_iff_eq_none]
    constructor
    · rintro ⟨named, payload, unseen, ⟨-, counted⟩, ⟨⟨first, below⟩, placed⟩, result⟩
      cases result
      exact ⟨⟨named, payload, counted⟩, unseen, .inl ⟨first, root, below, placed, rfl⟩⟩
    · rintro ⟨⟨named, payload, counted⟩, unseen, ⟨first, -, below, placed, rfl⟩ | ⟨popped, parent, path, below⟩⟩
      · exact ⟨named, payload, unseen, ⟨root.ge, counted⟩, ⟨⟨first, below⟩, placed⟩, rfl⟩
      · have deep := below.deep
        omega
  · rw [if_neg root]
    constructor
    · rintro ⟨named, payload, unseen, ⟨deep, counted⟩, done⟩
      refine ⟨⟨named, payload, counted⟩, unseen, .inr ?_⟩
      cases parentID : node.parentID with
      | none =>
          rw [parentID] at done
          cases done
      | some parent =>
          cases childIndex : node.childIndex with
          | none =>
              rw [parentID, childIndex] at done
              cases done
          | some place =>
              simp only [parentID, childIndex, Checks.and_then_ok, require_ok, Bool.and_eq_true, beq_iff_eq] at done
              obtain ⟨-, inside, placed, result⟩ := done
              cases result
              obtain ⟨popped, node', path, split, depth, rfl, taken⟩ := take_split.mp inside
              refine ⟨popped, node', path, split, by omega, parentID, ?_, ?_⟩
              · rw [childIndex, placed]
                rfl
              · rw [taken, placed]
                simp [GraphState.children]
    · rintro ⟨⟨named, payload, counted⟩, unseen, first | ⟨popped, parent, path, stack, deep, below, placed, rfl⟩⟩
      · exact absurd first.deep root
      refine ⟨named, payload, unseen, ⟨by omega, counted⟩, ?_⟩
      have split : g.stack = (parent :: path).reverse ++ popped.reverse := by
        simpa using congrArg List.reverse stack
      have taken : g.stack.take node.depth.toNat = (parent :: path).reverse := by
        rw [split]
        refine List.take_left' ?_
        rw [List.length_reverse, List.length_cons]
        omega
      rw [below, placed]
      simp only [Checks.and_then_ok, require_ok, Bool.and_eq_true, beq_iff_eq, decide_eq_true_eq]
      refine ⟨by omega, take_split.mpr ⟨popped, parent, path, stack, by omega, rfl, taken⟩, rfl, ?_⟩
      rw [taken]
      simp
      rfl

theorem Seen.root (first : First offset {} node g') : Seen [node] g' := by
  obtain ⟨-, -, named, -, rfl⟩ := first
  constructor
  · intro id
    simp
  · intro id
    simp [GraphState.children, captured, named]

theorem Seen.child {popped path : List RedactedNodeCapture} {parent : RedactedNodeCapture} (seen : Seen before g)
    (below : Below g node g' popped parent path) : Seen (before ++ [node]) g' := by
  obtain ⟨-, -, named, -, rfl⟩ := below
  constructor
  · intro id
    simp [seen.names id, or_comm]
  · intro id
    have counts := seen.counts id
    unfold GraphState.children at counts ⊢
    rw [List.countP_append, counts]
    simp [captured, named, List.countP_singleton]

theorem visitAll_seen (later : offset ≠ 0) (seen : Seen before g) (visited : visitAll source offset nodes g = .ok g') :
    Seen (before ++ nodes) g' := by
  induction nodes generalizing offset before g with
  | nil =>
      cases visited
      rwa [List.append_nil]
  | cons node nodes ih =>
      obtain ⟨next, visit, rest⟩ := Checks.bind_ok.mp visited
      obtain ⟨-, -, first | ⟨popped, parent, path, below⟩⟩ := visit_ok.mp visit
      · exact absurd first.first later
      · simpa using ih (Nat.succ_ne_zero _) (seen.child below) rest

/-- After the first node. -/
theorem visitAll_ok (later : offset ≠ 0) (seen : Seen before g) :
    (∃ g', visitAll source offset nodes g = .ok g') ↔
      (∀ node ∈ nodes, Plain source node) ∧ ((nodes.map (·.id)).Nodup ∧ ∀ node ∈ nodes, node.id ∉ before.map (·.id)) ∧
        Walk captured g.stack.reverse nodes ∧ Placed captured before nodes := by
  induction nodes generalizing offset before g with
  | nil => exact ⟨fun _ => ⟨by simp, by simp, trivial, trivial⟩, fun _ => ⟨g, rfl⟩⟩
  | cons node nodes ih =>
      constructor
      · rintro ⟨last, visited⟩
        obtain ⟨next, visit, rest⟩ := Checks.bind_ok.mp visited
        obtain ⟨plain, unseen, first | ⟨popped, parent, path, below⟩⟩ := visit_ok.mp visit
        · exact absurd first.first later
        have now := seen.child below
        obtain ⟨plains, ⟨nodup, apart⟩, walk, placed⟩ := (ih (Nat.succ_ne_zero _) now).mp ⟨last, rest⟩
        rw [below.next, List.reverse_reverse] at walk
        refine ⟨List.forall_mem_cons.mpr ⟨plain, plains⟩, ⟨List.nodup_cons.mpr ⟨?_, nodup⟩, ?_⟩,
          ⟨popped, parent, path, below.stack, below.deep, below.named, walk⟩, ⟨⟨parent.id, below.named, ?_⟩, placed⟩⟩
        · intro inside
          obtain ⟨other, member, same⟩ := List.mem_map.mp inside
          exact apart other member (by simp [same])
        · refine List.forall_mem_cons.mpr ⟨fun inside => unseen ((seen.names _).mpr inside), fun other member inside => ?_⟩
          exact apart other member (by simpa using .inl (List.mem_map.mp inside))
        · rw [← seen.counts]
          exact below.placed
      · rintro ⟨plains, ⟨nodup, apart⟩, ⟨popped, parent, path, stack, deep, named, walk⟩, ⟨id, at_id, place⟩, placed⟩
        obtain ⟨plain, plains⟩ := List.forall_mem_cons.mp plains
        obtain ⟨unseen, apart⟩ := List.forall_mem_cons.mp apart
        obtain ⟨fresh, nodup⟩ := List.nodup_cons.mp nodup
        obtain rfl : id = parent.id := Option.some.inj (at_id.symm.trans named)
        have below : Below g node _ popped parent path := ⟨stack, deep, named, by rw [seen.counts]; exact place, rfl⟩
        have visit := (@visit_ok source node g _ offset).mpr
          ⟨plain, fun inside => unseen ((seen.names _).mp inside), .inr ⟨popped, parent, path, below⟩⟩
        have clear : ∀ other ∈ nodes, other.id ∉ (before ++ [node]).map (·.id) := by
          intro other member inside
          rw [List.map_append, List.mem_append] at inside
          rcases inside with inside | inside
          · exact apart other member inside
          · have same : other.id = node.id := by simpa using inside
            exact fresh (List.mem_map.mpr ⟨other, member, same⟩)
        obtain ⟨last, rest⟩ := (ih (Nat.succ_ne_zero offset) (seen.child below)).mpr
          ⟨plains, ⟨nodup, clear⟩, by simpa using walk, placed⟩
        exact ⟨last, Checks.bind_ok.mpr ⟨_, visit, rest⟩⟩

/-- The nodes are the preorder listing of one tree, with distinct and non-empty names and
    true labels. -/
structure ListsTree (nodes : List RedactedNodeCapture) : Prop where
  named : ∀ node ∈ nodes, node.id ≠ ""
  distinct : (nodes.map (·.id)).Nodup
  tree : ∃ tree : Preorder.Tree RedactedNodeCapture, nodes = tree.listing ∧ tree.Labelled captured

theorem validateGraph_sound (valid : validateGraph source = .ok ()) :
    (∀ node ∈ source.nodes, validatePayload node source = .ok ()) ∧ ListsTree source.nodes := by
  obtain ⟨g, visited, done⟩ := Checks.bind_ok.mp valid
  cases listed : source.nodes with
  | nil =>
      rw [listed] at done
      cases done
  | cons root nodes =>
      rw [listed] at visited done
      obtain ⟨first, visit, rest⟩ := Checks.bind_ok.mp visited
      obtain ⟨plain, -, started | ⟨popped, parent, path, below⟩⟩ := visit_ok.mp visit
      · have seen := Seen.root started
        obtain ⟨plains, ⟨nodup, apart⟩, walk, placed⟩ := (visitAll_ok one_ne_zero seen).mp ⟨g, rest⟩
        have counts := (visitAll_seen one_ne_zero seen rest).counts
        rw [Checks.and_then_ok, require_ok, require_ok, List.all_eq_true] at done
        have distinct : ((root :: nodes).map (·.id)).Nodup := by
          refine List.nodup_cons.mpr ⟨fun inside => ?_, nodup⟩
          obtain ⟨other, member, same⟩ := List.mem_map.mp inside
          exact apart other member (by simp [same])
        rw [started.next] at walk
        have counted : Preorder.Counted captured (root :: nodes) := by
          intro node member
          have same := of_decide_eq_true (done.2 node member)
          rw [counts] at same
          exact same.symm
        refine ⟨List.forall_mem_cons.mpr ⟨plain.payload, fun node member => (plains node member).payload⟩,
          List.forall_mem_cons.mpr ⟨plain.named, fun node member => (plains node member).named⟩, distinct, ?_⟩
        exact (Preorder.labelled_iff distinct).mpr
          ⟨⟨started.named, started.placed, started.deep⟩, walk, placed, counted⟩
      · have stack := below.stack
        simp at stack

theorem validateGraph_complete (payloads : ∀ node ∈ source.nodes, validatePayload node source = .ok ())
    (lists : ListsTree source.nodes) : validateGraph source = .ok () := by
  obtain ⟨names, nodup, tree⟩ := lists
  unfold validateGraph
  rw [Checks.bind_ok]
  cases listed : source.nodes with
  | nil =>
      rw [listed] at tree
      obtain ⟨tree, empty, -⟩ := tree
      cases empty
  | cons root nodes =>
      rw [listed] at payloads names nodup tree
      obtain ⟨⟨named, place, deep⟩, walk, placed, counted⟩ := (Preorder.labelled_iff nodup).mp tree
      have plain (node : RedactedNodeCapture) (member : node ∈ root :: nodes) : Plain source node := by
        refine ⟨names node member, payloads node member, ?_⟩
        have count : node.childCount = _ := counted node member
        omega
      obtain ⟨fresh, distinct⟩ := List.nodup_cons.mp nodup
      have started : First 0 {} root _ := ⟨rfl, deep, named, place, rfl⟩
      have visit := (@visit_ok source root {} _ 0).mpr ⟨plain root (List.mem_cons_self ..), by simp, .inl started⟩
      have seen := Seen.root started
      have apart : ∀ node ∈ nodes, node.id ∉ [root].map (·.id) := by
        intro node member inside
        have same : node.id = root.id := by simpa using inside
        exact fresh (List.mem_map.mpr ⟨node, member, same⟩)
      obtain ⟨g, rest⟩ := (@visitAll_ok source _ nodes _ 1 one_ne_zero seen).mpr
        ⟨fun node member => plain node (List.mem_cons_of_mem _ member), ⟨distinct, apart⟩, walk, placed⟩
      have counts := (visitAll_seen one_ne_zero seen rest).counts
      refine ⟨g, Checks.bind_ok.mpr ⟨_, visit, rest⟩, ?_⟩
      rw [Checks.and_then_ok, require_ok, require_ok, List.all_eq_true]
      refine ⟨decide_eq_true deep, fun node member => decide_eq_true ?_⟩
      rw [counts]
      exact (counted node member).symm

/-- A source is accepted exactly when its nodes, each with an accepted payload, list a
    tree. -/
theorem validateGraph_ok (source : RedactedSourceCapture) : validateGraph source = .ok () ↔
    (∀ node ∈ source.nodes, validatePayload node source = .ok ()) ∧ ListsTree source.nodes :=
  ⟨validateGraph_sound, fun ⟨payloads, lists⟩ => validateGraph_complete payloads lists⟩

end AppPilotKit.Snapshot
