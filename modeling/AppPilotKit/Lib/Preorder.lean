import Mathlib

/-! # Ordered trees and their preorder listings

Nodes carry labels for their place in a tree: the name of their parent, their place
among its children, their depth and the number of their own children. A listing in
depth-first order can be checked against these labels with a stack and one counter for
each name, without building the tree.
-/

namespace Preorder

/-- Trees side by side: the root of the first, the trees below it and those beside it. -/
inductive Forest (α : Type*) where
  | none
  | tree (root : α) (children siblings : Forest α)

namespace Forest

variable {α : Type*}

/-- Depth first, a node before its children. -/
def listing : Forest α → List α
  | none => []
  | tree root children siblings => root :: (children.listing ++ siblings.listing)

/-- How many trees stand side by side. -/
def width : Forest α → Nat
  | none => 0
  | tree _ _ siblings => siblings.width + 1

def size : Forest α → Nat
  | none => 0
  | tree _ children siblings => 1 + children.size + siblings.size

/-- Forests of one shape: `R` holds of each two nodes in one place, under the nodes above the
    first of them, nearest first. -/
def Alike {β : Type*} (R : List α → α → β → Prop) : List α → Forest α → Forest β → Prop
  | _, none, none => True
  | above, tree a children siblings, tree b children' siblings' =>
      R above a b ∧ Alike R (a :: above) children children' ∧ Alike R above siblings siblings'
  | _, _, _ => False

end Forest

/-- What the nodes say of their place in a tree. -/
structure Labels (α κ : Type*) where
  name : α → κ
  parent : α → Option κ
  place : α → Option Int
  depth : α → Int
  arity : α → Int

variable {α κ : Type*} (L : Labels α κ)

/-- The labels are true of the children of `parent` from the place `place` on, and of all
    that is below them. -/
def Forest.Labelled (parent : κ) (depth : Int) : Int → Forest α → Prop
  | _, .none => True
  | place, .tree root children siblings =>
      L.parent root = some parent ∧ L.place root = some place ∧ L.depth root = depth ∧
        L.arity root = children.width ∧ children.Labelled (L.name root) (depth + 1) 0 ∧
        siblings.Labelled parent depth (place + 1)

/-- The labels for parent and depth are. -/
def Forest.Shaped (parent : κ) (depth : Int) : Forest α → Prop
  | .none => True
  | .tree root children siblings =>
      L.parent root = some parent ∧ L.depth root = depth ∧ children.Shaped (L.name root) (depth + 1) ∧
        siblings.Shaped parent depth

/-! ## The stack -/

/-- The nodes can be visited in order with the path to the last one on a stack, deepest
    node first: each is a child of a node on the stack, at the depth that node gives it. -/
def Walk : List α → List α → Prop
  | _, [] => True
  | stack, node :: nodes =>
      ∃ popped parent path, stack = popped ++ parent :: path ∧ L.depth node = path.length + 1 ∧
        L.parent node = some (L.name parent) ∧ Walk (node :: parent :: path) nodes

/-- The nodes are what is still to come below each node of the stack. -/
inductive Hangs : List α → List α → Prop
  | done : Hangs [] []
  | level {parent : α} {path nodes : List α} {forest : Forest α}
      (shaped : forest.Shaped L (L.name parent) (path.length + 1)) (rest : Hangs path nodes) :
      Hangs (parent :: path) (forest.listing ++ nodes)

variable {L} {stack path nodes : List α}

theorem Walk.push (walk : Walk L path nodes) (popped : List α) : Walk L (popped ++ path) nodes := by
  cases nodes with
  | nil => trivial
  | cons node nodes =>
      obtain ⟨others, parent, path, rfl, depth, named, walk⟩ := walk
      exact ⟨popped ++ others, parent, path, (List.append_assoc ..).symm, depth, named, walk⟩

theorem Hangs.push (hangs : Hangs L path nodes) (popped : List α) : Hangs L (popped ++ path) nodes := by
  induction popped with
  | nil => exact hangs
  | cons node popped ih =>
      have leaf : Forest.Shaped L (L.name node) ((popped ++ path).length + 1) .none := trivial
      exact .level leaf ih

theorem Walk.hangs (walk : Walk L stack nodes) : Hangs L stack nodes := by
  induction nodes generalizing stack with
  | nil => simpa using Hangs.done.push stack
  | cons node nodes ih =>
      obtain ⟨popped, parent, path, rfl, depth, named, walk⟩ := walk
      refine Hangs.push ?_ popped
      -- what is below the node, what is beside it, and the rest
      cases ih walk with
      | @level _ _ _ children under rest =>
          cases rest with
          | @level _ _ _ siblings beside rest =>
              have tree : Forest.Shaped L (L.name parent) (path.length + 1) (.tree node children siblings) := by
                refine ⟨named, depth, ?_, beside⟩
                simpa using under
              simpa [Forest.listing] using Hangs.level tree rest

theorem Walk.forest {parent : α} {forest : Forest α}
    (shaped : forest.Shaped L (L.name parent) (path.length + 1)) (walk : Walk L (parent :: path) nodes) :
    Walk L (parent :: path) (forest.listing ++ nodes) := by
  induction forest generalizing parent path nodes with
  | none => exact walk
  | tree root children siblings below beside =>
      obtain ⟨named, depth, under, along⟩ := shaped
      refine ⟨[], parent, path, rfl, depth, named, ?_⟩
      have later : Walk L (root :: parent :: path) (children.listing ++ (siblings.listing ++ nodes)) :=
        below (by simpa using under) ((beside along walk).push [root])
      simpa [List.append_assoc] using later

/-- Visiting below one root is listing a forest. -/
theorem walk_root {root : α} : Walk L [root] nodes ↔ ∃ forest : Forest α,
    nodes = forest.listing ∧ forest.Shaped L (L.name root) 1 := by
  constructor
  · intro walk
    cases walk.hangs with
    | @level _ _ _ forest shaped rest =>
        cases rest
        exact ⟨forest, by simp, by simpa using shaped⟩
  · rintro ⟨forest, rfl, shaped⟩
    have walk : Walk L [root] (forest.listing ++ []) := Walk.forest (by simpa using shaped) trivial
    simpa using walk

/-- The parent of a node was on the stack, or came before the node. -/
theorem Walk.parent_before (walk : Walk L stack nodes) {i : Nat} {node : α} (at_i : nodes[i]? = some node) :
    ∃ parent, (parent ∈ stack ∨ parent ∈ nodes.take i) ∧ L.parent node = some (L.name parent) := by
  induction nodes generalizing stack i with
  | nil => cases at_i
  | cons first nodes ih =>
      obtain ⟨popped, parent, path, rfl, depth, named, walk⟩ := walk
      cases i with
      | zero =>
          cases at_i
          exact ⟨parent, .inl (by simp), named⟩
      | succ i =>
          obtain ⟨found, there, at_found⟩ := ih walk at_i
          refine ⟨found, ?_, at_found⟩
          rcases there with there | there
          · rcases List.mem_cons.mp there with rfl | there
            · exact .inr (List.mem_cons_self ..)
            · exact .inl (List.mem_append_right _ there)
          · exact .inr (List.mem_cons_of_mem _ there)

/-! ## The counters -/

section
variable {before others : List α} {forest : Forest α} {parent name : κ} {depth : Int}

/-- A node of a listing has its parent in the listing, or is at the top of it. -/
theorem Forest.Shaped.parents (shaped : forest.Shaped L parent depth) :
    ∀ node ∈ forest.listing, L.parent node = some parent ∨ ∃ inner ∈ forest.listing, L.parent node = some (L.name inner) := by
  induction forest generalizing parent depth with
  | none => exact fun node member => by cases member
  | tree root children siblings below beside =>
      obtain ⟨named, -, under, along⟩ := shaped
      intro node member
      rcases List.mem_cons.mp member with rfl | member
      · exact .inl named
      · rcases List.mem_append.mp member with inner | outer
        · rcases below under node inner with at_root | ⟨found, there, at_found⟩
          · exact .inr ⟨root, by simp [Forest.listing], at_root⟩
          · exact .inr ⟨found, by simp [Forest.listing, there], at_found⟩
        · rcases beside along node outer with at_top | ⟨found, there, at_found⟩
          · exact .inl at_top
          · exact .inr ⟨found, by simp [Forest.listing, there], at_found⟩

theorem Forest.Labelled.shaped {place : Int} (labelled : forest.Labelled L parent depth place) :
    forest.Shaped L parent depth := by
  induction forest generalizing parent depth place with
  | none => trivial
  | tree root children siblings below beside =>
      obtain ⟨named, -, depth, -, under, along⟩ := labelled
      exact ⟨named, depth, below under, beside along⟩

variable (L) in
/-- The names in a listing and the one above it differ. -/
def Distinct (parent : κ) (forest : Forest α) : Prop := (parent :: forest.listing.map L.name).Nodup

theorem distinct_tree {root : α} {children siblings : Forest α} :
    Distinct L parent (.tree root children siblings) ↔ Distinct L (L.name root) children ∧ Distinct L parent siblings ∧
      parent ≠ L.name root ∧ (∀ node ∈ children.listing, L.name node ≠ parent) ∧
      ∀ node ∈ siblings.listing, L.name node ≠ L.name root ∧ ∀ inner ∈ children.listing, L.name inner ≠ L.name node := by
  simp only [Distinct, Forest.listing, List.map_cons, List.map_append, List.nodup_cons, List.mem_cons, List.mem_append,
    List.nodup_append, List.mem_map]
  grind

variable [DecidableEq κ]

variable (L) in
/-- How many of the nodes name this parent. -/
def childrenIn (nodes : List α) (parent : κ) : Nat := nodes.countP fun node => decide (L.parent node = some parent)

variable (L) in
/-- Each node takes the next place below its parent. -/
def Placed : List α → List α → Prop
  | _, [] => True
  | before, node :: nodes =>
      (∃ parent, L.parent node = some parent ∧ L.place node = some (childrenIn L before parent : Int)) ∧
        Placed (before ++ [node]) nodes

variable (L) in
/-- Each node has as many children among the nodes as it says. -/
def Counted (nodes : List α) : Prop := ∀ node ∈ nodes, L.arity node = childrenIn L nodes (L.name node)

@[simp] theorem childrenIn_nil : childrenIn L [] name = 0 := rfl

@[simp] theorem childrenIn_append :
    childrenIn L (nodes ++ others) name = childrenIn L nodes name + childrenIn L others name := List.countP_append

@[simp] theorem childrenIn_cons {node : α} : childrenIn L (node :: nodes) name =
    (if L.parent node = some name then 1 else 0) + childrenIn L nodes name := by
  unfold childrenIn
  rw [List.countP_cons]
  simp only [decide_eq_true_eq]
  exact Nat.add_comm ..

theorem placed_append : Placed L before (nodes ++ others) ↔
    Placed L before nodes ∧ Placed L (before ++ nodes) others := by
  induction nodes generalizing before with
  | nil => simp [Placed]
  | cons node nodes ih => simp [Placed, ih, and_assoc]

theorem Forest.Shaped.no_children (shaped : forest.Shaped L parent depth) (other : name ≠ parent)
    (outside : name ∉ forest.listing.map L.name) : childrenIn L forest.listing name = 0 := by
  refine List.countP_eq_zero.mpr fun node member => ?_
  rw [decide_eq_true_eq]
  intro named
  rcases shaped.parents node member with at_top | ⟨found, there, at_found⟩
  · exact other (Option.some.inj (named.symm.trans at_top))
  · refine outside (List.mem_map.mpr ⟨found, there, ?_⟩)
    exact Option.some.inj (at_found.symm.trans named)

theorem Forest.Shaped.top (shaped : forest.Shaped L parent depth) (outside : parent ∉ forest.listing.map L.name) :
    childrenIn L forest.listing parent = forest.width := by
  induction forest generalizing depth with
  | none => rfl
  | tree root children siblings _ beside =>
      obtain ⟨named, -, under, along⟩ := shaped
      simp only [Forest.listing, List.map_cons, List.map_append, List.mem_cons, List.mem_append, not_or] at outside
      obtain ⟨other, inner, outer⟩ := outside
      simp only [Forest.listing, Forest.width, childrenIn_cons, childrenIn_append, named, if_true,
        under.no_children other inner, beside along outer]
      omega

theorem Forest.Shaped.none_outside (shaped : forest.Shaped L parent depth) {outer : α} (other : L.name outer ≠ parent)
    (apart : ∀ node ∈ forest.listing, L.name node ≠ L.name outer) : childrenIn L forest.listing (L.name outer) = 0 := by
  refine shaped.no_children other fun inside => ?_
  obtain ⟨node, member, same⟩ := List.mem_map.mp inside
  exact apart node member same

theorem counted_tree {root : α} {children siblings : Forest α}
    (shaped : Forest.Shaped L parent depth (.tree root children siblings))
    (distinct : Distinct L parent (.tree root children siblings)) :
    Counted L (Forest.tree root children siblings).listing ↔
      L.arity root = children.width ∧ Counted L children.listing ∧ Counted L siblings.listing := by
  obtain ⟨named, -, under, along⟩ := shaped
  obtain ⟨below, beside, top, inner, outer⟩ := distinct_tree.mp distinct
  have of_root : childrenIn L (Forest.tree root children siblings).listing (L.name root) = children.width := by
    simp only [Forest.listing, childrenIn_cons, childrenIn_append, named, Option.some.injEq, top, if_false,
      under.top (List.nodup_cons.mp below).1, along.none_outside (Ne.symm top) fun node member => (outer node member).1]
    omega
  have of_inner (node : α) (member : node ∈ children.listing) :
      childrenIn L (Forest.tree root children siblings).listing (L.name node) = childrenIn L children.listing (L.name node) := by
    simp only [Forest.listing, childrenIn_cons, childrenIn_append, named, Option.some.injEq,
      Ne.symm (inner node member), if_false,
      along.none_outside (inner node member) fun other there => Ne.symm ((outer other there).2 node member)]
    omega
  have of_outer (node : α) (member : node ∈ siblings.listing) :
      childrenIn L (Forest.tree root children siblings).listing (L.name node) = childrenIn L siblings.listing (L.name node) := by
    have apart : parent ≠ L.name node := fun same =>
      (List.nodup_cons.mp beside).1 (List.mem_map.mpr ⟨node, member, same.symm⟩)
    simp only [Forest.listing, childrenIn_cons, childrenIn_append, named, Option.some.injEq, apart, if_false,
      under.none_outside (outer node member).1 (outer node member).2]
    omega
  constructor
  · intro counted
    refine ⟨?_, fun node member => ?_, fun node member => ?_⟩
    · rw [counted root (by simp [Forest.listing]), of_root]
    · rw [counted node (by simp [Forest.listing, member]), of_inner node member]
    · rw [counted node (by simp [Forest.listing, member]), of_outer node member]
  · rintro ⟨width, inside, outside⟩ node member
    rcases List.mem_cons.mp member with rfl | member
    · rw [width, of_root]
    · rcases List.mem_append.mp member with below | beside
      · rw [inside node below, of_inner node below]
      · rw [outside node beside, of_outer node beside]

/-- Counting children makes the labels of a forest true. -/
theorem Forest.Shaped.labelled_iff (shaped : forest.Shaped L parent depth) (distinct : Distinct L parent forest)
    (fresh : ∀ node ∈ forest.listing, childrenIn L before (L.name node) = 0) :
    forest.Labelled L parent depth (childrenIn L before parent) ↔
      Placed L before forest.listing ∧ Counted L forest.listing := by
  induction forest generalizing parent depth before with
  | none =>
      refine ⟨fun _ => ⟨trivial, fun node member => ?_⟩, fun _ => trivial⟩
      cases member
  | tree root children siblings below beside =>
      have counted := counted_tree shaped distinct
      obtain ⟨named, depth, under, along⟩ := shaped
      obtain ⟨inside, outside, top, inner, outer⟩ := distinct_tree.mp distinct
      have no_root : childrenIn L (before ++ [root]) (L.name root) = 0 := by
        simp [fresh root (by simp [Forest.listing]), named, top]
      have children_fresh (node : α) (member : node ∈ children.listing) :
          childrenIn L (before ++ [root]) (L.name node) = 0 := by
        simp [fresh node (by simp [Forest.listing, member]), named, Ne.symm (inner node member)]
      have siblings_fresh (node : α) (member : node ∈ siblings.listing) :
          childrenIn L (before ++ root :: children.listing) (L.name node) = 0 := by
        have apart : parent ≠ L.name node := fun same =>
          (List.nodup_cons.mp outside).1 (List.mem_map.mpr ⟨node, member, same.symm⟩)
        simp [fresh node (by simp [Forest.listing, member]), named, apart,
          under.none_outside (outer node member).1 (outer node member).2]
      have next : childrenIn L (before ++ root :: children.listing) parent = childrenIn L before parent + 1 := by
        have none_inside : childrenIn L children.listing parent = 0 :=
          under.no_children top fun there => by
            obtain ⟨node, member, same⟩ := List.mem_map.mp there
            exact inner node member same
        simp [named, none_inside]
      have of_children := below under inside children_fresh
      have of_siblings := beside along outside siblings_fresh
      rw [no_root] at of_children
      rw [next] at of_siblings
      rw [counted]
      simp only [Forest.Labelled, Forest.listing, Placed, placed_append, named, depth, List.append_assoc,
        List.singleton_append, Option.some.injEq, exists_eq_left', true_and]
      push_cast at of_children of_siblings
      rw [of_children, of_siblings]
      tauto

end

/-- A tree and its root. -/
structure Tree (α : Type*) where
  root : α
  children : Forest α

def Tree.listing (tree : Tree α) : List α := tree.root :: tree.children.listing

def Tree.size (tree : Tree α) : Nat := 1 + tree.children.size

def Tree.Alike {β : Type*} (R : List α → α → β → Prop) (tree : Tree α) (tree' : Tree β) : Prop :=
  R [] tree.root tree'.root ∧ tree.children.Alike R [tree.root] tree'.children

/-- The trees that stand side by side. -/
def Forest.trees : Forest α → List (Tree α)
  | none => []
  | tree root children siblings => ⟨root, children⟩ :: siblings.trees

theorem Forest.size_trees (forest : Forest α) : (forest.trees.map Tree.size).sum = forest.size := by
  induction forest with
  | none => rfl
  | tree root children siblings _ beside => simp only [trees, List.map_cons, List.sum_cons, beside, Tree.size, size]

theorem Forest.length_trees (forest : Forest α) : forest.trees.length = forest.width := by
  induction forest with
  | none => rfl
  | tree root children siblings _ beside => rw [trees, List.length_cons, beside, width]

theorem Forest.mem_listing {forest : Forest α} {a : α} : a ∈ forest.listing ↔ ∃ tree ∈ forest.trees, a ∈ tree.listing := by
  induction forest with
  | none => simp [listing, trees]
  | tree root children siblings _ beside =>
      simp only [listing, trees, List.mem_cons, List.mem_append, beside, exists_eq_or_imp, Tree.listing, or_assoc]

section
variable {β : Type*} {R : List α → α → β → Prop} {above : List α} {forest : Forest α} {forest' : Forest β}

theorem Forest.Alike.width (alike : forest.Alike R above forest') : forest.width = forest'.width := by
  induction forest generalizing forest' with
  | none =>
      cases forest' with
      | none => rfl
      | tree => cases alike
  | tree root children siblings _ beside =>
      cases forest' with
      | none => cases alike
      | tree root' children' siblings' => exact congrArg (· + 1) (beside alike.2.2)

theorem Forest.Alike.length_listing (alike : forest.Alike R above forest') : forest.listing.length = forest'.listing.length := by
  induction forest generalizing above forest' with
  | none =>
      cases forest' with
      | none => rfl
      | tree => cases alike
  | tree root children siblings below beside =>
      cases forest' with
      | none => cases alike
      | tree root' children' siblings' =>
          simp only [listing, List.length_cons, List.length_append, below alike.2.1, beside alike.2.2]

/-- Every node of the second listing is related to one of the first. -/
theorem Forest.Alike.related (alike : forest.Alike R above forest') {b : β} (member : b ∈ forest'.listing) :
    ∃ a ∈ forest.listing, ∃ above, R above a b := by
  induction forest generalizing above forest' with
  | none =>
      cases forest' with
      | none => cases member
      | tree => cases alike
  | tree root children siblings below beside =>
      cases forest' with
      | none => cases alike
      | tree root' children' siblings' =>
          obtain ⟨here, under, along⟩ := alike
          rcases List.mem_cons.mp member with rfl | member
          · exact ⟨root, List.mem_cons_self .., above, here⟩
          · rcases List.mem_append.mp member with inner | outer
            · obtain ⟨a, there, related⟩ := below under inner
              exact ⟨a, List.mem_cons_of_mem _ (List.mem_append_left _ there), related⟩
            · obtain ⟨a, there, related⟩ := beside along outer
              exact ⟨a, List.mem_cons_of_mem _ (List.mem_append_right _ there), related⟩

end

/-- All labels of a tree are true; its root has no parent and no place. -/
structure Tree.Labelled (L : Labels α κ) (tree : Tree α) : Prop where
  parent : L.parent tree.root = none
  place : L.place tree.root = none
  depth : L.depth tree.root = 0
  arity : L.arity tree.root = tree.children.width
  children : tree.children.Labelled L (L.name tree.root) 1 0

theorem Tree.Labelled.parent_before {tree : Tree α} (labelled : tree.Labelled L) {i : Nat} {node : α}
    (at_i : tree.listing[i + 1]? = some node) :
    ∃ parent ∈ tree.listing.take (i + 1), L.parent node = some (L.name parent) := by
  have walk : Walk L [tree.root] tree.children.listing := walk_root.mpr ⟨_, rfl, labelled.children.shaped⟩
  obtain ⟨parent, there, named⟩ := walk.parent_before (i := i) at_i
  refine ⟨parent, ?_, named⟩
  rcases there with there | there
  · cases List.mem_singleton.mp there
    exact List.mem_cons_self ..
  · exact List.mem_cons_of_mem _ there

/-- A listing with distinct names is of a labelled tree when it can be walked from its
    root, with every node in the next place and the children counted. -/
theorem labelled_iff [DecidableEq κ] {root : α} (distinct : ((root :: nodes).map L.name).Nodup) :
    (∃ tree : Tree α, root :: nodes = tree.listing ∧ tree.Labelled L) ↔
      (L.parent root = none ∧ L.place root = none ∧ L.depth root = 0) ∧ Walk L [root] nodes ∧ Placed L [root] nodes ∧
        Counted L (root :: nodes) := by
  have counted_below (forest : Forest α) (unnamed : L.parent root = none) (shaped : forest.Shaped L (L.name root) 1)
      (distinct : Distinct L (L.name root) forest) : Counted L (root :: forest.listing) ↔
        L.arity root = forest.width ∧ Counted L forest.listing := by
    have skip (name : κ) : childrenIn L (root :: forest.listing) name = childrenIn L forest.listing name := by
      simp [unnamed]
    simp only [Counted, List.forall_mem_cons, skip, shaped.top (List.nodup_cons.mp distinct).1]
  have labelled_below (forest : Forest α) (unnamed : L.parent root = none) (shaped : forest.Shaped L (L.name root) 1)
      (distinct : Distinct L (L.name root) forest) : forest.Labelled L (L.name root) 1 0 ↔
        Placed L [root] forest.listing ∧ Counted L forest.listing := by
    have nothing (name : κ) : childrenIn L [root] name = 0 := by simp [unnamed]
    have fresh : ∀ node ∈ forest.listing, childrenIn L [root] (L.name node) = 0 := fun node _ => nothing _
    have found := shaped.labelled_iff distinct fresh
    rw [nothing] at found
    exact found
  constructor
  · rintro ⟨⟨top, forest⟩, listed, labelled⟩
    obtain ⟨rfl, rfl⟩ := List.cons.inj listed
    have shaped := labelled.children.shaped
    obtain ⟨placed, counted⟩ := (labelled_below forest labelled.parent shaped distinct).mp labelled.children
    exact ⟨⟨labelled.parent, labelled.place, labelled.depth⟩, walk_root.mpr ⟨forest, rfl, shaped⟩, placed,
      (counted_below forest labelled.parent shaped distinct).mpr ⟨labelled.arity, counted⟩⟩
  · rintro ⟨⟨parent, place, depth⟩, walk, placed, counted⟩
    obtain ⟨forest, rfl, shaped⟩ := walk_root.mp walk
    obtain ⟨arity, counted⟩ := (counted_below forest parent shaped distinct).mp counted
    exact ⟨⟨root, forest⟩, rfl, parent, place, depth, arity,
      (labelled_below forest parent shaped distinct).mpr ⟨placed, counted⟩⟩

/-! ## Starts and ends -/

/-- The start of a node, or the end of one, which only gives its key. -/
inductive Event (α κ : Type*) where
  | start (node : α)
  | finish (key : κ)
  deriving DecidableEq

section
variable (key : α → κ)

def Forest.events : Forest α → List (Event α κ)
  | none => []
  | tree root children siblings => .start root :: (children.events ++ .finish (key root) :: siblings.events)

def Tree.events (tree : Tree α) : List (Event α κ) := .start tree.root :: (tree.children.events key ++ [.finish (key tree.root)])

/-- Every end is the end of the innermost open node, and none stays open. -/
def Closes : List α → List (Event α κ) → Prop
  | above, [] => above = []
  | above, .start node :: events => Closes (node :: above) events
  | [], .finish _ :: _ => False
  | node :: above, .finish found :: events => key node = found ∧ Closes above events

/-- Events up to the end of the innermost open node. -/
theorem Closes.split {above : List α} {events : List (Event α κ)} (closes : Closes key above events) :
    ∃ forest : Forest α, ∃ rest, events = forest.events key ++ rest ∧ Closes key above rest ∧
      ∀ node, rest.head? ≠ some (.start node) := by
  induction size : events.length using Nat.strongRecOn generalizing above events with
  | _ size ih =>
      match events with
      | [] => exact ⟨.none, [], rfl, closes, nofun⟩
      | .finish found :: events => exact ⟨.none, .finish found :: events, rfl, closes, nofun⟩
      | .start root :: events =>
          have inside : Closes key (root :: above) events := closes
          rw [List.length_cons] at size
          obtain ⟨children, rest, listed, after, ended⟩ := ih events.length (by omega) inside rfl
          rcases rest with _ | ⟨_ | found, rest⟩
          · cases after
          · exact absurd rfl (ended _)
          · obtain ⟨same, outside⟩ := after
            have shorter : rest.length < events.length := by
              rw [listed, List.length_append, List.length_cons]
              omega
            obtain ⟨siblings, others, rfl, beyond, ended⟩ := ih rest.length (by omega) outside rfl
            exact ⟨.tree root children siblings, others, by simp [Forest.events, listed, same], beyond, ended⟩

theorem Closes.forest {events : List (Event α κ)} (closes : Closes key [] events) :
    ∃ forest : Forest α, events = forest.events key := by
  obtain ⟨forest, rest, rfl, closes, ended⟩ := closes.split
  match rest with
  | [] => exact ⟨forest, List.append_nil _⟩
  | .start node :: rest => exact absurd rfl (ended node)
  | .finish found :: rest => cases closes

end

/-- The nodes, each below the nodes above it, nearest first. -/
def Forest.paths : List α → Forest α → List (List α × α)
  | _, none => []
  | above, tree root children siblings => (above, root) :: (children.paths (root :: above) ++ siblings.paths above)

def Tree.paths (tree : Tree α) : List (List α × α) := ([], tree.root) :: tree.children.paths [tree.root]

/-- The nodes that start, each below the nodes open before it. -/
def visits : List α → List (Event α κ) → List (List α × α)
  | _, [] => []
  | above, .start node :: events => (above, node) :: visits (node :: above) events
  | above, .finish _ :: events => visits above.tail events

theorem visits_events (key : α → κ) (forest : Forest α) (above : List α) (rest : List (Event α κ)) :
    visits above (forest.events key ++ rest) = forest.paths above ++ visits above rest := by
  induction forest generalizing above rest with
  | none => rfl
  | tree root children siblings below beside =>
      simp only [Forest.events, Forest.paths, List.cons_append, List.append_assoc, visits, below, beside, List.tail_cons]

section
variable {above : List α} {forest : Forest α}

theorem Forest.paths_longer {v : List α × α} (member : v ∈ forest.paths above) : above.length ≤ v.1.length := by
  induction forest generalizing above with
  | none => cases member
  | tree root children siblings below beside =>
      rcases List.mem_cons.mp member with rfl | member
      · exact Nat.le_refl _
      · rcases List.mem_append.mp member with inner | outer
        · exact Nat.le_trans (Nat.le_succ _) (below inner)
        · exact beside outer

theorem Forest.paths_top (above : List α) (forest : Forest α) :
    (forest.paths above).filter (fun v => v.1.length = above.length) = forest.trees.map fun tree => (above, tree.root) := by
  induction forest generalizing above with
  | none => rfl
  | tree root children siblings _ beside =>
      have deeper : (children.paths (root :: above)).filter (fun v => v.1.length = above.length) = [] := by
        rw [List.filter_eq_nil_iff]
        intro v member
        have longer := paths_longer member
        rw [List.length_cons] at longer
        simp only [decide_eq_true_eq]
        omega
      simp [paths, trees, deeper, beside]

theorem Forest.paths_second (above : List α) (forest : Forest α) :
    (forest.paths above).filter (fun v => v.1.length = above.length + 1) =
      forest.trees.flatMap fun tree => tree.children.trees.map fun child => (tree.root :: above, child.root) := by
  induction forest generalizing above with
  | none => rfl
  | tree root children siblings _ beside =>
      have top := paths_top (root :: above) children
      rw [List.length_cons] at top
      simp [paths, trees, top, beside]

/-- One of the trees that a forest is, where only one starts at the top. -/
theorem Forest.single (alone : (forest.paths []).countP (fun v => v.1.isEmpty) = 1) :
    ∃ tree : Tree α, forest = .tree tree.root tree.children .none := by
  have top := paths_top [] forest
  have same : (fun v : List α × α => v.1.isEmpty) = fun v => decide (v.1.length = ([] : List α).length) := by
    funext v
    rw [List.length_nil, Bool.eq_iff_iff, List.isEmpty_iff, decide_eq_true_eq, List.length_eq_zero_iff]
  rw [List.countP_eq_length_filter, same, top, List.length_map, length_trees] at alone
  match forest with
  | none => cases alone
  | tree root children none => exact ⟨⟨root, children⟩, rfl⟩

variable {tree : Tree α}

theorem visits_tree (key : α → κ) : visits [] (tree.events key) = tree.paths := by
  have all := visits_events key (.tree tree.root tree.children .none) [] []
  rw [List.append_nil, visits, List.append_nil] at all
  rw [Tree.paths, ← List.append_nil (tree.children.paths _)]
  exact all

theorem Tree.paths_children :
    tree.paths.filter (fun v => v.1.length = 1) = tree.children.trees.map fun child => ([tree.root], child.root) :=
  Forest.paths_top [tree.root] tree.children

theorem Tree.paths_grandchildren :
    tree.paths.filter (fun v => v.1.length = 2) = tree.children.trees.flatMap fun child =>
      child.children.trees.map fun grandchild => ([child.root, tree.root], grandchild.root) :=
  Forest.paths_second [tree.root] tree.children

/-- All of the counted are among the chosen when as many of the chosen are counted. -/
theorem countP_chosen {counted chosen : α → Bool} {l : List α} :
    (l.filter chosen).countP counted = l.countP counted ↔ ∀ a ∈ l, counted a → chosen a := by
  induction l with
  | nil => simp
  | cons a l ih =>
      have fewer : (l.filter chosen).countP counted ≤ l.countP counted := List.filter_sublist.countP_le
      rw [List.forall_mem_cons, ← ih]
      cases h : chosen a <;> cases h' : counted a <;> simp [List.filter_cons, h, h']
      omega

theorem sum_map_chosen {β : Type*} {l : List β} {chosen : β → Bool} {f : β → Nat} (others : ∀ b, chosen b = false → f b = 0) :
    (l.map f).sum = ((l.filter chosen).map f).sum := by
  induction l with
  | nil => rfl
  | cons b l ih =>
      rw [List.map_cons, List.sum_cons, ih]
      cases h : chosen b with
      | false => rw [others b h, List.filter_cons_of_neg (by simp [h]), Nat.zero_add]
      | true => rw [List.filter_cons_of_pos h, List.map_cons, List.sum_cons]

end

end Preorder
