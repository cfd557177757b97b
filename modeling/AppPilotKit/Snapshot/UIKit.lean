import AppPilotKit.Lib.Binary64
import AppPilotKit.Snapshot.Trees

/-! # What UIKit captures

`UIKitSnapshotProvider` walks the views of a window with a stack of pending views and numbers
them as it takes them from the stack. What it lists is the tree of the views.
-/

namespace AppPilotKit.Snapshot

open Preorder (Forest)

inductive UIKitSnapshotDisclosure where
  | structural
  | identifiers
deriving DecidableEq

inductive UIKitSnapshotProviderError where
  | invalidGeometry
  | invalidNativeValue
  | noWindows
deriving DecidableEq

/-- What only a window has. -/
structure WindowFields where
  isKeyWindow : Bool
  windowLevel : Double

/-- What is read of a view of a window, with what UIKit makes of its geometry. -/
structure UIView where
  className : String
  accessibilityIdentifier : Option String
  /-- The bounds, converted to the window and from there to the screen. -/
  onScreen : UIRect
  boundsEmpty : Bool
  /-- The bounds, converted to the window, intersect those of the window. -/
  insideWindow : Bool
  alpha : Double
  clipsToBounds : Bool
  isHidden : Bool
  isOpaque : Bool
  tag : Int
  isUserInteractionEnabled : Bool
  window : Option WindowFields
  /-- Whether a control is enabled. -/
  control : Option Bool
  /-- Which of the gesture recognizers are enabled. -/
  gestureRecognizers : Option (List Bool)

/-! ## Visible and interactive views -/

/-- A product of alpha values. -/
inductive CGFloat where
  | finite (value : ℚ)
  | infinity (negative : Bool)
  | nan
deriving DecidableEq

def CGFloat.times : CGFloat → Double → CGFloat
  | .finite a, some b =>
      match Binary64.ofRat (a * b) with
      | some product => .finite product
      | none => .infinity (decide (a * b < 0))
  | .infinity negative, some b => if b = 0 then .nan else .infinity (xor negative (decide (b < 0)))
  | _, _ => .nan

/-- Greater than 0.01. -/
def CGFloat.perceptible : CGFloat → Bool
  | .finite value => decide (Binary64.nearest (1 / 100) < value)
  | .infinity negative => !negative
  | .nan => false

/-- The loop up to the window, which is the last of the views above a view. -/
def reachesWindow (cumulativeAlpha : CGFloat) : List UIView → Bool
  | [] => true
  | candidate :: above =>
      !candidate.isHidden && (cumulativeAlpha.times candidate.alpha).perceptible &&
        reachesWindow (cumulativeAlpha.times candidate.alpha) above

/-- The views above are the superviews, nearest first. -/
def isEffectivelyVisible (view : UIView) (above : List UIView) : Bool :=
  !view.boundsEmpty && reachesWindow (.finite 1) (view :: above) && view.insideWindow

def isInteractive (view : UIView) (above : List UIView) (visible : Bool) : Bool :=
  visible && view.window.isNone && (view :: above).all (·.isUserInteractionEnabled) &&
    (view.control.any (·) || view.gestureRecognizers.any (·.any (·)))

/-! ## The capture -/

abbrev Capturing := Except UIKitSnapshotProviderError

def screenFrame (view : UIView) : Capturing UIRect :=
  let frame := view.onScreen
  if frame.x.isFinite && frame.y.isFinite && frame.width.isFinite && frame.height.isFinite &&
      nonnegative frame.width && nonnegative frame.height then .ok frame
  else .error .invalidGeometry

def nativeFields (view : UIView) : Capturing (List (String × JSONValue)) := do
  unless view.alpha.isFinite do throw .invalidNativeValue
  let fields : List (String × JSONValue) :=
    [("alpha", .number view.alpha), ("clipsToBounds", .bool view.clipsToBounds), ("hidden", .bool view.isHidden),
      ("opaque", .bool view.isOpaque), ("tag", .integer view.tag),
      ("userInteractionEnabled", .bool view.isUserInteractionEnabled)]
  match view.window with
  | none => return fields
  | some window =>
      unless window.windowLevel.isFinite do throw .invalidNativeValue
      return fields ++ [("keyWindow", .bool window.isKeyWindow), ("windowLevel", .number window.windowLevel)]

def disclosedIdentifier (disclosure : UIKitSnapshotDisclosure) (view : UIView) : Option String :=
  match disclosure, view.accessibilityIdentifier with
  | .identifiers, some identifier => if identifier ≠ "" ∧ identifier.length ≤ 512 then some identifier else none
  | _, _ => none

/-- A view that waits, with what is below it and the views above it. -/
structure PendingView where
  view : Preorder.Tree UIView
  superviews : List UIView
  parentID : Option String
  childIndex : Option Int
  depth : Int

/-- The children are pushed from the last to the first. The pending views stand with the last
    one pushed in front. -/
def pushSubviews (current : PendingView) (localID : String) (pending : List PendingView) : List PendingView :=
  current.view.children.trees.zipIdx.reverse.foldl (fun pending (child, childIndex) =>
    { view := child, superviews := current.view.root :: current.superviews, parentID := some localID
      childIndex := some (childIndex : Int), depth := current.depth + 1 } :: pending) pending

def indexOf (disclosure : UIKitSnapshotDisclosure) (view : UIView) (above : List UIView) (frame : UIRect) : RedactedNodeIndex :=
  let visible := isEffectivelyVisible view above
  { identifier := disclosedIdentifier disclosure view, className := some view.className, frame := some frame
    visible := some visible, interactive := some (isInteractive view above visible) }

def captureNode (disclosure : UIKitSnapshotDisclosure) (current : PendingView) (localID : String) :
    Capturing RedactedNodeCapture := do
  let frame ← screenFrame current.view.root
  let native ← nativeFields current.view.root
  return { id := localID, parentID := current.parentID, childIndex := current.childIndex, depth := current.depth
           childCount := current.view.children.trees.length
           index := some (indexOf disclosure current.view.root current.superviews frame), native := some native }

def pendingSize (pending : List PendingView) : Nat := (pending.map (·.view.size)).sum

theorem pushSubviews_eq (current : PendingView) (localID : String) (pending : List PendingView) :
    pushSubviews current localID pending = current.view.children.trees.zipIdx.map (fun (child, childIndex) =>
      { view := child, superviews := current.view.root :: current.superviews, parentID := some localID
        childIndex := some (childIndex : Int), depth := current.depth + 1 }) ++ pending := by
  unfold pushSubviews
  generalize current.view.children.trees.zipIdx = children
  rw [List.foldl_reverse]
  induction children with
  | nil => rfl
  | cons child children ih => simp [ih]

theorem pendingSize_pushSubviews (current : PendingView) (localID : String) (pending : List PendingView) :
    pendingSize (pushSubviews current localID pending) < pendingSize (current :: pending) := by
  have below : (current.view.children.trees.zipIdx.map (fun (child, _) => child.size)).sum = current.view.children.size := by
    rw [← Forest.size_trees, show (fun (entry : Preorder.Tree UIView × Nat) => entry.1.size) = Preorder.Tree.size ∘ Prod.fst from rfl,
      ← List.map_map, List.zipIdx_map_fst]
  have split : pendingSize (pushSubviews current localID pending) = current.view.children.size + pendingSize pending := by
    unfold pendingSize
    rw [pushSubviews_eq, List.map_append, List.sum_append, List.map_map, ← below]
    rfl
  have whole : pendingSize (current :: pending) = current.view.size + pendingSize pending := rfl
  rw [split, whole, Preorder.Tree.size]
  omega

/-- The loop over the pending views, with the nodes so far. -/
def captureNodes (disclosure : UIKitSnapshotDisclosure) :
    List PendingView → List RedactedNodeCapture → Capturing (List RedactedNodeCapture)
  | [], nodes => .ok nodes
  | current :: pending, nodes => do
      let localID := "view." ++ toString nodes.length
      let node ← captureNode disclosure current localID
      captureNodes disclosure (pushSubviews current localID pending) (nodes ++ [node])
termination_by pending => pendingSize pending
decreasing_by exact pendingSize_pushSubviews ..

def descriptor : UIProviderDescriptor := { name := "uikit.views", platform := .iOS }

/-- The scale is that of the screen of the window. -/
def captureWindow (disclosure : UIKitSnapshotDisclosure) (window : Preorder.Tree UIView) (scale : Double) (sourceOffset : Nat) :
    Capturing RedactedSourceCapture := do
  let nodes ← captureNodes disclosure [{ view := window, superviews := [], parentID := none, childIndex := none, depth := 0 }] []
  return { id := "uikit.window." ++ toString sourceOffset, provider := descriptor.name, platform := descriptor.platform
           representation := .native, nativeSchema := "uikit.view@1", coordinateSpace := { unit := .point, scale }
           coverage := .complete, nodes }

/-! ## What is captured -/

/-- Geometry and alpha are finite, and no size is negative. -/
structure UIView.Finite (view : UIView) : Prop where
  x : view.onScreen.x.isFinite = true
  y : view.onScreen.y.isFinite = true
  width : nonnegative view.onScreen.width = true
  height : nonnegative view.onScreen.height = true
  alpha : view.alpha.isFinite = true
  windowLevel : ∀ window ∈ view.window, window.windowLevel.isFinite = true

/-- What a node says of a view, apart from its place. -/
structure Tells (disclosure : UIKitSnapshotDisclosure) (above : List UIView) (view : UIView) (node : RedactedNodeCapture) :
    Prop where
  finite : view.Finite
  index : node.index = some (indexOf disclosure view above view.onScreen)
  native : ∃ fields, nativeFields view = .ok fields ∧ node.native = some fields

def viewName (n : Nat) : String := "view." ++ toString n

theorem viewName_injective : Function.Injective viewName := by
  intro a b same
  have numbers := congrArg String.toList same
  unfold viewName at numbers
  simp only [String.toList_append, List.append_cancel_left_eq] at numbers
  exact Nat.repr_injective (String.toList_injective numbers)

section
variable {disclosure : UIKitSnapshotDisclosure} {view : UIView} {above : List UIView}

theorem nonnegative_finite {d : Double} (nonneg : nonnegative d = true) : d.isFinite = true := by
  cases d with
  | none => cases nonneg
  | some value => rfl

theorem screenFrame_ok {frame : UIRect} : screenFrame view = .ok frame ↔
    (view.onScreen.x.isFinite = true ∧ view.onScreen.y.isFinite = true ∧ nonnegative view.onScreen.width = true ∧
      nonnegative view.onScreen.height = true) ∧ frame = view.onScreen := by
  unfold screenFrame
  dsimp only
  constructor
  · intro h
    split at h
    · rename_i finite
      simp only [Bool.and_eq_true] at finite
      cases h
      exact ⟨⟨finite.1.1.1.1.1, finite.1.1.1.1.2, finite.1.2, finite.2⟩, rfl⟩
    · cases h
  · rintro ⟨⟨x, y, width, height⟩, rfl⟩
    simp only [x, y, width, height, nonnegative_finite width, nonnegative_finite height]
    rfl

theorem nativeFields_isOk : (∃ fields, nativeFields view = .ok fields) ↔
    view.alpha.isFinite = true ∧ ∀ window ∈ view.window, window.windowLevel.isFinite = true := by
  unfold nativeFields
  cases finite : view.alpha.isFinite with
  | false => simp [throw, throwThe, MonadExceptOf.throw, bind, Except.bind]
  | true =>
      cases view.window with
      | none => simp [pure, Except.pure, bind, Except.bind]
      | some window =>
          cases level : window.windowLevel.isFinite with
          | false => simp [throw, throwThe, MonadExceptOf.throw, pure, Except.pure, bind, Except.bind, level]
          | true => simp [pure, Except.pure, bind, Except.bind, level]

/-- A node is made exactly of a view with finite values. -/
theorem captureNode_ok {current : PendingView} {localID : String} {node : RedactedNodeCapture} :
    captureNode disclosure current localID = .ok node ↔
      Tells disclosure current.superviews current.view.root node ∧ node.id = localID ∧ node.parentID = current.parentID ∧
        node.childIndex = current.childIndex ∧ node.depth = current.depth ∧
        node.childCount = current.view.children.trees.length := by
  unfold captureNode
  simp only [Checks.bind_ok]
  constructor
  · rintro ⟨frame, framed, fields, fielded, h⟩
    obtain ⟨⟨x, y, width, height⟩, rfl⟩ := screenFrame_ok.mp framed
    obtain ⟨alpha, windowLevel⟩ := nativeFields_isOk.mp ⟨fields, fielded⟩
    cases h
    exact ⟨⟨⟨x, y, width, height, alpha, windowLevel⟩, rfl, fields, fielded, rfl⟩, rfl, rfl, rfl, rfl, rfl⟩
  · rintro ⟨⟨⟨x, y, width, height, -, -⟩, index, fields, fielded, native⟩, named, parent, place, depth, count⟩
    refine ⟨_, screenFrame_ok.mpr ⟨⟨x, y, width, height⟩, rfl⟩, fields, fielded, ?_⟩
    cases node
    simp_all [pure, Except.pure]

theorem captureNode_finite (disclosure : UIKitSnapshotDisclosure) (current : PendingView) (localID : String) (finite : current.view.root.Finite) :
    ∃ node, captureNode disclosure current localID = .ok node := by
  obtain ⟨fields, fielded⟩ := nativeFields_isOk.mpr ⟨finite.alpha, finite.windowLevel⟩
  exact ⟨{ id := localID, parentID := current.parentID, childIndex := current.childIndex, depth := current.depth
           childCount := current.view.children.trees.length
           index := some (indexOf disclosure current.view.root current.superviews current.view.root.onScreen)
           native := some fields },
    captureNode_ok.mpr ⟨⟨finite, rfl, fields, fielded, rfl⟩, rfl, rfl, rfl, rfl, rfl⟩⟩

end

/-! ## The walk -/

/-- The pending views of a forest below one view, from a place among its children on. -/
def pendingOf (superviews : List UIView) (parent : String) (depth : Int) (place : Nat) : Forest UIView → List PendingView
  | .none => []
  | .tree root children siblings =>
      { view := ⟨root, children⟩, superviews, parentID := some parent, childIndex := some (place : Int), depth } ::
        pendingOf superviews parent depth (place + 1) siblings

theorem pushSubviews_pendingOf (current : PendingView) (localID : String) (pending : List PendingView) :
    pushSubviews current localID pending =
      pendingOf (current.view.root :: current.superviews) localID (current.depth + 1) 0 current.view.children ++ pending := by
  have listed (forest : Forest UIView) (place : Nat) : (forest.trees.zipIdx place).map (fun (child, childIndex) =>
      ({ view := child, superviews := current.view.root :: current.superviews, parentID := some localID
         childIndex := some (childIndex : Int), depth := current.depth + 1 } : PendingView)) =
      pendingOf (current.view.root :: current.superviews) localID (current.depth + 1) place forest := by
    induction forest generalizing place with
    | none => rfl
    | tree root children siblings _ beside =>
        rw [Forest.trees, List.zipIdx_cons, List.map_cons, beside]
        rfl
  rw [pushSubviews_eq, listed]

/-- The loop takes the views of a forest from the stack before what was pending below it, and
    appends a forest of the same shape, numbered on. -/
theorem captureNodes_forest (disclosure : UIKitSnapshotDisclosure) (forest : Forest UIView) :
    ∀ (above : List UIView) (parent : String) (depth : Int) (place : Nat) (pending : List PendingView)
      (nodes : List RedactedNodeCapture), (∀ view ∈ forest.listing, view.Finite) →
      ∃ forest' : Forest RedactedNodeCapture, forest.Alike (Tells disclosure) above forest' ∧
        forest'.Labelled captured parent depth place ∧
        forest'.listing.map (·.id) = (List.range' nodes.length forest'.listing.length).map viewName ∧
        captureNodes disclosure (pendingOf above parent depth place forest ++ pending) nodes =
          captureNodes disclosure pending (nodes ++ forest'.listing) := by
  induction forest with
  | none =>
      intro above parent depth place pending nodes _
      exact ⟨.none, trivial, trivial, rfl, by simp [pendingOf, Forest.listing]⟩
  | tree root children siblings below beside =>
      intro above parent depth place pending nodes finite
      obtain ⟨rooted, others⟩ := List.forall_mem_cons.mp finite
      obtain ⟨inner, outer⟩ := List.forall_mem_append.mp others
      obtain ⟨node, made⟩ := captureNode_finite disclosure
        { view := ⟨root, children⟩, superviews := above, parentID := some parent, childIndex := some (place : Int), depth }
        (viewName nodes.length) rooted
      obtain ⟨tells, named, below_parent, at_place, deep, count⟩ := captureNode_ok.mp made
      obtain ⟨children', alike, labelled, names, ran⟩ := below (root :: above) (viewName nodes.length) (depth + 1) 0
        (pendingOf above parent depth (place + 1) siblings ++ pending) (nodes ++ [node]) inner
      obtain ⟨siblings', alike', labelled', names', ran'⟩ := beside above parent depth (place + 1) pending
        (nodes ++ [node] ++ children'.listing) outer
      refine ⟨.tree node children' siblings', ⟨tells, alike, alike'⟩, ⟨below_parent, at_place, deep, ?_, ?_, ?_⟩, ?_, ?_⟩
      · rw [← alike.width, ← Forest.length_trees]
        exact count
      · rw [show captured.name node = viewName nodes.length from named]
        exact labelled
      · push_cast at labelled'
        exact labelled'
      · simp only [Forest.listing, List.map_cons, List.map_append, named, names, names', List.length_append, List.length_cons,
          List.length_nil]
        rw [List.range'_succ, List.map_cons, ← List.map_append, Nat.zero_add, List.range'_append_1]
      · rw [pendingOf, List.cons_append, captureNodes]
        simp only [show "view." ++ toString nodes.length = viewName nodes.length from rfl, made]
        have grown : nodes ++ (Forest.tree node children' siblings').listing =
            nodes ++ [node] ++ children'.listing ++ siblings'.listing := by simp [Forest.listing]
        rw [grown, ← ran', ← ran]
        exact congrArg (captureNodes disclosure · (nodes ++ [node])) (pushSubviews_pendingOf ..)

/-- The loop ends only when every view that was pending is finite. -/
theorem captureNodes_finite {disclosure : UIKitSnapshotDisclosure} {pending : List PendingView} {nodes result : List RedactedNodeCapture}
    (ran : captureNodes disclosure pending nodes = .ok result) :
    ∀ current ∈ pending, ∀ view ∈ current.view.listing, view.Finite := by
  induction pending, nodes using captureNodes.induct with
  | case1 nodes => simp
  | case2 current pending nodes localID ih =>
      rw [captureNodes] at ran
      obtain ⟨node, made, rest⟩ := Checks.bind_ok.mp ran
      have later := ih node rest
      refine List.forall_mem_cons.mpr ⟨List.forall_mem_cons.mpr ⟨(captureNode_ok.mp made).1.finite, ?_⟩, ?_⟩
      · intro view member
        obtain ⟨child, there, inside⟩ := Forest.mem_listing.mp member
        obtain ⟨i, at_i⟩ := List.getElem?_of_mem there
        refine later ⟨child, current.view.root :: current.superviews, some localID, some (i : Int), current.depth + 1⟩ ?_ view inside
        rw [pushSubviews_eq]
        refine List.mem_append_left _ (List.mem_map.mpr ⟨(child, i), ?_, rfl⟩)
        exact List.mem_zipIdx_iff_getElem?.mpr at_i
      · intro waiting member
        refine later waiting ?_
        rw [pushSubviews_eq]
        exact List.mem_append_right _ member

/-- The nodes list the views of a window in preorder: a node for each view, that tells of it and
    of its place, with names of their own. -/
structure ListsViews (disclosure : UIKitSnapshotDisclosure) (window : Preorder.Tree UIView) (nodes : List RedactedNodeCapture) :
    Prop where
  tree : ∃ tree : Preorder.Tree RedactedNodeCapture, nodes = tree.listing ∧ window.Alike (Tells disclosure) tree ∧
    tree.Labelled captured
  distinct : (nodes.map (·.id)).Nodup
  complete : nodes.length = window.listing.length
  named : ∀ node ∈ nodes, node.id ≠ ""

/-- The pending view that the walk of a window begins with. -/
def windowPending (window : Preorder.Tree UIView) : PendingView :=
  { view := window, superviews := [], parentID := none, childIndex := none, depth := 0 }

section
variable {disclosure : UIKitSnapshotDisclosure} {window : Preorder.Tree UIView} {scale : Double} {sourceOffset : Nat}
  {source : RedactedSourceCapture}

theorem captureNodes_window : captureNodes disclosure [windowPending window] [] =
    (captureNode disclosure (windowPending window) (viewName 0) >>= fun node =>
      captureNodes disclosure (pendingOf [window.root] (viewName 0) 1 0 window.children ++ []) [node]) := by
  rw [captureNodes]
  refine congrArg _ (funext fun node => ?_)
  exact congrArg (captureNodes disclosure · [node]) (pushSubviews_pendingOf (windowPending window) (viewName 0) [])

theorem captureNodes_lists (disclosure : UIKitSnapshotDisclosure) (finite : ∀ view ∈ window.listing, view.Finite) :
    ∃ nodes, captureNodes disclosure [windowPending window] [] = .ok nodes ∧ ListsViews disclosure window nodes := by
  obtain ⟨rooted, others⟩ := List.forall_mem_cons.mp finite
  obtain ⟨node, made⟩ := captureNode_finite disclosure (windowPending window) (viewName 0) rooted
  obtain ⟨tells, named, parent, place, deep, count⟩ := captureNode_ok.mp made
  obtain ⟨children, alike, labelled, names, ran⟩ :=
    captureNodes_forest disclosure window.children [window.root] (viewName 0) 1 0 [] [node] others
  have names : (node :: children.listing).map (·.id) = (List.range' 0 (children.listing.length + 1)).map viewName := by
    rw [List.map_cons, names, named, List.range'_succ]
    rfl
  refine ⟨node :: children.listing, ?_, ⟨⟨node, children⟩, rfl, ⟨tells, alike⟩, ⟨parent, place, deep, ?_, ?_⟩⟩, ?_, ?_, ?_⟩
  · rw [captureNodes_window, made]
    exact ran.trans (by rw [captureNodes]; rfl)
  · rw [← alike.width, ← Forest.length_trees]
    exact count
  · rw [show captured.name node = viewName 0 from named]
    exact labelled
  · rw [names]
    exact List.Nodup.map viewName_injective List.nodup_range'
  · exact congrArg (· + 1) alike.length_listing.symm
  · intro other member empty
    have inside : other.id ∈ (List.range' 0 (children.listing.length + 1)).map viewName :=
      names ▸ List.mem_map.mpr ⟨other, member, rfl⟩
    obtain ⟨n, -, name⟩ := List.mem_map.mp inside
    have letters := congrArg String.toList (name.trans empty)
    simp [viewName] at letters

theorem captureWindow_nodes (done : captureWindow disclosure window scale sourceOffset = .ok source) :
    captureNodes disclosure [windowPending window] [] = .ok source.nodes := by
  obtain ⟨nodes, ran, rest⟩ := Checks.bind_ok.mp done
  cases rest
  exact ran

theorem captureWindow_finite (done : captureWindow disclosure window scale sourceOffset = .ok source) :
    ∀ view ∈ window.listing, view.Finite :=
  captureNodes_finite (captureWindow_nodes done) (windowPending window) (List.mem_cons_self ..)

end

/-- Capturing a window succeeds exactly when all values of its views are finite. What it lists is
    the tree of the views, so that the graph check refuses no more than the payloads. -/
theorem captureWindow_lists (disclosure : UIKitSnapshotDisclosure) (window : Preorder.Tree UIView) (scale : Double)
    (sourceOffset : Nat) :
    ((∃ source, captureWindow disclosure window scale sourceOffset = .ok source) ↔ ∀ view ∈ window.listing, view.Finite) ∧
      ∀ source, captureWindow disclosure window scale sourceOffset = .ok source →
        ListsViews disclosure window source.nodes ∧
          (validateGraph source = .ok () ↔ ∀ node ∈ source.nodes, validatePayload node source = .ok ()) := by
  refine ⟨⟨fun ⟨source, done⟩ => captureWindow_finite done, fun finite => ?_⟩, fun source done => ?_⟩
  · obtain ⟨nodes, ran, -⟩ := captureNodes_lists disclosure finite
    exact ⟨_, Checks.bind_ok.mpr ⟨nodes, ran, rfl⟩⟩
  · obtain ⟨nodes, ran, lists⟩ := captureNodes_lists disclosure (captureWindow_finite done)
    obtain rfl : nodes = source.nodes := Except.ok.inj (ran.symm.trans (captureWindow_nodes done))
    obtain ⟨tree, listed, -, labelled⟩ := lists.tree
    refine ⟨lists, (validateGraph_ok source).trans ⟨fun accepted => accepted.1, fun payloads => ⟨payloads, ?_⟩⟩⟩
    exact ⟨lists.named, lists.distinct, tree, listed, labelled⟩

/-! ## The payloads -/

theorem disclosedIdentifier_valid (disclosure : UIKitSnapshotDisclosure) (view : UIView) :
    validLength (disclosedIdentifier disclosure view) 1 512 = true := by
  unfold disclosedIdentifier
  split
  · split
    · rename_i identifier _ fits
      have some : identifier.length ≠ 0 := fun none => fits.1 (String.length_eq_zero_iff.mp none)
      simp only [validLength, Option.all_some, Bool.and_eq_true, decide_eq_true_eq]
      exact ⟨by omega, fits.2⟩
    · rfl
  · rfl

theorem nativeFields_safe {view : UIView} {fields : List (String × JSONValue)} (fielded : nativeFields view = .ok fields) :
    fieldsJSONSafe fields = true := by
  obtain ⟨alpha, windowLevel⟩ := nativeFields_isOk.mp ⟨fields, fielded⟩
  unfold nativeFields at fielded
  rw [alpha] at fielded
  cases window : view.window with
  | none =>
      rw [window] at fielded
      cases fielded
      simp [fieldsJSONSafe, isJSONSafe, alpha]
  | some known =>
      have level := windowLevel known window
      rw [window] at fielded
      simp only [level] at fielded
      cases fielded
      simp [fieldsJSONSafe, isJSONSafe, alpha, level]

/-- Of what UIKit captures only the name of a class can be too long. -/
theorem Tells.payload {disclosure : UIKitSnapshotDisclosure} {above : List UIView} {view : UIView} {node : RedactedNodeCapture}
    (tells : Tells disclosure above view node) (source : RedactedSourceCapture) :
    validatePayload node source = .ok () ↔ 1 ≤ view.className.length ∧ view.className.length ≤ 512 := by
  obtain ⟨finite, index, fields, fielded, native⟩ := tells
  have identifier := disclosedIdentifier_valid disclosure view
  have safe := nativeFields_safe fielded
  unfold validatePayload
  simp only [index, native, indexOf, Checks.and_then_ok, require_ok, identifier, safe, finite.x, finite.y, finite.width,
    finite.height, nonnegative_finite finite.width, nonnegative_finite finite.height]
  simp [validLength]

/-- A capture is accepted when the names of the classes are within the limits. -/
theorem captureWindow_accepted {disclosure : UIKitSnapshotDisclosure} {window : Preorder.Tree UIView} {scale : Double}
    {sourceOffset : Nat} {source : RedactedSourceCapture} (done : captureWindow disclosure window scale sourceOffset = .ok source)
    (named : ∀ view ∈ window.listing, 1 ≤ view.className.length ∧ view.className.length ≤ 512) :
    validateGraph source = .ok () := by
  obtain ⟨nodes, ran, lists⟩ := captureNodes_lists disclosure (captureWindow_finite done)
  obtain rfl : nodes = source.nodes := Except.ok.inj (ran.symm.trans (captureWindow_nodes done))
  obtain ⟨tree, listed, alike, labelled⟩ := lists.tree
  refine (validateGraph_ok source).mpr ⟨fun node member => ?_, lists.named, lists.distinct, tree, listed, labelled⟩
  rw [listed] at member
  rcases List.mem_cons.mp member with rfl | inner
  · exact (alike.1.payload source).mpr (named window.root (List.mem_cons_self ..))
  · obtain ⟨view, there, above, tells⟩ := alike.2.related inner
    exact (tells.payload source).mpr (named view (List.mem_cons_of_mem _ there))

end AppPilotKit.Snapshot
