import Anonymization.Assoc
import Anonymization.Text.Blank
/-!
# Generalization trees

A forest holds the nodes of generalization trees in the order of their creation; a node is named by
its place. A node knows its ancestors and children, how many leaves lie below it, and for each value
at or below it the node that was created first with this value (`covered`). `plant` adds a node and
registers it with all its ancestors; nothing is ever taken away.

A node without a value is the root above the top values of a hierarchy that has several. It is not in
its own `covered`, but registered with its ancestors like any other.

Trees may be of any depth here. The program goes down a tree by calls inside one another, for which there
is limited room: `leaves`, `height` and with them `table` answer for every tree, where the program stops
at one that is too deep. When hierarchies are loaded this is a failure (`Hierarchy.depthLimit`); of a
tree that is made in another way these functions say what it answers as long as there is room.
-/

namespace Anonymization

/-! ## 1. Nodes -/

/-- A node of a generalization tree. -/
structure Node where
  value : Option Text
  /-- One more than the level of the parent, and zero without one. -/
  level : Nat
  isLeaf : Bool
  /-- The number of leaves below the node. -/
  numLeaves : Nat
  /-- The ancestors, the parent first. -/
  ancestors : List Nat
  /-- The children, in the order of their creation. -/
  children : List Nat
  /-- For each value at or below the node, the node that has it. -/
  covered : Assoc (Option Text) Nat
  deriving DecidableEq

namespace Node

/-- A node created at a place, before it is registered with anyone. -/
def create (place : Nat) (value : Option Text) (isLeaf : Bool) (level : Nat) (ancestors : List Nat) :
    Node where
  value
  level
  isLeaf
  numLeaves := 0
  ancestors
  children := []
  covered := match value with
    | some _ => [(value, place)]
    | none => []

/-- An ancestor of a node that was created at `place`. -/
def register (place : Nat) (value : Option Text) (isLeaf : Bool) (n : Node) : Node :=
  { n with
    covered := n.covered.setIfNew value place
    numLeaves := if isLeaf then n.numLeaves + 1 else n.numLeaves }

/-- The parent of a node that was created at `place`. -/
def adopt (place : Nat) (n : Node) : Node :=
  { n with children := n.children ++ [place] }

end Node

/-! ## 2. Forests -/

/-- The nodes of some trees, in the order of their creation. -/
structure Forest where
  nodes : Array Node

namespace Forest

/-- No node. -/
def empty : Forest := ⟨#[]⟩

/-- The number of nodes, which is the place of the next one. -/
def size (f : Forest) : Nat := f.nodes.size

/-- The node at a place. -/
def node? (f : Forest) (place : Nat) : Option Node := f.nodes[place]?

/-- The ancestors of a child of `parent`, which comes first. -/
def lineage (f : Forest) (parent : Option Nat) : List Nat :=
  match parent with
  | none => []
  | some p => match f.node? p with
    | some n => p :: n.ancestors
    | none => []

/-- The level of a child of `parent`. -/
def levelBelow (f : Forest) (parent : Option Nat) : Nat :=
  match parent with
  | none => 0
  | some p => match f.node? p with
    | some n => n.level + 1
    | none => 0

/-- Registers a node created at `place` with the given ancestors, the first of which adopts it. -/
def announce (nodes : Array Node) (place : Nat) (value : Option Text) (isLeaf : Bool)
    (ancestors : List Nat) : Array Node :=
  let adopted := match ancestors with
    | [] => nodes
    | parent :: _ => nodes.modify parent (Node.adopt place)
  ancestors.foldl (fun ns a => ns.modify a (Node.register place value isLeaf)) adopted

/-- The forest with one node more. -/
def plant (f : Forest) (value : Option Text) (isLeaf : Bool) (parent : Option Nat) : Forest :=
  let ancestors := f.lineage parent
  ⟨(announce f.nodes f.size value isLeaf ancestors).push
    (Node.create f.size value isLeaf (f.levelBelow parent) ancestors)⟩

/-- What a node is created with. -/
structure Planting where
  value : Option Text
  isLeaf : Bool
  /-- The place of the parent, unless the node is the root of a tree of its own. -/
  parent : Option Nat
  deriving DecidableEq

/-- The forest in which these nodes were created, in order. -/
def ofPlantings (ps : List Planting) : Forest :=
  ps.foldl (fun f p => f.plant p.value p.isLeaf p.parent) empty

/-- Registering changes nodes where they are. -/
theorem size_announce (nodes : Array Node) (place : Nat) (value : Option Text) (isLeaf : Bool)
    (ancestors : List Nat) : (announce nodes place value isLeaf ancestors).size = nodes.size := by
  have register : ∀ (as : List Nat) (ns : Array Node),
      (as.foldl (fun ns a => ns.modify a (Node.register place value isLeaf)) ns).size = ns.size := by
    intro as
    induction as with
    | nil => exact fun _ => rfl
    | cons a rest ih =>
      intro ns
      rw [List.foldl_cons, ih, Array.size_modify]
  cases ancestors with
  | nil => rfl
  | cons parent rest => exact (register (parent :: rest) _).trans Array.size_modify

/-- A new node takes the place behind all others. -/
@[simp] theorem size_plant (f : Forest) (value : Option Text) (isLeaf : Bool) (parent : Option Nat) :
    (f.plant value isLeaf parent).size = f.size + 1 := by
  unfold plant
  exact (Array.size_push _).trans (congrArg (· + 1) (size_announce ..))

/-! ## 3. Looking things up -/

/-- The node with this value at or below a node, the one created first. -/
def find? (f : Forest) (place : Nat) (value : Option Text) : Option Nat :=
  (f.node? place).bind fun n => n.covered.get? value

/-- The value of the node at a place. -/
def value? (f : Forest) (place : Nat) : Option Text :=
  (f.node? place).bind Node.value

/-- The child of a node that has this value, the one created first. -/
def child? (f : Forest) (place : Nat) (value : Option Text) : Option Nat :=
  (f.node? place).bind fun n => n.children.find? fun c => f.value? c == value

/-- The leaves at or below a node, in order, found within `fuel` levels. -/
def leavesWithin (f : Forest) : Nat → Nat → List Nat
  | 0, _ => []
  | fuel + 1, place =>
    match f.node? place with
    | none => []
    | some n => if n.isLeaf then [place] else n.children.flatMap (leavesWithin f fuel)

/-- The leaves at or below a node, in order, however deep they lie. A leaf has no other leaf below it. -/
def leaves (f : Forest) (place : Nat) : List Nat :=
  f.leavesWithin f.size place

/-- The number of levels below a node, at most `fuel`. -/
def heightWithin (f : Forest) : Nat → Nat → Nat
  | 0, _ => 0
  | fuel + 1, place =>
    match f.node? place with
    | none => 0
    | some n => n.children.foldl (fun h c => max h (1 + heightWithin f fuel c)) 0

/-- The number of levels below a node, however many there are. -/
def height (f : Forest) (place : Nat) : Nat :=
  f.heightWithin f.size place

/-- The value of a leaf followed by its generalizations, without nodes that have no value. -/
def rowOf (f : Forest) (leaf : Nat) : List (Option Text) :=
  match f.node? leaf with
  | none => []
  | some n => n.value :: (n.ancestors.filterMap f.value?).map some

/-- One row for each leaf at or below a node, however deep: this is the layout of a hierarchy file. -/
def table (f : Forest) (place : Nat) : List (List (Option Text)) :=
  (f.leaves place).map f.rowOf

/-- The number of leaves below a node. -/
def leafCount (f : Forest) (place : Nat) : Nat :=
  ((f.node? place).map Node.numLeaves).getD 0

/-- The nodes at or below a node within `fuel` levels, depth first, children in order. -/
def preorderWithin (f : Forest) : Nat → Nat → List Nat
  | 0, _ => []
  | fuel + 1, place =>
    match f.node? place with
    | none => []
    | some n => place :: n.children.flatMap (preorderWithin f fuel)

/-- The nodes at or below a node, depth first. -/
def preorder (f : Forest) (place : Nat) : List Nat :=
  f.preorderWithin f.size place

end Forest

end Anonymization
