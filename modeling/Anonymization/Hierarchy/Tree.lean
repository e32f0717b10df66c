import Anonymization.Hierarchy.Loader
/-!
# Trees, seen without places

Two hierarchies are alike if their trees are, wherever in a forest the nodes lie. `Forest.treeWithin` is
what a tree looks like from a node: its label and the trees of its children in order, through as many
levels as are asked for.
-/

namespace Anonymization

/-- What can be said of a node without naming any place. -/
structure Label where
  value : Option Text
  level : Nat
  isLeaf : Bool
  /-- The number of leaves below the node. -/
  numLeaves : Nat
  /-- The number of levels below the node. -/
  height : Nat
  deriving DecidableEq

/-- A node with everything below it. -/
inductive Tree where
  | node (label : Label) (children : List Tree)

/-- The label of the node at a place. -/
def Forest.labelOf (f : Forest) (place : Nat) (n : Node) : Label where
  value := n.value
  level := n.level
  isLeaf := n.isLeaf
  numLeaves := n.numLeaves
  height := f.height place

/-- The tree of the node at a place, followed through `fuel` levels. -/
def Forest.treeWithin (f : Forest) : Nat → Nat → Option Tree
  | 0, _ => none
  | fuel + 1, place =>
    (f.node? place).map fun n =>
      .node (f.labelOf place n) (n.children.filterMap (treeWithin f fuel))

end Anonymization
