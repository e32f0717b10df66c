import Mathlib
import Anonymization.Hierarchy.Forest
/-!
# What planting a node changes

Everything that a forest knows of a place is read off by seven functions, and each has one equation that
says what it is after one more node was planted.

* `node?_plant` -- the node at any place of the larger forest;
* `value?_plant`, `ancestorsOf_plant`, `levelAt_plant`, `isLeafAt_plant` -- **value, ancestors, level and
  leaf mark of a node never change**;
* `childrenOf_plant` -- only the parent gets a child, behind those it has;
* `leafCount_plant` -- only the ancestors of a new leaf count one more;
* `coveredOf_plant` -- only the ancestors of a node register it, under a value that is new to them.
-/

namespace Anonymization.Forest

/-! ## 1. What is known of a place -/

/-- The ancestors of the node at a place, the parent first; none where there is no node. -/
def ancestorsOf (f : Forest) (place : Nat) : List Nat :=
  ((f.node? place).map Node.ancestors).getD []

/-- The level of the node at a place. -/
def levelAt (f : Forest) (place : Nat) : Nat :=
  ((f.node? place).map Node.level).getD 0

/-- The nodes registered with the node at a place. -/
def coveredOf (f : Forest) (place : Nat) : Assoc (Option Text) Nat :=
  ((f.node? place).map Node.covered).getD []

/-- The children of the node at a place. -/
def childrenOf (f : Forest) (place : Nat) : List Nat :=
  ((f.node? place).map Node.children).getD []

/-- The node at a place is a leaf. -/
def isLeafAt (f : Forest) (place : Nat) : Bool :=
  ((f.node? place).map Node.isLeaf).getD false

theorem node?_eq_none_iff (f : Forest) (place : Nat) : f.node? place = none ↔ f.size ≤ place :=
  Array.getElem?_eq_none_iff

theorem exists_node_iff (f : Forest) (place : Nat) :
    (∃ n, f.node? place = some n) ↔ place < f.size := by
  rw [← Option.isSome_iff_exists, Option.isSome_iff_ne_none, ne_eq, node?_eq_none_iff, Nat.not_le]

theorem lineage_some {f : Forest} {parent : Nat} (h : parent < f.size) :
    f.lineage (some parent) = parent :: f.ancestorsOf parent := by
  obtain ⟨n, hn⟩ := (f.exists_node_iff parent).mpr h
  simp [lineage, ancestorsOf, hn]

/-! ## 2. The nodes after planting -/

variable {value : Option Text} {isLeaf : Bool}

/-- Registering a node with several others changes each of these once. -/
theorem getElem?_register (place : Nat) {as : List Nat} (has : as.Nodup) (nodes : Array Node) (p : Nat) :
    (as.foldl (fun ns a => ns.modify a (Node.register place value isLeaf)) nodes)[p]? =
      if p ∈ as then nodes[p]?.map (Node.register place value isLeaf) else nodes[p]? := by
  induction as generalizing nodes with
  | nil => rfl
  | cons a as ih =>
    obtain ⟨hnot, has⟩ := List.nodup_cons.mp has
    rw [List.foldl_cons, ih has, Array.getElem?_modify]
    by_cases hp : p = a
    · subst hp
      simp [hnot]
    · simp [hp, Ne.symm hp]

/-- What becomes of a node at `place` when another is planted. -/
def changed (f : Forest) (value : Option Text) (isLeaf : Bool) (parent : Option Nat) (place : Nat)
    (n : Node) : Node :=
  let adopted := if (f.lineage parent).head? = some place then n.adopt f.size else n
  if place ∈ f.lineage parent then adopted.register f.size value isLeaf else adopted

theorem getElem?_announce (f : Forest) {parent : Option Nat} (h : (f.lineage parent).Nodup) (p : Nat) :
    (announce f.nodes f.size value isLeaf (f.lineage parent))[p]? =
      (f.node? p).map (f.changed value isLeaf parent p) := by
  unfold announce changed
  generalize f.lineage parent = as at h ⊢
  rw [getElem?_register _ h]
  cases as with
  | nil => simp [node?]
  | cons a as =>
    have hadopt : (f.nodes.modify a (Node.adopt f.size))[p]? =
        (f.node? p).map fun n => if a = p then n.adopt f.size else n := by
      rw [Array.getElem?_modify, node?]
      by_cases hp : a = p
      · simp [hp]
      · simp [hp]
    simp only [hadopt, List.head?_cons, Option.some.injEq]
    by_cases hp : p ∈ a :: as
    · simp only [hp, if_true, Option.map_map]
      rfl
    · simp [hp]

/-- **The node at any place after planting.** -/
theorem node?_plant {f : Forest} {parent : Option Nat} (h : (f.lineage parent).Nodup) (p : Nat) :
    (f.plant value isLeaf parent).node? p =
      if p = f.size then some (Node.create f.size value isLeaf (f.levelBelow parent) (f.lineage parent))
      else (f.node? p).map (f.changed value isLeaf parent p) := by
  show ((announce f.nodes f.size value isLeaf (f.lineage parent)).push _)[p]? = _
  rw [Array.getElem?_push, size_announce, getElem?_announce f h]
  rfl

theorem value_changed (f : Forest) (parent : Option Nat) (p : Nat) (n : Node) :
    (f.changed value isLeaf parent p n).value = n.value := by
  unfold changed
  split <;> split <;> rfl

theorem ancestors_changed (f : Forest) (parent : Option Nat) (p : Nat) (n : Node) :
    (f.changed value isLeaf parent p n).ancestors = n.ancestors := by
  unfold changed
  split <;> split <;> rfl

theorem level_changed (f : Forest) (parent : Option Nat) (p : Nat) (n : Node) :
    (f.changed value isLeaf parent p n).level = n.level := by
  unfold changed
  split <;> split <;> rfl

theorem isLeaf_changed (f : Forest) (parent : Option Nat) (p : Nat) (n : Node) :
    (f.changed value isLeaf parent p n).isLeaf = n.isLeaf := by
  unfold changed
  split <;> split <;> rfl

theorem children_changed (f : Forest) (parent : Option Nat) (p : Nat) (n : Node) :
    (f.changed value isLeaf parent p n).children =
      if (f.lineage parent).head? = some p then n.children ++ [f.size] else n.children := by
  unfold changed
  split <;> split <;> rfl

theorem numLeaves_changed (f : Forest) (parent : Option Nat) (p : Nat) (n : Node) :
    (f.changed value isLeaf parent p n).numLeaves =
      if isLeaf = true ∧ p ∈ f.lineage parent then n.numLeaves + 1 else n.numLeaves := by
  unfold changed
  by_cases hhead : (f.lineage parent).head? = some p
  · by_cases hp : p ∈ f.lineage parent <;> simp [hhead, hp, Node.register, Node.adopt]
  · by_cases hp : p ∈ f.lineage parent <;> simp [hhead, hp, Node.register]

theorem covered_changed (f : Forest) (parent : Option Nat) (p : Nat) (n : Node) :
    (f.changed value isLeaf parent p n).covered =
      if p ∈ f.lineage parent then n.covered.setIfNew value f.size else n.covered := by
  unfold changed
  split <;> split <;> rfl

/-! ## 3. What is known of a place after planting -/

theorem value?_eq (f : Forest) (p : Nat) : f.value? p = ((f.node? p).map Node.value).join := by
  unfold value?
  cases f.node? p with
  | none => rfl
  | some n => rfl

section

variable {f : Forest} {parent : Option Nat} (value : Option Text) (isLeaf : Bool)
  (h : (f.lineage parent).Nodup)

include h

/-- A field that planting leaves as it is in every node. -/
theorem map_node?_plant {α : Type} (field : Node → α)
    (hfield : ∀ p n, field (f.changed value isLeaf parent p n) = field n) (p : Nat) :
    ((f.plant value isLeaf parent).node? p).map field =
      if p = f.size then
        some (field (Node.create f.size value isLeaf (f.levelBelow parent) (f.lineage parent)))
      else (f.node? p).map field := by
  rw [node?_plant h]
  split
  · rfl
  · rw [Option.map_map]
    exact congrArg (Option.map · (f.node? p)) (funext fun n => hfield p n)

theorem value?_plant (p : Nat) :
    (f.plant value isLeaf parent).value? p = if p = f.size then value else f.value? p := by
  rw [value?_eq, value?_eq, map_node?_plant value isLeaf h _ (value_changed f parent)]
  split <;> rfl

theorem ancestorsOf_plant (p : Nat) :
    (f.plant value isLeaf parent).ancestorsOf p =
      if p = f.size then f.lineage parent else f.ancestorsOf p := by
  unfold ancestorsOf
  rw [map_node?_plant value isLeaf h _ (ancestors_changed f parent)]
  split <;> rfl

theorem levelAt_plant (p : Nat) :
    (f.plant value isLeaf parent).levelAt p =
      if p = f.size then f.levelBelow parent else f.levelAt p := by
  unfold levelAt
  rw [map_node?_plant value isLeaf h _ (level_changed f parent)]
  split <;> rfl

theorem isLeafAt_plant (p : Nat) :
    (f.plant value isLeaf parent).isLeafAt p = if p = f.size then isLeaf else f.isLeafAt p := by
  unfold isLeafAt
  rw [map_node?_plant value isLeaf h _ (isLeaf_changed f parent)]
  split <;> rfl

theorem childrenOf_plant {p : Nat} (hp : p ≤ f.size) :
    (f.plant value isLeaf parent).childrenOf p =
      if p = f.size then []
      else if (f.lineage parent).head? = some p then f.childrenOf p ++ [f.size]
      else f.childrenOf p := by
  unfold childrenOf
  rw [node?_plant h]
  by_cases he : p = f.size
  · rw [if_pos he, if_pos he]
    rfl
  · obtain ⟨n, hn⟩ := (f.exists_node_iff p).mpr (by omega)
    rw [if_neg he, if_neg he, hn]
    exact children_changed f parent p n

theorem leafCount_plant {p : Nat} (hp : p ≤ f.size) :
    (f.plant value isLeaf parent).leafCount p =
      if p = f.size then 0
      else if isLeaf = true ∧ p ∈ f.lineage parent then f.leafCount p + 1
      else f.leafCount p := by
  unfold leafCount
  rw [node?_plant h]
  by_cases he : p = f.size
  · rw [if_pos he, if_pos he]
    rfl
  · obtain ⟨n, hn⟩ := (f.exists_node_iff p).mpr (by omega)
    rw [if_neg he, if_neg he, hn]
    exact numLeaves_changed f parent p n

theorem coveredOf_plant {p : Nat} (hp : p ≤ f.size) :
    (f.plant value isLeaf parent).coveredOf p =
      if p = f.size then value.toList.map fun v => (some v, f.size)
      else if p ∈ f.lineage parent then (f.coveredOf p).setIfNew value f.size
      else f.coveredOf p := by
  unfold coveredOf
  rw [node?_plant h]
  by_cases he : p = f.size
  · rw [if_pos he, if_pos he]
    cases value <;> rfl
  · obtain ⟨n, hn⟩ := (f.exists_node_iff p).mpr (by omega)
    rw [if_neg he, if_neg he, hn]
    exact covered_changed f parent p n

end

end Anonymization.Forest
