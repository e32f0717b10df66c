import Anonymization.Proofs.Assoc
import Anonymization.Proofs.Hierarchy.Lineage
/-!
# What a node knows of its tree

A node is told about its descendants one by one, when they are planted, and about nothing else. After
any sequence of plantings it knows what the sequence says about it.

* `Registered`, `Registered.plant` -- the level of a node and what is registered with it follow from
  its ancestors and those of all others, and **planting keeps it so**;
* `Follows`, `follows_ofPlantings` -- value, leaf mark and parent of a node are those of its planting;
* `Follows.isBelow_iff` -- so **the nodes below a node are those that have it as an ancestor**;
* `ofPlantings_represents` -- every node of a forest knows its ancestors, its level, its children, the
  first node of each value and the number of leaves below it.
-/

namespace Anonymization.Forest

/-! ## 1. Levels and registered nodes -/

/-- The node at `i` counts for a value with the node at `p`: it has this value, and lies below `p` or
is the node itself. A node without a value does not count for itself. -/
def Offers (f : Forest) (p : Nat) (v : Option Text) (i : Nat) : Prop :=
  (i = p ∧ v ≠ none ∨ p ∈ f.ancestorsOf i) ∧ f.value? i = v

instance (f : Forest) (p : Nat) (v : Option Text) : DecidablePred (f.Offers p v) :=
  fun i => inferInstanceAs (Decidable ((i = p ∧ v ≠ none ∨ p ∈ f.ancestorsOf i) ∧ f.value? i = v))

/-- The level of a node is the number of its ancestors, and registered with it is the first node that
counts for each value. -/
structure Registered (f : Forest) : Prop where
  level : ∀ p, f.levelAt p = (f.ancestorsOf p).length
  keys : ∀ p, (Assoc.keys (f.coveredOf p)).Nodup
  covered : ∀ p < f.size, ∀ v,
    (f.coveredOf p).get? v = (List.range f.size).find? fun i => f.Offers p v i

variable {f : Forest}

theorem registered_empty : Registered empty where
  level _ := rfl
  keys _ := List.nodup_nil
  covered _ hp := absurd hp (Nat.not_lt_zero _)

/-- A child is one level below its parent. -/
theorem Registered.levelBelow (hr : f.Registered) (parent : Option Nat) :
    f.levelBelow parent = (f.lineage parent).length := by
  cases parent with
  | none => rfl
  | some q =>
    have hlevel := hr.level q
    cases hq : f.node? q with
    | none => simp [Forest.levelBelow, Forest.lineage, hq]
    | some n =>
      simp only [levelAt, ancestorsOf, hq, Option.map_some, Option.getD_some] at hlevel
      simp [Forest.levelBelow, Forest.lineage, hq, hlevel]

namespace WellFormed

variable (h : f.WellFormed) (value : Option Text) (isLeaf : Bool) (parent : Option Nat)

include h

/-- What counts among the nodes that were there counts after another is planted. -/
theorem offers_plant_of_ne (p : Nat) (v : Option Text) {i : Nat} (hi : i ≠ f.size) :
    (f.plant value isLeaf parent).Offers p v i ↔ f.Offers p v i := by
  unfold Offers
  rw [h.ancestorsOf_plant_of_ne _ _ _ hi, h.value?_plant_of_ne _ _ _ hi]

theorem offers_plant_size (p : Nat) (v : Option Text) :
    (f.plant value isLeaf parent).Offers p v f.size ↔
      (f.size = p ∧ v ≠ none ∨ p ∈ f.lineage parent) ∧ value = v := by
  unfold Offers
  rw [h.ancestorsOf_plant_size, h.value?_plant_size]

/-- **The first node that counts stays the first**; where there was none it can be the new one. -/
theorem find?_offers_plant (p : Nat) (v : Option Text) :
    ((List.range (f.plant value isLeaf parent).size).find? fun i =>
        (f.plant value isLeaf parent).Offers p v i) =
      ((List.range f.size).find? fun i => f.Offers p v i).or
        (if (f.size = p ∧ v ≠ none ∨ p ∈ f.lineage parent) ∧ value = v then some f.size
          else none) := by
  have hold : ((List.range f.size).find? fun i => (f.plant value isLeaf parent).Offers p v i) =
      (List.range f.size).find? fun i => f.Offers p v i := by
    refine List.find?_congr fun i hi => ?_
    rw [decide_eq_decide]
    exact h.offers_plant_of_ne _ _ _ p v (List.mem_range.mp hi).ne
  rw [size_plant, List.range_succ, List.find?_append, hold, List.find?_singleton,
    ← if_congr (h.offers_plant_size value isLeaf parent p v) rfl rfl]
  simp only [decide_eq_true_eq]

/-- None of the nodes that were planted before a node counts for it. -/
theorem find?_offers_size (v : Option Text) :
    ((List.range f.size).find? fun i => f.Offers f.size v i) = none := by
  rw [List.find?_eq_none]
  intro i hi hoffers
  have hlt : i < f.size := List.mem_range.mp hi
  rcases (of_decide_eq_true hoffers).1 with ⟨hself, -⟩ | hmem
  · exact hlt.ne hself
  · exact absurd (h.size_of_mem hmem) (Nat.lt_irrefl _)

end WellFormed

/-- **Planting keeps what the nodes know.** -/
theorem Registered.plant (hr : f.Registered) (h : f.WellFormed) (value : Option Text) (isLeaf : Bool)
    (parent : Option Nat) : (f.plant value isLeaf parent).Registered where
  level p := by
    rw [levelAt_plant _ _ (h.nodup_lineage parent), ancestorsOf_plant _ _ (h.nodup_lineage parent),
      hr.levelBelow, hr.level]
    split <;> rfl
  keys p := by
    by_cases hp : p ≤ f.size
    · rw [coveredOf_plant _ _ (h.nodup_lineage parent) hp]
      split
      · cases value <;> simp [Assoc.keys]
      · split
        · exact Assoc.nodup_keys_setIfNew (hr.keys p) _ _
        · exact hr.keys p
    · have hnone : (f.plant value isLeaf parent).node? p = none := by
        rw [node?_eq_none_iff, size_plant]
        omega
      simp [coveredOf, hnone, Assoc.keys]
  covered p hp v := by
    rw [size_plant, Nat.lt_succ_iff] at hp
    rw [coveredOf_plant _ _ (h.nodup_lineage parent) hp, h.find?_offers_plant]
    by_cases he : p = f.size
    · subst he
      have hself : f.size ∉ f.lineage parent := fun hmem =>
        absurd (h.size_of_mem_lineage hmem) (Nat.lt_irrefl _)
      rw [if_pos rfl, h.find?_offers_size]
      cases value with
      | none => cases v <;> simp [Assoc.get?, hself]
      | some t => cases v <;> simp [Assoc.get?, hself]
    · rw [if_neg he, ← hr.covered p (by omega)]
      by_cases hmem : p ∈ f.lineage parent
      · rw [if_pos hmem, Assoc.get?_setIfNew]
        simp [hmem]
      · have hne : ¬f.size = p := fun hp => he hp.symm
        rw [if_neg hmem]
        simp [hmem, hne]

/-! ## 2. What the plantings say -/

/-- The value of the node planted at a place. -/
def valueIn (ps : List Planting) (place : Nat) : Option Text :=
  ps[place]?.bind Planting.value

/-- The node planted at a place is a leaf. -/
def isLeafIn (ps : List Planting) (place : Nat) : Bool :=
  (ps[place]?.map Planting.isLeaf).getD false

/-- The parent of the node planted at a place. -/
def parentIn (ps : List Planting) (place : Nat) : Option Nat :=
  ps[place]?.bind Planting.parent

/-- Every parent was planted before its child. -/
def InOrder (ps : List Planting) : Prop :=
  ∀ i < ps.length, ∀ p ∈ parentIn ps i, p < i

instance (ps : List Planting) : Decidable (InOrder ps) :=
  inferInstanceAs (Decidable (∀ i < ps.length, ∀ p ∈ parentIn ps i, p < i))

/-- The node planted at a place is a proper descendant of the node at `n`. -/
inductive IsBelow (ps : List Planting) (n : Nat) : Nat → Prop
  | child {i : Nat} : parentIn ps i = some n → IsBelow ps n i
  | deeper {i p : Nat} : parentIn ps i = some p → IsBelow ps n p → IsBelow ps n i

/-- The node planted at `i` counts for a value with the node at `n`: it has this value, and is a proper
descendant or the node itself. A node without a value does not count for itself. -/
def Counts (ps : List Planting) (n : Nat) (v : Option Text) (i : Nat) : Prop :=
  (i = n ∧ v ≠ none ∨ IsBelow ps n i) ∧ valueIn ps i = v

/-- What a node of a forest knows is what these plantings say of its place. -/
structure Represents (ps : List Planting) (f : Forest) (n : Nat) (node : Node) : Prop where
  value : node.value = valueIn ps n
  isLeaf : node.isLeaf = isLeafIn ps n
  root : parentIn ps n = none → node.ancestors = []
  child : ∀ p, parentIn ps n = some p → ∃ parent, f.node? p = some parent ∧
    node.ancestors = p :: parent.ancestors ∧ parent.children.count n = 1
  level : node.level = node.ancestors.length
  children : node.children = (List.range ps.length).filter fun c => parentIn ps c = some n
  nodup : (Assoc.keys node.covered).Nodup
  keys : ∀ v, v ∈ Assoc.keys node.covered ↔
    node.value = v ∧ v ≠ none ∨ ∃ i, IsBelow ps n i ∧ valueIn ps i = v
  first : ∀ v i, node.covered.get? v = some i ↔ IsLeast {j | Counts ps n v j} i
  numLeaves : {i | IsBelow ps n i ∧ isLeafIn ps i = true}.encard = node.numLeaves

variable {ps : List Planting} {pl : Planting}

theorem getElem?_concat (i : Nat) :
    (ps ++ [pl])[i]? = if i = ps.length then some pl else ps[i]? := by
  rcases Nat.lt_trichotomy i ps.length with hi | hi | hi
  · rw [List.getElem?_append_left hi, if_neg hi.ne]
  · rw [hi, List.getElem?_concat_length, if_pos rfl]
  · rw [if_neg hi.ne', List.getElem?_eq_none (by simpa using hi), List.getElem?_eq_none hi.le]

theorem InOrder.of_concat (h : InOrder (ps ++ [pl])) :
    InOrder ps ∧ ∀ p ∈ pl.parent, p < ps.length := by
  rw [InOrder, List.length_append, List.length_singleton] at h
  constructor
  · intro i hi p hp
    refine h i (Nat.lt_succ_of_lt hi) p ?_
    rwa [parentIn, getElem?_concat, if_neg hi.ne]
  · intro p hp
    refine h ps.length (Nat.lt_succ_self _) p ?_
    rwa [parentIn, getElem?_concat, if_pos rfl]

/-! ## 3. What the forest shows -/

theorem ofPlantings_concat (ps : List Planting) (pl : Planting) :
    ofPlantings (ps ++ [pl]) = (ofPlantings ps).plant pl.value pl.isLeaf pl.parent := by
  unfold ofPlantings
  rw [List.foldl_append]
  rfl

theorem wellFormed_ofPlantings (ps : List Planting) : (ofPlantings ps).WellFormed := by
  induction ps using List.reverseRecOn with
  | nil => exact wellFormed_empty
  | append_singleton ps pl ih =>
    rw [ofPlantings_concat]
    exact ih.plant _ _ _

theorem registered_ofPlantings (ps : List Planting) : (ofPlantings ps).Registered := by
  induction ps using List.reverseRecOn with
  | nil => exact registered_empty
  | append_singleton ps pl ih =>
    rw [ofPlantings_concat]
    exact ih.plant (wellFormed_ofPlantings ps) _ _ _

/-- The nodes of a forest have the values, leaf marks and parents that the plantings give them. -/
structure Follows (f : Forest) (ps : List Planting) : Prop where
  size : f.size = ps.length
  value : ∀ p, f.value? p = valueIn ps p
  isLeaf : ∀ p, f.isLeafAt p = isLeafIn ps p
  parent : ∀ p, (f.ancestorsOf p).head? = parentIn ps p

theorem Follows.plant (hf : f.Follows ps) (h : f.WellFormed) (hpl : ∀ p ∈ pl.parent, p < f.size) :
    (f.plant pl.value pl.isLeaf pl.parent).Follows (ps ++ [pl]) where
  size := by rw [size_plant, hf.size, List.length_append, List.length_singleton]
  value p := by
    rw [value?_plant _ _ (h.nodup_lineage _), hf.size, hf.value, valueIn, valueIn, getElem?_concat]
    split <;> rfl
  isLeaf p := by
    rw [isLeafAt_plant _ _ (h.nodup_lineage _), hf.size, hf.isLeaf, isLeafIn, isLeafIn,
      getElem?_concat]
    split <;> rfl
  parent p := by
    have hhead : (f.lineage pl.parent).head? = pl.parent := by
      cases hq : pl.parent with
      | none => rfl
      | some q =>
        rw [lineage_some (hpl q hq)]
        rfl
    rw [ancestorsOf_plant _ _ (h.nodup_lineage _), apply_ite List.head?, hhead, hf.parent, hf.size,
      parentIn, parentIn, getElem?_concat]
    split <;> rfl

theorem follows_ofPlantings (h : InOrder ps) : (ofPlantings ps).Follows ps := by
  induction ps using List.reverseRecOn with
  | nil => exact ⟨rfl, fun _ => rfl, fun _ => rfl, fun _ => rfl⟩
  | append_singleton ps pl ih =>
    obtain ⟨hps, hpl⟩ := h.of_concat
    have hf := ih hps
    rw [ofPlantings_concat]
    exact hf.plant (wellFormed_ofPlantings ps) (by rwa [hf.size])

/-- Only nodes of the forest have ancestors. -/
theorem lt_size_of_mem {p x : Nat} (hx : p ∈ f.ancestorsOf x) : x < f.size := by
  refine Nat.not_le.mp fun hle => ?_
  rw [ancestorsOf_of_le hle] at hx
  exact List.not_mem_nil hx

section

variable (hf : f.Follows ps) (h : f.WellFormed)

include hf h

/-- **The nodes below a node are those that have it as an ancestor.** -/
theorem Follows.isBelow_iff {n i : Nat} : IsBelow ps n i ↔ n ∈ f.ancestorsOf i := by
  constructor
  · intro hbelow
    induction hbelow with
    | child hi =>
      rw [← hf.parent] at hi
      exact List.mem_of_head? hi
    | deeper hi _ ih =>
      rw [← hf.parent] at hi
      rw [h.ancestorsOf_child hi]
      exact List.mem_cons_of_mem _ ih
  · intro hmem
    induction i using h.induction with
    | root i hroot =>
      rw [hroot] at hmem
      exact absurd hmem List.not_mem_nil
    | child i q _ hparent ih =>
      have hi : parentIn ps i = some q := by
        rw [← hf.parent, hparent]
        rfl
      rw [hparent] at hmem
      rcases List.mem_cons.mp hmem with rfl | hmem
      · exact .child hi
      · exact .deeper hi (ih hmem)

theorem Follows.counts_iff {n i : Nat} {v : Option Text} : Counts ps n v i ↔ f.Offers n v i := by
  unfold Counts Offers
  rw [hf.isBelow_iff h, hf.value]

end

/-! ## 4. What every node knows -/

section

variable (hf : f.Follows ps) (h : f.WellFormed) (hr : f.Registered) {n : Nat} {node : Node}
  (hn : f.node? n = some node)

include hf h hr hn

/-- The node registered for a value is the first that counts. -/
theorem Follows.first (v : Option Text) (i : Nat) :
    node.covered.get? v = some i ↔ IsLeast {j | Counts ps n v j} i := by
  have hsize : n < f.size := (f.exists_node_iff n).mp ⟨node, hn⟩
  have hcovered := hr.covered n hsize v
  rw [coveredOf, hn] at hcovered
  rw [show node.covered.get? v = _ from hcovered, List.find?_range_eq_some]
  simp only [decide_eq_true_eq, List.mem_range, Bool.not_eq_true', decide_eq_false_iff_not]
  constructor
  · rintro ⟨hi, -, hleast⟩
    refine ⟨(hf.counts_iff h).mpr hi, fun j hj => ?_⟩
    exact Nat.not_lt.mp fun hlt => hleast j hlt ((hf.counts_iff h).mp hj)
  · rintro ⟨hi, hleast⟩
    have hoffers := (hf.counts_iff h).mp hi
    have hlt : i < f.size := by
      rcases hoffers.1 with ⟨rfl, -⟩ | hmem
      · exact hsize
      · exact lt_size_of_mem hmem
    refine ⟨hoffers, hlt, fun j hlt hj => ?_⟩
    exact absurd (hleast ((hf.counts_iff h).mpr hj)) (Nat.not_le.mpr hlt)

/-- The values of the registered nodes. -/
theorem Follows.keys (v : Option Text) :
    v ∈ Assoc.keys node.covered ↔
      node.value = v ∧ v ≠ none ∨ ∃ i, IsBelow ps n i ∧ valueIn ps i = v := by
  have hvalue : node.value = valueIn ps n := by
    rw [← hf.value, value?, hn]
    rfl
  have hkey : v ∈ Assoc.keys node.covered ↔ ∃ i, Counts ps n v i := by
    rw [← not_iff_not, ← Assoc.get?_eq_none_iff, Option.eq_none_iff_forall_ne_some]
    simp only [ne_eq, hf.first h hr hn]
    constructor
    · rintro hnone ⟨i, hi⟩
      -- some place counts, so a least one does
      exact hnone _ ⟨Nat.sInf_mem ⟨i, hi⟩, fun j hj => Nat.sInf_le hj⟩
    · exact fun hnone i hi => hnone ⟨i, hi.1⟩
  rw [hkey, hvalue]
  constructor
  · rintro ⟨i, ⟨rfl, hv⟩ | hbelow, hi⟩
    · exact .inl ⟨hi, hv⟩
    · exact .inr ⟨i, hbelow, hi⟩
  · rintro (⟨hi, hv⟩ | ⟨i, hbelow, hi⟩)
    · exact ⟨n, .inl ⟨rfl, hv⟩, hi⟩
    · exact ⟨i, .inr hbelow, hi⟩

omit hr in
/-- The number of leaves below a node. -/
theorem Follows.numLeaves :
    {i | IsBelow ps n i ∧ isLeafIn ps i = true}.encard = node.numLeaves := by
  have hsize : n < f.size := (f.exists_node_iff n).mp ⟨node, hn⟩
  have hcount := h.leafCount n hsize
  rw [leafCount, hn, List.countP_eq_length_filter] at hcount
  have hset : {i | IsBelow ps n i ∧ isLeafIn ps i = true} =
      ((List.range f.size).filter fun c => f.isLeafAt c && n ∈ f.ancestorsOf c).toFinset := by
    ext i
    simp only [Set.mem_ofPred_eq, List.coe_toFinset, List.mem_filter, List.mem_range,
      Bool.and_eq_true, decide_eq_true_eq, hf.isBelow_iff h, ← hf.isLeaf]
    exact ⟨fun ⟨hmem, hleaf⟩ => ⟨lt_size_of_mem hmem, hleaf, hmem⟩, fun ⟨_, hleaf, hmem⟩ => ⟨hmem, hleaf⟩⟩
  rw [hset, Set.encard_coe_eq_coe_finsetCard,
    List.toFinset_card_of_nodup (List.nodup_range.filter _), ← hcount]
  rfl

omit hr in
/-- The children of a node are those planted with it as their parent. -/
theorem Follows.children :
    node.children = (List.range ps.length).filter fun c => parentIn ps c = some n := by
  have hsize : n < f.size := (f.exists_node_iff n).mp ⟨node, hn⟩
  have hchildren := h.children n hsize
  rw [childrenOf, hn] at hchildren
  rw [show node.children = _ from hchildren, hf.size]
  exact List.filter_congr fun c _ => by rw [hf.parent]

omit hr in
/-- A child has its parent and the ancestors of its parent, and is one of its children. -/
theorem Follows.child {p : Nat} (hp : parentIn ps n = some p) :
    ∃ parent, f.node? p = some parent ∧
      node.ancestors = p :: parent.ancestors ∧ parent.children.count n = 1 := by
  have hsize : n < f.size := (f.exists_node_iff n).mp ⟨node, hn⟩
  have hhead : (f.ancestorsOf n).head? = some p := (hf.parent n).trans hp
  have hlt : p < f.size := h.size_of_mem (List.mem_of_head? hhead)
  obtain ⟨parent, hparent⟩ := (f.exists_node_iff p).mpr hlt
  have hancestors := h.ancestorsOf_child hhead
  simp only [ancestorsOf, hn, hparent, Option.map_some, Option.getD_some] at hancestors
  refine ⟨parent, hparent, hancestors, ?_⟩
  rw [hf.children h hparent]
  refine List.count_eq_one_of_mem (List.nodup_range.filter _) ?_
  rw [List.mem_filter, List.mem_range, ← hf.size]
  exact ⟨hsize, decide_eq_true hp⟩

theorem Follows.represents : Represents ps f n node where
  value := by
    rw [← hf.value, value?, hn]
    rfl
  isLeaf := by
    rw [← hf.isLeaf, isLeafAt, hn]
    rfl
  root hroot := by
    rw [← hf.parent, List.head?_eq_none_iff, ancestorsOf, hn] at hroot
    exact hroot
  child _ hp := hf.child h hn hp
  level := by
    have hlevel := hr.level n
    rw [levelAt, ancestorsOf, hn] at hlevel
    exact hlevel
  children := hf.children h hn
  nodup := by
    have hkeys := hr.keys n
    rw [coveredOf, hn] at hkeys
    exact hkeys
  keys := hf.keys h hr hn
  first := hf.first h hr hn
  numLeaves := hf.numLeaves h hn

end

/-- **Every node of a forest knows what the plantings say of its place**, however many there were and
whatever their values, leaf marks and parents. -/
theorem ofPlantings_represents {ps : List Planting} (h : InOrder ps) :
    (ofPlantings ps).size = ps.length ∧
      ∀ n < ps.length, ∃ node, (ofPlantings ps).node? n = some node ∧
        Represents ps (ofPlantings ps) n node := by
  have hf := follows_ofPlantings h
  refine ⟨hf.size, fun n hn => ?_⟩
  obtain ⟨node, hnode⟩ := ((ofPlantings ps).exists_node_iff n).mpr (hf.size.symm ▸ hn)
  exact ⟨node, hnode, hf.represents (wellFormed_ofPlantings ps) (registered_ofPlantings ps) hnode⟩

/-- A value on three levels, the second time below a leaf, and nodes without a value. -/
theorem represents_repeated_value :
    let ps : List Planting := [⟨none, false, none⟩, ⟨some ['a'], true, some 0⟩,
      ⟨some ['b'], false, some 1⟩, ⟨some ['a'], true, some 2⟩, ⟨none, true, some 3⟩]
    InOrder ps ∧ ∃ node, (ofPlantings ps).node? 1 = some node ∧ node.numLeaves = 2 ∧
      node.covered = [(some ['a'], 1), (some ['b'], 2), (none, 4)] ∧
      Represents ps (ofPlantings ps) 1 node := by
  intro ps
  have hps : InOrder ps := by decide
  obtain ⟨node, hnode, hrepresents⟩ := (ofPlantings_represents hps).2 1 (by decide)
  have hvalue : (ofPlantings ps).node? 1 = some
      ⟨some ['a'], 1, true, 2, [0], [2], [(some ['a'], 1), (some ['b'], 2), (none, 4)]⟩ := by decide
  rw [hvalue, Option.some.injEq] at hnode
  exact ⟨hps, node, hvalue.trans (congrArg some hnode), hnode ▸ rfl, hnode ▸ rfl, hrepresents⟩

end Anonymization.Forest
