import Anonymization.Proofs.Hierarchy.Planting
/-!
# Ancestors and leaves

Of a node only its value, its leaf mark and its ancestors are decided when it is planted; its children
and the number of leaves below it follow from the ancestors of all others (`WellFormed`).

* `WellFormed.plant` -- **planting keeps a forest well-formed**;
* `WellFormed.induction` -- a node has no ancestors, or those of its parent and the parent;
* `WellFormed.suffix` -- the ancestors of an ancestor are the rest of the list behind it;
* `leaves_eq` -- the leaves of a node are those of its children, one child after the other;
* `leaves_perm` -- where nothing lies below a leaf, **each leaf at or below a node is found once**;
* `length_leaves` -- and they are as many as the node counts.
-/

namespace Anonymization.Forest

/-! ## 1. Well-formed forests -/

/-- Places and lineages agree: every node was planted behind its ancestors, whose children and leaves
below are exactly the nodes that name them. -/
structure WellFormed (f : Forest) : Prop where
  lineage : ∀ p, f.ancestorsOf p = [] ∨ ∃ q < p, f.ancestorsOf p = q :: f.ancestorsOf q
  children : ∀ p < f.size,
    f.childrenOf p = (List.range f.size).filter fun c => (f.ancestorsOf c).head? = some p
  leafCount : ∀ p < f.size,
    f.leafCount p = (List.range f.size).countP fun c => f.isLeafAt c && p ∈ f.ancestorsOf c

variable {f : Forest}

theorem ancestorsOf_of_le {p : Nat} (h : f.size ≤ p) : f.ancestorsOf p = [] := by
  rw [ancestorsOf, (f.node?_eq_none_iff p).mpr h]
  rfl

theorem wellFormed_empty : WellFormed empty where
  lineage _ := .inl (ancestorsOf_of_le (Nat.zero_le _))
  children _ hp := absurd hp (Nat.not_lt_zero _)
  leafCount _ hp := absurd hp (Nat.not_lt_zero _)

namespace WellFormed

variable (h : f.WellFormed)

include h

/-- **What holds of nodes without ancestors, and of a node with its parent, holds of all.** -/
theorem induction {P : Nat → Prop} (root : ∀ p, f.ancestorsOf p = [] → P p)
    (child : ∀ p q, q < p → f.ancestorsOf p = q :: f.ancestorsOf q → P q → P p) (p : Nat) : P p := by
  induction p using Nat.strongRecOn with
  | _ p ih =>
    rcases h.lineage p with hp | ⟨q, hq, hp⟩
    · exact root p hp
    · exact child p q hq hp (ih q hq)

/-- Ancestors lie in front of their descendants, the farther the higher. -/
theorem pairwise (p : Nat) : (p :: f.ancestorsOf p).Pairwise (· > ·) := by
  induction p using h.induction with
  | root p hp =>
    rw [hp]
    exact List.pairwise_singleton _ _
  | child p q hq hp ih =>
    rw [hp]
    refine List.pairwise_cons.mpr ⟨fun x hx => ?_, ih⟩
    rcases List.mem_cons.mp hx with rfl | hx
    · exact hq
    · exact Nat.lt_trans (List.rel_of_pairwise_cons ih hx) hq

theorem lt_of_mem {p x : Nat} (hx : p ∈ f.ancestorsOf x) : p < x :=
  List.rel_of_pairwise_cons (h.pairwise x) hx

theorem size_of_mem {p x : Nat} (hx : p ∈ f.ancestorsOf x) : p < f.size := by
  refine Nat.lt_trans (h.lt_of_mem hx) (Nat.not_le.mp fun hle => ?_)
  rw [ancestorsOf_of_le hle] at hx
  exact List.not_mem_nil hx

/-- **The ancestors of an ancestor are the rest of the list behind it.** -/
theorem suffix {p x : Nat} (hx : p ∈ x :: f.ancestorsOf x) :
    p :: f.ancestorsOf p <:+ x :: f.ancestorsOf x := by
  induction x using h.induction with
  | root x hroot =>
    rw [hroot, List.mem_singleton] at hx
    exact hx ▸ List.suffix_refl _
  | child x q _ hparent ih =>
    rcases List.mem_cons.mp hx with rfl | hx
    · exact List.suffix_refl _
    · rw [hparent] at hx ⊢
      exact (ih hx).trans (List.suffix_cons _ _)

theorem trans {p q x : Nat} (hp : p ∈ f.ancestorsOf q) (hq : q ∈ x :: f.ancestorsOf x) :
    p ∈ f.ancestorsOf x := by
  have hmem : p ∈ x :: f.ancestorsOf x := (h.suffix hq).subset (List.mem_cons_of_mem _ hp)
  rcases List.mem_cons.mp hmem with rfl | hmem
  · -- a node is no ancestor of its own ancestor
    rcases List.mem_cons.mp hq with rfl | hq
    · exact hp
    · exact absurd (h.lt_of_mem hp) (Nat.not_lt.mpr (h.lt_of_mem hq).le)
  · exact hmem

/-- An ancestor has fewer ancestors. -/
theorem depth_lt_of_mem {p x : Nat} (hx : p ∈ f.ancestorsOf x) :
    (f.ancestorsOf p).length < (f.ancestorsOf x).length := by
  have hsuffix := h.suffix (List.mem_cons_of_mem x hx)
  rcases List.suffix_cons_iff.mp hsuffix with he | hsuffix
  · exact absurd (List.cons.inj he).1 (h.lt_of_mem hx).ne
  · exact hsuffix.length_le

/-- Two nodes of one lineage at the same depth are one. -/
theorem eq_of_depth {p q x : Nat} (hp : p ∈ x :: f.ancestorsOf x) (hq : q ∈ x :: f.ancestorsOf x)
    (hdepth : (f.ancestorsOf p).length = (f.ancestorsOf q).length) : p = q := by
  have hsuffix : p :: f.ancestorsOf p <:+ q :: f.ancestorsOf q :=
    List.suffix_of_suffix_length_le (h.suffix hp) (h.suffix hq) (by simp [hdepth])
  exact (List.cons.inj (hsuffix.eq_of_length (by simp [hdepth]))).1

end WellFormed

/-! ## 2. Planting -/

/-- A new node is the root of a tree of its own, or gets its parent and the ancestors of its parent. -/
theorem lineage_cases (f : Forest) (parent : Option Nat) :
    f.lineage parent = [] ∨ ∃ q < f.size, f.lineage parent = q :: f.ancestorsOf q := by
  cases parent with
  | none => exact .inl rfl
  | some q =>
    by_cases hq : q < f.size
    · exact .inr ⟨q, hq, lineage_some hq⟩
    · exact .inl (by simp [Forest.lineage, (f.node?_eq_none_iff q).mpr (Nat.not_lt.mp hq)])

namespace WellFormed

variable (h : f.WellFormed)

include h

theorem nodup_lineage (parent : Option Nat) : (f.lineage parent).Nodup := by
  rcases lineage_cases f parent with hp | ⟨q, -, hp⟩
  · rw [hp]
    exact List.nodup_nil
  · rw [hp]
    exact (h.pairwise q).imp Nat.ne_of_gt

theorem size_of_mem_lineage {parent : Option Nat} {x : Nat} (hx : x ∈ f.lineage parent) :
    x < f.size := by
  rcases lineage_cases f parent with hp | ⟨q, hq, hp⟩
  · rw [hp] at hx
    exact absurd hx List.not_mem_nil
  · rw [hp] at hx
    rcases List.mem_cons.mp hx with rfl | hx
    · exact hq
    · exact h.size_of_mem hx

section

variable (value : Option Text) (isLeaf : Bool) (parent : Option Nat)

/-- The nodes that were there keep their ancestors. -/
theorem ancestorsOf_plant_of_ne {p : Nat} (hp : p ≠ f.size) :
    (f.plant value isLeaf parent).ancestorsOf p = f.ancestorsOf p := by
  rw [Forest.ancestorsOf_plant value isLeaf (h.nodup_lineage parent), if_neg hp]

theorem ancestorsOf_plant_size :
    (f.plant value isLeaf parent).ancestorsOf f.size = f.lineage parent := by
  rw [Forest.ancestorsOf_plant value isLeaf (h.nodup_lineage parent), if_pos rfl]

/-- They keep their values. -/
theorem value?_plant_of_ne {p : Nat} (hp : p ≠ f.size) :
    (f.plant value isLeaf parent).value? p = f.value? p := by
  rw [Forest.value?_plant value isLeaf (h.nodup_lineage parent), if_neg hp]

theorem value?_plant_size : (f.plant value isLeaf parent).value? f.size = value := by
  rw [Forest.value?_plant value isLeaf (h.nodup_lineage parent), if_pos rfl]

/-- They stay what they are, leaves or not. -/
theorem isLeafAt_plant_of_ne {p : Nat} (hp : p ≠ f.size) :
    (f.plant value isLeaf parent).isLeafAt p = f.isLeafAt p := by
  rw [Forest.isLeafAt_plant value isLeaf (h.nodup_lineage parent), if_neg hp]

theorem isLeafAt_plant_size : (f.plant value isLeaf parent).isLeafAt f.size = isLeaf := by
  rw [Forest.isLeafAt_plant value isLeaf (h.nodup_lineage parent), if_pos rfl]

/-- **Planting keeps a forest well-formed.** -/
theorem plant : (f.plant value isLeaf parent).WellFormed where
  lineage p := by
    by_cases hp : p = f.size
    · subst hp
      rw [h.ancestorsOf_plant_size]
      rcases lineage_cases f parent with hp | ⟨q, hq, hp⟩
      · exact .inl hp
      · exact .inr ⟨q, hq, by rw [hp, h.ancestorsOf_plant_of_ne _ _ _ hq.ne]⟩
    · rw [h.ancestorsOf_plant_of_ne _ _ _ hp]
      rcases h.lineage p with hroot | ⟨q, hq, hparent⟩
      · exact .inl hroot
      · have hmem : q ∈ f.ancestorsOf p := by simp [hparent]
        refine .inr ⟨q, hq, ?_⟩
        rw [h.ancestorsOf_plant_of_ne _ _ _ (h.size_of_mem hmem).ne]
        exact hparent
  children p hp := by
    rw [size_plant, Nat.lt_succ_iff] at hp
    have hold : (List.range f.size).filter
          (fun c => ((f.plant value isLeaf parent).ancestorsOf c).head? = some p) =
        (List.range f.size).filter fun c => (f.ancestorsOf c).head? = some p :=
      List.filter_congr fun c hc => by
        rw [h.ancestorsOf_plant_of_ne _ _ _ (List.mem_range.mp hc).ne]
    rw [childrenOf_plant value isLeaf (h.nodup_lineage parent) hp, size_plant, List.range_succ,
      List.filter_append, hold, List.filter_singleton, h.ancestorsOf_plant_size]
    by_cases he : p = f.size
    · subst he
      -- a node is named by none that was planted before it
      have hnone : (List.range f.size).filter
          (fun c => (f.ancestorsOf c).head? = some f.size) = [] := by
        refine List.filter_eq_nil_iff.mpr fun c _ hc => ?_
        exact absurd (h.size_of_mem (List.mem_of_head? (of_decide_eq_true hc))) (Nat.lt_irrefl _)
      have hself : (f.lineage parent).head? ≠ some f.size := fun hc =>
        absurd (h.size_of_mem_lineage (List.mem_of_head? hc)) (Nat.lt_irrefl _)
      simp [hnone, hself]
    · rw [if_neg he, ← h.children p (by omega)]
      by_cases hhead : (f.lineage parent).head? = some p
      · simp [hhead]
      · simp [hhead]
  leafCount p hp := by
    rw [size_plant, Nat.lt_succ_iff] at hp
    have hold : (List.range f.size).countP (fun c => (f.plant value isLeaf parent).isLeafAt c &&
          p ∈ (f.plant value isLeaf parent).ancestorsOf c) =
        (List.range f.size).countP fun c => f.isLeafAt c && p ∈ f.ancestorsOf c :=
      List.countP_congr fun c hc => by
        have hne : c ≠ f.size := (List.mem_range.mp hc).ne
        rw [h.ancestorsOf_plant_of_ne _ _ _ hne, h.isLeafAt_plant_of_ne _ _ _ hne]
    rw [leafCount_plant value isLeaf (h.nodup_lineage parent) hp, size_plant, List.range_succ,
      List.countP_append, hold, List.countP_singleton, h.ancestorsOf_plant_size, h.isLeafAt_plant_size]
    by_cases he : p = f.size
    · subst he
      have hnone : (List.range f.size).countP
          (fun c => f.isLeafAt c && f.size ∈ f.ancestorsOf c) = 0 := by
        refine List.countP_eq_zero.mpr fun c _ hc => ?_
        rw [Bool.and_eq_true, decide_eq_true_eq] at hc
        exact absurd (h.size_of_mem hc.2) (Nat.lt_irrefl _)
      have hself : f.size ∉ f.lineage parent := fun hc =>
        absurd (h.size_of_mem_lineage hc) (Nat.lt_irrefl _)
      simp [hnone, hself]
    · rw [if_neg he, ← h.leafCount p (by omega)]
      by_cases hcounts : isLeaf = true ∧ p ∈ f.lineage parent
      · simp [hcounts]
      · have hno : (isLeaf && decide (p ∈ f.lineage parent)) = false := by
          rw [Bool.and_eq_false_iff, decide_eq_false_iff_not, ← Bool.not_eq_true]
          exact not_and_or.mp hcounts
        simp [hcounts, hno]

end

/-! ## 3. The leaves -/

theorem mem_childrenOf {p c : Nat} (hp : p < f.size) :
    c ∈ f.childrenOf p ↔ c < f.size ∧ (f.ancestorsOf c).head? = some p := by
  rw [h.children p hp, List.mem_filter, List.mem_range, decide_eq_true_eq]

/-- A child has its parent and the ancestors of its parent. -/
theorem ancestorsOf_child {p c : Nat} (hc : (f.ancestorsOf c).head? = some p) :
    f.ancestorsOf c = p :: f.ancestorsOf p := by
  rcases h.lineage c with hroot | ⟨q, -, hparent⟩
  · rw [hroot] at hc
    cases hc
  · rw [hparent, List.head?_cons, Option.some.injEq] at hc
    exact hc ▸ hparent

/-- A child lies behind its parent. -/
theorem of_mem_childrenOf {p c : Nat} (hp : p < f.size) (hc : c ∈ f.childrenOf p) :
    c < f.size ∧ p < c ∧ f.ancestorsOf c = p :: f.ancestorsOf p := by
  obtain ⟨hsize, hhead⟩ := (h.mem_childrenOf hp).mp hc
  exact ⟨hsize, h.lt_of_mem (List.mem_of_head? hhead), h.ancestorsOf_child hhead⟩

theorem nodup_childrenOf {p : Nat} (hp : p < f.size) : (f.childrenOf p).Nodup := by
  rw [h.children p hp]
  exact List.nodup_range.filter _

/-- Below an ancestor the lineage goes through one of its children. -/
theorem exists_child {p x : Nat} (hx : x < f.size) (hmem : p ∈ f.ancestorsOf x) :
    ∃ c ∈ f.childrenOf p, c ∈ x :: f.ancestorsOf x := by
  induction x using h.induction with
  | root x hroot =>
    rw [hroot] at hmem
    exact absurd hmem List.not_mem_nil
  | child x q hq hparent ih =>
    rw [hparent] at hmem
    rcases List.mem_cons.mp hmem with rfl | hmem
    · have hchild := (h.mem_childrenOf (Nat.lt_trans hq hx)).mpr ⟨hx, by rw [hparent]; rfl⟩
      exact ⟨x, hchild, List.mem_cons_self⟩
    · obtain ⟨c, hc, hcq⟩ := ih (Nat.lt_trans hq hx) hmem
      exact ⟨c, hc, List.mem_cons_of_mem _ (hparent ▸ hcq)⟩

/-- And through one alone. -/
theorem child_unique {p c c' x : Nat} (hp : p < f.size) (hc : c ∈ f.childrenOf p)
    (hc' : c' ∈ f.childrenOf p) (hx : c ∈ x :: f.ancestorsOf x) (hx' : c' ∈ x :: f.ancestorsOf x) :
    c = c' := by
  refine h.eq_of_depth hx hx' ?_
  rw [(h.of_mem_childrenOf hp hc).2.2, (h.of_mem_childrenOf hp hc').2.2]

end WellFormed

theorem leavesWithin_succ {p : Nat} (hp : p < f.size) (fuel : Nat) :
    f.leavesWithin (fuel + 1) p =
      if f.isLeafAt p then [p] else (f.childrenOf p).flatMap (f.leavesWithin fuel) := by
  obtain ⟨n, hn⟩ := (f.exists_node_iff p).mpr hp
  simp [leavesWithin, isLeafAt, childrenOf, hn]

/-- Nothing lies below a leaf. -/
def LeavesEnd (f : Forest) : Prop :=
  ∀ p x, f.isLeafAt p = true → p ∉ f.ancestorsOf x

namespace WellFormed

section

variable (h : f.WellFormed)

include h

/-- What is found does not depend on how deep the search may go, if it goes deep enough. -/
theorem leavesWithin_eq {fuel fuel' p : Nat} (hp : p < f.size) (hfuel : f.size ≤ fuel + p)
    (hfuel' : f.size ≤ fuel' + p) : f.leavesWithin fuel p = f.leavesWithin fuel' p := by
  induction fuel generalizing fuel' p with
  | zero => omega
  | succ fuel ih =>
    cases fuel' with
    | zero => omega
    | succ fuel' =>
      rw [leavesWithin_succ hp, leavesWithin_succ hp]
      split
      · rfl
      · refine List.flatMap_congr fun c hc => ?_
        obtain ⟨hsize, hlt, -⟩ := h.of_mem_childrenOf hp hc
        exact ih hsize (by omega) (by omega)

/-- **The leaves of a node are those of its children**, if it is not a leaf itself. -/
theorem leaves_eq {p : Nat} (hp : p < f.size) :
    f.leaves p = if f.isLeafAt p then [p] else (f.childrenOf p).flatMap f.leaves := by
  have hfound := leavesWithin_succ hp f.size
  rw [h.leavesWithin_eq hp (by omega) (Nat.le_add_right _ _)] at hfound
  exact hfound

end

variable (h : f.WellFormed) (hend : f.LeavesEnd)

include h hend

/-- **Which leaves are found from a place**, if the search goes deep enough. -/
theorem mem_leavesWithin {fuel p x : Nat} (hp : p < f.size) (hfuel : f.size ≤ fuel + p) :
    x ∈ f.leavesWithin fuel p ↔ x < f.size ∧ f.isLeafAt x = true ∧ p ∈ x :: f.ancestorsOf x := by
  induction fuel generalizing p with
  | zero => omega
  | succ fuel ih =>
    rw [leavesWithin_succ hp]
    by_cases hleaf : f.isLeafAt p = true
    · rw [if_pos hleaf, List.mem_singleton]
      constructor
      · rintro rfl
        exact ⟨hp, hleaf, List.mem_cons_self⟩
      · rintro ⟨-, -, hmem⟩
        exact ((List.mem_cons.mp hmem).resolve_right (hend p x hleaf)).symm
    · rw [if_neg hleaf, List.mem_flatMap]
      constructor
      · rintro ⟨c, hc, hx⟩
        obtain ⟨hsize, hlt, hparent⟩ := h.of_mem_childrenOf hp hc
        obtain ⟨hxs, hxl, hmem⟩ := (ih hsize (by omega)).mp hx
        exact ⟨hxs, hxl, List.mem_cons_of_mem _ (h.trans (by simp [hparent]) hmem)⟩
      · rintro ⟨hxs, hxl, hmem⟩
        have hbelow : p ∈ f.ancestorsOf x := by
          refine (List.mem_cons.mp hmem).resolve_left ?_
          rintro rfl
          exact hleaf hxl
        obtain ⟨c, hc, hcx⟩ := h.exists_child hxs hbelow
        obtain ⟨hsize, hlt, -⟩ := h.of_mem_childrenOf hp hc
        exact ⟨c, hc, (ih hsize (by omega)).mpr ⟨hxs, hxl, hcx⟩⟩

/-- **No leaf is found twice.** -/
theorem nodup_leavesWithin {fuel p : Nat} (hp : p < f.size) (hfuel : f.size ≤ fuel + p) :
    (f.leavesWithin fuel p).Nodup := by
  induction fuel generalizing p with
  | zero => omega
  | succ fuel ih =>
    rw [leavesWithin_succ hp]
    split
    · exact List.nodup_singleton p
    · have hfuel' : ∀ c ∈ f.childrenOf p, f.size ≤ fuel + c := by
        intro c hc
        have hlt := (h.of_mem_childrenOf hp hc).2.1
        omega
      rw [List.nodup_flatMap]
      refine ⟨fun c hc => ih (h.of_mem_childrenOf hp hc).1 (hfuel' c hc),
        (h.nodup_childrenOf hp).imp_of_mem ?_⟩
      intro c c' hc hc' hne x hx hx'
      -- a leaf below two children of one node would have both in its lineage
      have hs := (h.of_mem_childrenOf hp hc).1
      have hs' := (h.of_mem_childrenOf hp hc').1
      have hmem := ((h.mem_leavesWithin hend hs (hfuel' c hc)).mp hx).2.2
      have hmem' := ((h.mem_leavesWithin hend hs' (hfuel' c' hc')).mp hx').2.2
      exact hne (h.child_unique hp hc hc' hmem hmem')

theorem mem_leaves {p x : Nat} (hp : p < f.size) :
    x ∈ f.leaves p ↔ x < f.size ∧ f.isLeafAt x = true ∧ p ∈ x :: f.ancestorsOf x :=
  h.mem_leavesWithin hend hp (Nat.le_add_right _ _)

theorem nodup_leaves {p : Nat} (hp : p < f.size) : (f.leaves p).Nodup :=
  h.nodup_leavesWithin hend hp (Nat.le_add_right _ _)

/-- **Each leaf at or below a place is found once.** -/
theorem leaves_perm {p : Nat} (hp : p < f.size) :
    (f.leaves p).Perm ((List.range f.size).filter fun x => f.isLeafAt x && p ∈ x :: f.ancestorsOf x) := by
  refine (List.perm_ext_iff_of_nodup (h.nodup_leaves hend hp) (List.nodup_range.filter _)).mpr
    fun x => ?_
  rw [h.mem_leaves hend hp, List.mem_filter, List.mem_range, Bool.and_eq_true, decide_eq_true_eq]

/-- **A node that is no leaf counts the leaves that are found from it.** -/
theorem length_leaves {p : Nat} (hp : p < f.size) (hleaf : f.isLeafAt p = false) :
    (f.leaves p).length = f.leafCount p := by
  rw [(h.leaves_perm hend hp).length_eq, h.leafCount p hp, ← List.countP_eq_length_filter]
  refine List.countP_congr fun x _ => ?_
  simp only [Bool.and_eq_true, decide_eq_true_eq, List.mem_cons]
  constructor
  · rintro ⟨hx, rfl | hmem⟩
    · rw [hleaf] at hx
      cases hx
    · exact ⟨hx, hmem⟩
  · rintro ⟨hx, hmem⟩
    exact ⟨hx, .inr hmem⟩

/-- A leaf counts none. -/
theorem leafCount_leaf {p : Nat} (hp : p < f.size) (hleaf : f.isLeafAt p = true) : f.leafCount p = 0 := by
  rw [h.leafCount p hp, List.countP_eq_zero]
  intro x _ hx
  rw [Bool.and_eq_true, decide_eq_true_eq] at hx
  exact hend p x hleaf hx.2

end WellFormed

end Anonymization.Forest
