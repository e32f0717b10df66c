import Anonymization.Hierarchy.Tree
import Anonymization.Proofs.Hierarchy.Chronicle
/-!
# Trees that are alike

Two grown trees can have their nodes in different places. They are alike if nodes of the same ascent have
children of the same ascents in the same order (`Alike`), and then nothing that can be said of a node
without naming a place tells them apart.

* `Alike.search_eq` -- **what is computed of a node from its children is the same in both**;
* `Alike.map_leavesWithin` -- so the leaves have the same ascents, in the same order;
* `Alike.treeWithin_eq` -- and the trees are the same.
-/

namespace Anonymization.Forest

/-! ## 1. A node and what is below it -/

variable {f f' : Forest} {depth : Nat}

theorem heightWithin_succ {p : Nat} (hp : p < f.size) (fuel : Nat) :
    f.heightWithin (fuel + 1) p =
      ((f.childrenOf p).map (f.heightWithin fuel)).foldl (fun h below => max h (1 + below)) 0 := by
  obtain ⟨n, hn⟩ := (f.exists_node_iff p).mpr hp
  simp [heightWithin, childrenOf, hn, List.foldl_map]

theorem treeWithin_succ {p : Nat} (hp : p < f.size) (fuel : Nat) :
    f.treeWithin (fuel + 1) p =
      some (.node ⟨f.value? p, f.levelAt p, f.isLeafAt p, f.leafCount p, f.height p⟩
        ((f.childrenOf p).map (f.treeWithin fuel)).reduceOption) := by
  obtain ⟨n, hn⟩ := (f.exists_node_iff p).mpr hp
  simp [treeWithin, labelOf, value?, levelAt, isLeafAt, leafCount, childrenOf, hn, List.reduceOption]

/-- What agrees on partners agrees along lists of partners. -/
theorem map_eq_of_partners {α β γ δ : Type} {k : α → γ} {k' : β → γ} {g : α → δ} {g' : β → δ}
    {xs : List α} {ys : List β} (hkeys : xs.map k = ys.map k')
    (heq : ∀ x ∈ xs, ∀ y ∈ ys, k x = k' y → g x = g' y) : xs.map g = ys.map g' := by
  induction xs generalizing ys with
  | nil =>
    rw [List.map_nil, eq_comm, List.map_eq_nil_iff] at hkeys
    rw [hkeys]
    rfl
  | cons x xs ih =>
    cases ys with
    | nil => cases hkeys
    | cons y ys =>
      rw [List.map_cons, List.map_cons, List.cons.injEq] at hkeys
      have hrest := ih hkeys.2 fun a ha b hb =>
        heq a (List.mem_cons_of_mem _ ha) b (List.mem_cons_of_mem _ hb)
      rw [List.map_cons, List.map_cons, hrest,
        heq x List.mem_cons_self y List.mem_cons_self hkeys.1]

/-! ## 2. Alike -/

/-- In two grown trees nodes of the same ascent have children of the same ascents, in the same order. -/
structure Alike (depth : Nat) (f f' : Forest) : Prop where
  left : Grown depth f
  right : Grown depth f'
  levels : f.Registered ∧ f'.Registered
  root : f.ascent 0 = f'.ascent 0
  children : ∀ p < f.size, ∀ p' < f'.size, f.ascent p = f'.ascent p' →
    (f.childrenOf p).map f.ascent = (f'.childrenOf p').map f'.ascent

namespace Alike

/-- **What is computed of a node from its children is the same in both trees**, if each step of it is. -/
theorem search_eq (h : Alike depth f f') {α : Type} (F F' : Nat → Nat → α)
    (step : ∀ fuel fuel' p p', p < f.size → p' < f'.size → f.ascent p = f'.ascent p' →
      (f.childrenOf p).map (F fuel) = (f'.childrenOf p').map (F' fuel') →
      F (fuel + 1) p = F' (fuel' + 1) p') :
    ∀ {fuel fuel' p p' : Nat}, p < f.size → p' < f'.size → f.ascent p = f'.ascent p' →
      f.size ≤ fuel + p → f'.size ≤ fuel' + p' → F fuel p = F' fuel' p' := by
  intro fuel
  induction fuel with
  | zero => intros; omega
  | succ fuel ih =>
    intro fuel' p p' hp hp' hascent hfuel hfuel'
    cases fuel' with
    | zero => omega
    | succ fuel' =>
      refine step fuel fuel' p p' hp hp' hascent (map_eq_of_partners (h.children p hp p' hp' hascent) ?_)
      intro c hc c' hc' hsame
      obtain ⟨hsize, hlt, -⟩ := h.left.of_mem_childrenOf hp hc
      obtain ⟨hsize', hlt', -⟩ := h.right.of_mem_childrenOf hp' hc'
      exact ih hsize hsize' hsame (by omega) (by omega)

variable {p p' : Nat} (h : Alike depth f f') (hp : p < f.size) (hp' : p' < f'.size)
  (hascent : f.ascent p = f'.ascent p')

include h hp hp' hascent

theorem length_ancestorsOf : (f.ancestorsOf p).length = (f'.ancestorsOf p').length := by
  have hlength := h.left.length_ascent hp
  rw [hascent, h.root, h.right.length_ascent hp'] at hlength
  omega

theorem isLeafAt_eq : f.isLeafAt p = f'.isLeafAt p' := by
  rw [Bool.eq_iff_iff, h.left.leaf p hp, h.right.leaf p' hp', h.length_ancestorsOf hp hp' hascent]

theorem levelAt_eq : f.levelAt p = f'.levelAt p' := by
  rw [h.levels.1.level, h.levels.2.level, h.length_ancestorsOf hp hp' hascent]

theorem value?_eq : f.value? p = f'.value? p' := by
  rw [← h.left.head?_ascent hp, ← h.right.head?_ascent hp', hascent]

/-- **The leaves have the same ascents, in the same order.** -/
theorem map_leavesWithin {fuel fuel' : Nat} (hfuel : f.size ≤ fuel + p) (hfuel' : f'.size ≤ fuel' + p') :
    (f.leavesWithin fuel p).map f.ascent = (f'.leavesWithin fuel' p').map f'.ascent := by
  refine h.search_eq (fun fuel p => (f.leavesWithin fuel p).map f.ascent)
    (fun fuel p => (f'.leavesWithin fuel p).map f'.ascent) ?_ hp hp' hascent hfuel hfuel'
  intro fuel fuel' p p' hp hp' hascent hbelow
  simp only [leavesWithin_succ hp, leavesWithin_succ hp', h.isLeafAt_eq hp hp' hascent]
  split
  · exact congrArg (fun a => [a]) hascent
  · rw [List.map_flatMap, List.map_flatMap, List.flatMap_def, List.flatMap_def, hbelow]

theorem map_leaves : (f.leaves p).map f.ascent = (f'.leaves p').map f'.ascent :=
  h.map_leavesWithin hp hp' hascent (Nat.le_add_right _ _) (Nat.le_add_right _ _)

theorem leafCount_eq : f.leafCount p = f'.leafCount p' := by
  have hmark := h.isLeafAt_eq hp hp' hascent
  cases hleaf : f.isLeafAt p with
  | true =>
    rw [h.left.leafCount_leaf h.left.leavesEnd hp hleaf,
      h.right.leafCount_leaf h.right.leavesEnd hp' (hmark ▸ hleaf)]
  | false =>
    have hlength := congrArg List.length (h.map_leaves hp hp' hascent)
    rw [List.length_map, List.length_map, h.left.length_leaves h.left.leavesEnd hp hleaf,
      h.right.length_leaves h.right.leavesEnd hp' (hmark ▸ hleaf)] at hlength
    exact hlength

theorem height_eq : f.height p = f'.height p' := by
  refine h.search_eq f.heightWithin f'.heightWithin ?_ hp hp' hascent
    (Nat.le_add_right _ _) (Nat.le_add_right _ _)
  intro fuel fuel' p p' hp hp' _ hbelow
  rw [heightWithin_succ hp, heightWithin_succ hp', hbelow]

/-- **The trees are the same.** -/
theorem treeWithin_eq {fuel fuel' : Nat} (hfuel : f.size ≤ fuel + p) (hfuel' : f'.size ≤ fuel' + p') :
    f.treeWithin fuel p = f'.treeWithin fuel' p' := by
  refine h.search_eq f.treeWithin f'.treeWithin ?_ hp hp' hascent hfuel hfuel'
  intro fuel fuel' p p' hp hp' hascent hbelow
  rw [treeWithin_succ hp, treeWithin_succ hp', hbelow, h.value?_eq hp hp' hascent,
    h.levelAt_eq hp hp' hascent, h.isLeafAt_eq hp hp' hascent, h.leafCount_eq hp hp' hascent,
    h.height_eq hp hp' hascent]

end Alike

end Anonymization.Forest
