import Anonymization.Hierarchy.Loader
import Anonymization.Proofs.Hierarchy.Lineage
/-!
# A tree grown path by path

A tree is grown path by path, and all paths have one length. What carries the growth is that the nodes
under one parent have different values (`Grown`), so that a node is told by the values from it up to the
root (`ascent`).

* `Grown.eq_of_ascent` -- a node is told by its ascent;
* `Grown.mem_lineage_iff` -- and lies below another exactly if its ascent goes on from there;
* `Grown.plant` -- **a node more**, where its parent has no child of its value;
* `Grown.grow` -- **a path more**: the tree has the row of the path, and no other that it had not.
-/

namespace Anonymization

/-! ## 1. Ascents -/

namespace Forest

/-- The values from a node up to the root, without nodes that have no value. -/
def ascent (f : Forest) (place : Nat) : List Text :=
  (place :: f.ancestorsOf place).filterMap f.value?

variable {f : Forest}

/-- The row of a node with a value is its ascent. -/
theorem rowOf_eq {place : Nat} {v : Text} (h : f.value? place = some v) :
    f.rowOf place = (f.ascent place).map some := by
  unfold rowOf ascent ancestorsOf
  rw [List.filterMap_cons_some h]
  unfold value? at h
  obtain ⟨n, hn, hv⟩ := Option.bind_eq_some_iff.mp h
  simp [hn, hv]

theorem ascent_child {p c : Nat} {v : Text} (hc : f.ancestorsOf c = p :: f.ancestorsOf p)
    (hv : f.value? c = some v) : f.ascent c = v :: f.ascent p := by
  unfold ascent
  rw [List.filterMap_cons_some hv, hc]

/-! ## 2. Grown forests -/

/-- A single tree under the first node, in which the leaves are the nodes with `depth` ancestors, no
node has more, and no two nodes under one parent have the same value. -/
structure Grown (depth : Nat) (f : Forest) : Prop extends f.WellFormed where
  rooted : 0 < f.size ∧ f.ancestorsOf 0 = []
  below : ∀ p, 0 < p → p < f.size → 0 ∈ f.ancestorsOf p
  named : ∀ p, 0 < p → p < f.size → ∃ v, f.value? p = some v
  siblings : ∀ p q, p < f.size → q < f.size → f.ancestorsOf p = f.ancestorsOf q →
    f.value? p = f.value? q → p = q
  leaf : ∀ p, p < f.size → (f.isLeafAt p = true ↔ (f.ancestorsOf p).length = depth)
  shallow : ∀ p, (f.ancestorsOf p).length ≤ depth

namespace Grown

variable {depth : Nat}

/-- The first node alone. -/
theorem single (value : Option Text) (hdepth : 0 < depth) :
    Grown depth (empty.plant value false none) := by
  have hroot : ∀ p, (empty.plant value false none).ancestorsOf p = [] := by
    intro p
    by_cases hp : p = empty.size
    · rw [hp, wellFormed_empty.ancestorsOf_plant_size]
      rfl
    · rw [wellFormed_empty.ancestorsOf_plant_of_ne _ _ _ hp]
      exact ancestorsOf_of_le (Nat.zero_le _)
  have hleaf : ∀ p, (empty.plant value false none).isLeafAt p = false := by
    intro p
    by_cases hp : p = empty.size
    · rw [hp, wellFormed_empty.isLeafAt_plant_size]
    · rw [wellFormed_empty.isLeafAt_plant_of_ne _ _ _ hp]
      rfl
  have hsize : (empty.plant value false none).size = 1 := size_plant ..
  refine ⟨wellFormed_empty.plant value false none, ⟨by omega, hroot 0⟩, fun p hpos hp => ?_,
    fun p hpos hp => ?_, fun p q hp hq _ _ => ?_, fun p _ => ?_, fun p => ?_⟩
  · omega
  · omega
  · omega
  · rw [hleaf, hroot]
    simp [hdepth.ne]
  · rw [hroot]
    exact Nat.zero_le _

section

variable (h : Grown depth f)

include h

/-- Every node but the first has a parent. -/
theorem exists_parent {p : Nat} (hpos : 0 < p) (hp : p < f.size) :
    ∃ q < p, f.ancestorsOf p = q :: f.ancestorsOf q := by
  refine (h.lineage p).resolve_left fun hroot => ?_
  have hmem := h.below p hpos hp
  rw [hroot] at hmem
  exact List.not_mem_nil hmem

/-- Nothing lies below a leaf. -/
theorem leavesEnd : f.LeavesEnd := by
  intro p x hleaf hmem
  have hlength := (h.leaf p (h.size_of_mem hmem)).mp hleaf
  have hlt := h.depth_lt_of_mem hmem
  have hle := h.shallow x
  omega

/-- The first node begins each ascent. -/
theorem ascent_zero : f.ascent 0 = (f.value? 0).toList := by
  unfold ascent
  rw [h.rooted.2]
  cases hv : f.value? 0 with
  | none => rw [List.filterMap_cons_none hv]; rfl
  | some v => rw [List.filterMap_cons_some hv]; rfl

/-- Every step up takes one value. -/
theorem length_ascent {p : Nat} (hp : p < f.size) :
    (f.ascent p).length = (f.ancestorsOf p).length + (f.ascent 0).length := by
  induction p using Nat.strongRecOn with
  | _ p ih =>
    rcases Nat.eq_zero_or_pos p with rfl | hpos
    · rw [h.rooted.2]
      simp
    · obtain ⟨q, hq, hparent⟩ := h.exists_parent hpos hp
      obtain ⟨v, hv⟩ := h.named p hpos hp
      rw [ascent_child hparent hv, hparent, List.length_cons, List.length_cons, ih q hq (by omega)]
      omega

/-- **A node is told by its ascent.** -/
theorem eq_of_ascent {p q : Nat} (hp : p < f.size) (hq : q < f.size)
    (he : f.ascent p = f.ascent q) : p = q := by
  induction p using Nat.strongRecOn generalizing q with
  | _ p ih =>
    have hdepth : (f.ancestorsOf p).length = (f.ancestorsOf q).length := by
      have hlength := congrArg List.length he
      rw [h.length_ascent hp, h.length_ascent hq] at hlength
      omega
    rcases Nat.eq_zero_or_pos p with rfl | hpos
    · rcases Nat.eq_zero_or_pos q with rfl | hqpos
      · rfl
      · obtain ⟨q', -, hparent⟩ := h.exists_parent hqpos hq
        rw [h.rooted.2, hparent] at hdepth
        cases hdepth
    · obtain ⟨p', hp', hparent⟩ := h.exists_parent hpos hp
      obtain ⟨v, hv⟩ := h.named p hpos hp
      rcases Nat.eq_zero_or_pos q with rfl | hqpos
      · rw [h.rooted.2, hparent] at hdepth
        cases hdepth
      · obtain ⟨q', hq', hparent'⟩ := h.exists_parent hqpos hq
        obtain ⟨v', hv'⟩ := h.named q hqpos hq
        rw [ascent_child hparent hv, ascent_child hparent' hv', List.cons.injEq] at he
        obtain rfl := ih p' hp' (by omega) (by omega) he.2
        exact h.siblings p q hp hq (hparent.trans hparent'.symm) (by rw [hv, hv', he.1])

/-- A node lies at or below another exactly if its ascent goes on from there. -/
theorem mem_lineage_iff {p x : Nat} (hp : p < f.size) (hx : x < f.size) :
    p ∈ x :: f.ancestorsOf x ↔ f.ascent p <:+ f.ascent x := by
  constructor
  · exact fun hmem => (h.suffix hmem).filterMap _
  · intro hsuffix
    induction x using Nat.strongRecOn with
    | _ x ih =>
      by_cases he : f.ascent p = f.ascent x
      · exact h.eq_of_ascent hp hx he ▸ List.mem_cons_self
      · have hpos : 0 < x := by
          refine Nat.pos_of_ne_zero fun hzero => he (hsuffix.eq_of_length ?_)
          have hle := hsuffix.length_le
          have hlength := h.length_ascent hp
          rw [hzero] at hle ⊢
          omega
        obtain ⟨q, hq, hparent⟩ := h.exists_parent hpos hx
        obtain ⟨v, hv⟩ := h.named x hpos hx
        rw [ascent_child hparent hv] at hsuffix he
        have hq' := ih q hq (by omega) ((List.suffix_cons_iff.mp hsuffix).resolve_left he)
        rw [hparent]
        exact List.mem_cons_of_mem _ hq'

/-- Every ascent goes on from that of the root. -/
theorem top_suffix_ascent {p : Nat} (hp : p < f.size) : f.ascent 0 <:+ f.ascent p := by
  rw [← h.mem_lineage_iff h.rooted.1 hp]
  rcases Nat.eq_zero_or_pos p with rfl | hpos
  · exact List.mem_cons_self
  · exact List.mem_cons_of_mem _ (h.below p hpos hp)

end

/-! ## 3. A node more -/

section

variable (h : Grown depth f) {place : Nat} (hplace : place < f.size) (v : Text) (isLeaf : Bool)

include h hplace

theorem ancestorsOf_new :
    (f.plant (some v) isLeaf (some place)).ancestorsOf f.size = place :: f.ancestorsOf place := by
  rw [h.ancestorsOf_plant_size, lineage_some hplace]

omit hplace in
theorem ascent_plant_of_lt {p : Nat} (hp : p < f.size) :
    (f.plant (some v) isLeaf (some place)).ascent p = f.ascent p := by
  unfold ascent
  rw [h.ancestorsOf_plant_of_ne _ _ _ hp.ne]
  refine List.filterMap_congr fun x hx => ?_
  have hlt : x < f.size := by
    rcases List.mem_cons.mp hx with rfl | hx
    · exact hp
    · exact h.size_of_mem hx
  exact h.value?_plant_of_ne _ _ _ hlt.ne

theorem ascent_plant_size :
    (f.plant (some v) isLeaf (some place)).ascent f.size = v :: f.ascent place := by
  have hparent : (f.plant (some v) isLeaf (some place)).ancestorsOf f.size =
      place :: (f.plant (some v) isLeaf (some place)).ancestorsOf place := by
    rw [h.ancestorsOf_new hplace, h.ancestorsOf_plant_of_ne _ _ _ hplace.ne]
  rw [ascent_child hparent (h.value?_plant_size _ _ _), h.ascent_plant_of_lt v isLeaf hplace]

/-- **A node more under a node that has no child of its value.** -/
theorem plant (hdepth : (f.ancestorsOf place).length < depth)
    (hleaf : isLeaf = true ↔ (f.ancestorsOf place).length + 1 = depth)
    (hnew : ∀ c < f.size, (f.ancestorsOf c).head? = some place → f.value? c ≠ some v) :
    Grown depth (f.plant (some v) isLeaf (some place)) := by
  have hanc := h.ancestorsOf_new hplace v isLeaf
  have hvalue := h.value?_plant_size (some v) isLeaf (some place)
  have hold : ∀ p < f.size, (f.plant (some v) isLeaf (some place)).ancestorsOf p = f.ancestorsOf p ∧
      (f.plant (some v) isLeaf (some place)).value? p = f.value? p :=
    fun p hp => ⟨h.ancestorsOf_plant_of_ne _ _ _ hp.ne, h.value?_plant_of_ne _ _ _ hp.ne⟩
  -- a node is one of those that were there, or the new one
  have hcases : ∀ p < (f.plant (some v) isLeaf (some place)).size, p < f.size ∨ p = f.size := by
    intro p hp
    rw [size_plant] at hp
    omega
  have hfresh : ∀ p < f.size, f.ancestorsOf p = place :: f.ancestorsOf place →
      f.value? p ≠ some v := fun p hp hparent => hnew p hp (by rw [hparent]; rfl)
  refine ⟨h.toWellFormed.plant _ _ _, ?_, fun p hpos hp => ?_, fun p hpos hp => ?_,
    fun p q hp hq ha hv => ?_, fun p hp => ?_, fun p => ?_⟩
  · rw [size_plant, (hold 0 h.rooted.1).1]
    exact ⟨Nat.succ_pos _, h.rooted.2⟩
  · rcases hcases p hp with hp | rfl
    · rw [(hold p hp).1]
      exact h.below p hpos hp
    · rw [hanc]
      rcases Nat.eq_zero_or_pos place with rfl | hplacepos
      · exact List.mem_cons_self
      · exact List.mem_cons_of_mem _ (h.below place hplacepos hplace)
  · rcases hcases p hp with hp | rfl
    · rw [(hold p hp).2]
      exact h.named p hpos hp
    · exact ⟨v, hvalue⟩
  · rcases hcases p hp with hp | rfl
    · rcases hcases q hq with hq | rfl
      · rw [(hold p hp).1, (hold q hq).1] at ha
        rw [(hold p hp).2, (hold q hq).2] at hv
        exact h.siblings p q hp hq ha hv
      · rw [(hold p hp).1, hanc] at ha
        rw [(hold p hp).2, hvalue] at hv
        exact absurd hv (hfresh p hp ha)
    · rcases hcases q hq with hq | rfl
      · rw [(hold q hq).1, hanc] at ha
        rw [(hold q hq).2, hvalue] at hv
        exact absurd hv.symm (hfresh q hq ha.symm)
      · rfl
  · rcases hcases p hp with hp | rfl
    · rw [h.isLeafAt_plant_of_ne _ _ _ hp.ne, (hold p hp).1]
      exact h.leaf p hp
    · rw [h.isLeafAt_plant_size, hanc, List.length_cons]
      exact hleaf
  · by_cases hp : p = f.size
    · rw [hp, hanc, List.length_cons]
      exact hdepth
    · rw [h.ancestorsOf_plant_of_ne _ _ _ hp]
      exact h.shallow p

end

/-! ## 4. A path more -/

end Grown

/-- The row is the ascent of a leaf. -/
def HasRow (f : Forest) (row : List Text) : Prop :=
  ∃ x < f.size, f.isLeafAt x = true ∧ f.ascent x = row

theorem child?_eq (f : Forest) (place : Nat) (value : Option Text) :
    f.child? place value = (f.childrenOf place).find? fun c => f.value? c == value := by
  unfold child? childrenOf
  cases f.node? place with
  | none => rfl
  | some n => rfl

namespace Grown

variable {depth : Nat} (h : Grown depth f)

include h

theorem of_child? {place c : Nat} (hplace : place < f.size) {v : Text}
    (hc : f.child? place (some v) = some c) :
    c < f.size ∧ f.ancestorsOf c = place :: f.ancestorsOf place ∧ f.value? c = some v := by
  rw [child?_eq] at hc
  obtain ⟨hsize, hhead⟩ := (h.mem_childrenOf hplace).mp (List.mem_of_find?_eq_some hc)
  exact ⟨hsize, h.ancestorsOf_child hhead, by simpa using List.find?_some hc⟩

theorem of_no_child? {place : Nat} (hplace : place < f.size) {v : Text}
    (hc : f.child? place (some v) = none) :
    ∀ c < f.size, (f.ancestorsOf c).head? = some place → f.value? c ≠ some v := by
  intro c hsize hhead hv
  rw [child?_eq, List.find?_eq_none] at hc
  exact hc c ((h.mem_childrenOf hplace).mpr ⟨hsize, hhead⟩) (by simp [hv])

/-- A leaf more is a row more. -/
theorem hasRow_plant {place : Nat} (hplace : place < f.size) (v : Text) (isLeaf : Bool)
    (row : List Text) :
    (f.plant (some v) isLeaf (some place)).HasRow row ↔
      f.HasRow row ∨ isLeaf = true ∧ row = v :: f.ascent place := by
  have hnew := h.ascent_plant_size hplace v isLeaf
  have hmark := h.isLeafAt_plant_size (some v) isLeaf (some place)
  unfold HasRow
  rw [size_plant]
  constructor
  · rintro ⟨x, hx, hleaf, rfl⟩
    rcases Nat.lt_succ_iff_lt_or_eq.mp hx with hx | rfl
    · rw [h.isLeafAt_plant_of_ne _ _ _ hx.ne] at hleaf
      exact .inl ⟨x, hx, hleaf, (h.ascent_plant_of_lt v isLeaf hx).symm⟩
    · exact .inr ⟨hmark.symm.trans hleaf, hnew⟩
  · rintro (⟨x, hx, hleaf, rfl⟩ | ⟨hleaf, rfl⟩)
    · have hold := h.isLeafAt_plant_of_ne (some v) isLeaf (some place) hx.ne
      exact ⟨x, Nat.lt_succ_of_lt hx, hold.trans hleaf, h.ascent_plant_of_lt v isLeaf hx⟩
    · exact ⟨f.size, Nat.lt_succ_self _, hmark.trans hleaf, hnew⟩

/-- A node of a path that is missing is planted, and the rest of the path goes on below it. -/
theorem plant_missing {place : Nat} (hplace : place < f.size) {v : Text} {rest : List Text}
    (hdepth : (f.ancestorsOf place).length + (v :: rest).length = depth)
    (hc : f.child? place (some v) = none) :
    Grown depth (f.plant (some v) rest.isEmpty (some place)) ∧
      f.size < (f.plant (some v) rest.isEmpty (some place)).size ∧
      ((f.plant (some v) rest.isEmpty (some place)).ancestorsOf f.size).length + rest.length =
        depth := by
  rw [List.length_cons] at hdepth
  have hleaf : rest.isEmpty = true ↔ (f.ancestorsOf place).length + 1 = depth := by
    rw [List.isEmpty_iff_length_eq_zero]
    omega
  refine ⟨h.plant hplace v rest.isEmpty (by omega) hleaf (h.of_no_child? hplace hc), ?_, ?_⟩
  · rw [size_plant]
    exact Nat.lt_succ_self _
  · rw [h.ancestorsOf_new hplace, List.length_cons]
    omega

end Grown

/-- **A path more**: the tree stays grown, keeps the value of its root, and has the row of the path and
those that it had. -/
theorem Grown.grow {depth : Nat} {path : List Text} {f : Forest} (h : Grown depth f) {place : Nat}
    (hplace : place < f.size) (hdepth : (f.ancestorsOf place).length + path.length = depth) :
    Grown depth (Hierarchy.grow f place path) ∧
      (Hierarchy.grow f place path).ascent 0 = f.ascent 0 ∧
      ∀ row, (Hierarchy.grow f place path).HasRow row ↔
        f.HasRow row ∨ row = path.reverse ++ f.ascent place := by
  induction path generalizing f place with
  | nil =>
    refine ⟨h, rfl, fun row => ⟨.inl, ?_⟩⟩
    rintro (hrow | rfl)
    · exact hrow
    · exact ⟨place, hplace, (h.leaf place hplace).mpr hdepth, rfl⟩
  | cons v rest ih =>
    have hreverse : (v :: rest).reverse ++ f.ascent place = rest.reverse ++ v :: f.ascent place := by
      simp
    rw [hreverse]
    unfold Hierarchy.grow
    cases hc : f.child? place (some v) with
    | some c =>
      obtain ⟨hsize, hparent, hv⟩ := h.of_child? hplace hc
      rw [List.length_cons] at hdepth
      rw [← ascent_child hparent hv]
      exact ih h hsize (by rw [hparent, List.length_cons]; omega)
    | none =>
      obtain ⟨hgrown, hsize, hrest⟩ := h.plant_missing hplace hdepth hc
      obtain ⟨hgrown', hroot, hrows⟩ := ih hgrown hsize hrest
      refine ⟨hgrown', hroot.trans (h.ascent_plant_of_lt v _ h.rooted.1), fun row => ?_⟩
      rw [hrows, h.hasRow_plant hplace, h.ascent_plant_size hplace]
      -- where the new node is the end of the path, its row is the row of the path
      cases rest with
      | nil => simp
      | cons w rest => simp

end Forest

end Anonymization
