import Anonymization.Proofs.FirstOccurrence
import Anonymization.Proofs.Hierarchy.Representation
import Anonymization.Proofs.Hierarchy.Rows
/-!
# The order in which nodes are created

A node is told by its ascent, and the ascents of a tree are the endings of its rows. They stand in the
order in which they first occur when the rows are read one after the other, each from its end.

* `mem_endings`, `endings_sorted` -- the endings of a row, the shortest first;
* `Grown.ascents_grow` -- **a path more**: its endings come behind the ascents that were there;
* `Grown.ascents_foldl` -- so after the paths of some rows **the ascents are the endings of the rows as
  they first occur**;
* `isTreeOf_loaded`, `isTreeOf_ofRows` -- the tree after some rows of a file, and after all of them.
-/

namespace Anonymization.Forest

open FirstOccurrence

/-! ## 1. Endings -/

/-- What is read of a row when its path is followed from an ending of it: the ending, and the longer
ones. -/
def endings (a : List Text) : List Text → List (List Text)
  | [] => [a]
  | v :: path => a :: endings (v :: a) path

theorem mem_endings {a path e : List Text} :
    e ∈ endings a path ↔ a <:+ e ∧ e <:+ path.reverse ++ a := by
  induction path generalizing a with
  | nil =>
    rw [endings, List.mem_singleton]
    constructor
    · rintro rfl
      exact ⟨List.suffix_refl _, List.suffix_refl _⟩
    · rintro ⟨hae, hea⟩
      exact (hae.eq_of_length (hae.length_le.antisymm hea.length_le)).symm
  | cons v path ih =>
    have hrow : (v :: path).reverse ++ a = path.reverse ++ v :: a := by simp
    rw [endings, List.mem_cons, ih, hrow]
    constructor
    · rintro (rfl | ⟨hae, her⟩)
      · exact ⟨List.suffix_refl _, (List.suffix_cons v _).trans (List.suffix_append _ _)⟩
      · exact ⟨(List.suffix_cons v a).trans hae, her⟩
    · rintro ⟨hae, her⟩
      by_cases hea : e = a
      · exact .inl hea
      · -- two endings of one row: the shorter is an ending of the longer
        refine .inr ⟨List.suffix_of_suffix_length_le (List.suffix_append _ _) her ?_, her⟩
        have hne : a.length ≠ e.length := fun h => hea (hae.eq_of_length h).symm
        have hle := hae.length_le
        rw [List.length_cons]
        omega

theorem endings_sorted (a path : List Text) :
    (endings a path).Pairwise fun e e' => e.length < e'.length := by
  induction path generalizing a with
  | nil => exact List.pairwise_singleton _ _
  | cons v path ih =>
    refine List.pairwise_cons.mpr ⟨fun e he => ?_, ih _⟩
    exact (mem_endings.mp he).1.length_le

/-! ## 2. Ascents -/

variable {f : Forest} {depth : Nat}

/-- The ascents of all nodes, in the order of their creation. -/
def ascents (f : Forest) : List (List Text) :=
  (List.range f.size).map f.ascent

theorem mem_ascents {f : Forest} {e : List Text} : e ∈ f.ascents ↔ ∃ p < f.size, f.ascent p = e := by
  simp [ascents]

namespace Grown

variable (h : Grown depth f)

include h

theorem nodup_ascents : f.ascents.Nodup :=
  List.nodup_range.map_on fun _ hp _ hq =>
    h.eq_of_ascent (List.mem_range.mp hp) (List.mem_range.mp hq)

theorem ascents_plant {place : Nat} (hplace : place < f.size) (v : Text) (isLeaf : Bool) :
    (f.plant (some v) isLeaf (some place)).ascents = f.ascents ++ [v :: f.ascent place] := by
  have hold : (List.range f.size).map (f.plant (some v) isLeaf (some place)).ascent = f.ascents :=
    List.map_congr_left fun p hp => h.ascent_plant_of_lt v isLeaf (List.mem_range.mp hp)
  rw [ascents, size_plant, List.range_succ, List.map_append, hold, List.map_singleton,
    h.ascent_plant_size hplace]

/-- The value of a node begins its ascent. -/
theorem head?_ascent {p : Nat} (hp : p < f.size) : (f.ascent p).head? = f.value? p := by
  rcases Nat.eq_zero_or_pos p with rfl | hpos
  · rw [h.ascent_zero]
    cases f.value? 0 <;> rfl
  · obtain ⟨v, hv⟩ := h.named p hpos hp
    rw [ascent, List.filterMap_cons_some hv, hv]
    rfl

end Grown

/-! ## 3. Growing -/

/-- **A path more**: its endings come behind the ascents that were there. -/
theorem Grown.ascents_grow {path : List Text} {f : Forest} (h : Grown depth f) {place : Nat}
    (hplace : place < f.size) (hdepth : (f.ancestorsOf place).length + path.length = depth) :
    (Hierarchy.grow f place path).ascents = (f.ascents ++ endings (f.ascent place) path).eraseDups := by
  have hthere : f.ascent place ∈ f.ascents := mem_ascents.mpr ⟨place, hplace, rfl⟩
  induction path generalizing f place with
  | nil =>
    rw [endings, eraseDups_append_of_mem hthere, List.append_nil, eraseDups_of_nodup h.nodup_ascents]
    rfl
  | cons v rest ih =>
    rw [endings, eraseDups_append_of_mem hthere]
    unfold Hierarchy.grow
    cases hc : f.child? place (some v) with
    | some c =>
      obtain ⟨hsize, hparent, hv⟩ := h.of_child? hplace hc
      rw [← ascent_child hparent hv]
      refine ih h hsize ?_ (mem_ascents.mpr ⟨c, hsize, rfl⟩)
      rw [hparent, List.length_cons]
      rw [List.length_cons] at hdepth
      omega
    | none =>
      obtain ⟨hgrown, hsize, hrest⟩ := h.plant_missing hplace hdepth hc
      have hlast : v :: f.ascent place ∈ f.ascents ++ [v :: f.ascent place] := by simp
      -- the new ascent is the first of the endings that are left
      obtain ⟨longer, hlonger⟩ : ∃ longer, endings (v :: f.ascent place) rest =
          (v :: f.ascent place) :: longer := by
        cases rest <;> exact ⟨_, rfl⟩
      have hgrow := ih hgrown hsize hrest (mem_ascents.mpr ⟨f.size, hsize, rfl⟩)
      rw [h.ascents_plant hplace, h.ascent_plant_size hplace, hlonger,
        eraseDups_append_of_mem hlast, List.append_assoc, List.singleton_append] at hgrow
      rw [hlonger]
      exact hgrow

/-- **After the paths of some rows the ascents are the endings of the rows as they first occur.** -/
theorem Grown.ascents_foldl {f : Forest} (h : Grown depth f) (pathOf : List Text → List Text)
    {rows : List (List Text)} (hlength : ∀ row ∈ rows, (pathOf row).length = depth) :
    (rows.foldl (fun f row => Hierarchy.grow f 0 (pathOf row)) f).ascents =
      (f.ascents ++ rows.flatMap fun row => endings (f.ascent 0) (pathOf row)).eraseDups := by
  induction rows generalizing f with
  | nil => simp [eraseDups_of_nodup h.nodup_ascents]
  | cons first rows ih =>
    rw [List.forall_mem_cons] at hlength
    have hdepth : (f.ancestorsOf 0).length + (pathOf first).length = depth := by
      rw [h.rooted.2, hlength.1]
      exact Nat.zero_add _
    obtain ⟨hgrown, hroot, -⟩ := h.grow h.rooted.1 hdepth
    rw [List.foldl_cons, ih hgrown hlength.2, hroot, h.ascents_grow h.rooted.1 hdepth,
      eraseDups_eraseDups_append, List.append_assoc, List.flatMap_cons]

/-- What holds of a forest and is kept by planting is kept by growing. -/
theorem grow_induction {P : Forest → Prop}
    (hplant : ∀ f value isLeaf parent, P f → P (f.plant value isLeaf parent)) {path : List Text}
    {f : Forest} (hf : P f) (place : Nat) : P (Hierarchy.grow f place path) := by
  induction path generalizing f place with
  | nil => exact hf
  | cons v rest ih =>
    unfold Hierarchy.grow
    split
    · exact ih hf _
    · exact ih (hplant _ _ _ _ hf) _

end Anonymization.Forest

/-! ## 4. The tree of some rows -/

namespace Anonymization.Hierarchy

open Forest FirstOccurrence

/-- The endings of all rows, row after row, from an ending that they share. -/
def rowEndings (a : List Text) (rows : List (List Text)) : List (List Text) :=
  rows.flatMap fun row => endings a (row.reverse.drop a.length)

theorem mem_rowEndings {a e : List Text} {rows : List (List Text)} (h : ∀ row ∈ rows, a <:+ row) :
    e ∈ rowEndings a rows ↔ a <:+ e ∧ ∃ row ∈ rows, e <:+ row := by
  rw [rowEndings, List.mem_flatMap]
  constructor
  · rintro ⟨row, hrow, he⟩
    rw [mem_endings, path_append (h row hrow)] at he
    exact ⟨he.1, row, hrow, he.2⟩
  · rintro ⟨hae, row, hrow, he⟩
    refine ⟨row, hrow, mem_endings.mpr ⟨hae, ?_⟩⟩
    rwa [path_append (h row hrow)]

/-- What a tree is after its rows, whether they have values below the root or not. -/
structure IsTreeOf (f : Forest) (depth : Nat) (rows : List (List Text)) : Prop extends Grown depth f where
  registered : f.Registered
  root : ∀ row ∈ rows, f.ascent 0 <:+ row
  ascents : f.ascents = (rowEndings (f.ascent 0) rows).eraseDups

theorem ascents_single (value : Option Text) :
    (empty.plant value false none).ascents = [value.toList] := by
  rw [Forest.ascents, size_plant]
  exact congrArg (fun a => [a]) (ascent_single value)

/-- Rows share the ending from which they are read. -/
theorem exists_rowEndings (a : List Text) {rows : List (List Text)} (hne : rows ≠ []) :
    ∃ rest, rowEndings a rows = a :: rest := by
  obtain ⟨row, rows, rfl⟩ := List.exists_cons_of_ne_nil hne
  rw [rowEndings, List.flatMap_cons]
  cases row.reverse.drop a.length <;> exact ⟨_, rfl⟩

/-- Rows that are one value have no node but the root. -/
theorem ofRows_flat {rows : List (List Text)}
    (hflat : ∀ row ∈ rows, row.length ≤ (commonTop? rows).toList.length) :
    ofRows rows = ⟨empty.plant (commonTop? rows) false none, 0⟩ := by
  rw [ofRows_eq, Hierarchy.mk.injEq, and_iff_left rfl]
  refine List.foldlRecOn (motive := (· = empty.plant (commonTop? rows) false none)) rows _ rfl ?_
  intro f hf row hrow
  have hpath : pathBelow (commonTop? rows) row = [] := by
    rw [pathBelow, List.drop_eq_nil_iff, List.length_reverse]
    exact hflat row hrow
  rw [hpath]
  exact hf

theorem registered_loaded (top : Option Text) (rows : List (List Text)) :
    (loaded top rows).Registered := by
  have hplant : ∀ (f : Forest) value isLeaf parent, f.WellFormed ∧ f.Registered →
      (f.plant value isLeaf parent).WellFormed ∧ (f.plant value isLeaf parent).Registered :=
    fun f value isLeaf parent h => ⟨h.1.plant _ _ _, h.2.plant h.1 _ _ _⟩
  refine (List.foldlRecOn (motive := fun (f : Forest) => f.WellFormed ∧ f.Registered) rows _ ?_ ?_).2
  · exact hplant _ _ _ _ ⟨wellFormed_empty, registered_empty⟩
  · exact fun f hf row _ => grow_induction hplant hf 0

/-- **After some rows the ascents are the endings of these rows as they first occur**, if they have values
below the root. -/
theorem isTreeOf_loaded {top : Option Text} {rows : List (List Text)} {w : Nat} (hne : rows ≠ [])
    (htop : ∀ row ∈ rows, top.toList <:+ row) (hwidth : ∀ row ∈ rows, row.length = w)
    (hdepth : top.toList.length < w) :
    IsTreeOf (loaded top rows) (w - top.toList.length) rows := by
  obtain ⟨hgrown, hroot, -⟩ := loaded_grown htop hwidth hdepth
  obtain ⟨rest, hrest⟩ := exists_rowEndings top.toList hne
  have hascents := (Grown.single top (Nat.sub_pos_of_lt hdepth)).ascents_foldl (pathBelow top)
    (length_path hwidth)
  have hendings : (rows.flatMap fun row => endings top.toList (pathBelow top row)) =
      rowEndings top.toList rows := rfl
  rw [ascents_single, ascent_single, hendings, hrest, eraseDups_append_of_mem List.mem_cons_self,
    List.singleton_append, ← hrest] at hascents
  refine ⟨hgrown, registered_loaded top rows, ?_, ?_⟩
  · rw [hroot]
    exact htop
  · rw [hroot]
    exact hascents

/-- **The ascents of a tree are the endings of its rows as they first occur.** The root alone counts as
a tree in which leaves would have one ancestor. -/
theorem isTreeOf_ofRows {rows : List (List Text)} {w : Nat} (hne : rows ≠ [])
    (hwidth : ∀ row ∈ rows, row.length = w) :
    IsTreeOf (ofRows rows).forest (max 1 (w - (commonTop? rows).toList.length)) rows ∧
      (ofRows rows).forest.ascent 0 = (commonTop? rows).toList := by
  by_cases hdepth : (commonTop? rows).toList.length < w
  · rw [Nat.max_eq_right (Nat.sub_pos_of_lt hdepth), ofRows_eq]
    exact ⟨isTreeOf_loaded hne top_suffix hwidth hdepth, (loaded_grown top_suffix hwidth hdepth).2.1⟩
  · have hflat : ∀ row ∈ rows, row.length ≤ (commonTop? rows).toList.length := by
      intro row hrow
      rw [hwidth row hrow]
      exact Nat.not_lt.mp hdepth
    have hone : max 1 (w - (commonTop? rows).toList.length) = 1 := by omega
    have hroot : (ofRows rows).forest.ascent 0 = (commonTop? rows).toList := by
      rw [ofRows_flat hflat]
      exact ascent_single _
    obtain ⟨rest, hrest⟩ := exists_rowEndings (commonTop? rows).toList hne
    have hall : ∀ e ∈ rest, e = (commonTop? rows).toList := by
      intro e he
      have hmem : e ∈ rowEndings (commonTop? rows).toList rows := hrest ▸ List.mem_cons_of_mem _ he
      obtain ⟨htop, row, hrow, hend⟩ := (mem_rowEndings top_suffix).mp hmem
      exact (htop.eq_of_length_le (hend.length_le.trans (hflat row hrow))).symm
    refine ⟨⟨?_, ofRows_eq rows ▸ registered_loaded _ rows, ?_, ?_⟩, hroot⟩
    · rw [hone, ofRows_flat hflat]
      exact Grown.single _ Nat.one_pos
    · rw [hroot]
      exact top_suffix
    · rw [hroot, hrest, eraseDups_of_forall_eq hall, ofRows_flat hflat]
      exact ascents_single _

end Anonymization.Hierarchy
