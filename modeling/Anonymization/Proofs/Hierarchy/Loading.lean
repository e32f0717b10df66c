import Anonymization.Proofs.Hierarchy.Rebuilding
/-!
# A hierarchy while it is loaded

The rows of a file are taken one by one, and behind each of them the tree is that of the rows taken so
far: the root is chosen once for the whole file, and nothing else asks for the rows that are still to come.

* `Progress`, `Progress.forest_after` -- the tree after some rows, with the column that each node was
  created for;
* `Forest.Dated.grow` -- **a path more** creates a node for each column that is missing, the first column
  last;
* `Forest.Grown.mem_followed_iff` -- **the nodes on the path of a row** are those whose ascent ends it;
* `Forest.Grown.leafCount_eq` -- and each node counts the rows whose path goes through it;
* `Forest.Grown.heightWithin_add` -- all leaves lie equally deep;
* `isTrie_after_rows` -- **what holds behind every row**.
-/

namespace Anonymization

/-! ## 1. Row after row -/

namespace Hierarchy

/-- The tree after some rows, and what each of its nodes was created for. -/
structure Progress where
  forest : Forest
  /-- For each node, in the order of their creation, the column of the rows that it was created for; the
  root was created for none. -/
  columns : List (Option Nat)

/-- The columns that nodes are created for when a path is followed downwards from a node. A row is read
from its end, so the values that are left of its path are those of the columns in front. -/
def newColumns (f : Forest) (place : Nat) : List Text → List (Option Nat)
  | [] => []
  | v :: rest =>
    match f.child? place (some v) with
    | some c => newColumns f c rest
    | none => some rest.length :: newColumns (f.plant (some v) rest.isEmpty (some place)) f.size rest

namespace Progress

/-- The root alone. -/
def start (top : Option Text) : Progress := ⟨Forest.empty.plant top false none, [none]⟩

/-- A path is followed from the root. -/
def follow (s : Progress) (path : List Text) : Progress where
  forest := grow s.forest 0 path
  columns := s.columns ++ newColumns s.forest 0 path

/-- The paths of some rows are followed, one after the other. -/
def after (top : Option Text) (rows : List (List Text)) (s : Progress) : Progress :=
  rows.foldl (fun s row => s.follow (pathBelow top row)) s

theorem after_append (top : Option Text) (rows rest : List (List Text)) (s : Progress) :
    s.after top (rows ++ rest) = (s.after top rows).after top rest :=
  List.foldl_append

/-- The columns are noted beside the tree, which they do not change. -/
theorem forest_after (top : Option Text) (rows : List (List Text)) :
    ((start top).after top rows).forest = loaded top rows :=
  (List.foldl_hom Progress.forest fun _ _ => rfl).symm

end Progress

end Hierarchy

/-! ## 2. The columns that nodes are created for -/

namespace Forest

variable {f : Forest} {depth : Nat} {columns : List (Option Nat)}

/-- Every node but the first was created for a column, and has one ancestor more for each column that is
behind its own. -/
structure Dated (depth : Nat) (f : Forest) (columns : List (Option Nat)) : Prop where
  length : columns.length = f.size
  column : ∀ p, 0 < p → p < f.size →
    ∃ k, columns[p]? = some (some k) ∧ (f.ancestorsOf p).length + k = depth

theorem dated_single (top : Option Text) : Dated depth (empty.plant top false none) [none] where
  length := (size_plant empty top false none).symm
  column p hpos hp := by
    rw [size_plant] at hp
    exact absurd (Nat.lt_one_iff.mp hp) hpos.ne'

theorem Dated.plant (hd : Dated depth f columns) (h : Grown depth f) {place : Nat}
    (hplace : place < f.size) (v : Text) (isLeaf : Bool) {k : Nat}
    (hk : (f.ancestorsOf place).length + 1 + k = depth) :
    Dated depth (f.plant (some v) isLeaf (some place)) (columns ++ [some k]) where
  length := by rw [size_plant, List.length_append, hd.length, List.length_singleton]
  column p hpos hp := by
    rw [size_plant] at hp
    rcases Nat.lt_succ_iff_lt_or_eq.mp hp with hp | rfl
    · obtain ⟨j, hj, hdepth⟩ := hd.column p hpos hp
      refine ⟨j, ?_, ?_⟩
      · rw [List.getElem?_append_left (hd.length ▸ hp), hj]
      · rw [h.ancestorsOf_plant_of_ne _ _ _ hp.ne, hdepth]
    · refine ⟨k, ?_, ?_⟩
      · rw [← hd.length, List.getElem?_concat_length]
      · rw [h.ancestorsOf_new hplace, List.length_cons, hk]

/-- **A path more** creates a node for each column whose node is missing. -/
theorem Dated.grow {path : List Text} {f : Forest} {columns : List (Option Nat)}
    (hd : Dated depth f columns) (h : Grown depth f) {place : Nat} (hplace : place < f.size)
    (hdepth : (f.ancestorsOf place).length + path.length = depth) :
    Dated depth (Hierarchy.grow f place path) (columns ++ Hierarchy.newColumns f place path) := by
  induction path generalizing f columns place with
  | nil =>
    rw [Hierarchy.newColumns, List.append_nil]
    exact hd
  | cons v rest ih =>
    unfold Hierarchy.grow Hierarchy.newColumns
    cases hc : f.child? place (some v) with
    | some c =>
      obtain ⟨hsize, hparent, -⟩ := h.of_child? hplace hc
      rw [List.length_cons] at hdepth
      exact ih hd h hsize (by rw [hparent, List.length_cons]; omega)
    | none =>
      obtain ⟨hgrown, hsize, hrest⟩ := h.plant_missing hplace hdepth hc
      rw [List.length_cons] at hdepth
      have hcolumn : (f.ancestorsOf place).length + 1 + rest.length = depth := by omega
      rw [List.append_cons]
      exact ih (hd.plant h hplace v rest.isEmpty hcolumn) hgrown hsize hrest

end Forest

namespace Hierarchy

open Forest

/-- **After some rows every node was created for a column.** -/
theorem dated_after {top : Option Text} {rows : List (List Text)} {w : Nat}
    (hwidth : ∀ row ∈ rows, row.length = w) (hdepth : top.toList.length < w) :
    Dated (w - top.toList.length) (loaded top rows) ((Progress.start top).after top rows).columns := by
  rw [← Progress.forest_after]
  refine (List.foldlRecOn (motive := fun (s : Progress) =>
    Grown (w - top.toList.length) s.forest ∧ Dated (w - top.toList.length) s.forest s.columns)
    rows _ ?_ ?_).2
  · exact ⟨Grown.single top (Nat.sub_pos_of_lt hdepth), dated_single top⟩
  · rintro s ⟨hgrown, hdated⟩ row hrow
    have hlength : (s.forest.ancestorsOf 0).length + (pathBelow top row).length =
        w - top.toList.length := by
      rw [hgrown.rooted.2, pathBelow, length_path hwidth row hrow]
      exact Nat.zero_add _
    exact ⟨(hgrown.grow hgrown.rooted.1 hlength).1, hdated.grow hgrown hgrown.rooted.1 hlength⟩

end Hierarchy

/-! ## 3. The path of a row -/

namespace Forest

/-- The nodes on a path downwards from a node, which is the first of them, as far as there are any. -/
def followed (f : Forest) (place : Nat) : List Text → List Nat
  | [] => [place]
  | v :: rest =>
    place :: match f.child? place (some v) with
      | some c => followed f c rest
      | none => []

namespace Grown

variable {f : Forest} {depth : Nat} (h : Grown depth f)

include h

/-- Where a node has no child of a value, no ascent goes on with this value. -/
theorem not_suffix_of_no_child? {place n : Nat} (hplace : place < f.size) (hn : n < f.size) {v : Text}
    (hc : f.child? place (some v) = none) : ¬ v :: f.ascent place <:+ f.ascent n := by
  intro hsuffix
  have hmem := (h.mem_lineage_iff hplace hn).mpr ((List.suffix_cons v _).trans hsuffix)
  rcases List.mem_cons.mp hmem with rfl | hmem
  · exact absurd hsuffix.length_le (by simp)
  · -- the child on the way to the node has the value
    obtain ⟨c, hchild, hcn⟩ := h.exists_child hn hmem
    obtain ⟨hsize, -, hparent⟩ := h.of_mem_childrenOf hplace hchild
    obtain ⟨u, hu⟩ := h.named c (Nat.zero_lt_of_lt (h.of_mem_childrenOf hplace hchild).2.1) hsize
    have hascent := ascent_child hparent hu
    have hgoes := (h.mem_lineage_iff hsize hn).mp hcn
    rw [hascent] at hgoes
    have hsame : u :: f.ascent place = v :: f.ascent place :=
      (List.suffix_of_suffix_length_le hgoes hsuffix (Nat.le_refl _)).eq_of_length rfl
    rw [(List.cons.inj hsame).1] at hu
    exact h.of_no_child? hplace hc c hsize (by rw [hparent]; rfl) hu

/-- **The nodes on a path are those whose ascent is read on it.** -/
theorem mem_followed_iff {path : List Text} {place : Nat} (hplace : place < f.size) {n : Nat} :
    n ∈ f.followed place path ↔ n < f.size ∧ f.ascent n ∈ endings (f.ascent place) path := by
  have hself : n = place ↔ n < f.size ∧ f.ascent n = f.ascent place := by
    constructor
    · rintro rfl
      exact ⟨hplace, rfl⟩
    · exact fun hn => h.eq_of_ascent hn.1 hplace hn.2
  induction path generalizing place with
  | nil => rw [followed, endings, List.mem_singleton, List.mem_singleton, hself]
  | cons v rest ih =>
    rw [followed, endings, List.mem_cons, List.mem_cons, hself, and_or_left]
    refine or_congr_right ?_
    cases hc : f.child? place (some v) with
    | some c =>
      obtain ⟨hsize, hparent, hv⟩ := h.of_child? hplace hc
      rw [← ascent_child hparent hv]
      refine ih hsize ⟨?_, fun hn => h.eq_of_ascent hn.1 hsize hn.2⟩
      rintro rfl
      exact ⟨hsize, rfl⟩
    | none =>
      refine iff_of_false List.not_mem_nil ?_
      rintro ⟨hn, hmem⟩
      exact h.not_suffix_of_no_child? hplace hn hc (mem_endings.mp hmem).1

/-- The path of a row goes through the nodes whose ascent ends the row. -/
theorem mem_followed_row_iff {row : List Text} (hrow : f.ascent 0 <:+ row) {n : Nat} (hn : n < f.size) :
    n ∈ f.followed 0 (row.reverse.drop (f.ascent 0).length) ↔ f.ascent n <:+ row := by
  rw [h.mem_followed_iff h.rooted.1, mem_endings, Hierarchy.path_append hrow, and_iff_right hn,
    and_iff_right (h.top_suffix_ascent hn)]

/-- **A node that is no leaf counts its leaves, and these are the different rows whose path goes through
it.** -/
theorem leafCount_eq {rows : List (List Text)} (hrows : ∀ row, f.HasRow row ↔ row ∈ rows) {p : Nat}
    (hp : p < f.size) (hleaf : f.isLeafAt p = false) :
    f.leafCount p = (f.leaves p).length ∧
      f.leafCount p = (rows.dedup.filter fun row =>
        p ∈ f.followed 0 (row.reverse.drop (f.ascent 0).length)).length := by
  have hleaves := h.length_leaves h.leavesEnd hp hleaf
  have hthrough : (rows.dedup.filter fun row => f.ascent p <:+ row) = rows.dedup.filter fun row =>
      p ∈ f.followed 0 (row.reverse.drop (f.ascent 0).length) := by
    refine List.filter_congr fun row hrow => ?_
    obtain ⟨x, hx, -, rfl⟩ := (hrows row).mpr (List.mem_dedup.mp hrow)
    rw [decide_eq_decide, h.mem_followed_row_iff (h.top_suffix_ascent hx) hp]
  refine ⟨hleaves.symm, ?_⟩
  rw [← hthrough, ← hleaves, ← (h.ascents_below_perm hrows hp).length_eq, List.length_map]

/-! ## 4. Leaves and heights -/

/-- Children have different values. -/
theorem nodup_values_childrenOf {p : Nat} (hp : p < f.size) : ((f.childrenOf p).map f.value?).Nodup := by
  refine (h.nodup_childrenOf hp).map_on fun c hc c' hc' hv => ?_
  obtain ⟨hsize, -, hparent⟩ := h.of_mem_childrenOf hp hc
  obtain ⟨hsize', -, hparent'⟩ := h.of_mem_childrenOf hp hc'
  exact h.siblings c c' hsize hsize' (hparent.trans hparent'.symm) hv

variable (hreach : ∀ p < f.size, f.leaves p ≠ [])

include hreach

/-- Where every node has a leaf at or below it, the leaves are the nodes without children. -/
theorem isLeafAt_iff {p : Nat} (hp : p < f.size) : f.isLeafAt p = true ↔ f.childrenOf p = [] := by
  constructor
  · intro hleaf
    refine List.eq_nil_iff_forall_not_mem.mpr fun c hc => h.leavesEnd p c hleaf ?_
    rw [(h.of_mem_childrenOf hp hc).2.2]
    exact List.mem_cons_self
  · intro hnone
    by_contra hleaf
    refine hreach p hp ?_
    rw [h.leaves_eq hp, if_neg hleaf, hnone, List.flatMap_nil]

/-- **The way from the root through a node down to the leaves has one length**, whatever the node. -/
theorem heightWithin_add {fuel p : Nat} (hp : p < f.size) (hfuel : f.size ≤ fuel + p) :
    f.heightWithin fuel p + (f.ancestorsOf p).length = depth := by
  induction fuel generalizing p with
  | zero => omega
  | succ fuel ih =>
    rw [heightWithin_succ hp]
    cases hleaf : f.isLeafAt p with
    | true =>
      rw [(h.isLeafAt_iff hreach hp).mp hleaf, ← (h.leaf p hp).mp hleaf]
      exact Nat.zero_add _
    | false =>
      have hchildren : f.childrenOf p ≠ [] := by
        intro hnone
        rw [(h.isLeafAt_iff hreach hp).mpr hnone] at hleaf
        cases hleaf
      obtain ⟨first, rest, hlist⟩ := List.exists_cons_of_ne_nil hchildren
      have hbelow : ∀ c ∈ first :: rest,
          1 + f.heightWithin fuel c + (f.ancestorsOf p).length = depth := by
        intro c hc
        obtain ⟨hsize, hlt, hparent⟩ := h.of_mem_childrenOf hp (hlist ▸ hc)
        have hheight := ih hsize (by omega)
        rw [hparent, List.length_cons] at hheight
        omega
      -- all children have one height, so the first decides the maximum
      rw [hlist, List.foldl_map]
      refine List.foldlRecOn (motive := fun height => height + (f.ancestorsOf p).length = depth)
        rest _ ?_ ?_
      · show max 0 (1 + f.heightWithin fuel first) + (f.ancestorsOf p).length = depth
        rw [Nat.zero_max]
        exact hbelow first List.mem_cons_self
      · intro height hheight c hc
        have hsame := hbelow c (List.mem_cons_of_mem _ hc)
        omega

theorem height_zero : f.height 0 = depth := by
  have hheight := h.heightWithin_add hreach h.rooted.1 (Nat.le_add_right f.size 0)
  rw [h.rooted.2] at hheight
  exact hheight

/-- **A node that was created for a column spells what is in a row from there on**, and is a leaf exactly
if this is the first column. -/
theorem spells_column {columns : List (Option Nat)} (hdated : Dated depth f columns) {p : Nat}
    (hpos : 0 < p) (hp : p < f.size) :
    ∃ k, columns[p]? = some (some k) ∧ (f.isLeafAt p = true ↔ k = 0) ∧
      ∃ row, f.HasRow row ∧ f.ascent p = row.drop k := by
  obtain ⟨k, hk, hlength⟩ := hdated.column p hpos hp
  obtain ⟨x, hx⟩ := List.exists_mem_of_ne_nil _ (hreach p hp)
  obtain ⟨hsize, hleaf, hbelow⟩ := (h.mem_leaves h.leavesEnd hp).mp hx
  have hdrop := List.suffix_iff_eq_drop.mp ((h.mem_lineage_iff hp hsize).mp hbelow)
  have hcolumn : (f.ascent x).length - (f.ascent p).length = k := by
    rw [h.length_ascent hp, h.length_ascent hsize, (h.leaf x hsize).mp hleaf]
    omega
  rw [hcolumn] at hdrop
  refine ⟨k, hk, ?_, f.ascent x, ⟨x, hsize, hleaf, rfl⟩, hdrop⟩
  rw [h.leaf p hp]
  omega

end Grown

end Forest

/-! ## 5. What holds behind every row -/

namespace Hierarchy

open Forest

/-- The level of all leaves in a tree of rows of one width. -/
def leafLevel (top : Option Text) (w : Nat) : Nat :=
  match top with
  | some _ => w - 1
  | none => w

/-- What the tree after some rows of one width is, below a root with this value or without one. -/
structure IsTrie (top : Option Text) (w : Nat) (rows : List (List Text)) (s : Progress) : Prop where
  /-- The first node is the root, and all others lie below it. -/
  root : 0 < s.forest.size ∧ s.forest.value? 0 = top ∧ s.forest.isLeafAt 0 = false
  below : ∀ p < s.forest.size, 0 < p → 0 ∈ s.forest.ancestorsOf p
  /-- No node has two children with the same value. -/
  siblings : ∀ p < s.forest.size, ((s.forest.childrenOf p).map s.forest.value?).Nodup
  /-- Below the root the leaves are the nodes without children. -/
  leaf : ∀ p < s.forest.size, 0 < p → (s.forest.isLeafAt p = true ↔ s.forest.childrenOf p = [])
  /-- They are the nodes that were created for the first column. A node that was created for a column has
  the values of a row from this column on above it, its own value first. -/
  column : ∀ p < s.forest.size, 0 < p → ∃ k, s.columns[p]? = some (some k) ∧
    (s.forest.isLeafAt p = true ↔ k = 0) ∧ ∃ row ∈ rows, s.forest.ascent p = row.drop k
  /-- All leaves have the same level, which is the height of the root. -/
  level : ∀ p < s.forest.size, s.forest.isLeafAt p = true → s.forest.levelAt p = leafLevel top w
  height : s.forest.height 0 = leafLevel top w
  /-- The values on the way from the root to a leaf are those of a row, the last one first. -/
  spelled : ∀ p < s.forest.size, s.forest.isLeafAt p = true → ∃ row ∈ rows,
    (p :: s.forest.ancestorsOf p).reverse.filterMap s.forest.value? = row.reverse
  /-- A node that is no leaf counts its leaves, and these are the different rows whose path goes through
  it. -/
  count : ∀ p < s.forest.size, s.forest.isLeafAt p = false →
    s.forest.leafCount p = (s.forest.leaves p).length ∧
    s.forest.leafCount p =
      (rows.dedup.filter fun row => p ∈ s.forest.followed 0 (pathBelow top row)).length

variable {top : Option Text} {rows : List (List Text)} {w : Nat}

theorem leafLevel_eq (top : Option Text) (w : Nat) : leafLevel top w = w - top.toList.length := by
  cases top <;> rfl

/-- **What the tree after some rows is**, if they have values below the root. -/
theorem isTrie_after (hne : rows ≠ []) (htop : ∀ row ∈ rows, top.toList <:+ row)
    (hwidth : ∀ row ∈ rows, row.length = w) (hdepth : top.toList.length < w) :
    IsTrie top w rows ((Progress.start top).after top rows) := by
  obtain ⟨h, hroot, hrows⟩ := loaded_grown htop hwidth hdepth
  have htree := isTreeOf_loaded hne htop hwidth hdepth
  have hreach : ∀ p < (loaded top rows).size, (loaded top rows).leaves p ≠ [] :=
    fun p hp => htree.leaves_ne_nil (fun row hrow => (hrows row).mpr hrow) hp
  have hdated := dated_after hwidth hdepth
  have hforest := Progress.forest_after top rows
  -- from here on only the tree and its columns count, not how they came about
  generalize (Progress.start top).after top rows = s at hdated hforest ⊢
  rw [← hforest] at h hroot hrows htree hreach hdated
  have hvalue : s.forest.value? 0 = top := by
    rw [← h.head?_ascent h.rooted.1, hroot, Option.head?_toList]
  refine
    { root := ⟨h.rooted.1, hvalue, h.isLeafAt_zero (Nat.sub_pos_of_lt hdepth)⟩
      below := fun p hp hpos => h.below p hpos hp
      siblings := fun p hp => h.nodup_values_childrenOf hp
      leaf := fun p hp _ => h.isLeafAt_iff hreach hp
      column := fun p hp hpos => ?_
      level := fun p hp hleaf => ?_
      height := (h.height_zero hreach).trans (leafLevel_eq top w).symm
      spelled := fun p hp hleaf => ?_
      count := fun p hp hleaf => ?_ }
  · obtain ⟨k, hk, hfirst, row, hrow, hdrop⟩ := h.spells_column hreach hdated hpos hp
    exact ⟨k, hk, hfirst, row, (hrows row).mp hrow, hdrop⟩
  · rw [htree.registered.level, leafLevel_eq, (h.leaf p hp).mp hleaf]
  · refine ⟨s.forest.ascent p, (hrows _).mp ⟨p, hp, hleaf, rfl⟩, ?_⟩
    rw [List.filterMap_reverse]
    rfl
  · have hcount := h.leafCount_eq hrows hp hleaf
    rw [hroot] at hcount
    exact hcount

/-- The height of the hierarchy of some rows. -/
theorem height_ofRows (hne : rows ≠ []) (hwidth : ∀ row ∈ rows, row.length = w) (hw : 2 ≤ w) :
    (ofRows rows).height = leafLevel (commonTop? rows) w := by
  have htrie := isTrie_after hne top_suffix hwidth (length_top_lt hwidth (.inl hw))
  rw [ofRows_eq, ← Progress.forest_after]
  exact htrie.height

/-- The tree after some rows of a file. Its root is chosen by all rows of the file. -/
def progress (rows taken : List (List Text)) : Progress :=
  (Progress.start (commonTop? rows)).after (commonTop? rows) taken

/-- **What holds behind every row of a file**, however many rows are still to come: the tree is that of
the rows taken so far, and the rest of the rows makes the hierarchy of the file out of it. -/
theorem isTrie_after_rows (hwidth : ∀ row ∈ rows, row.length = w)
    (hcase : 2 ≤ w ∨ ∃ row ∈ rows, ∃ row' ∈ rows, row.getLast? ≠ row'.getLast?)
    {taken rest : List (List Text)} (hrows : taken ++ rest = rows) (hne : taken ≠ []) :
    IsTrie (commonTop? rows) w taken (progress rows taken) ∧
      ReadAs rows ⟨((progress rows taken).after (commonTop? rows) rest).forest, 0⟩ := by
  have hdepth := length_top_lt hwidth hcase
  have htaken : ∀ row ∈ taken, row ∈ rows := fun row hrow => hrows ▸ List.mem_append_left rest hrow
  refine ⟨isTrie_after hne (fun row hrow => top_suffix row (htaken row hrow))
    (fun row hrow => hwidth row (htaken row hrow)) hdepth, ?_⟩
  have hne' : rows ≠ [] := by
    obtain ⟨row, hrow⟩ := List.exists_mem_of_ne_nil taken hne
    exact List.ne_nil_of_mem (htaken row hrow)
  rw [progress, ← Progress.after_append, hrows, Progress.forest_after, ← ofRows_eq]
  exact readAs_ofRows hne' hwidth (Nat.zero_lt_of_lt hdepth)

/-- Three of four rows. The file has two top values, though these rows have one, and one of them is there
twice. -/
theorem isTrie_after_three_rows :
    let rows := [["34", "30-39", "young"], ["35", "30-39", "young"], ["34", "30-39", "young"],
      ["51", "50-59", "old"]].map (List.map String.toList)
    let s := progress rows (rows.take 3)
    (∀ row ∈ rows, row.length = 3) ∧ commonTop? rows = none ∧
      s.columns = [none, some 2, some 1, some 0, some 0] ∧ s.forest.leafCount 2 = 2 ∧
      IsTrie none 3 (rows.take 3) s ∧ ReadAs rows ⟨(s.after none (rows.drop 3)).forest, 0⟩ := by
  intro rows s
  have hwidth : ∀ row ∈ rows, row.length = 3 := by decide
  have htop : commonTop? rows = none := by decide
  have htrie := isTrie_after_rows hwidth (.inl (by decide)) (rows.take_append_drop 3) (by decide)
  rw [htop] at htrie
  exact ⟨hwidth, htop, by decide, by decide, htrie⟩

end Hierarchy

end Anonymization
