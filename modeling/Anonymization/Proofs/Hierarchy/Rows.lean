import Anonymization.Files
import Anonymization.Proofs.Hierarchy.Growth
import Anonymization.Proofs.Outcome
import Anonymization.Proofs.Table.RoundTrip
/-!
# The table of a hierarchy

The tree of some rows has one leaf for each different row, whether the rows end in one value or not.

* `Forest.Grown.foldl` -- after the paths of some rows a tree has just these rows;
* `loaded_grown`, `ofRows_grown` -- both kinds of root: **the tree of rows of one width has just these
  rows**;
* `readHierarchy_ok_iff` -- **which files are accepted**, and what their rows are;
* `Forest.Grown.ascents_below_perm` -- the leaves below a node are the rows that end in its ascent;
* `Forest.Grown.table_perm` -- the table of a grown tree lists each of its rows once;
* `table_of_rows` -- so **the table of a hierarchy is that of its file, each row once**, and there are
  as many leaves.
-/

namespace Anonymization

/-! ## 1. Row after row -/

namespace Forest

variable {f : Forest} {depth : Nat}

/-- **After the paths of some rows a tree has just these rows.** What a path leaves out of its row is
the value of the root, which stays. -/
theorem Grown.foldl (h : Grown depth f) (pathOf : List Text → List Text) {rows : List (List Text)}
    (hlength : ∀ row ∈ rows, (pathOf row).length = depth)
    (hpath : ∀ row ∈ rows, (pathOf row).reverse ++ f.ascent 0 = row) :
    Grown depth (rows.foldl (fun f row => Hierarchy.grow f 0 (pathOf row)) f) ∧
      (rows.foldl (fun f row => Hierarchy.grow f 0 (pathOf row)) f).ascent 0 = f.ascent 0 ∧
      ∀ row, (rows.foldl (fun f row => Hierarchy.grow f 0 (pathOf row)) f).HasRow row ↔
        f.HasRow row ∨ row ∈ rows := by
  induction rows generalizing f with
  | nil => exact ⟨h, rfl, fun row => by simp⟩
  | cons first rows ih =>
    rw [List.forall_mem_cons] at hlength hpath
    have hdepth : (f.ancestorsOf 0).length + (pathOf first).length = depth := by
      rw [h.rooted.2, hlength.1]
      exact Nat.zero_add _
    obtain ⟨hgrown, hroot, hrows⟩ := h.grow h.rooted.1 hdepth
    obtain ⟨hgrown', hroot', hrows'⟩ := ih hgrown hlength.2 (by rw [hroot]; exact hpath.2)
    refine ⟨hgrown', hroot'.trans hroot, fun row => ?_⟩
    rw [List.foldl_cons, hrows', hrows, hpath.1, List.mem_cons, or_assoc]

/-- The first node alone is no leaf. -/
theorem not_hasRow_single (value : Option Text) (row : List Text) :
    ¬ (empty.plant value false none).HasRow row := by
  rintro ⟨x, hx, hleaf, -⟩
  have hsize : x = empty.size := by
    rw [size_plant] at hx
    exact Nat.lt_one_iff.mp hx
  rw [hsize, wellFormed_empty.isLeafAt_plant_size] at hleaf
  cases hleaf

theorem ascent_single (value : Option Text) :
    (empty.plant value false none).ascent 0 = value.toList := by
  have hvalue := wellFormed_empty.value?_plant_size value false none
  exact (Grown.single value Nat.one_pos).ascent_zero.trans (congrArg Option.toList hvalue)

end Forest

/-! ## 2. Both kinds of root -/

namespace Hierarchy

open Forest

theorem getLast?_of_commonTop? {rows : List (List Text)} {top : Text} (h : commonTop? rows = some top) :
    ∀ row ∈ rows, row.getLast? = some top := by
  cases rows with
  | nil => cases h
  | cons first rows =>
    simp only [commonTop?] at h
    split at h
    · next hall =>
      rw [List.all_eq_true] at hall
      refine List.forall_mem_cons.mpr ⟨h, fun row hrow => ?_⟩
      exact (beq_iff_eq.mp (hall row hrow)).trans h
    · cases h

/-- Whether rows end in one value does not depend on their order, nor on how often each occurs. -/
theorem commonTop?_eq_some_iff {rows : List (List Text)} (hne : rows ≠ []) {top : Text} :
    commonTop? rows = some top ↔ ∀ row ∈ rows, row.getLast? = some top := by
  refine ⟨getLast?_of_commonTop?, fun h => ?_⟩
  obtain ⟨first, rest, rfl⟩ := List.exists_cons_of_ne_nil hne
  rw [List.forall_mem_cons] at h
  have hall : (rest.all fun r => r.getLast? == first.getLast?) = true := by
    rw [List.all_eq_true]
    intro r hr
    rw [h.2 r hr, h.1]
    exact beq_self_eq_true _
  simp only [commonTop?, hall, if_true]
  exact h.1

/-- The value of the root ends every row; a root without a value adds nothing. -/
theorem top_suffix {rows : List (List Text)} :
    ∀ row ∈ rows, (commonTop? rows).toList <:+ row := by
  intro row hrow
  cases htop : commonTop? rows with
  | some top => exact ⟨_, List.dropLast_append_getLast? top (getLast?_of_commonTop? htop row hrow)⟩
  | none => exact List.nil_suffix

/-- What a path leaves out of its row. -/
theorem path_append {a row : List Text} (h : a <:+ row) :
    (row.reverse.drop a.length).reverse ++ a = row := by
  obtain ⟨front, rfl⟩ := h
  rw [List.reverse_append, ← a.length_reverse, List.drop_left, List.reverse_reverse]

theorem length_path {rows : List (List Text)} {w n : Nat} (hwidth : ∀ row ∈ rows, row.length = w) :
    ∀ row ∈ rows, (row.reverse.drop n).length = w - n := by
  intro row hrow
  rw [List.length_drop, List.length_reverse, hwidth row hrow]

/-- The path of a row below a root with this value, or below a root without one. -/
def pathBelow (top : Option Text) (row : List Text) : List Text :=
  row.reverse.drop top.toList.length

/-- The tree after some rows, below a root with this value, or without one. -/
def loaded (top : Option Text) (rows : List (List Text)) : Forest :=
  rows.foldl (fun f row => grow f 0 (pathBelow top row)) (empty.plant top false none)

/-- **Both kinds of root in one.** -/
theorem ofRows_eq (rows : List (List Text)) : ofRows rows = ⟨loaded (commonTop? rows) rows, 0⟩ := by
  unfold ofRows
  cases commonTop? rows <;> rfl

/-- **The tree after rows of one width has just these rows**, if they have values below the root. Whether
the rows that are still to come end in the value of the root is not asked. -/
theorem loaded_grown {top : Option Text} {rows : List (List Text)} {w : Nat}
    (htop : ∀ row ∈ rows, top.toList <:+ row) (hwidth : ∀ row ∈ rows, row.length = w)
    (hdepth : top.toList.length < w) :
    (loaded top rows).Grown (w - top.toList.length) ∧ (loaded top rows).ascent 0 = top.toList ∧
      ∀ row, (loaded top rows).HasRow row ↔ row ∈ rows := by
  have hpath : ∀ row ∈ rows, (pathBelow top row).reverse ++
      (empty.plant top false none).ascent 0 = row := by
    intro row hrow
    rw [ascent_single]
    exact path_append (htop row hrow)
  obtain ⟨hgrown, hroot, hrows⟩ :=
    (Grown.single top (Nat.sub_pos_of_lt hdepth)).foldl _ (length_path hwidth) hpath
  exact ⟨hgrown, hroot.trans (ascent_single _),
    fun row => (hrows row).trans (or_iff_right (not_hasRow_single _ row))⟩

/-- **The tree of rows of one width has just these rows**, if they have values below the root. -/
theorem ofRows_grown {rows : List (List Text)} {w : Nat} (hwidth : ∀ row ∈ rows, row.length = w)
    (hdepth : (commonTop? rows).toList.length < w) :
    (ofRows rows).forest.Grown (w - (commonTop? rows).toList.length) ∧
      (ofRows rows).forest.ascent 0 = (commonTop? rows).toList ∧
      ∀ row, (ofRows rows).forest.HasRow row ↔ row ∈ rows := by
  rw [ofRows_eq]
  exact loaded_grown top_suffix hwidth hdepth

theorem length_top_le_one (rows : List (List Text)) : (commonTop? rows).toList.length ≤ 1 := by
  cases commonTop? rows <;> simp

/-- Rows that have more than one value have values below the root. -/
theorem ofRows_spec {rows : List (List Text)} {w : Nat} (hw : 2 ≤ w)
    (hwidth : ∀ row ∈ rows, row.length = w) :
    (ofRows rows).root = 0 ∧ ∃ depth, 0 < depth ∧ (ofRows rows).forest.Grown depth ∧
      ∀ row, (ofRows rows).forest.HasRow row ↔ row ∈ rows := by
  have hdepth := Nat.lt_of_le_of_lt (length_top_le_one rows) hw
  obtain ⟨hgrown, -, hrows⟩ := ofRows_grown hwidth hdepth
  exact ⟨by rw [ofRows_eq], _, Nat.sub_pos_of_lt hdepth, hgrown, hrows⟩

end Hierarchy

/-! ## 3. The table -/

namespace Forest.Grown

variable {f : Forest} {depth : Nat} (h : Grown depth f)

include h

/-- All leaves are found from the first node. -/
theorem mem_leaves_zero {x : Nat} : x ∈ f.leaves 0 ↔ x < f.size ∧ f.isLeafAt x = true := by
  rw [h.mem_leaves h.leavesEnd h.rooted.1, ← and_assoc, and_iff_left_iff_imp]
  rintro ⟨hx, -⟩
  rcases Nat.eq_zero_or_pos x with rfl | hpos
  · exact List.mem_cons_self
  · exact List.mem_cons_of_mem _ (h.below x hpos hx)

/-- **The ascents of the leaves below a node are the rows that end in its ascent, each once.** -/
theorem ascents_below_perm {rows : List (List Text)} (hrows : ∀ row, f.HasRow row ↔ row ∈ rows) {p : Nat}
    (hp : p < f.size) :
    ((f.leaves p).map f.ascent).Perm (rows.dedup.filter fun row => f.ascent p <:+ row) := by
  have hmem : ∀ x, x ∈ f.leaves p ↔ x < f.size ∧ f.isLeafAt x = true ∧ p ∈ x :: f.ancestorsOf x :=
    fun x => h.mem_leaves h.leavesEnd hp
  have hinj : ∀ x ∈ f.leaves p, ∀ y ∈ f.leaves p, f.ascent x = f.ascent y → x = y :=
    fun x hx y hy => h.eq_of_ascent ((hmem x).mp hx).1 ((hmem y).mp hy).1
  refine (List.perm_ext_iff_of_nodup ((h.nodup_leaves h.leavesEnd hp).map_on hinj)
    (rows.nodup_dedup.filter _)).mpr fun row => ?_
  rw [List.mem_map, List.mem_filter, List.mem_dedup, ← hrows, decide_eq_true_eq]
  constructor
  · rintro ⟨x, hx, rfl⟩
    obtain ⟨hsize, hleaf, hbelow⟩ := (hmem x).mp hx
    exact ⟨⟨x, hsize, hleaf, rfl⟩, (h.mem_lineage_iff hp hsize).mp hbelow⟩
  · rintro ⟨⟨x, hsize, hleaf, rfl⟩, hends⟩
    exact ⟨x, (hmem x).mpr ⟨hsize, hleaf, (h.mem_lineage_iff hp hsize).mpr hends⟩, rfl⟩

/-- **The ascents of the leaves are the rows, each once.** -/
theorem ascents_perm {rows : List (List Text)} (hrows : ∀ row, f.HasRow row ↔ row ∈ rows) :
    ((f.leaves 0).map f.ascent).Perm rows.dedup := by
  have hall : rows.dedup.filter (fun row => f.ascent 0 <:+ row) = rows.dedup := by
    refine List.filter_eq_self.mpr fun row hrow => decide_eq_true ?_
    obtain ⟨x, hx, -, rfl⟩ := (hrows row).mpr (List.mem_dedup.mp hrow)
    exact h.top_suffix_ascent hx
  exact hall ▸ h.ascents_below_perm hrows h.rooted.1

variable (hdepth : 0 < depth)

include hdepth

theorem isLeafAt_zero : f.isLeafAt 0 = false := by
  have hroot := h.leaf 0 h.rooted.1
  rw [h.rooted.2, List.length_nil] at hroot
  exact Bool.eq_false_iff.mpr fun hleaf => hdepth.ne (hroot.mp hleaf)

/-- The rows of the table are the ascents of the leaves. -/
theorem table_eq : f.table 0 = ((f.leaves 0).map f.ascent).map (List.map some) := by
  rw [table, List.map_map]
  refine List.map_congr_left fun x hx => ?_
  obtain ⟨hsize, hleaf⟩ := h.mem_leaves_zero.mp hx
  have hpos : 0 < x := by
    refine Nat.pos_of_ne_zero ?_
    rintro rfl
    rw [h.isLeafAt_zero hdepth] at hleaf
    cases hleaf
  obtain ⟨v, hv⟩ := h.named x hpos hsize
  exact rowOf_eq hv

/-- **The table lists each row once.** -/
theorem table_perm {rows : List (List Text)} (hrows : ∀ row, f.HasRow row ↔ row ∈ rows) :
    (f.table 0).Perm (rows.dedup.map (List.map some)) := by
  rw [h.table_eq hdepth]
  exact (h.ascents_perm hrows).map _

end Forest.Grown

namespace Hierarchy

open Forest

/-- Rows are not ragged exactly if they have one width. -/
theorem raggedRow?_eq_none_iff {rows : List (List Text)} {w : Nat} :
    raggedRow? w rows = none ↔ ∀ row ∈ rows, row.length = w := by
  rw [raggedRow?, Option.map_eq_none_iff, List.find?_eq_none]
  constructor
  · intro h row hrow
    obtain ⟨i, hi, rfl⟩ := List.mem_iff_getElem.mp hrow
    have hat := h (rows[i], i) (List.mk_mem_zipIdx_iff_getElem?.mpr (List.getElem?_eq_getElem hi))
    simpa using hat
  · rintro hwidth ⟨row, i⟩ hmem
    simp [hwidth row (List.fst_mem_of_mem_zipIdx hmem)]

theorem ofRecords_eq_ofRows (path : Text) {rows records : List (List Text)} {w : Nat}
    (hne : rows ≠ []) (hwidth : ∀ row ∈ rows, row.length = w)
    (hrecords : records.filter (fun row => !row.isEmpty) = rows) :
    ofRecords path records = .ok (ofRows rows) := by
  unfold ofRecords
  rw [hrecords]
  cases rows with
  | nil => exact absurd rfl hne
  | cons first rows =>
    have hfirst : first.length = w := hwidth first List.mem_cons_self
    simp only [hfirst, raggedRow?_eq_none_iff.mpr hwidth]

/-- These are the rows of records that make a hierarchy: those that are not blank; there is one, and all
have one width. -/
structure IsRowsOf (rows records : List (List Text)) (w : Nat) : Prop where
  kept : records.filter (fun row => !row.isEmpty) = rows
  ne_nil : rows ≠ []
  width : ∀ row ∈ rows, row.length = w

theorem IsRowsOf.pos {rows records : List (List Text)} {w : Nat} (h : IsRowsOf rows records w) : 0 < w := by
  obtain ⟨row, hrow⟩ := List.exists_mem_of_ne_nil rows h.ne_nil
  have hblank : (!row.isEmpty) = true := by
    rw [← h.kept] at hrow
    exact (List.mem_filter.mp hrow).2
  rw [← h.width row hrow]
  cases row with
  | nil => cases hblank
  | cons v row => exact Nat.succ_pos _

/-- **Records make a hierarchy exactly if their rows have one width.** -/
theorem ofRecords_ok_iff (path : Text) (records : List (List Text)) (h : Hierarchy) :
    ofRecords path records = .ok h ↔ ∃ rows w, IsRowsOf rows records w ∧ h = ofRows rows := by
  constructor
  · intro hread
    unfold ofRecords at hread
    split at hread
    · cases hread
    · next first rows hrows =>
      split at hread
      · cases hread
      · next hwidth =>
        refine ⟨first :: rows, first.length, ⟨hrows, List.cons_ne_nil _ _, ?_⟩, ?_⟩
        · exact raggedRow?_eq_none_iff.mp hwidth
        · exact (Except.ok.inj hread).symm
  · rintro ⟨rows, w, hrows, rfl⟩
    exact ofRecords_eq_ofRows path hrows.ne_nil hrows.width hrows.kept

/-- **A file is accepted exactly if it can be read and its rows have one width.** -/
theorem readHierarchy_ok_iff (fs : FileSystem) (separator path : Text) (h : Hierarchy) :
    fs.readHierarchy separator path = .ok h ↔ ∃ records rows w,
      fs.readRecords separator path = .ok records ∧ IsRowsOf rows records w ∧ h = ofRows rows := by
  unfold FileSystem.readHierarchy
  simp only [Outcome.bind_ok_iff, ofRecords_ok_iff, exists_and_left]

/-- A file system with one hierarchy file. -/
def oneFile (text : Text) : FileSystem where
  files := [(["h.csv".toList], Text.encode text)]
  directories := []
  here := []

theorem readRecords_oneFile (text : Text) :
    (oneFile text).readRecords [';'] "h.csv".toList = Table.readRecords [';'] .kept text := by
  have hbytes : (oneFile text).read "h.csv".toList = .ok (Text.encode text) := rfl
  rw [FileSystem.readRecords_of_read hbytes, Text.decode?_encode]

/-- **The table of a hierarchy is that of its file, each row once.** From these rows, and from a file
that has blank lines between them, comes one hierarchy. -/
theorem table_of_rows {rows : List (List Text)} {w : Nat} (hne : rows ≠ []) (hw : 2 ≤ w)
    (hwidth : ∀ row ∈ rows, row.length = w) :
    ∃ h : Hierarchy,
      (∀ path, ofRecords path rows = .ok h) ∧
      (∀ (fs : FileSystem) (separator path : Text) (records : List (List Text)),
        fs.readRecords separator path = .ok records →
        records.filter (fun row => !row.isEmpty) = rows → fs.readHierarchy separator path = .ok h) ∧
      h.table.Perm (rows.dedup.map (List.map some)) ∧
      h.size = rows.dedup.length ∧ h.leaves.length = rows.dedup.length := by
  obtain ⟨hroot, depth, hdepth, hgrown, hrows⟩ := ofRows_spec hw hwidth
  have hblank : rows.filter (fun row => !row.isEmpty) = rows := by
    refine List.filter_eq_self.mpr fun row hrow => ?_
    have hlength := hwidth row hrow
    cases row with
    | nil => simp at hlength; omega
    | cons v row => rfl
  have hleaves : ((ofRows rows).forest.leaves 0).length = rows.dedup.length := by
    rw [← (hgrown.ascents_perm hrows).length_eq, List.length_map]
  have hsize : (ofRows rows).forest.leafCount 0 = rows.dedup.length := by
    have hroot := hgrown.isLeafAt_zero hdepth
    rw [← hgrown.length_leaves hgrown.leavesEnd hgrown.rooted.1 hroot, hleaves]
  refine ⟨ofRows rows, fun path => ofRecords_eq_ofRows path hne hwidth hblank, ?_, ?_, ?_, ?_⟩
  · intro fs separator path records hread hrecords
    rw [FileSystem.readHierarchy, hread]
    exact ofRecords_eq_ofRows path hne hwidth hrecords
  · rw [Hierarchy.table, hroot]
    exact hgrown.table_perm hdepth hrows
  · rw [Hierarchy.size, hroot, hsize]
  · rw [Hierarchy.leaves, hroot, hleaves]

/-- A row twice, a value on two levels of its row, and a value of one row above another. -/
theorem table_of_marital_rows :
    let rows := [["Married", "Married", "*"], ["Widowed", "Alone", "*"], ["Alone", "Alone", "*"],
      ["Married", "Married", "*"]].map (List.map String.toList)
    ∃ h : Hierarchy, ofRecords [] rows = .ok h ∧ h.table.Perm (rows.dedup.map (List.map some)) ∧
      h.size = 3 ∧ h.leaves.length = 3 := by
  intro rows
  have hdistinct : rows.dedup.length = 3 := by decide
  have hwidth : ∀ row ∈ rows, row.length = 3 := by decide
  obtain ⟨h, hread, -, htable, hsize, hleaves⟩ := table_of_rows (by decide) (by decide) hwidth
  exact ⟨h, hread [], htable, hsize.trans hdistinct, hleaves.trans hdistinct⟩

end Hierarchy

end Anonymization
