import Anonymization.Proofs.Hierarchy.Chronicle
/-!
# Which values a hierarchy covers

Leaves are made where a path ends, and the root is made before any path is followed. So a file whose
rows are all one and the same value has a root that is no leaf, and nothing below it.

* `Covers` -- every value of the first column is a leaf, and the table lists every row;
* `covers_ofRows` -- rows with values below the root are covered;
* `leafless_ofRows` -- rows that are one value are not: there is no leaf;
* `covers_iff` -- **which files are covered**.
-/

namespace Anonymization.Hierarchy

open Forest

/-- Every value in the first column of the rows is that of a leaf, and the table, which the engine gets,
lists every row. -/
structure Covers (h : Hierarchy) (rows : List (List Text)) : Prop where
  leaf : ∀ row ∈ rows, ∃ x ∈ h.leaves, h.forest.value? x = row.head?
  listed : ∀ row ∈ rows, row.map some ∈ h.table
  table : h.table ≠ []
  size : 1 ≤ h.size

/-- All rows are one and the same value. -/
def IsOneValue (rows : List (List Text)) : Prop :=
  ∃ v, ∀ row ∈ rows, row = [v]

/-- The hierarchy has no leaf. -/
structure Leafless (h : Hierarchy) : Prop where
  leaves : h.leaves = []
  table : h.table = []
  size : h.size = 0

variable {rows : List (List Text)} {w : Nat}

/-- **Rows with values below the root are covered.** -/
theorem covers_ofRows (hne : rows ≠ []) (hwidth : ∀ row ∈ rows, row.length = w)
    (hdepth : (commonTop? rows).toList.length < w) : (ofRows rows).Covers rows := by
  obtain ⟨hgrown, -, hrows⟩ := ofRows_grown hwidth hdepth
  have hpos := Nat.sub_pos_of_lt hdepth
  have hroot : (ofRows rows).root = 0 := by rw [ofRows_eq]
  have hleaf : ∀ row ∈ rows, ∃ x ∈ (ofRows rows).leaves, (ofRows rows).forest.value? x = row.head? := by
    intro row hrow
    obtain ⟨x, hx, hmark, rfl⟩ := (hrows row).mpr hrow
    rw [leaves, hroot]
    exact ⟨x, hgrown.mem_leaves_zero.mpr ⟨hx, hmark⟩, (hgrown.head?_ascent hx).symm⟩
  have hlisted : ∀ row ∈ rows, row.map some ∈ (ofRows rows).table := by
    intro row hrow
    rw [table, hroot, (hgrown.table_perm hpos hrows).mem_iff]
    exact List.mem_map_of_mem (List.mem_dedup.mpr hrow)
  obtain ⟨first, hfirst⟩ := List.exists_mem_of_ne_nil rows hne
  refine ⟨hleaf, hlisted, List.ne_nil_of_mem (hlisted first hfirst), ?_⟩
  obtain ⟨x, hx, -⟩ := hleaf first hfirst
  rw [leaves, hroot] at hx
  rw [size, hroot, ← hgrown.length_leaves hgrown.leavesEnd hgrown.rooted.1 (hgrown.isLeafAt_zero hpos)]
  exact List.length_pos_of_mem hx

/-- The root alone has no leaf. -/
theorem leafless_single (value : Option Text) :
    (⟨Forest.empty.plant value false none, 0⟩ : Hierarchy).Leafless :=
  ⟨rfl, rfl, rfl⟩

/-- Rows that are as short as the value of the root are one value. -/
theorem isOneValue_iff (hne : rows ≠ []) (hwidth : ∀ row ∈ rows, row.length = w) (hw : 0 < w) :
    IsOneValue rows ↔ ¬ (commonTop? rows).toList.length < w := by
  constructor
  · rintro ⟨v, hone⟩
    obtain ⟨row, hrow⟩ := List.exists_mem_of_ne_nil rows hne
    have hlength := hwidth row hrow
    rw [hone row hrow] at hlength
    have htop : commonTop? rows = some v := by
      refine (commonTop?_eq_some_iff hne).mpr fun row hrow => ?_
      rw [hone row hrow]
      rfl
    rw [htop, ← hlength]
    exact Nat.lt_irrefl _
  · intro hflat
    cases htop : commonTop? rows with
    | none =>
      rw [htop] at hflat
      exact absurd hw hflat
    | some v =>
      refine ⟨v, fun row hrow => ?_⟩
      have hone : row.length = 1 := by
        have hlength := hwidth row hrow
        rw [htop, Option.toList_some, List.length_singleton] at hflat
        omega
      obtain ⟨u, rfl⟩ := List.length_eq_one_iff.mp hone
      exact congrArg (fun t => [t]) (Option.some.inj (getLast?_of_commonTop? htop [u] hrow))

/-- **Rows that are one value make a tree without a leaf.** -/
theorem leafless_ofRows (hwidth : ∀ row ∈ rows, row.length = w)
    (hflat : ¬ (commonTop? rows).toList.length < w) : (ofRows rows).Leafless := by
  rw [ofRows_flat fun row hrow => (hwidth row hrow).trans_le (Nat.not_lt.mp hflat)]
  exact leafless_single _

/-- **Which files are covered.** Of any file that is accepted every value of the first column is a leaf,
the table is not empty and the size at least one, unless its rows are all one and the same value; then
there is no leaf, the table is empty and the size zero. -/
theorem covers_iff {fs : FileSystem} {separator path : Text} {h : Hierarchy}
    (hread : fs.readHierarchy separator path = .ok h) :
    ∃ records rows w, fs.readRecords separator path = .ok records ∧ IsRowsOf rows records w ∧
      (h.Covers rows ↔ ¬ IsOneValue rows) ∧ (IsOneValue rows → h.Leafless) := by
  obtain ⟨records, rows, w, hrecords, hrows, rfl⟩ := (readHierarchy_ok_iff _ _ _ _).mp hread
  have hone := isOneValue_iff hrows.ne_nil hrows.width hrows.pos
  refine ⟨records, rows, w, hrecords, hrows, ?_, fun h => leafless_ofRows hrows.width (hone.mp h)⟩
  constructor
  · intro hcovers h
    exact hcovers.table (leafless_ofRows hrows.width (hone.mp h)).table
  · intro h
    exact covers_ofRows hrows.ne_nil hrows.width (not_not.mp (mt hone.mpr h))

/-- A file with one column and two values is covered. -/
theorem covers_two_values : ∃ h,
    (oneFile "male\nfemale\n".toList).readHierarchy [';'] "h.csv".toList = .ok h ∧
      h.Covers [["male".toList], ["female".toList]] := by
  have hrecords : (oneFile "male\nfemale\n".toList).readRecords [';'] "h.csv".toList =
      .ok [["male".toList], ["female".toList]] := by
    rw [readRecords_oneFile]
    rfl
  have hread := (readHierarchy_ok_iff _ _ _ _).mpr
    ⟨_, _, 1, hrecords, ⟨rfl, by decide, by decide⟩, rfl⟩
  obtain ⟨records, rows, w, hrecords', hrows, hcovers, -⟩ := covers_iff hread
  obtain rfl := Except.ok.inj (hrecords.symm.trans hrecords')
  obtain rfl := hrows.kept
  refine ⟨_, hread, hcovers.mpr ?_⟩
  rintro ⟨v, hone⟩
  have hmale := hone ["male".toList] (by decide)
  have hfemale := hone ["female".toList] (by decide)
  exact absurd (hmale.trans hfemale.symm) (by decide)

/-- A file with one column and one value is accepted, and its value is lost. -/
theorem lone_value_lost : ∃ h,
    (oneFile "male\n".toList).readHierarchy [';'] "h.csv".toList = .ok h ∧
      h.leaves = [] ∧ h.table = [] ∧ h.size = 0 := by
  have hrecords : (oneFile "male\n".toList).readRecords [';'] "h.csv".toList =
      .ok [["male".toList]] := by
    rw [readRecords_oneFile]
    rfl
  exact ⟨_, (readHierarchy_ok_iff _ _ _ _).mpr ⟨_, _, 1, hrecords, ⟨rfl, by simp, by simp⟩, rfl⟩,
    by decide⟩

end Anonymization.Hierarchy
