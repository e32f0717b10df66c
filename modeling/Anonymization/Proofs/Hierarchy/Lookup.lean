import Anonymization.Proofs.Hierarchy.Chronicle
/-!
# Which node is found for a value

Of the nodes with one value a node knows the one that was created first. In a tree that was grown row
after row this is the one of the first row that has the value, and of this row the one closest to the
top; a later row may have the value closer to the top.

* `offers_iff` -- what a node offers is told by ascents alone;
* `map_ascent_find?` -- a value is looked up in the endings of the rows;
* `Shows`, `IsFirstShown` -- where a row has a value below a node, and the first row that does;
* `exists_shows_iff` -- **the places of a value are the nodes that offer it**;
* `lookup_closest_iff` -- **which node is found**, and when it is the closest to the top.
-/

namespace Anonymization.Hierarchy

open Forest FirstOccurrence

/-! ## 1. Looking up ascents -/

section

variable {f : Forest} {depth : Nat} {rows : List (List Text)}

theorem find?_eq_coveredOf (f : Forest) (p : Nat) (v : Option Text) :
    f.find? p v = (f.coveredOf p).get? v := by
  unfold find? coveredOf
  cases f.node? p <;> rfl

/-- The ending goes on from another and begins with the value. -/
def offersAt (a : List Text) (v : Text) (e : List Text) : Bool :=
  decide (a <:+ e) && e.head? == some v

theorem offersAt_iff {a e : List Text} {v : Text} :
    offersAt a v e = true ↔ a <:+ e ∧ e.head? = some v := by
  simp [offersAt]

/-- **A node offers a value exactly if its ascent says so.** -/
theorem offers_iff (h : Grown depth f) {n x : Nat} (hn : n < f.size) (hx : x < f.size) (v : Text) :
    f.Offers n (some v) x ↔ offersAt (f.ascent n) v (f.ascent x) = true := by
  rw [offersAt_iff, h.head?_ascent hx, ← h.mem_lineage_iff hn hx, List.mem_cons, Offers]
  simp [eq_comm]

/-- **A value is looked up in the endings of the rows.** -/
theorem map_ascent_find? (h : IsTreeOf f depth rows) {n : Nat} (hn : n < f.size) (v : Text) :
    (f.find? n (some v)).map f.ascent =
      (rowEndings (f.ascent 0) rows).find? (offersAt (f.ascent n) v) := by
  have hsearch : (List.range f.size).find? (fun i => f.Offers n (some v) i) =
      (List.range f.size).find? (offersAt (f.ascent n) v ∘ f.ascent) := by
    refine List.find?_congr fun x hx => ?_
    rw [Function.comp_apply, Bool.eq_iff_iff, decide_eq_true_eq]
    exact offers_iff h.toGrown hn (List.mem_range.mp hx) v
  rw [find?_eq_coveredOf, h.registered.covered n hn, hsearch, ← List.find?_map,
    ← find?_eraseDups _ (rowEndings _ _), ← h.ascents, Forest.ascents]

end

/-! ## 2. Where rows have a value -/

/-- The row goes through the node with the ascent `a`, and there or further in front it has the value
at the beginning of its ending `e`. -/
structure Shows (a : List Text) (v : Text) (row e : List Text) : Prop where
  ending : e <:+ row
  goesOn : a <:+ e
  value : e.head? = some v

/-- The first row that has the value below a node has it at this ending, and not closer to the top. -/
def IsFirstShown (rows : List (List Text)) (a : List Text) (v : Text) (e : List Text) : Prop :=
  ∃ before row after, rows = before ++ row :: after ∧ (∀ r ∈ before, ∀ e', ¬ Shows a v r e') ∧
    Shows a v row e ∧ ∀ e', Shows a v row e' → e.length ≤ e'.length

variable {f : Forest} {depth : Nat} {rows : List (List Text)}

/-- What is found in the endings of a row is closest to its end. -/
theorem find?_endings_eq_some {a₀ a row e : List Text} {v : Text} (ha : a₀ <:+ a) (hrow : a₀ <:+ row)
    (he : (endings a₀ (row.reverse.drop a₀.length)).find? (offersAt a v) = some e) :
    Shows a v row e ∧ ∀ e', Shows a v row e' → e.length ≤ e'.length := by
  obtain ⟨hoffers, front, rest, hsplit, hfront⟩ := List.find?_eq_some_iff_append.mp he
  have hmem : ∀ e', e' ∈ endings a₀ (row.reverse.drop a₀.length) ↔ a₀ <:+ e' ∧ e' <:+ row := by
    intro e'
    rw [mem_endings, path_append hrow]
  have hsorted := endings_sorted a₀ (row.reverse.drop a₀.length)
  rw [hsplit] at hmem hsorted
  obtain ⟨hgoesOn, hvalue⟩ := offersAt_iff.mp hoffers
  refine ⟨⟨((hmem e).mp (by simp)).2, hgoesOn, hvalue⟩, fun e' hshows => ?_⟩
  have hthere := (hmem e').mpr ⟨ha.trans hshows.goesOn, hshows.ending⟩
  have hbehind := (List.pairwise_append.mp hsorted).2.1
  rcases List.mem_append.mp hthere with hthere | hthere
  · have hno := hfront e' hthere
    rw [offersAt_iff.mpr ⟨hshows.goesOn, hshows.value⟩] at hno
    cases hno
  · rcases List.mem_cons.mp hthere with rfl | hthere
    · exact Nat.le_refl _
    · exact (List.rel_of_pairwise_cons hbehind hthere).le

theorem find?_endings_eq_none {a₀ a row : List Text} {v : Text} (ha : a₀ <:+ a) (hrow : a₀ <:+ row)
    (he : (endings a₀ (row.reverse.drop a₀.length)).find? (offersAt a v) = none) (e : List Text) :
    ¬ Shows a v row e := by
  intro hshows
  have hmem : e ∈ endings a₀ (row.reverse.drop a₀.length) := by
    rw [mem_endings, path_append hrow]
    exact ⟨ha.trans hshows.goesOn, hshows.ending⟩
  exact List.find?_eq_none.mp he e hmem (offersAt_iff.mpr ⟨hshows.goesOn, hshows.value⟩)

/-- **The node that is found is that of the first row with the value.** -/
theorem isFirstShown_of_find? (h : IsTreeOf f depth rows) {n x : Nat} (hn : n < f.size) {v : Text}
    (hx : f.find? n (some v) = some x) : IsFirstShown rows (f.ascent n) v (f.ascent x) := by
  have hsearch := map_ascent_find? h hn v
  rw [hx, Option.map_some, rowEndings, List.find?_flatMap] at hsearch
  obtain ⟨before, row, after, hrows, hrow, hbefore⟩ := List.findSome?_eq_some_iff.mp hsearch.symm
  have htop := h.top_suffix_ascent hn
  have hroot := h.root
  rw [hrows] at hroot
  obtain ⟨hshows, hclosest⟩ := find?_endings_eq_some htop (hroot row (by simp)) hrow
  refine ⟨before, row, after, hrows, fun r hr e' => ?_, hshows, hclosest⟩
  exact find?_endings_eq_none htop (hroot r (List.mem_append_left _ hr)) (hbefore r hr) e'

/-- A node has no descendants outside the forest. -/
theorem lt_size_of_offers {n x : Nat} (hn : n < f.size) {v : Option Text} (hx : f.Offers n v x) :
    x < f.size := by
  rcases hx.1 with ⟨rfl, -⟩ | hmem
  · exact hn
  · exact lt_size_of_mem hmem

/-- **The places of a value in the rows are the nodes that offer it.** -/
theorem exists_shows_iff (h : IsTreeOf f depth rows) {n : Nat} (hn : n < f.size) {v : Text}
    {e : List Text} :
    (∃ row ∈ rows, Shows (f.ascent n) v row e) ↔ ∃ x, f.Offers n (some v) x ∧ f.ascent x = e := by
  constructor
  · rintro ⟨row, hrow, hshows⟩
    have htop : f.ascent 0 <:+ e := (h.top_suffix_ascent hn).trans hshows.goesOn
    have hmem : e ∈ f.ascents := by
      rw [h.ascents, List.mem_eraseDups, mem_rowEndings h.root]
      exact ⟨htop, row, hrow, hshows.ending⟩
    obtain ⟨x, hx, rfl⟩ := mem_ascents.mp hmem
    exact ⟨x, (offers_iff h.toGrown hn hx v).mpr (offersAt_iff.mpr ⟨hshows.goesOn, hshows.value⟩), rfl⟩
  · rintro ⟨x, hoffers, rfl⟩
    have hx := lt_size_of_offers hn hoffers
    obtain ⟨hgoesOn, hvalue⟩ := offersAt_iff.mp ((offers_iff h.toGrown hn hx v).mp hoffers)
    have hmem : f.ascent x ∈ f.ascents := mem_ascents.mpr ⟨x, hx, rfl⟩
    rw [h.ascents, List.mem_eraseDups, mem_rowEndings h.root] at hmem
    obtain ⟨-, row, hrow, hending⟩ := hmem
    exact ⟨row, hrow, hending, hgoesOn, hvalue⟩

/-! ## 3. The closest to the top -/

/-- **A node is the closest to the top exactly if no row has the value closer to its end.** -/
theorem closest_iff (h : IsTreeOf f depth rows) {n x : Nat} (hn : n < f.size) (hx : x < f.size)
    {v : Text} :
    (∀ y, f.Offers n (some v) y → f.levelAt x ≤ f.levelAt y) ↔
      ∀ row ∈ rows, ∀ e, Shows (f.ascent n) v row e → (f.ascent x).length ≤ e.length := by
  have hlevel : ∀ y < f.size, f.levelAt x ≤ f.levelAt y ↔
      (f.ascent x).length ≤ (f.ascent y).length := by
    intro y hy
    rw [h.registered.level, h.registered.level, h.length_ascent hx, h.length_ascent hy]
    omega
  constructor
  · intro hclosest row hrow e hshows
    obtain ⟨y, hy, rfl⟩ := (exists_shows_iff h hn).mp ⟨row, hrow, hshows⟩
    exact (hlevel y (lt_size_of_offers hn hy)).mp (hclosest y hy)
  · intro hclosest y hy
    obtain ⟨row, hrow, hshows⟩ := (exists_shows_iff h hn).mpr ⟨y, hy, rfl⟩
    exact (hlevel y (lt_size_of_offers hn hy)).mpr (hclosest row hrow _ hshows)

/-- Some node is found for a value that is there, and it is one that offers it. -/
theorem find?_iff_offers (h : IsTreeOf f depth rows) {n : Nat} (hn : n < f.size) (v : Text) :
    ((∃ x, f.Offers n (some v) x) → ∃ x, f.find? n (some v) = some x) ∧
      ∀ x, f.find? n (some v) = some x → f.Offers n (some v) x := by
  have hsearch := h.registered.covered n hn (some v)
  rw [← find?_eq_coveredOf] at hsearch
  constructor
  · rintro ⟨x, hx⟩
    rw [hsearch, ← Option.isSome_iff_exists, List.find?_isSome]
    exact ⟨x, List.mem_range.mpr (lt_size_of_offers hn hx), decide_eq_true hx⟩
  · intro x hx
    rw [hsearch] at hx
    simpa using List.find?_some hx

/-- **Which node is found for a value.** In the tree of any file that is accepted each node finds one
for every value at or below it: one that has the value, in the first row that has it there, as close to
the end of this row as it stands. No other node with the value is closer to the top exactly if no later
row has it closer to its end. -/
theorem lookup_closest_iff {fs : FileSystem} {separator path : Text} {h : Hierarchy}
    (hread : fs.readHierarchy separator path = .ok h) :
    ∃ records rows w, fs.readRecords separator path = .ok records ∧ IsRowsOf rows records w ∧
      ∀ n < h.forest.size, ∀ v : Text,
        ((∃ x, h.forest.Offers n (some v) x) → ∃ x, h.forest.find? n (some v) = some x) ∧
        ∀ x, h.forest.find? n (some v) = some x →
          h.forest.Offers n (some v) x ∧
          IsFirstShown rows (h.forest.ascent n) v (h.forest.ascent x) ∧
          ((∀ y, h.forest.Offers n (some v) y → h.forest.levelAt x ≤ h.forest.levelAt y) ↔
            ∀ row ∈ rows, ∀ e, Shows (h.forest.ascent n) v row e →
              (h.forest.ascent x).length ≤ e.length) := by
  obtain ⟨records, rows, w, hrecords, hrows, rfl⟩ := (readHierarchy_ok_iff _ _ _ _).mp hread
  have htree := (isTreeOf_ofRows hrows.ne_nil hrows.width).1
  refine ⟨records, rows, w, hrecords, hrows, fun n hn v => ?_⟩
  obtain ⟨hfound, hoffers⟩ := find?_iff_offers htree hn v
  refine ⟨hfound, fun x hx => ⟨hoffers x hx, isFirstShown_of_find? htree hn hx, ?_⟩⟩
  exact closest_iff htree hn (lt_size_of_offers hn (hoffers x hx))

/-- The first row has a value on the level of the leaves, and the second row closer to the top. -/
def deepFirst : Text := "Married;Wed;*\nSeparated;Married;*\n".toList

/-- The node that is found for a value is not always the closest to the top. -/
theorem deeper_node_found : ∃ h, (oneFile deepFirst).readHierarchy [';'] "h.csv".toList = .ok h ∧
    h.forest.find? h.root (some "Married".toList) = some 2 ∧ h.forest.levelAt 2 = 2 ∧
    h.forest.Offers h.root (some "Married".toList) 3 ∧ h.forest.levelAt 3 = 1 := by
  have hrecords : (oneFile deepFirst).readRecords [';'] "h.csv".toList =
      .ok [["Married".toList, "Wed".toList, "*".toList],
        ["Separated".toList, "Married".toList, "*".toList]] := by
    rw [readRecords_oneFile]
    rfl
  refine ⟨_, (readHierarchy_ok_iff _ _ _ _).mpr ⟨_, _, 3, hrecords, ⟨rfl, by simp, by simp⟩, rfl⟩, ?_⟩
  decide

/-- A value on two levels of the first row, and in the second row no closer to the top. -/
def repeatedRows : List (List Text) :=
  [["Married".toList, "Married".toList, "*".toList], ["Widowed".toList, "Married".toList, "*".toList]]

/-- A value that is repeated, in a file with a blank line. -/
theorem lookup_repeated_value : ∃ h,
    (oneFile "Married;Married;*\n\nWidowed;Married;*\n".toList).readHierarchy [';'] "h.csv".toList =
      .ok h ∧
    h.forest.find? 0 (some "Married".toList) = some 1 ∧
    ∀ y, h.forest.Offers 0 (some "Married".toList) y → h.forest.levelAt 1 ≤ h.forest.levelAt y := by
  have hrecords : (oneFile "Married;Married;*\n\nWidowed;Married;*\n".toList).readRecords [';']
      "h.csv".toList = .ok [["Married".toList, "Married".toList, "*".toList], [],
        ["Widowed".toList, "Married".toList, "*".toList]] := by
    rw [readRecords_oneFile]
    rfl
  have hread := (readHierarchy_ok_iff _ _ _ (ofRows repeatedRows)).mpr
    ⟨_, repeatedRows, 3, hrecords, ⟨rfl, by decide, by decide⟩, rfl⟩
  obtain ⟨-, rows, -, -, -, hlookup⟩ := lookup_closest_iff hread
  obtain ⟨-, -, hclosest⟩ := (hlookup 0 (by decide) "Married".toList).2 1 (by decide)
  refine ⟨_, hread, by decide, hclosest.mpr fun row _ e hshows => ?_⟩
  -- an ending that begins with the value goes on from the value of the root
  have hroot : (ofRows repeatedRows).forest.ascent 0 = ["*".toList] := by decide
  have hlength : ((ofRows repeatedRows).forest.ascent 1).length = 2 := by decide
  obtain ⟨front, rfl⟩ : ["*".toList] <:+ e := hroot ▸ hshows.goesOn
  have hvalue := hshows.value
  rw [hlength]
  cases front with
  | nil => exact absurd hvalue (by decide)
  | cons t front => simp

end Anonymization.Hierarchy
