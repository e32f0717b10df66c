import Anonymization.Proofs.Hierarchy.Likeness
/-!
# The table of a tree makes the tree again

The rows of a file may take turns between branches, while a table lists one branch after the other. What
has to be shown is that the children of each node come in the same order again: there they are by the
first row that goes through each.

* `IsTreeOf.map_childrenOf` -- **the children of a node are the endings of the rows that are one value
  longer, as they first occur**;
* `Grown.flatMap_leaves` -- only the leaves below a node say anything about its children;
* `Grown.children_of_leaves` -- in the table these leaves come child by child, so **the table tells the
  children in their order**;
* `rebuilt_from_table` -- so **the tree of the table is the tree**.
-/

namespace Anonymization

namespace Forest

open FirstOccurrence Hierarchy

variable {f : Forest} {depth : Nat}

/-! ## 1. Children in rows -/

/-- The second list is the first with one value in front. -/
def oneMore (a : List Text) : List Text → Bool
  | [] => false
  | _ :: rest => rest == a

theorem oneMore_iff {a e : List Text} : oneMore a e = true ↔ ∃ v, e = v :: a := by
  cases e <;> simp [oneMore]

/-- What a row says about the children of a node: the ending of the row that is one value longer than
the ascent of the node. -/
def longer (top a row : List Text) : List (List Text) :=
  (endings top (row.reverse.drop top.length)).filter (oneMore a)

theorem mem_longer {top a row e : List Text} (ha : top <:+ a) (hrow : top <:+ row) :
    e ∈ longer top a row ↔ e <:+ row ∧ ∃ v, e = v :: a := by
  rw [longer, List.mem_filter, mem_endings, path_append hrow, oneMore_iff]
  constructor
  · rintro ⟨⟨-, her⟩, hv⟩
    exact ⟨her, hv⟩
  · rintro ⟨her, v, rfl⟩
    exact ⟨⟨ha.trans (List.suffix_cons v a), her⟩, v, rfl⟩

namespace Grown

variable (h : Grown depth f)

include h

theorem ascent_of_mem_childrenOf {p c : Nat} (hp : p < f.size) (hc : c ∈ f.childrenOf p) :
    ∃ v, f.ascent c = v :: f.ascent p := by
  obtain ⟨hsize, hlt, hparent⟩ := h.of_mem_childrenOf hp hc
  obtain ⟨v, hv⟩ := h.named c (by omega) hsize
  exact ⟨v, ascent_child hparent hv⟩

/-- A child is told by its ascent. -/
theorem mem_childrenOf_iff {p c : Nat} (hp : p < f.size) (hc : c < f.size) :
    c ∈ f.childrenOf p ↔ oneMore (f.ascent p) (f.ascent c) = true := by
  rw [oneMore_iff]
  refine ⟨h.ascent_of_mem_childrenOf hp, ?_⟩
  rintro ⟨v, hv⟩
  have hpos : 0 < c := by
    refine Nat.pos_of_ne_zero ?_
    rintro rfl
    have hle := (h.top_suffix_ascent hp).length_le
    rw [hv, List.length_cons] at hle
    omega
  obtain ⟨q, hq, hparent⟩ := h.exists_parent hpos hc
  obtain ⟨u, hu⟩ := h.named c hpos hc
  rw [ascent_child hparent hu, List.cons.injEq] at hv
  rw [h.mem_childrenOf hp, hparent, h.eq_of_ascent (by omega) hp hv.2]
  exact ⟨hc, rfl⟩

end Grown

/-! ## 2. Children in the table -/

/-- Of a list without repetitions only one element makes anything. -/
theorem flatMap_of_only {α β : Type} {l : List α} {c : α} (hc : c ∈ l) (hnodup : l.Nodup) {g : α → List β}
    (honly : ∀ x ∈ l, x ≠ c → g x = []) : l.flatMap g = g c := by
  obtain ⟨s, t, rfl⟩ := List.append_of_mem hc
  have hs : s.flatMap g = [] := List.flatMap_eq_nil_iff.mpr fun x hx => honly x (by simp [hx]) (by grind)
  have ht : t.flatMap g = [] := List.flatMap_eq_nil_iff.mpr fun x hx => honly x (by simp [hx]) (by grind)
  rw [List.flatMap_append, List.flatMap_cons, hs, ht, List.nil_append, List.append_nil]

namespace Grown

variable (h : Grown depth f)

include h

theorem flatMap_leaves_eq {p c : Nat} (hp : p < f.size) (hc : c ∈ f.childrenOf p) {β : Type}
    (g : Nat → List β) :
    (f.leaves p).flatMap g = (f.childrenOf p).flatMap fun c => (f.leaves c).flatMap g := by
  obtain ⟨-, -, hparent⟩ := h.of_mem_childrenOf hp hc
  have hinner : f.isLeafAt p ≠ true := fun hleaf => h.leavesEnd p c hleaf (by simp [hparent])
  rw [h.leaves_eq hp, if_neg hinner, List.flatMap_assoc]

/-- **Only the leaves below a node say anything about it.** -/
theorem flatMap_leaves {β : Type} (g : Nat → List β) (p : Nat) (hp : p < f.size)
    (hother : ∀ x < f.size, p ∉ x :: f.ancestorsOf x → g x = []) :
    (f.leaves 0).flatMap g = (f.leaves p).flatMap g := by
  induction p using h.induction with
  | root p hroot =>
    have hzero : p = 0 := by
      refine Nat.eq_zero_of_not_pos fun hpos => ?_
      have hbelow := h.below p hpos hp
      rw [hroot] at hbelow
      exact List.not_mem_nil hbelow
    rw [hzero]
  | child p q hq hparent ih =>
    have hqs : q < f.size := by omega
    have hp' : p ∈ f.childrenOf q := (h.mem_childrenOf hqs).mpr ⟨hp, by rw [hparent]; rfl⟩
    have hq' : ∀ x < f.size, q ∉ x :: f.ancestorsOf x → g x = [] := by
      refine fun x hx hmem => hother x hx fun hpx => hmem ?_
      exact List.mem_cons_of_mem _ (h.trans (by simp [hparent]) hpx)
    rw [ih hqs hq', h.flatMap_leaves_eq hqs hp' g]
    refine flatMap_of_only hp' (h.nodup_childrenOf hqs) fun c hc hne => ?_
    refine List.flatMap_eq_nil_iff.mpr fun x hx => ?_
    have hcs := (h.of_mem_childrenOf hqs hc).1
    obtain ⟨hxs, -, hxc⟩ := (h.mem_leaves h.leavesEnd hcs).mp hx
    exact hother x hxs fun hxp => hne (h.child_unique hqs hc hp' hxc hxp)

/-- What the row of a leaf says about the children of a node is the child above the leaf. -/
theorem mem_longer_ascent {p x : Nat} (hp : p < f.size) (hx : x < f.size) {e : List Text} :
    e ∈ longer (f.ascent 0) (f.ascent p) (f.ascent x) ↔
      ∃ c ∈ f.childrenOf p, c ∈ x :: f.ancestorsOf x ∧ f.ascent c = e := by
  rw [mem_longer (h.top_suffix_ascent hp) (h.top_suffix_ascent hx)]
  constructor
  · rintro ⟨hex, v, rfl⟩
    have hpx := (h.mem_lineage_iff hp hx).mpr ((List.suffix_cons v _).trans hex)
    have hbelow : p ∈ f.ancestorsOf x := by
      refine (List.mem_cons.mp hpx).resolve_left ?_
      rintro rfl
      have hle := hex.length_le
      rw [List.length_cons] at hle
      omega
    obtain ⟨c, hchild, hc⟩ := h.exists_child hx hbelow
    have hcs := (h.of_mem_childrenOf hp hchild).1
    obtain ⟨u, hu⟩ := h.ascent_of_mem_childrenOf hp hchild
    -- two endings of one row that are equally long
    have hcx := (h.mem_lineage_iff hcs hx).mp hc
    have hlength : (f.ascent c).length = (v :: f.ascent p).length := by rw [hu]; rfl
    exact ⟨c, hchild, hc, (List.suffix_of_suffix_length_le hcx hex hlength.le).eq_of_length hlength⟩
  · rintro ⟨c, hc, hcx, rfl⟩
    exact ⟨(h.mem_lineage_iff (h.of_mem_childrenOf hp hc).1 hx).mp hcx, h.ascent_of_mem_childrenOf hp hc⟩

/-- The row of a leaf that is not below a node says nothing about its children. -/
theorem longer_ascent_eq_nil {p x : Nat} (hp : p < f.size) (hx : x < f.size)
    (hpx : p ∉ x :: f.ancestorsOf x) : longer (f.ascent 0) (f.ascent p) (f.ascent x) = [] := by
  refine List.eq_nil_iff_forall_not_mem.mpr fun e he => hpx ?_
  obtain ⟨c, hc, hcx, -⟩ := (h.mem_longer_ascent hp hx).mp he
  obtain ⟨-, -, hparent⟩ := h.of_mem_childrenOf hp hc
  exact List.mem_cons_of_mem _ (h.trans (by simp [hparent]) hcx)

theorem nodup_map_childrenOf {p : Nat} (hp : p < f.size) : ((f.childrenOf p).map f.ascent).Nodup := by
  refine (h.nodup_childrenOf hp).map_on fun c hc c' hc' hsame => ?_
  exact h.eq_of_ascent (h.of_mem_childrenOf hp hc).1 (h.of_mem_childrenOf hp hc').1 hsame

/-- **The table tells the children of each node, in their order**, where a leaf can be reached from each. -/
theorem children_of_leaves (hreach : ∀ c < f.size, f.leaves c ≠ []) {p : Nat} (hp : p < f.size) :
    (((f.leaves 0).map f.ascent).flatMap (longer (f.ascent 0) (f.ascent p))).eraseDups =
      (f.childrenOf p).map f.ascent := by
  rw [List.flatMap_map, h.flatMap_leaves _ p hp fun x hx hpx => h.longer_ascent_eq_nil hp hx hpx]
  cases hchildren : f.childrenOf p with
  | nil =>
    have hnone : (f.leaves p).flatMap (fun x => longer (f.ascent 0) (f.ascent p) (f.ascent x)) = [] := by
      refine List.flatMap_eq_nil_iff.mpr fun x hx => List.eq_nil_iff_forall_not_mem.mpr fun e he => ?_
      obtain ⟨hxs, -, -⟩ := (h.mem_leaves h.leavesEnd hp).mp hx
      obtain ⟨c, hc, -⟩ := (h.mem_longer_ascent hp hxs).mp he
      rw [hchildren] at hc
      exact List.not_mem_nil hc
    rw [hnone]
    rfl
  | cons first rest =>
    have hfirst : first ∈ f.childrenOf p := hchildren ▸ List.mem_cons_self
    rw [h.flatMap_leaves_eq hp hfirst, ← hchildren]
    -- the leaves below one child all say this child, and there is such a leaf
    refine eraseDups_flatMap_blocks (fun c hc => ?_) (fun c hc e he => ?_) (h.nodup_map_childrenOf hp)
    · have hcs := (h.of_mem_childrenOf hp hc).1
      obtain ⟨x, hx⟩ := List.exists_mem_of_ne_nil _ (hreach c hcs)
      obtain ⟨hxs, -, hcx⟩ := (h.mem_leaves h.leavesEnd hcs).mp hx
      have he := (h.mem_longer_ascent hp hxs).mpr ⟨c, hc, hcx, rfl⟩
      exact List.ne_nil_of_mem (List.mem_flatMap.mpr ⟨x, hx, he⟩)
    · have hcs := (h.of_mem_childrenOf hp hc).1
      obtain ⟨x, hx, he⟩ := List.mem_flatMap.mp he
      obtain ⟨hxs, -, hcx⟩ := (h.mem_leaves h.leavesEnd hcs).mp hx
      obtain ⟨c', hc', hcx', rfl⟩ := (h.mem_longer_ascent hp hxs).mp he
      rw [h.child_unique hp hc' hc hcx' hcx]

end Grown

end Forest

/-! ## 3. The tree of the table -/

namespace Hierarchy

open Forest FirstOccurrence

variable {rows : List (List Text)} {w depth : Nat} {f : Forest}

/-- **The children of a node are the endings of the rows that are one value longer, as they first
occur.** -/
theorem IsTreeOf.map_childrenOf (h : IsTreeOf f depth rows) {p : Nat} (hp : p < f.size) :
    (f.childrenOf p).map f.ascent = (rows.flatMap (longer (f.ascent 0) (f.ascent p))).eraseDups := by
  have hchildren : f.childrenOf p = (List.range f.size).filter (oneMore (f.ascent p) ∘ f.ascent) := by
    rw [h.children p hp]
    refine List.filter_congr fun c hc => ?_
    rw [List.mem_range] at hc
    rw [Bool.eq_iff_iff, Function.comp_apply, ← h.mem_childrenOf_iff hp hc, h.mem_childrenOf hp,
      decide_eq_true_eq, and_iff_right hc]
  rw [hchildren, ← List.filter_map, ← Forest.ascents, h.ascents, filter_eraseDups, rowEndings,
    List.filter_flatMap]
  rfl

/-- A leaf can be reached from each node. -/
theorem IsTreeOf.leaves_ne_nil (h : IsTreeOf f depth rows) (hrows : ∀ row ∈ rows, f.HasRow row) {p : Nat}
    (hp : p < f.size) : f.leaves p ≠ [] := by
  have hmem := mem_ascents.mpr ⟨p, hp, rfl⟩
  rw [h.ascents, List.mem_eraseDups, mem_rowEndings h.root] at hmem
  obtain ⟨-, row, hrow, hend⟩ := hmem
  obtain ⟨x, hx, hleaf, rfl⟩ := hrows row hrow
  exact List.ne_nil_of_mem
    ((h.mem_leaves h.leavesEnd hp).mpr ⟨hx, hleaf, (h.mem_lineage_iff hp hx).mpr hend⟩)

/-- **A tree is like the tree of the rows of its leaves.** -/
theorem IsTreeOf.alike {f' : Forest} (h : IsTreeOf f depth rows) (hrows : ∀ row ∈ rows, f.HasRow row)
    (h' : IsTreeOf f' depth ((f.leaves 0).map f.ascent)) (hroot : f.ascent 0 = f'.ascent 0) :
    Alike depth f f' where
  left := h.toGrown
  right := h'.toGrown
  levels := ⟨h.registered, h'.registered⟩
  root := hroot
  children p hp p' hp' hascent := by
    rw [h'.map_childrenOf hp', ← hroot, ← hascent,
      h.children_of_leaves (fun _ hc => h.leaves_ne_nil hrows hc) hp]

theorem commonTop?_congr {rows' : List (List Text)} (hne : rows ≠ [])
    (hmem : ∀ row, row ∈ rows' ↔ row ∈ rows) : commonTop? rows' = commonTop? rows := by
  have hne' : rows' ≠ [] := by
    obtain ⟨row, hrow⟩ := List.exists_mem_of_ne_nil rows hne
    exact List.ne_nil_of_mem ((hmem row).mpr hrow)
  refine Option.ext fun top => ?_
  rw [commonTop?_eq_some_iff hne', commonTop?_eq_some_iff hne]
  simp only [hmem]

/-- Rows that are wide enough, or do not end in one value, have values below the root. -/
theorem length_top_lt (hwidth : ∀ row ∈ rows, row.length = w)
    (hcase : 2 ≤ w ∨ ∃ row ∈ rows, ∃ row' ∈ rows, row.getLast? ≠ row'.getLast?) :
    (commonTop? rows).toList.length < w := by
  rcases hcase with hw | ⟨row, hrow, row', hrow', hends⟩
  · exact Nat.lt_of_le_of_lt (length_top_le_one rows) hw
  · cases htop : commonTop? rows with
    | some top =>
      have hend := getLast?_of_commonTop? htop
      exact absurd ((hend row hrow).trans (hend row' hrow').symm) hends
    | none =>
      refine Nat.pos_of_ne_zero fun hzero => hends ?_
      rw [List.eq_nil_of_length_eq_zero ((hwidth row hrow).trans hzero),
        List.eq_nil_of_length_eq_zero ((hwidth row' hrow').trans hzero)]

/-- These rows are read as this hierarchy, and so is any file that has them, with or without blank records
between them. -/
structure ReadAs (rows : List (List Text)) (h : Hierarchy) : Prop where
  records : ∀ path, ofRecords path rows = .ok h
  file : ∀ (fs : FileSystem) (separator path : Text) (records : List (List Text)),
    fs.readRecords separator path = .ok records →
    records.filter (fun row => !row.isEmpty) = rows → fs.readHierarchy separator path = .ok h

theorem readAs_ofRows (hne : rows ≠ []) (hwidth : ∀ row ∈ rows, row.length = w) (hw : 0 < w) :
    ReadAs rows (ofRows rows) where
  records path := by
    refine ofRecords_eq_ofRows path hne hwidth (List.filter_eq_self.mpr fun row hrow => ?_)
    rw [← hwidth row hrow] at hw
    rw [List.isEmpty_eq_false_iff.mpr (List.ne_nil_of_length_pos hw)]
    rfl
  file fs separator path records hread hrecords := by
    rw [FileSystem.readHierarchy, hread]
    exact ofRecords_eq_ofRows path hne hwidth hrecords

/-- What the hierarchy looks like from its root, however far it is followed. -/
def LooksLike (h : Hierarchy) (t : Tree) : Prop :=
  ∀ fuel, h.forest.size ≤ fuel → h.forest.treeWithin fuel h.root = some t

/-- Trees that are alike look alike from their roots. -/
theorem exists_looksLike {f' : Forest} (h : Alike depth f f') :
    ∃ t, LooksLike ⟨f, 0⟩ t ∧ LooksLike ⟨f', 0⟩ t := by
  have hsize := h.left.rooted.1
  have hsize' := h.right.rooted.1
  obtain ⟨t, ht⟩ : ∃ t, f.treeWithin f.size 0 = some t := by
    obtain ⟨n, hn⟩ := Nat.exists_eq_succ_of_ne_zero hsize.ne'
    rw [hn]
    exact ⟨_, treeWithin_succ hsize n⟩
  have hright : LooksLike ⟨f', 0⟩ t := fun fuel hfuel =>
    (h.treeWithin_eq hsize hsize' h.root (Nat.le_add_right _ _) hfuel).symm.trans ht
  refine ⟨t, fun fuel hfuel => ?_, hright⟩
  exact (h.treeWithin_eq hsize hsize' h.root hfuel (Nat.le_add_right _ _)).trans
    (hright f'.size (Nat.le_refl _))

/-- **The rows of the table make a tree that is like the tree.** -/
theorem exists_rebuilt (hne : rows ≠ []) (hwidth : ∀ row ∈ rows, row.length = w)
    (hdepth : (commonTop? rows).toList.length < w) :
    ∃ rows', rows' ≠ [] ∧ (∀ row ∈ rows', row.length = w) ∧
      (ofRows rows).forest.table 0 = rows'.map (List.map some) ∧
      Alike (w - (commonTop? rows).toList.length) (ofRows rows).forest (ofRows rows').forest := by
  have hpos := Nat.sub_pos_of_lt hdepth
  obtain ⟨hgrown, -, hrows⟩ := ofRows_grown hwidth hdepth
  obtain ⟨htree, htop⟩ := isTreeOf_ofRows hne hwidth
  generalize (ofRows rows).forest = f at hgrown hrows htree htop ⊢
  -- the rows of the table are those of the file, in another order
  have hmem : ∀ row, row ∈ (f.leaves 0).map f.ascent ↔ row ∈ rows := fun row =>
    (hgrown.ascents_perm hrows).mem_iff.trans List.mem_dedup
  have hne' : (f.leaves 0).map f.ascent ≠ [] := by
    obtain ⟨row, hrow⟩ := List.exists_mem_of_ne_nil rows hne
    exact List.ne_nil_of_mem ((hmem row).mpr hrow)
  have hwidth' : ∀ row ∈ (f.leaves 0).map f.ascent, row.length = w := fun row hrow =>
    hwidth row ((hmem row).mp hrow)
  obtain ⟨htree', htop'⟩ := isTreeOf_ofRows hne' hwidth'
  rw [commonTop?_congr hne hmem] at htree' htop'
  rw [Nat.max_eq_right hpos] at htree htree'
  exact ⟨_, hne', hwidth', hgrown.table_eq hpos,
    htree.alike (fun row hrow => (hrows row).mpr hrow) htree' (htop.trans htop'.symm)⟩

/-- **The table of a hierarchy makes the hierarchy again**: what is read from its rows has the same tree,
and the same table. -/
theorem rebuilt_from_table (hne : rows ≠ []) (hwidth : ∀ row ∈ rows, row.length = w)
    (hcase : 2 ≤ w ∨ ∃ row ∈ rows, ∃ row' ∈ rows, row.getLast? ≠ row'.getLast?) :
    ∃ (h h' : Hierarchy) (rows' : List (List Text)) (t : Tree),
      ReadAs rows h ∧ h.table = rows'.map (List.map some) ∧ ReadAs rows' h' ∧ h'.table = h.table ∧
      h.LooksLike t ∧ h'.LooksLike t := by
  have hdepth := length_top_lt hwidth hcase
  have hw : 0 < w := Nat.zero_lt_of_lt hdepth
  have hpos := Nat.sub_pos_of_lt hdepth
  obtain ⟨rows', hne', hwidth', htable, halike⟩ := exists_rebuilt hne hwidth hdepth
  have hroot : ∀ rows, ofRows rows = ⟨(ofRows rows).forest, 0⟩ := fun rows => by rw [ofRows_eq]
  obtain ⟨t, hlooks, hlooks'⟩ := exists_looksLike halike
  rw [← hroot] at hlooks hlooks'
  refine ⟨ofRows rows, ofRows rows', rows', t, readAs_ofRows hne hwidth hw, ?_,
    readAs_ofRows hne' hwidth' hw, ?_, hlooks, hlooks'⟩
  · rw [hroot rows]
    exact htable
  · rw [hroot rows, hroot rows', Hierarchy.table, Hierarchy.table, halike.left.table_eq hpos,
      halike.right.table_eq hpos,
      halike.map_leaves halike.left.rooted.1 halike.right.rooted.1 halike.root]

/-- Rows that take turns between two top values: the table has one branch after the other. -/
theorem rebuilt_from_turns :
    let rows := [["34", "30-39", "young"], ["51", "50-59", "old"], ["35", "30-39", "young"],
      ["62", "60-69", "old"]].map (List.map String.toList)
    let grouped := [["34", "30-39", "young"], ["35", "30-39", "young"], ["51", "50-59", "old"],
      ["62", "60-69", "old"]].map (List.map String.toList)
    ∃ (h h' : Hierarchy) (t : Tree), ReadAs rows h ∧ h.table = grouped.map (List.map some) ∧
      ReadAs grouped h' ∧ h'.table = h.table ∧ h.LooksLike t ∧ h'.LooksLike t := by
  intro rows grouped
  have hwidth : ∀ row ∈ rows, row.length = 3 := by decide
  obtain ⟨h, h', rows', t, hread, htable, hread', hrest⟩ :=
    rebuilt_from_table (by decide) hwidth (.inl (by decide))
  have hh : h = ofRows rows := by
    have hrecords := hread.records []
    rw [ofRecords_eq_ofRows [] (by decide) hwidth (by decide)] at hrecords
    exact (Except.ok.inj hrecords).symm
  have hgrouped : h.table = grouped.map (List.map some) := by
    rw [hh]
    decide
  have hsame : rows' = grouped := by
    refine List.map_injective_iff.mpr (List.map_injective_iff.mpr (Option.some_injective _)) ?_
    exact htable.symm.trans hgrouped
  subst hsame
  exact ⟨h, h', t, hread, htable, hread', hrest⟩

end Hierarchy

end Anonymization
