import Anonymization.Proofs.Assoc
import Anonymization.Proofs.Outcome
import Anonymization.Settings.Config
/-!
# What makes a configuration

* `Plan.Makes`, `Plan.parse_ok_iff` -- **what has to be right about the options**, one condition for each
  of them;
* `Plan.checkHierarchies_iff` -- each quasi identifier has a hierarchy file;
* `FileSystem.loadHierarchy_ok_iff` -- a tree that is read is measured, unless it is too deep;
* `FileSystem.readHierarchies_ok_iff` -- the trees are those of the files, name by name;
* `Config.parse_ok_iff` -- **a configuration is a plan with the trees of its files**.
-/

namespace Anonymization

namespace Plan

/-! ## 1. The options -/

/-- The options make this plan: each of them is read, and each quasi identifier has a hierarchy file. -/
structure Makes (o : Options) (p : Plan) : Prop where
  quasiIdentifying : names o "quasiidentifying" = .ok p.attributes.quasiIdentifying
  criteria : criteriaOf o = .ok p.criteria
  dataTypes : ∃ ps, dataTypePieces o = .ok ps ∧
    DataType.parseOption Field.listSeparator ps = .ok p.dataTypes
  subset : ∃ t, Options.worded (o.value "researchsubset") = .ok t ∧
    Subset.parseOption t = .ok p.subset
  metric : ∃ t, Options.worded (o.value "metric") = .ok t ∧ Metric.parseOption t = .ok p.metric
  suppression : Options.suppressionLimit (o.value "suppression") = .ok p.suppression
  hierarchyFiles : ∃ ps, Options.listed (o.value "hierarchies") = .ok ps ∧
    Attributes.parseHierarchies Field.listSeparator ps = .ok p.hierarchyFiles
  covered : checkHierarchies p.hierarchyFiles p.attributes.quasiIdentifying = .ok ()
  sensitive : names o "sensitive" = .ok p.attributes.sensitive
  insensitive : names o "insensitive" = .ok p.attributes.insensitive
  identifying : names o "identifying" = .ok p.attributes.identifying
  practicalMonotonicity :
    p.practicalMonotonicity = Options.flag (o.value "practicalmonotonicity")

/-- **Exactly these plans come out of the options.** -/
theorem parse_ok_iff (o : Options) (p : Plan) : parse o = .ok p ↔ Makes o p := by
  unfold parse
  simp only [Outcome.bind_ok_iff, pure, Except.pure, Except.ok.injEq]
  constructor
  · intro ⟨_, hquasi, _, hcriteria, _, hpieces, _, htypes, _, hsubset, _, hs, _, hmetric, _, hm, _, hx,
      _, hlist, _, hfiles, _, hcovered, _, hsensitive, _, hinsensitive, _, hidentifying, hp⟩
    subst hp
    exact ⟨hquasi, hcriteria, ⟨_, hpieces, htypes⟩, ⟨_, hsubset, hs⟩, ⟨_, hmetric, hm⟩, hx,
      ⟨_, hlist, hfiles⟩, hcovered, hsensitive, hinsensitive, hidentifying, rfl⟩
  · intro h
    obtain ⟨_, hpieces, htypes⟩ := h.dataTypes
    obtain ⟨_, hsubset, hs⟩ := h.subset
    obtain ⟨_, hmetric, hm⟩ := h.metric
    obtain ⟨_, hlist, hfiles⟩ := h.hierarchyFiles
    refine ⟨_, h.quasiIdentifying, _, h.criteria, _, hpieces, _, htypes, _, hsubset, _, hs, _, hmetric,
      _, hm, _, h.suppression, _, hlist, _, hfiles, _, h.covered, _, h.sensitive, _, h.insensitive,
      _, h.identifying, ?_⟩
    rw [← h.practicalMonotonicity]

theorem checkHierarchies_iff (files : Assoc Text Text) (names : List Text) :
    checkHierarchies files names = .ok () ↔ ∀ name ∈ names, files.has name = true := by
  induction names with
  | nil => simp [checkHierarchies]
  | cons name rest ih =>
    rw [checkHierarchies, List.forall_mem_cons]
    by_cases hname : files.has name = true
    · rw [if_pos hname, ih]
      exact (and_iff_right hname).symm
    · rw [if_neg hname]
      refine ⟨fun h => ?_, fun h => absurd h.1 hname⟩
      cases h

end Plan

/-! ## 2. The hierarchy files -/

theorem Hierarchy.measured_of_le {h : Hierarchy} (hle : h.height ≤ depthLimit) :
    h.measured = .ok h :=
  if_pos hle

theorem Hierarchy.measured_of_gt {h : Hierarchy} (hgt : depthLimit < h.height) :
    h.measured = .error (.defect .nestedTooDeeply) :=
  if_neg (Nat.not_le.mpr hgt)

/-- **A tree that is read is measured**, unless it is too deep. -/
theorem FileSystem.loadHierarchy_ok_iff (fs : FileSystem) (separator path : Text)
    (tree : Hierarchy) :
    fs.loadHierarchy separator path = .ok tree ↔
      fs.readHierarchy separator path = .ok tree ∧ tree.height ≤ Hierarchy.depthLimit := by
  unfold loadHierarchy
  rw [Outcome.bind_ok_iff]
  constructor
  · intro ⟨read, hread, hmeasured⟩
    by_cases hle : read.height ≤ Hierarchy.depthLimit
    · rw [Hierarchy.measured_of_le hle] at hmeasured
      cases hmeasured
      exact ⟨hread, hle⟩
    · rw [Hierarchy.measured_of_gt (Nat.not_le.mp hle)] at hmeasured
      cases hmeasured
  · intro ⟨hread, hle⟩
    exact ⟨tree, hread, Hierarchy.measured_of_le hle⟩

/-- **The trees are those of the files**, in the same order under the same names. -/
theorem FileSystem.readHierarchies_ok_iff (fs : FileSystem) (separator : Text)
    (files : Assoc Text Text) (trees : Assoc Text Hierarchy) :
    fs.readHierarchies separator files = .ok trees ↔
      List.Forall₂ (fun f t => t.1 = f.1 ∧ fs.loadHierarchy separator f.2 = .ok t.2) files trees := by
  induction files generalizing trees with
  | nil =>
    rw [List.forall₂_nil_left_iff]
    exact ⟨fun h => (Except.ok.inj h).symm, fun h => h ▸ rfl⟩
  | cons f rest ih =>
    obtain ⟨name, path⟩ := f
    rw [FileSystem.readHierarchies, Outcome.bind_ok_iff, List.forall₂_cons_left_iff]
    simp only [Outcome.bind_ok_iff, ih, pure, Except.pure, Except.ok.injEq]
    constructor
    · intro ⟨tree, htree, trees', htrees, h⟩
      exact ⟨(name, tree), trees', ⟨rfl, htree⟩, htrees, h.symm⟩
    · intro ⟨⟨name', tree⟩, trees', ⟨hname, htree⟩, htrees, h⟩
      subst hname
      exact ⟨tree, htree, trees', htrees, h.symm⟩

/-! ## 3. The configuration -/

/-- **A configuration is a plan with the trees of its files.** -/
theorem Config.parse_ok_iff (fs : FileSystem) (o : Options) (separator : Text) (c : Config) :
    Config.parse fs o separator = .ok c ↔ ∃ p trees, Plan.Makes o p ∧
      fs.readHierarchies separator p.hierarchyFiles = .ok trees ∧
        c = ⟨p.attributes, p.criteria, p.dataTypes, p.subset, p.metric, p.suppression,
          p.practicalMonotonicity, trees, separator⟩ := by
  unfold Config.parse Plan.load
  simp only [Outcome.bind_ok_iff, Plan.parse_ok_iff, pure, Except.pure, Except.ok.injEq]
  constructor
  · intro ⟨p, hp, trees, htrees, hc⟩
    exact ⟨p, trees, hp, htrees, hc.symm⟩
  · intro ⟨p, trees, hp, htrees, hc⟩
    exact ⟨p, hp, trees, htrees, hc.symm⟩

end Anonymization
