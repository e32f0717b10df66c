import Anonymization.Engine.Manifest
import Anonymization.Proofs.Settings.Config
import Anonymization.Proofs.Settings.Tokens
import Anonymization.Proofs.Table.RoundTrip
/-!
# What the engine is told

* `get?_roles`, `mem_keys_roles` -- each name has its strongest role, and no other name has one;
  `roleText` is the word for it;
* `Declares` -- what the options say of the attributes;
* `Tells` -- an entry of the manifest says of an attribute what the options say;
* `entry_tells` -- **the entry of each attribute is made, and tells this**;
* `manifest_of_accepted` -- **the manifest of an accepted configuration is made and faithful**.
-/

namespace Anonymization

/-! ## 1. Roles -/

namespace Attributes.Named

variable (n : Named)

/-- The last of some pairs with one value is any of them. -/
theorem get?_reverse_map_pair (xs : List Text) (role : Role) (x : Text) :
    Assoc.get? (xs.map (·, role)).reverse x = if x ∈ xs then some role else none := by
  rw [← List.map_reverse, Assoc.get?_map_pair]
  simp

/-- **Each name has the strongest role under which it is listed.** -/
theorem get?_roles (x : Text) : n.roles.get? x = n.role? x := by
  unfold roles
  rw [Assoc.get?_ofList]
  simp only [List.reverse_append, Assoc.get?_append, get?_reverse_map_pair]
  unfold role?
  simp only [List.contains_iff_mem]
  by_cases hq : x ∈ n.quasiIdentifying
  · simp [hq]
  · by_cases hs : x ∈ n.sensitive
    · simp [hq, hs]
    · by_cases hi : x ∈ n.insensitive
      · simp [hq, hs, hi]
      · simp [hq, hs, hi]

theorem mem_keys_roles (x : Text) : x ∈ Assoc.keys n.roles ↔ x ∈ n.quasiIdentifying ∨
    x ∈ n.sensitive ∨ x ∈ n.insensitive ∨ x ∈ n.identifying := by
  unfold roles
  rw [Assoc.mem_keys_ofList]
  simp only [Assoc.keys, List.map_append, List.map_map, List.mem_append]
  have hmap : ∀ (xs : List Text) (role : Role), xs.map (Prod.fst ∘ (·, role)) = xs := by
    intro xs role
    exact List.map_id xs
  simp only [hmap]
  tauto

theorem role?_eq_quasiIdentifying_iff (x : Text) :
    n.role? x = some .quasiIdentifying ↔ x ∈ n.quasiIdentifying := by
  unfold role?
  simp only [List.contains_iff_mem]
  split
  · next h => simp [h]
  · next h =>
    simp only [h, iff_false]
    split
    · simp
    · split
      · simp
      · split <;> simp

/-- The word for the role of a name, by the first of the lists that it is in. -/
def roleText (x : Text) : String :=
  if x ∈ n.quasiIdentifying then "QUASI_IDENTIFYING"
  else if x ∈ n.sensitive then "SENSITIVE"
  else if x ∈ n.insensitive then "INSENSITIVE"
  else "IDENTIFYING"

/-- **The name of the strongest role is the word for it.** -/
theorem name_of_role? {x : Text} {role : Role} (h : n.role? x = some role) :
    role.name = (n.roleText x).toList := by
  unfold role? at h
  simp only [List.contains_iff_mem] at h
  unfold roleText
  by_cases hq : x ∈ n.quasiIdentifying
  · rw [if_pos hq] at h ⊢
    cases h
    rfl
  rw [if_neg hq] at h ⊢
  by_cases hs : x ∈ n.sensitive
  · rw [if_pos hs] at h ⊢
    cases h
    rfl
  rw [if_neg hs] at h ⊢
  by_cases hi : x ∈ n.insensitive
  · rw [if_pos hi] at h ⊢
    cases h
    rfl
  rw [if_neg hi] at h ⊢
  split at h
  · cases h
    rfl
  · cases h

end Attributes.Named

/-! ## 2. What the options say of the attributes -/

/-- The options list these names, and say these pairs of an attribute and its hierarchy file and these
pairs of an attribute and its data type. -/
structure Declares (o : Options) (n : Attributes.Named) (files : List (Text × Text))
    (types : List (Text × DataType)) : Prop where
  quasiIdentifying : Plan.names o "quasiidentifying" = .ok n.quasiIdentifying
  sensitive : Plan.names o "sensitive" = .ok n.sensitive
  insensitive : Plan.names o "insensitive" = .ok n.insensitive
  identifying : Plan.names o "identifying" = .ok n.identifying
  files : ∃ ps, Options.listed (o.value "hierarchies") = .ok ps ∧
    List.Forall₂ HierarchySays (Field.splitPieces Field.listSeparator false ps) files
  types : ∃ ps entries, Options.listed (o.value "datatype") = .ok ps ∧
    List.Forall₂ DataTypeSays (Field.splitPieces Field.listSeparator true ps) entries ∧
      types = entries.map fun (name, d, _) => (name, d)

/-- A plan is what the options say, the last pair with a name counting. -/
theorem Plan.Makes.declares {o : Options} {p : Plan} (h : Plan.Makes o p) :
    ∃ files types, Declares o p.attributes files types ∧ p.hierarchyFiles = Assoc.ofList files ∧
      p.dataTypes = Assoc.ofList types := by
  obtain ⟨ps, hps, hfiles⟩ := h.hierarchyFiles
  obtain ⟨files, hsay, hmap⟩ := (Attributes.parseHierarchies_ok_iff _ _ _).mp hfiles
  obtain ⟨ps', hps', htypes⟩ := h.dataTypes
  obtain ⟨entries, hsay', hmap'⟩ := (DataType.parseOption_ok_iff _ _ _).mp htypes
  refine ⟨files, entries.map fun (name, d, _) => (name, d), ?_, hmap.symm, hmap'.symm⟩
  exact ⟨h.quasiIdentifying, h.sensitive, h.insensitive, h.identifying, ⟨ps, hps, hsay⟩,
    ⟨ps', entries, hps', hsay', rfl⟩⟩

section

variable {o : Options} {n : Attributes.Named} {files : List (Text × Text)}
  {types : List (Text × DataType)} {p : Plan}

/-- The names that the options list are those of the plan. -/
theorem Declares.attributes_eq (h : Declares o n files types) (hp : Plan.Makes o p) :
    n = p.attributes := by
  obtain ⟨quasi, sensitive, insensitive, identifying⟩ := n
  obtain rfl := Except.ok.inj (h.quasiIdentifying.symm.trans hp.quasiIdentifying)
  obtain rfl := Except.ok.inj (h.sensitive.symm.trans hp.sensitive)
  obtain rfl := Except.ok.inj (h.insensitive.symm.trans hp.insensitive)
  obtain rfl := Except.ok.inj (h.identifying.symm.trans hp.identifying)
  rfl

/-- The last file that the options say is the one of the plan. -/
theorem Declares.isLast_file_iff (h : Declares o n files types) (hp : Plan.Makes o p) (x path : Text) :
    Assoc.IsLast files x path ↔ p.hierarchyFiles.get? x = some path := by
  obtain ⟨ps, hps, hsay⟩ := h.files
  obtain ⟨ps', hps', hfiles⟩ := hp.hierarchyFiles
  obtain rfl := Except.ok.inj (hps.symm.trans hps')
  have hmade := (Attributes.parseHierarchies_ok_iff _ _ _).mpr ⟨files, hsay, rfl⟩
  rw [← Except.ok.inj (hmade.symm.trans hfiles), Assoc.get?_ofList_iff]

/-- The last data type that the options say is the one of the plan. -/
theorem Declares.isLast_type_iff (h : Declares o n files types) (hp : Plan.Makes o p) (x : Text)
    (d : DataType) : Assoc.IsLast types x d ↔ p.dataTypes.get? x = some d := by
  obtain ⟨ps, entries, hps, hsay, rfl⟩ := h.types
  obtain ⟨ps', hps', htypes⟩ := hp.dataTypes
  obtain rfl := Except.ok.inj (hps.symm.trans hps')
  have hmade := (DataType.parseOption_ok_iff _ _ _).mpr ⟨entries, hsay, rfl⟩
  rw [← Except.ok.inj (hmade.symm.trans htypes), Assoc.get?_ofList_iff]

end

/-! ## 3. The entry of an attribute -/

/-- An entry of the manifest tells what the options say of an attribute: its name and the word for its
strongest role, the rows of the tree of its last file exactly if it is a quasi identifier, and its last
data type exactly if it has one. -/
structure Tells (fs : FileSystem) (separator : Text) (n : Attributes.Named)
    (files : List (Text × Text)) (types : List (Text × DataType)) (x : Text) (entry : Json) :
    Prop where
  name : entry.member? "name" = some (.text x)
  role : entry.member? "role" = some (.text (n.roleText x).toList)
  hierarchy : x ∈ n.quasiIdentifying → ∃ path tree, Assoc.IsLast files x path ∧
    fs.readHierarchy separator path = .ok tree ∧
      entry.member? "hierarchy" = some (.list (tree.table.map fun row => .list (row.map fun
        | some value => .text value
        | none => .null)))
  noHierarchy : x ∉ n.quasiIdentifying → entry.member? "hierarchy" = none
  dataType : ∀ d, Assoc.IsLast types x d → entry.member? "data_type" = some (Json.record (
    match d.format with
    | none => [("type", .text d.name.text)]
    | some format => [("type", .text d.name.text), ("format", .text format)]))
  noDataType : x ∉ Assoc.keys types → entry.member? "data_type" = none

namespace Config

variable {c : Config}

/-- The members of an entry that come from a data type, if there is one. -/
def typeMember (d : Option DataType) : List (String × Json) :=
  match d with
  | some d => [("data_type", d.toJson)]
  | none => []

/-- The members of an entry that come from a hierarchy, if there is one. -/
def hierarchyMember (h : Option Hierarchy) : List (String × Json) :=
  match h with
  | some h => [("hierarchy", h.toJson)]
  | none => []

/-- An entry with these members. -/
def entryOf (name : Text) (role : Attributes.Role) (d : Option DataType) (h : Option Hierarchy) : Json :=
  Json.record ([("name", .text name), ("role", .text role.name)] ++ typeMember d ++ hierarchyMember h)

theorem member_entryOf (name : Text) (role : Attributes.Role) (d : Option DataType)
    (h : Option Hierarchy) :
    (entryOf name role d h).member? "name" = some (.text name) ∧
      (entryOf name role d h).member? "role" = some (.text role.name) ∧
      (entryOf name role d h).member? "data_type" = d.map DataType.toJson ∧
      (entryOf name role d h).member? "hierarchy" = h.map Hierarchy.toJson := by
  cases d <;> cases h <;> exact ⟨rfl, rfl, rfl, rfl⟩

/-- The entry of a quasi identifier with a hierarchy. -/
theorem attributeEntry_quasiIdentifying {name : Text} {h : Hierarchy}
    (hh : c.hierarchies.get? name = some h) :
    c.attributeEntry name .quasiIdentifying =
      .ok (entryOf name .quasiIdentifying (c.dataTypes.get? name) (some h)) := by
  unfold attributeEntry
  simp only [hh]
  cases c.dataTypes.get? name <;> rfl

/-- The entry of an attribute with another role. -/
theorem attributeEntry_other {name : Text} {role : Attributes.Role} (hr : role ≠ .quasiIdentifying) :
    c.attributeEntry name role = .ok (entryOf name role (c.dataTypes.get? name) none) := by
  unfold attributeEntry
  cases role with
  | quasiIdentifying => exact absurd rfl hr
  | identifying | insensitive | sensitive => cases c.dataTypes.get? name <;> rfl

end Config

/-- **The entry of each attribute is made, and tells what the options say**: a quasi identifier has a
file, and so a tree in the configuration. -/
theorem Plan.Makes.entry_tells {fs : FileSystem} {o : Options} {separator : Text} {p : Plan}
    {trees : Assoc Text Hierarchy} {files : List (Text × Text)} {types : List (Text × DataType)}
    {c : Config} (hp : Plan.Makes o p) (hfiles : p.hierarchyFiles = Assoc.ofList files)
    (htypes : p.dataTypes = Assoc.ofList types)
    (htrees : fs.readHierarchies separator p.hierarchyFiles = .ok trees)
    (hct : c.hierarchies = trees) (hcd : c.dataTypes = p.dataTypes) {x : Text}
    {role : Attributes.Role} (hrole : p.attributes.role? x = some role) :
    ∃ entry, c.attributeEntry x role = .ok entry ∧
      Tells fs separator p.attributes files types x entry := by
  have hquasi := p.attributes.role?_eq_quasiIdentifying_iff x
  have hword := p.attributes.name_of_role? hrole
  have hd : ∀ d, Assoc.IsLast types x d → (c.dataTypes.get? x).map DataType.toJson =
      some (Json.record (match d.format with
        | none => [("type", .text d.name.text)]
        | some format => [("type", .text d.name.text), ("format", .text format)])) := by
    intro d hlast
    rw [hcd, htypes, (Assoc.get?_ofList_iff _ _ _).mpr hlast, Option.map_some, DataType.toJson]
    cases d.format <;> rfl
  have hno : x ∉ Assoc.keys types → (c.dataTypes.get? x).map DataType.toJson = none := by
    intro hx
    rw [Option.map_eq_none_iff, hcd, htypes, Assoc.get?_eq_none_iff, Assoc.mem_keys_ofList]
    exact hx
  by_cases hr : role = .quasiIdentifying
  · subst hr
    have hx := hquasi.mp hrole
    have hhas := (Plan.checkHierarchies_iff _ _).mp hp.covered x hx
    obtain ⟨path, hpath⟩ := Option.isSome_iff_exists.mp hhas
    obtain ⟨tree, htree, hload⟩ :=
      Assoc.get?_of_forall₂ (R := fun path tree => fs.loadHierarchy separator path = .ok tree)
        ((fs.readHierarchies_ok_iff _ _ _).mp htrees) hpath
    obtain ⟨hread, -⟩ := (fs.loadHierarchy_ok_iff _ _ _).mp hload
    rw [← hct] at htree
    rw [hfiles, Assoc.get?_ofList_iff] at hpath
    obtain ⟨hname, hrolem, htype, hhier⟩ :=
      Config.member_entryOf x .quasiIdentifying (c.dataTypes.get? x) (some tree)
    rw [hword] at hrolem
    refine ⟨_, Config.attributeEntry_quasiIdentifying htree, ?_⟩
    exact ⟨hname, hrolem, fun _ => ⟨path, tree, hpath, hread, hhier⟩, fun hn => absurd hx hn,
      fun d hlast => htype.trans (hd d hlast), fun hn => htype.trans (hno hn)⟩
  · have hx : x ∉ p.attributes.quasiIdentifying := by
      intro hx
      rw [hquasi.mpr hx, Option.some.injEq] at hrole
      exact hr hrole.symm
    obtain ⟨hname, hrolem, htype, hhier⟩ := Config.member_entryOf x role (c.dataTypes.get? x) none
    rw [hword] at hrolem
    refine ⟨_, Config.attributeEntry_other hr, ?_⟩
    exact ⟨hname, hrolem, fun h => absurd h hx, fun _ => hhier,
      fun d hlast => htype.trans (hd d hlast), fun hn => htype.trans (hno hn)⟩

/-! ## 4. The manifest -/

/-- **The manifest of an accepted configuration is made and faithful.** The options are accepted, and the
criteria can be bound to their hierarchies and the subset. Then there is a manifest, whatever the
paths. Its criteria are the bound ones, in order; its attributes are the names that one of the four
options lists, each once, and their entries tell what the options say. -/
theorem manifest_of_accepted {fs : FileSystem} {o : Options} {separator : Text} {c : Config}
    {bound : List Json} (hc : Config.parse fs o separator = .ok c)
    (hbound : c.boundCriteria = .ok bound) :
    ∃ n files types, Declares o n files types ∧ ∃ names entries, names.Nodup ∧
      (∀ x, x ∈ names ↔ x ∈ n.quasiIdentifying ∨ x ∈ n.sensitive ∨ x ∈ n.insensitive ∨
        x ∈ n.identifying) ∧
      List.Forall₂ (Tells fs separator n files types) names entries ∧
      ∀ input output, ∃ m, c.manifest input output = .ok m ∧
        (m.member? "privacy").bind (Json.member? "criteria") = some (.list bound) ∧
        m.member? "attributes" = some (.list entries) := by
  obtain ⟨p, trees, hp, htrees, hconfig⟩ := (Config.parse_ok_iff _ _ _ _).mp hc
  obtain ⟨files, types, hdeclares, hfiles, htypes⟩ := hp.declares
  have hroles : c.roles = p.attributes.roles := by rw [hconfig]; rfl
  have hnd : (Assoc.keys p.attributes.roles).Nodup := Assoc.nodup_keys_ofList _
  have hentry : ∀ pair ∈ p.attributes.roles, ∃ entry, c.attributeEntry pair.1 pair.2 = .ok entry ∧
      Tells fs separator p.attributes files types pair.1 entry := by
    intro pair hpair
    refine hp.entry_tells hfiles htypes htrees (by rw [hconfig]) (by rw [hconfig]) ?_
    rw [← Attributes.Named.get?_roles]
    exact Assoc.get?_of_mem hnd hpair
  obtain ⟨entries, hentries, htell⟩ := Outcome.mapM_ok_of_forall hentry
  refine ⟨p.attributes, files, types, hdeclares, Assoc.keys p.attributes.roles, entries, hnd,
    p.attributes.mem_keys_roles, List.forall₂_map_left_iff.mpr htell, fun input output => ?_⟩
  unfold Config.manifest
  rw [hroles, hentries, hbound]
  exact ⟨_, rfl, rfl, rfl⟩

/-- Options that name an attribute under two roles, give two files for one attribute and two types for
another. -/
def doubledOptions : Options := [
  ("quasiidentifying".toList, .string "age,age"),
  ("sensitive".toList, .string "disease,age"),
  ("identifying".toList, .string "name,disease"),
  ("hierarchies".toList, .string "age=old.csv,age=age.csv"),
  ("datatype".toList, .string "disease=DATE(y),disease=STRING"),
  ("criteria".toList, .string "2-ANONYMITY")]

/-- The last of the two files. -/
def ageFiles : FileSystem where
  files := [(["age.csv".toList], Text.encode "1;*\n2;*\n".toList)]
  directories := []
  here := []

theorem readHierarchy_ageFiles : ageFiles.readHierarchy [';'] "age.csv".toList =
    .ok (Hierarchy.ofRows [["1".toList, "*".toList], ["2".toList, "*".toList]]) := by
  have hread : ageFiles.readRecords [';'] "age.csv".toList =
      .ok [["1".toList, "*".toList], ["2".toList, "*".toList]] := by
    have hbytes : ageFiles.read "age.csv".toList = .ok (Text.encode "1;*\n2;*\n".toList) := rfl
    rw [FileSystem.readRecords_of_read hbytes, Text.decode?_encode]
    rfl
  unfold FileSystem.readHierarchy
  rw [hread]
  rfl

theorem readHierarchies_ageFiles :
    ageFiles.readHierarchies [';'] [("age".toList, "age.csv".toList)] =
      .ok [("age".toList, Hierarchy.ofRows [["1".toList, "*".toList], ["2".toList, "*".toList]])] := by
  have hload := (ageFiles.loadHierarchy_ok_iff _ _ _).mpr ⟨readHierarchy_ageFiles, by decide⟩
  unfold FileSystem.readHierarchies
  rw [hload]
  rfl

/-- What these options make. -/
def doubledPlan : Plan where
  attributes := ⟨["age".toList, "age".toList], ["disease".toList, "age".toList], [],
    ["name".toList, "disease".toList]⟩
  criteria := [.kAnonymity 2]
  dataTypes := [("disease".toList, ⟨.string, none⟩)]
  subset := none
  metric := .entropy
  suppression := .zero
  hierarchyFiles := [("age".toList, "age.csv".toList)]
  practicalMonotonicity := false

/-- The manifest of a configuration whose names are given twice: the stronger role, the rows of the last
file and the last data type are told. -/
theorem manifest_of_doubled_names : ∃ c bound,
    Config.parse ageFiles doubledOptions [';'] = .ok c ∧ c.boundCriteria = .ok bound ∧
      ∃ (names : List Text) (entries : List Json), names.Nodup ∧
        (∀ x, x ∈ names ↔ x ∈ ["age".toList, "disease".toList, "name".toList]) ∧
        entries.length = names.length ∧
        (∃ age ∈ entries, age.member? "name" = some (.string "age") ∧
          age.member? "role" = some (.string "QUASI_IDENTIFYING") ∧
          age.member? "hierarchy" = some (.list [.list [.string "1", .string "*"],
            .list [.string "2", .string "*"]])) ∧
        (∃ disease ∈ entries, disease.member? "name" = some (.string "disease") ∧
          disease.member? "role" = some (.string "SENSITIVE") ∧
          disease.member? "hierarchy" = none ∧
          disease.member? "data_type" = some (Json.record [("type", .string "STRING")])) ∧
        (∃ name ∈ entries, name.member? "name" = some (.string "name") ∧
          name.member? "role" = some (.string "IDENTIFYING")) ∧
        ∀ input output, ∃ m, c.manifest input output = .ok m ∧
          m.member? "attributes" = some (.list entries) := by
  have hplan : Plan.Makes doubledOptions doubledPlan := (Plan.parse_ok_iff _ _).mp (by rfl)
  have hc := (Config.parse_ok_iff ageFiles doubledOptions [';'] _).mpr
    ⟨doubledPlan, _, hplan, readHierarchies_ageFiles, rfl⟩
  have hbound : ∀ c : Config, c.criteria = [.kAnonymity 2] → c.boundCriteria =
      .ok [Json.record [("type", .string "k-anonymity"), ("k", .int 2)]] := by
    intro c h
    unfold Config.boundCriteria
    rw [h]
    rfl
  obtain ⟨n, files, types, hdeclares, names, entries, hnd, hnames, htell, hmanifest⟩ :=
    manifest_of_accepted hc (hbound _ rfl)
  obtain rfl := hdeclares.attributes_eq hplan
  have hentry := Outcome.exists_of_forall₂ htell.flip
  have hmem : ∀ x, x ∈ names ↔ x ∈ ["age".toList, "disease".toList, "name".toList] := by
    intro x
    rw [hnames]
    simp only [doubledPlan, List.mem_cons, List.not_mem_nil]
    tauto
  refine ⟨_, _, hc, hbound _ rfl, names, entries, hnd, hmem, htell.length_eq.symm, ?_, ?_, ?_,
    fun input output => ?_⟩
  · obtain ⟨age, hage, h⟩ := hentry _ ((hmem "age".toList).mpr (by decide))
    obtain ⟨path, tree, hlast, hread, hrows⟩ := h.hierarchy (by decide)
    have hpath : some "age.csv".toList = some path := (hdeclares.isLast_file_iff hplan _ _).mp hlast
    obtain rfl := Option.some.inj hpath
    obtain rfl := Except.ok.inj (readHierarchy_ageFiles.symm.trans hread)
    exact ⟨age, hage, h.name, h.role, hrows⟩
  · obtain ⟨disease, hdisease, h⟩ := hentry _ ((hmem "disease".toList).mpr (by decide))
    have hlast := (hdeclares.isLast_type_iff hplan "disease".toList ⟨.string, none⟩).mpr rfl
    exact ⟨disease, hdisease, h.name, h.role, h.noHierarchy (by decide), h.dataType _ hlast⟩
  · obtain ⟨name, hname, h⟩ := hentry _ ((hmem "name".toList).mpr (by decide))
    exact ⟨name, hname, h.name, h.role⟩
  · obtain ⟨m, hm, -, hattributes⟩ := hmanifest input output
    exact ⟨m, hm, hattributes⟩

end Anonymization
