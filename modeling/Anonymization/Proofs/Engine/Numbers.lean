import Anonymization.Proofs.Criterion.RoundTrip
import Anonymization.Proofs.Engine.Binding
import Anonymization.Proofs.Engine.Manifest
import Anonymization.Proofs.Json.Words
import Anonymization.Proofs.Numeral.Range
/-!
# The numbers of the job

Every binary64 number that the engine gets is one that the criteria option writes, or the suppression
limit.

* `WritesNumber`, `mem_numbers_iff` -- **the numbers of the criteria are those that the option writes**;
* `numbersOf_of_parseOption` -- none of them is NaN, and all are finite exactly if what is written is in
  range;
* `floats_manifest` -- **which numbers there are in the manifest**;
* `manifest_numbers_iff` -- the limit is between zero and one, so **the manifest is JSON exactly if the
  numbers of the criteria option are in range**.
-/

namespace Anonymization

open Anonymization.Field

namespace Criterion

open Grammar

/-! ## 1. The numbers of the criteria option -/

/-- The numbers of a criterion that need not be whole. -/
def numbers (c : Criterion) : List Binary64 :=
  c.quantities.filterMap fun
    | .number x => some x
    | .whole _ => none

/-- This stands for a number in the form that a token has. -/
def TokenWrites (token : Text) (w : Numeral.Written) : Prop :=
  ∃ g a body cs, parts? g (Text.trim token) = some (a, body) ∧ Spells g.pieces cs body ∧ .number w ∈ cs

/-- This stands for a number in the form of one of the tokens that a text lists. -/
def WritesNumber (t : Text) (w : Numeral.Written) : Prop :=
  ∃ token ∈ split listSeparator true (unbracketed t), TokenWrites token w

theorem mem_numbers {c : Criterion} {x : Binary64} : x ∈ c.numbers ↔ .number x ∈ c.quantities := by
  cases c <;> simp [numbers, quantities]

/-- What stands for the numbers of a criterion are its numbers. -/
theorem mem_of_denotes {qs : List Quantity} {cs : List Captured} (h : List.Forall₂ Quantity.Denotes qs cs)
    (x : Binary64) : .number x ∈ qs ↔ ∃ w, .number w ∈ cs ∧ w.value = x := by
  induction h with
  | nil => simp
  | cons hd _ ih =>
    cases hd with
    | whole digits => simp [ih]
    | number w =>
      simp only [List.mem_cons, Quantity.number.injEq, ih, Captured.number.injEq]
      constructor
      · rintro (rfl | ⟨w', hw, rfl⟩)
        · exact ⟨w, .inl rfl, rfl⟩
        · exact ⟨w', .inr hw, rfl⟩
      · rintro ⟨w', rfl | hw, rfl⟩
        · exact .inl rfl
        · exact .inr ⟨w', hw, rfl⟩

/-- **The numbers of a criterion are those that its token writes.** -/
theorem mem_numbers_of_parse {index : Int} {token : Text} {c : Criterion}
    (h : parse Grammar.all index token = .ok c) (x : Binary64) :
    x ∈ c.numbers ↔ ∃ w, TokenWrites token w ∧ w.value = x := by
  obtain ⟨g, a, cs, hcap, hmakes, -⟩ := (parse_ok_iff mem_all nodup_all index token c).mp h
  have hwrites : ∀ w, TokenWrites token w ↔ .number w ∈ cs := by
    intro w
    constructor
    · rintro ⟨g', a', body, cs', hp, hspells, hw⟩
      have hcap' : Captures g' (Text.trim token) a' cs' := ⟨body, hp, (matchPieces?_iff g' body cs').mpr hspells⟩
      obtain ⟨-, -, rfl⟩ := captures_unique hcap hcap'
      exact hw
    · intro hw
      obtain ⟨body, hp, hm⟩ := hcap
      exact ⟨g, a, body, cs, hp, (matchPieces?_iff g body cs).mp hm, hw⟩
  simp only [mem_numbers, mem_of_denotes (denotes_of_makes hmakes).1, hwrites]

/-- **The numbers of the criteria are those that the option writes.** -/
theorem mem_numbers_iff {t : Text} {cs : List Criterion} (h : parseOption (some t) = .ok cs) (x : Binary64) :
    x ∈ cs.flatMap numbers ↔ ∃ w, WritesNumber t w ∧ w.value = x := by
  have hread := (parseTokens_ok_iff 0 _ cs).mp h
  have hfold : ∀ {tokens : List Text} {cs : List Criterion},
      List.Forall₂ (fun t c => parse Grammar.all 0 t = .ok c) tokens cs →
      (x ∈ cs.flatMap numbers ↔ ∃ token ∈ tokens, ∃ w, TokenWrites token w ∧ w.value = x) := by
    intro tokens cs h
    induction h with
    | nil => simp
    | cons ht _ ih =>
      rw [List.flatMap_cons, List.mem_append, ih, mem_numbers_of_parse ht]
      simp
  rw [hfold hread]
  simp only [WritesNumber]
  constructor
  · rintro ⟨token, ht, w, hw, hx⟩
    exact ⟨w, ⟨token, ht, hw⟩, hx⟩
  · rintro ⟨w, ⟨token, ht, hw⟩, hx⟩
    exact ⟨token, ht, w, hw, hx⟩

/-- These are the numbers that a text of criteria writes. -/
structure NumbersOf (t : Text) (xs : List Binary64) : Prop where
  mem : ∀ x, x ∈ xs ↔ ∃ w, WritesNumber t w ∧ w.value = x
  not_nan : .nan ∉ xs
  finite : (∀ x ∈ xs, x.isFinite = true) ↔ ∀ w, WritesNumber t w → w.InRange

/-- **No criterion has a number that is no number**, and all are finite exactly if what is written is in
range. -/
theorem numbersOf_of_parseOption {t : Text} {cs : List Criterion} (h : parseOption (some t) = .ok cs) :
    NumbersOf t (cs.flatMap numbers) := by
  refine ⟨mem_numbers_iff h, fun hnan => ?_, ?_⟩
  · obtain ⟨w, -, hw⟩ := (mem_numbers_iff h _).mp hnan
    rcases value_cases w with hfinite | ⟨negative, hinfinite⟩
    · rw [hw] at hfinite
      cases hfinite
    · rw [hw] at hinfinite
      cases hinfinite
  · simp only [mem_numbers_iff h, ← Numeral.Written.isFinite_value_iff]
    constructor
    · exact fun hall w hw => hall _ ⟨w, hw, rfl⟩
    · rintro hall _ ⟨w, hw, rfl⟩
      exact hall w hw

end Criterion

/-! ## 2. The numbers of the manifest -/

namespace Json

@[simp] theorem floats_null : Json.null.floats = [] := rfl

@[simp] theorem floats_bool (b : Bool) : (Json.bool b).floats = [] := rfl

@[simp] theorem floats_int (n : Int) : (Json.int n).floats = [] := rfl

@[simp] theorem floats_float (x : Binary64) : (Json.float x).floats = [x] := rfl

@[simp] theorem floats_text (t : Text) : (Json.text t).floats = [] := rfl

@[simp] theorem floats_string (s : String) : (Json.string s).floats = [] := rfl

@[simp] theorem floats_list (items : List Json) : (Json.list items).floats = items.flatMap floats := by
  rw [floats, floatsOfItems_eq, List.flatMap_def]

@[simp] theorem floats_record (members : List (String × Json)) :
    (record members).floats = members.flatMap fun m => m.2.floats := by
  rw [record, floats, floatsOfMembers_eq, List.map_map, List.flatMap_def]
  rfl

end Json

theorem Subset.floats_toJson (s : Subset) : s.toJson.floats = [] := by
  simp [Subset.toJson]

theorem DataType.floats_toJson (d : DataType) : d.toJson.floats = [] := by
  cases hd : d.format <;> simp [DataType.toJson, hd]

theorem Hierarchy.floats_toJson (h : Hierarchy) : h.toJson.floats = [] := by
  unfold Hierarchy.toJson
  simp only [Json.floats_list, List.flatMap_map, List.flatMap_eq_nil_iff]
  intro row _ v _
  cases v <;> rfl

/-- **The numbers that the engine gets with a criterion are its own.** -/
theorem Criterion.floats_forEngine {hierarchies : Assoc Text Hierarchy} {subset : Option Subset} {c : Criterion}
    {v : Json} (h : c.forEngine hierarchies subset = .ok v) : v.floats = c.numbers := by
  obtain ⟨-, rfl⟩ := (forEngine_ok_iff hierarchies subset).mp h
  have hreferred : (c.referred hierarchies subset).flatMap (fun m => m.2.floats) = [] := by
    unfold referred
    split
    · cases subset <;> simp [Subset.floats_toJson]
    · cases subset <;> simp [Subset.floats_toJson]
    · next a _ => cases hierarchies.get? a <;> simp [Hierarchy.floats_toJson]
    · rfl
  have htags : c.grammar.tagMembers.flatMap (fun m => m.2.floats) = [] := by
    simp [Grammar.tagMembers, List.flatMap_map]
  rw [Json.floats_record, members, List.flatMap_append, List.flatMap_append, hreferred, htags]
  cases c <;> simp [fields, numbers, quantities]

theorem Criterion.floats_allForEngine {hierarchies : Assoc Text Hierarchy} {subset : Option Subset}
    {cs : List Criterion} {vs : List Json} (h : allForEngine hierarchies subset cs = .ok vs) :
    vs.flatMap Json.floats = cs.flatMap numbers := by
  have hbound := (Outcome.mapM_ok_iff _ _ _).mp h
  clear h
  induction hbound with
  | nil => rfl
  | cons hv _ ih => rw [List.flatMap_cons, List.flatMap_cons, floats_forEngine hv, ih]

namespace Config

theorem floats_entryOf (name : Text) (role : Attributes.Role) (d : Option DataType) (h : Option Hierarchy) :
    (entryOf name role d h).floats = [] := by
  cases d <;> cases h <;>
    simp [entryOf, typeMember, hierarchyMember, DataType.floats_toJson, Hierarchy.floats_toJson]

/-- No attribute has a number. -/
theorem floats_attributeEntry {c : Config} {name : Text} {role : Attributes.Role} {v : Json}
    (h : c.attributeEntry name role = .ok v) : v.floats = [] := by
  by_cases hr : role = .quasiIdentifying
  · subst hr
    cases hget : c.hierarchies.get? name with
    | none =>
      unfold attributeEntry at h
      simp only [hget] at h
      cases h
    | some tree =>
      rw [attributeEntry_quasiIdentifying hget] at h
      exact Except.ok.inj h ▸ floats_entryOf _ _ _ _
  · rw [attributeEntry_other hr] at h
    exact Except.ok.inj h ▸ floats_entryOf _ _ _ _

/-- **The numbers of the manifest** are those of the criteria, and the suppression limit. -/
theorem floats_manifest {c : Config} {input output : Text} {m : Json} (h : c.manifest input output = .ok m) :
    m.floats = c.criteria.flatMap Criterion.numbers ++ [c.suppression] := by
  obtain ⟨attributes, hattributes, h⟩ := (Outcome.bind_ok_iff _ _ _).mp h
  obtain ⟨criteria, hcriteria, h⟩ := (Outcome.bind_ok_iff _ _ _).mp h
  obtain rfl := Except.ok.inj h
  have hnone : attributes.flatMap Json.floats = [] := by
    rw [List.flatMap_eq_nil_iff]
    intro v hv
    obtain ⟨⟨name, role⟩, -, hentry⟩ := Outcome.exists_of_forall₂ ((Outcome.mapM_ok_iff _ _ _).mp hattributes) v hv
    exact floats_attributeEntry hentry
  cases hsubset : c.subset <;>
    simp [hnone, Criterion.floats_allForEngine hcriteria, Subset.floats_toJson]

end Config

/-- A suppression limit is between zero and one. -/
theorem Options.inUnitInterval_of_suppressionLimit {v : Json} {x : Binary64}
    (h : suppressionLimit v = .ok x) : x.inUnitInterval = true := by
  obtain ⟨y, -, h⟩ := (Outcome.bind_ok_iff _ _ _).mp h
  split at h
  · next hy =>
    cases h
    exact hy
  · cases h

theorem Binary64.isFinite_of_inUnitInterval {x : Binary64} (h : x.inUnitInterval = true) : x.isFinite = true := by
  cases x with
  | finite negative rank => rfl
  | infinite negative => cases h
  | nan => cases h

/-- The criteria of an accepted configuration are those of the criteria option. -/
theorem Plan.Makes.parseOption {o : Options} {p : Plan} (h : Plan.Makes o p) :
    ∃ t, Options.worded (o.value "criteria") = .ok (some t) ∧ Criterion.parseOption (some t) = .ok p.criteria := by
  obtain ⟨t?, ht, hread⟩ := (Outcome.bind_ok_iff _ _ _).mp h.criteria
  obtain ⟨cs, hcs, hsome⟩ := (Outcome.bind_ok_iff _ _ _).mp hread
  cases t? with
  | none =>
    cases hcs
    cases hsome
  | some t =>
    refine ⟨t, ht, ?_⟩
    split at hsome
    · cases hsome
    · cases hsome
      exact hcs

/-- **The manifest is JSON exactly if the numbers of the criteria option are in range.** Whatever text is read as
criteria, the numbers of the criteria are those that it writes, none of them NaN, and all finite exactly if
what is written is in range. The numbers of the manifest of an accepted configuration are those of its criteria,
and the suppression limit, which is between zero and one; and its text has one of the words `Infinity` and `NaN`
outside strings exactly if a number of the criteria option is out of range. -/
theorem manifest_numbers_iff (fs : FileSystem) (o : Options) (separator criteria : Text) :
    (∀ cs, Criterion.parseOption (some criteria) = .ok cs →
      Criterion.NumbersOf criteria (cs.flatMap Criterion.numbers)) ∧
    ∀ c, Config.parse fs o separator = .ok c →
      ∃ t, Options.worded (o.value "criteria") = .ok (some t) ∧ Criterion.parseOption (some t) = .ok c.criteria ∧
        c.suppression.inUnitInterval = true ∧
        ∀ input output m, c.manifest input output = .ok m →
          m.floats = c.criteria.flatMap Criterion.numbers ++ [c.suppression] ∧ .nan ∉ m.floats ∧
          (m.isFinite = true ↔ ∀ w, Criterion.WritesNumber t w → w.InRange) ∧
          (Json.HasWord (Json.outside false m.indented) ↔ ∃ w, Criterion.WritesNumber t w ∧ ¬w.InRange) := by
  refine ⟨fun _ => Criterion.numbersOf_of_parseOption, fun c hc => ?_⟩
  obtain ⟨p, trees, hp, -, hconfig⟩ := (Config.parse_ok_iff _ _ _ _).mp hc
  obtain ⟨t, ht, hcriteria⟩ := hp.parseOption
  have hlimit := Options.inUnitInterval_of_suppressionLimit hp.suppression
  rw [show p.criteria = c.criteria by rw [hconfig]] at hcriteria
  rw [show p.suppression = c.suppression by rw [hconfig]] at hlimit
  refine ⟨t, ht, hcriteria, hlimit, fun input output m hm => ?_⟩
  have hfloats := Config.floats_manifest hm
  obtain ⟨-, hnan, hrange⟩ := Criterion.numbersOf_of_parseOption hcriteria
  have hfinite : m.isFinite = true ↔ ∀ w, Criterion.WritesNumber t w → w.InRange := by
    rw [← hrange, Json.isFinite, List.all_eq_true, hfloats, List.forall_mem_append]
    exact and_iff_left (List.forall_mem_singleton.mpr (Binary64.isFinite_of_inUnitInterval hlimit))
  refine ⟨hfloats, ?_, hfinite, ?_⟩
  · rw [hfloats, List.mem_append, List.mem_singleton]
    rintro (h | h)
    · exact hnan h
    · rw [← h] at hlimit
      cases hlimit
  · rw [Json.hasWord_indented_iff, ← Bool.not_eq_true, hfinite]
    push Not
    rfl

/-- A criterion with a number. -/
def entropyText (number : Text) : Text := "a=ENTROPY-(".toList ++ number ++ ")-DIVERSITY".toList

/-- Options with this criterion alone. -/
def entropyOptions (number : Text) : Options := [("criteria".toList, .text (entropyText number))]

/-- The configuration of these options. -/
def entropyConfig (l : Binary64) : Config where
  attributes := ⟨[], [], [], []⟩
  criteria := [.entropyLDiversity "a".toList l]
  dataTypes := []
  subset := none
  metric := .entropy
  suppression := .zero
  practicalMonotonicity := false
  hierarchies := []
  separator := [';']

/-- There is nothing in this file system. -/
def noFiles : FileSystem := ⟨[], [], []⟩

/-- A criterion with a number in range. -/
theorem manifest_numbers_in_range :
    Config.parse noFiles (entropyOptions "1.5".toList) [';'] =
        .ok (entropyConfig (Numeral.Written.value ⟨false, ['1'], ['5'], false, []⟩)) ∧
      (∀ w, Criterion.WritesNumber (entropyText "1.5".toList) w → w.InRange) ∧
      ∃ m, (entropyConfig (Numeral.Written.value ⟨false, ['1'], ['5'], false, []⟩)).manifest "in.csv".toList
        "out.csv".toList = .ok m ∧ ¬Json.HasWord (Json.outside false m.indented) := by
  have hc : Config.parse noFiles (entropyOptions "1.5".toList) [';'] =
      .ok (entropyConfig (Numeral.Written.value ⟨false, ['1'], ['5'], false, []⟩)) := by rfl
  have hm : ∃ m, (entropyConfig (Numeral.Written.value ⟨false, ['1'], ['5'], false, []⟩)).manifest
      "in.csv".toList "out.csv".toList = .ok m := ⟨_, rfl⟩
  obtain ⟨m, hm⟩ := hm
  obtain ⟨-, hconfig⟩ := manifest_numbers_iff noFiles (entropyOptions "1.5".toList) [';'] (entropyText "1.5".toList)
  obtain ⟨t, ht, -, -, hmanifest⟩ := hconfig _ hc
  obtain ⟨hfloats, -, hrange, hword⟩ := hmanifest _ _ _ hm
  obtain rfl : entropyText "1.5".toList = t := Option.some.inj (Except.ok.inj ht)
  have hfinite : m.isFinite = true := by
    rw [Json.isFinite, hfloats]
    decide +kernel
  refine ⟨hc, hrange.mp hfinite, m, hm, fun h => ?_⟩
  obtain ⟨w, hw, hno⟩ := hword.mp h
  exact hno (hrange.mp hfinite w hw)

/-- **A criterion with a number out of range**, which the manifest has as `Infinity`. -/
theorem manifest_out_of_range :
    Config.parse noFiles (entropyOptions "1e400".toList) [';'] = .ok (entropyConfig (.infinite false)) ∧
      ∃ m, (entropyConfig (.infinite false)).manifest "in.csv".toList "out.csv".toList = .ok m ∧
        .infinite false ∈ m.floats ∧ Json.HasWord (Json.outside false m.indented) := by
  refine ⟨by rfl, _, rfl, ?_, (Json.hasWord_indented_iff _).mpr ?_⟩
  · simp [entropyConfig]
  · decide

end Anonymization
