import Anonymization.Engine.Manifest
import Anonymization.Proofs.Assoc
import Anonymization.Proofs.Criterion.Writing
import Anonymization.Proofs.Outcome
/-!
# Criteria, bound for the engine

An object for the engine begins with the tags of a kind of criterion, then come the fields of the
criterion, then what the criterion was bound to. The tags tell the kind, and the fields the rest.

* `Json.same` -- equality of JSON values as values;
* `forEngine_cases` -- **a criterion is bound exactly if what it refers to is there**;
* `meets_of_meets` -- what agrees with an object as a whole agrees with its tags and with its fields;
* `same_iff`, `eq_iff` -- criteria are equal exactly if their kinds and fields are;
* `allForEngine_faithful` -- **a list of criteria is bound one by one, and two objects are equal exactly
  if their criteria are; or the first criterion that refers to something missing is reported**.
-/

namespace Anonymization

/-! ## 1. Equality of values -/

namespace Json

/-- The whole number that a value is, if it is one. A truth value counts as one or zero. -/
def whole? : Json → Option Int
  | .int n => some n
  | .bool b => some b.toNat
  | .float x => x.position?.bind fun p =>
    if p % Binary64.stepsInOne = 0 then some (p / Binary64.stepsInOne) else none
  | _ => none

mutual

/-- Equality of values: numbers are compared as numbers, and what is no number equals nothing; the
members of objects may come in any order. -/
def same : Json → Json → Bool
  | .null, .null => true
  | .text t, .text t' => t == t'
  | .list items, .list items' => sameItems items items'
  | .object members, .object members' =>
    members.length == members'.length && sameMembers members members'
  | .float x, .float x' => x.sameNumber x'
  | v, v' => match v.whole?, v'.whole? with
    | some n, some n' => n == n'
    | _, _ => false

/-- The items are equal place by place. -/
def sameItems : List Json → List Json → Bool
  | [], [] => true
  | v :: rest, v' :: rest' => same v v' && sameItems rest rest'
  | _, _ => false

/-- Each of the members equals that of its name. -/
def sameMembers : List (Text × Json) → List (Text × Json) → Bool
  | [], _ => true
  | (name, v) :: rest, members => (match Assoc.get? members name with
    | some v' => same v v'
    | none => false) && sameMembers rest members

end

theorem sameMembers_iff {members members' : List (Text × Json)} :
    sameMembers members members' = true ↔
      ∀ p ∈ members, ∃ v', Assoc.get? members' p.1 = some v' ∧ p.2.same v' = true := by
  induction members with
  | nil => simp [sameMembers]
  | cons p rest ih =>
    rw [sameMembers, Bool.and_eq_true, ih, List.forall_mem_cons]
    refine and_congr_left fun _ => ?_
    cases Assoc.get? members' p.1 <;> simp

@[simp] theorem same_int (n n' : Int) : (int n).same (int n') = (n == n') := rfl

@[simp] theorem same_float (x x' : Binary64) : (float x).same (float x') = x.sameNumber x' := rfl

@[simp] theorem same_text (t t' : Text) : (text t).same (text t') = (t == t') := rfl

theorem same_string {s s' : String} : (Json.string s).same (Json.string s') = true ↔ s = s' := by
  rw [Json.string, Json.string, same_text, beq_iff_eq, String.toList_inj]

/-- A list of items that are equal to themselves is equal to itself. -/
theorem same_list_self {items : List Json} (h : ∀ v ∈ items, v.same v = true) :
    (Json.list items).same (.list items) = true := by
  rw [same]
  induction items with
  | nil => rfl
  | cons v rest ih =>
    rw [List.forall_mem_cons] at h
    rw [sameItems, h.1, ih h.2]
    rfl

/-- Each member of the first object has a partner of its name in the second one. -/
def Meets (R : Json → Json → Prop) (members members' : List (String × Json)) : Prop :=
  ∀ p ∈ members, ∃ q ∈ members', q.1 = p.1 ∧ R p.2 q.2

theorem record_eq (members : List (String × Json)) :
    record members = .object (members.map fun p => (p.1.toList, p.2)) :=
  rfl

/-- **Two records are equal as values** exactly if they are equally long and each member of the first
meets one of the second, if the second has each name once. -/
theorem same_record_iff {members members' : List (String × Json)} (hnodup : (members'.map Prod.fst).Nodup) :
    (record members).same (record members') = true ↔
      members.length = members'.length ∧ Meets (fun v v' => v.same v' = true) members members' := by
  have hkeys : (Assoc.keys (members'.map fun p => (p.1.toList, p.2))).Nodup := by
    have hnames := hnodup.map fun _ _ => String.toList_injective
    rw [List.map_map] at hnames
    rwa [Assoc.keys, List.map_map]
  have hget : ∀ (name : String) (v : Json),
      Assoc.get? (members'.map fun p => (p.1.toList, p.2)) name.toList = some v ↔ (name, v) ∈ members' := by
    intro name v
    constructor
    · intro h
      obtain ⟨p, hp, he⟩ := List.mem_map.mp (Assoc.mem_of_get? h)
      obtain ⟨hname, rfl⟩ := Prod.mk.inj he
      exact String.toList_injective hname ▸ hp
    · exact fun h => Assoc.get?_of_mem hkeys (List.mem_map.mpr ⟨(name, v), h, rfl⟩)
  rw [record_eq, record_eq, same, Bool.and_eq_true, beq_iff_eq, List.length_map, List.length_map,
    sameMembers_iff, List.forall_mem_map]
  refine and_congr_right fun _ => forall₂_congr fun p _ => ?_
  simp only [hget]
  constructor
  · rintro ⟨v', hmem, hsame⟩
    exact ⟨(p.1, v'), hmem, rfl, hsame⟩
  · rintro ⟨q, hmem, hname, hsame⟩
    exact ⟨q.2, hname ▸ hmem, hsame⟩

theorem record_injective {members members' : List (String × Json)} (h : record members = record members') :
    members = members' := by
  rw [record_eq, record_eq, Json.object.injEq] at h
  refine List.map_injective_iff.mpr (fun p q he => ?_) h
  obtain ⟨hname, hvalue⟩ := Prod.mk.inj he
  exact Prod.ext (String.toList_injective hname) hvalue

theorem Meets.append {R : Json → Json → Prop} {a a' b b' : List (String × Json)} (ha : Meets R a a')
    (hb : Meets R b b') : Meets R (a ++ b) (a' ++ b') := by
  intro p hp
  rcases List.mem_append.mp hp with hp | hp
  · obtain ⟨q, hq, h⟩ := ha p hp
    exact ⟨q, List.mem_append_left _ hq, h⟩
  · obtain ⟨q, hq, h⟩ := hb p hp
    exact ⟨q, List.mem_append_right _ hq, h⟩

/-- Members of some names meet members of these names. -/
theorem Meets.filter {R : Json → Json → Prop} {members members' : List (String × Json)}
    (h : Meets R members members') (names : List String) :
    Meets R (members.filter fun p => p.1 ∈ names) (members'.filter fun p => p.1 ∈ names) := by
  intro p hp
  rw [List.mem_filter] at hp
  obtain ⟨q, hq, hname, hr⟩ := h p hp.1
  exact ⟨q, List.mem_filter.mpr ⟨hq, hname ▸ hp.2⟩, hname, hr⟩

end Json

/-! ## 2. The parts of an object -/

/-- The tags of a kind of criterion. -/
def Grammar.tags : Grammar → List (String × String)
  | kAnonymity => [("type", "k-anonymity")]
  | dPresence => [("type", "d-presence")]
  | inclusion => [("type", "inclusion")]
  | distinctLDiversity => [("type", "l-diversity"), ("variant", "distinct")]
  | entropyLDiversity => [("type", "l-diversity"), ("variant", "entropy")]
  | recursiveLDiversity => [("type", "l-diversity"), ("variant", "recursive")]
  | hierarchicalTCloseness => [("type", "t-closeness"), ("distance", "hierarchical")]
  | equalTCloseness => [("type", "t-closeness"), ("distance", "equal")]

/-- The members of an object that tell its kind. -/
def Grammar.tagMembers (g : Grammar) : List (String × Json) :=
  g.tags.map fun (name, tag) => (name, .string tag)

/-- **The tags tell the kind**: no kind has all tags of another one. -/
theorem Grammar.eq_of_meets {R : Json → Json → Prop} (hr : ∀ s s', R (.string s) (.string s') → s = s')
    {g g' : Grammar} (h : Json.Meets R g.tagMembers g'.tagMembers) : g = g' := by
  have htags : ∀ t ∈ g.tags, t ∈ g'.tags := by
    intro t ht
    obtain ⟨q, hq, hname, hsame⟩ := h _ (List.mem_map_of_mem ht)
    obtain ⟨t', ht', rfl⟩ := List.mem_map.mp hq
    have he : t = t' := Prod.ext hname.symm (hr _ _ hsame)
    exact he ▸ ht'
  have hall : ∀ g ∈ all, ∀ g' ∈ all, (∀ t ∈ g.tags, t ∈ g'.tags) → g = g' := by decide
  exact hall g (mem_all g) g' (mem_all g') htags

namespace Criterion

variable (hierarchies : Assoc Text Hierarchy) (subset : Option Subset)

/-- The fields of a criterion, as the engine gets them. -/
def fields : Criterion → List (String × Json)
  | kAnonymity k => [("k", .int k)]
  | dPresence dMin dMax => [("d_min", .float dMin), ("d_max", .float dMax)]
  | inclusion => []
  | distinctLDiversity a l => [("attribute", .text a), ("l", .int l)]
  | entropyLDiversity a l => [("attribute", .text a), ("l", .float l)]
  | recursiveLDiversity a c l => [("attribute", .text a), ("c", .float c), ("l", .int l)]
  | hierarchicalTCloseness a t | equalTCloseness a t => [("attribute", .text a), ("t", .float t)]

/-- What a criterion refers to, if it is there. -/
def referred : Criterion → List (String × Json)
  | dPresence _ _ | inclusion => (subset.map fun s => ("subset", s.toJson)).toList
  | hierarchicalTCloseness a _ => ((hierarchies.get? a).map fun h => ("hierarchy", h.toJson)).toList
  | _ => []

/-- All members of the object of a criterion. -/
def members (c : Criterion) : List (String × Json) :=
  c.grammar.tagMembers ++ c.fields ++ c.referred hierarchies subset

/-- What a criterion refers to is there. -/
def Bound : Criterion → Prop
  | dPresence _ _ | inclusion => subset ≠ none
  | hierarchicalTCloseness a _ => a ∈ Assoc.keys hierarchies
  | _ => True

/-- The failure of a criterion that refers to something missing. -/
inductive Refuses : Criterion → Failure → Prop where
  | dPresence {dMin dMax} : Refuses (dPresence dMin dMax) (.missingSubset "d-presence".toList)
  | inclusion : Refuses inclusion (.missingSubset "inclusion".toList)
  | hierarchicalTCloseness {a t} :
    Refuses (hierarchicalTCloseness a t) (.missingHierarchy .hierarchicalCloseness a)

/-- **A criterion is bound exactly if what it refers to is there.** -/
theorem forEngine_cases (c : Criterion) :
    (c.Bound hierarchies subset ∧
      c.forEngine hierarchies subset = .ok (Json.record (c.members hierarchies subset))) ∨
    (¬ c.Bound hierarchies subset ∧
      ∃ e, c.Refuses e ∧ c.forEngine hierarchies subset = .error e) := by
  cases c with
  | dPresence x y =>
    cases subset with
    | none => exact .inr ⟨fun h => h rfl, _, .dPresence, rfl⟩
    | some s => exact .inl ⟨Option.some_ne_none s, rfl⟩
  | inclusion =>
    cases subset with
    | none => exact .inr ⟨fun h => h rfl, _, .inclusion, rfl⟩
    | some s => exact .inl ⟨Option.some_ne_none s, rfl⟩
  | hierarchicalTCloseness a t =>
    cases hget : hierarchies.get? a with
    | none =>
      refine .inr ⟨(Assoc.get?_eq_none_iff _ _).mp hget, _, .hierarchicalTCloseness, ?_⟩
      rw [forEngine, needHierarchy, hget]
      rfl
    | some h =>
      refine .inl ⟨Assoc.mem_keys.mpr ⟨h, Assoc.mem_of_get? hget⟩, ?_⟩
      rw [forEngine, needHierarchy, members, referred, hget]
      rfl
  | kAnonymity | distinctLDiversity | entropyLDiversity | recursiveLDiversity | equalTCloseness =>
    exact .inl ⟨trivial, rfl⟩

theorem forEngine_ok_iff {c : Criterion} {o : Json} :
    c.forEngine hierarchies subset = .ok o ↔
      c.Bound hierarchies subset ∧ o = Json.record (c.members hierarchies subset) := by
  rcases forEngine_cases hierarchies subset c with ⟨hbound, hok⟩ | ⟨hbound, e, -, herror⟩
  · rw [hok, Except.ok.injEq, and_iff_right hbound, eq_comm]
  · rw [herror]
    exact ⟨nofun, fun h => absurd h.1 hbound⟩

/-! ## 3. The object tells the criterion -/

variable (c : Criterion)

/-- The names of tags. -/
def tagNames : List String := ["type", "variant", "distance"]

/-- The names of fields. -/
def fieldNames : List String := ["k", "d_min", "d_max", "attribute", "l", "c", "t"]

theorem filter_members :
    ((c.members hierarchies subset).filter fun p => p.1 ∈ tagNames) = c.grammar.tagMembers ∧
      ((c.members hierarchies subset).filter fun p => p.1 ∈ fieldNames) = c.fields := by
  cases c with
  | dPresence | inclusion => cases subset <;> exact ⟨rfl, rfl⟩
  | hierarchicalTCloseness a t =>
    rw [members, referred]
    cases hierarchies.get? a <;> exact ⟨rfl, rfl⟩
  | _ => exact ⟨rfl, rfl⟩

theorem nodup_members : ((c.members hierarchies subset).map Prod.fst).Nodup := by
  cases c with
  | dPresence | inclusion =>
    cases subset <;> simp [members, referred, fields, Grammar.tagMembers, Grammar.tags, grammar]
  | hierarchicalTCloseness a t =>
    rw [members, referred]
    cases hierarchies.get? a <;> simp [fields, Grammar.tagMembers, Grammar.tags, grammar]
  | _ => simp [members, referred, fields, Grammar.tagMembers, Grammar.tags, grammar]

theorem same_iff {c c' : Criterion} : c.same c' = true ↔
    c.grammar = c'.grammar ∧ Json.Meets (fun v v' => v.same v' = true) c.fields c'.fields := by
  cases c <;> cases c' <;> simp [same, grammar, fields, Json.Meets, and_assoc]

theorem eq_iff {c c' : Criterion} : c = c' ↔
    c.grammar = c'.grammar ∧ Json.Meets (· = ·) c.fields c'.fields := by
  cases c <;> cases c' <;> simp [grammar, fields, Json.Meets]

variable {c} {c' : Criterion}

/-- **What agrees with an object as a whole agrees with its kind and with its fields.** -/
theorem meets_of_meets {R : Json → Json → Prop} (hr : ∀ s s', R (.string s) (.string s') → s = s')
    (h : Json.Meets R (c.members hierarchies subset) (c'.members hierarchies subset)) :
    c.grammar = c'.grammar ∧ Json.Meets R c.fields c'.fields := by
  have htags := h.filter tagNames
  have hfields := h.filter fieldNames
  rw [(filter_members hierarchies subset c).1, (filter_members hierarchies subset c').1] at htags
  rw [(filter_members hierarchies subset c).2, (filter_members hierarchies subset c').2] at hfields
  exact ⟨Grammar.eq_of_meets hr htags, hfields⟩

theorem eq_of_record_eq
    (h : Json.record (c.members hierarchies subset) = Json.record (c'.members hierarchies subset)) :
    c = c' := by
  have hmembers := Json.record_injective h
  have hstring : ∀ s s', Json.string s = Json.string s' → s = s' :=
    fun s s' hs => String.toList_injective (Json.text.inj hs)
  refine eq_iff.mpr (meets_of_meets hierarchies subset hstring fun p hp => ?_)
  exact ⟨p, hmembers ▸ hp, rfl, rfl⟩

/-- Equal criteria refer to the same thing. -/
theorem referred_of_same (h : c.same c' = true) : c.fields.length = c'.fields.length ∧
    c.referred hierarchies subset = c'.referred hierarchies subset := by
  cases c <;> cases c' <;> simp_all [same, fields, referred]

/-- What a criterion refers to is equal to itself: there is no number in it. -/
theorem same_referred : ∀ p ∈ c.referred hierarchies subset, p.2.same p.2 = true := by
  have hsubset : ∀ s : Subset, s.toJson.same s.toJson = true := by
    intro s
    cases hkind : s.kind <;>
      simp [Subset.toJson, hkind, Json.record, Json.same, Json.sameMembers, Assoc.get?]
  have hhierarchy : ∀ h : Hierarchy, h.toJson.same h.toJson = true := by
    intro h
    refine Json.same_list_self (List.forall_mem_map.mpr fun row _ => ?_)
    refine Json.same_list_self (List.forall_mem_map.mpr fun v _ => ?_)
    cases v with
    | none => rfl
    | some t => exact beq_self_eq_true t
  cases c with
  | dPresence | inclusion => cases subset <;> simp [referred, hsubset]
  | hierarchicalTCloseness a t =>
    rw [referred]
    cases hierarchies.get? a <;> simp [hhierarchy]
  | _ => exact List.forall_mem_nil _

/-- **Two objects are equal as values exactly if their criteria are.** -/
theorem same_record_iff : (Json.record (c.members hierarchies subset)).same
    (Json.record (c'.members hierarchies subset)) = true ↔ c.same c' = true := by
  rw [Json.same_record_iff (nodup_members hierarchies subset c')]
  constructor
  · rintro ⟨-, hmeets⟩
    exact same_iff.mpr (meets_of_meets hierarchies subset (fun s s' => Json.same_string.mp) hmeets)
  · intro h
    obtain ⟨hgrammar, hfields⟩ := same_iff.mp h
    obtain ⟨hlength, hreferred⟩ := referred_of_same hierarchies subset h
    have htags : Json.Meets (fun v v' => v.same v' = true) c.grammar.tagMembers c'.grammar.tagMembers := by
      rw [← hgrammar]
      intro p hp
      obtain ⟨t, -, rfl⟩ := List.mem_map.mp hp
      exact ⟨_, hp, rfl, Json.same_string.mpr rfl⟩
    have hrest : Json.Meets (fun v v' => v.same v' = true) (c.referred hierarchies subset)
        (c'.referred hierarchies subset) := by
      rw [← hreferred]
      exact fun p hp => ⟨p, hp, rfl, same_referred hierarchies subset p hp⟩
    refine ⟨?_, (htags.append hfields).append hrest⟩
    simp only [members, List.length_append, hgrammar, hlength, hreferred]

/-! ## 4. A list of criteria -/

/-- Each criterion has its object, which depends on nothing but the criterion, the hierarchies and the
subset; and two objects are equal, as values or in every detail, exactly if their criteria are. -/
structure Adapted (cs : List Criterion) (os : List Json) : Prop where
  each : List.Forall₂ (fun c o => c.forEngine hierarchies subset = .ok o) cs os
  apart : ∀ c o c' o', (c, o) ∈ cs.zip os → (c', o') ∈ cs.zip os →
    (o.same o' = true ↔ c.same c' = true) ∧ (o = o' ↔ c = c')

/-- What the criteria refer to is there: the hierarchy of each attribute that is measured along one, and
the subset, if one of them needs it. -/
structure Provided (cs : List Criterion) : Prop where
  hierarchy : ∀ a t, hierarchicalTCloseness a t ∈ cs → a ∈ Assoc.keys hierarchies
  subset : subset = none → (∀ dMin dMax, dPresence dMin dMax ∉ cs) ∧ inclusion ∉ cs

/-- The first criterion of a list that refers to something missing. -/
structure FirstUnbound (cs : List Criterion) (c : Criterion) : Prop where
  unbound : ¬ c.Bound hierarchies subset
  first : ∃ before after, cs = before ++ c :: after ∧ ∀ b ∈ before, b.Bound hierarchies subset

theorem provided_iff {cs : List Criterion} :
    Provided hierarchies subset cs ↔ ∀ c ∈ cs, c.Bound hierarchies subset := by
  constructor
  · rintro ⟨hhierarchy, hsubset⟩ c hc
    cases c with
    | dPresence x y => exact fun hnone => (hsubset hnone).1 x y hc
    | inclusion => exact fun hnone => (hsubset hnone).2 hc
    | hierarchicalTCloseness a t => exact hhierarchy a t hc
    | kAnonymity | distinctLDiversity | entropyLDiversity | recursiveLDiversity | equalTCloseness =>
      exact trivial
  · intro h
    exact ⟨fun a t hc => h _ hc, fun hnone => ⟨fun x y hc => h _ hc hnone, fun hc => h _ hc hnone⟩⟩

theorem adapted_of_ok {cs : List Criterion} {os : List Json}
    (h : allForEngine hierarchies subset cs = .ok os) : Adapted hierarchies subset cs os := by
  have heach := (Outcome.mapM_ok_iff _ _ _).mp h
  have hobject : ∀ c o, (c, o) ∈ cs.zip os → o = Json.record (c.members hierarchies subset) :=
    fun c o hco => ((forEngine_ok_iff _ _).mp ((List.forall₂_iff_zip.mp heach).2 hco)).2
  refine ⟨heach, fun c o c' o' hco hco' => ?_⟩
  rw [hobject c o hco, hobject c' o' hco']
  exact ⟨same_record_iff _ _, eq_of_record_eq _ _, fun he => he ▸ rfl⟩

theorem exists_forEngine_iff {c : Criterion} :
    (∃ o, c.forEngine hierarchies subset = .ok o) ↔ c.Bound hierarchies subset := by
  simp only [forEngine_ok_iff, exists_and_left, exists_eq, and_true]

theorem provided_of_ok {cs : List Criterion} {os : List Json}
    (h : allForEngine hierarchies subset cs = .ok os) : Provided hierarchies subset cs :=
  (provided_iff _ _).mpr fun c hc => (exists_forEngine_iff _ _).mp (Outcome.mapM_ok_mem h c hc)

theorem firstUnbound_of_error {cs : List Criterion} {e : Failure}
    (h : allForEngine hierarchies subset cs = .error e) :
    ∃ c, FirstUnbound hierarchies subset cs c ∧ c.Refuses e := by
  obtain ⟨before, c, after, hcs, hbefore, he⟩ := Outcome.mapM_first_error h
  rcases forEngine_cases hierarchies subset c with ⟨-, hc⟩ | ⟨hbound, e', hrefuses, hc⟩
  · rw [hc] at he
    cases he
  · obtain rfl := Except.error.inj (hc.symm.trans he)
    have hfirst : ∀ b ∈ before, b.Bound hierarchies subset :=
      fun b hb => (exists_forEngine_iff _ _).mp (hbefore b hb)
    exact ⟨c, ⟨hbound, before, after, hcs, hfirst⟩, hrefuses⟩

/-- **Criteria are bound faithfully, or the first that cannot be is reported.** -/
theorem allForEngine_faithful (cs : List Criterion) :
    ((∃ os, allForEngine hierarchies subset cs = .ok os) ↔ Provided hierarchies subset cs) ∧
    (∀ os, allForEngine hierarchies subset cs = .ok os → Adapted hierarchies subset cs os) ∧
    (¬ Provided hierarchies subset cs → ∃ c e, FirstUnbound hierarchies subset cs c ∧ c.Refuses e ∧
      allForEngine hierarchies subset cs = .error e) := by
  have hok : Provided hierarchies subset cs → ∃ os, allForEngine hierarchies subset cs = .ok os := by
    intro h
    rw [provided_iff] at h
    cases hall : allForEngine hierarchies subset cs with
    | ok os => exact ⟨os, rfl⟩
    | error e =>
      obtain ⟨c, hc, -⟩ := firstUnbound_of_error hierarchies subset hall
      obtain ⟨before, after, rfl, -⟩ := hc.first
      exact absurd (h c (by simp)) hc.unbound
  refine ⟨⟨fun ⟨os, hos⟩ => provided_of_ok _ _ hos, hok⟩, fun os => adapted_of_ok _ _, fun h => ?_⟩
  cases hall : allForEngine hierarchies subset cs with
  | ok os => exact absurd (provided_of_ok _ _ hall) h
  | error e =>
    obtain ⟨c, hc, hrefuses⟩ := firstUnbound_of_error hierarchies subset hall
    exact ⟨c, e, hc, hrefuses, rfl⟩

/-- Of two criteria that refer to something missing the first is reported. -/
example : allForEngine [] none
      [.kAnonymity 3, .inclusion, .hierarchicalTCloseness "AGE".toList .one, .dPresence .zero .one] =
    .error (.missingSubset "inclusion".toList) :=
  rfl

end Criterion

end Anonymization
