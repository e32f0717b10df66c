import Anonymization.Database.Spec
import Anonymization.Proofs.Criterion.Recognition
import Anonymization.Settings.Attributes
import Anonymization.Settings.DataType
/-!
# What the tokens of the options say

Three options and the criteria list tokens `name=value`, and read the two sides of each.

* `HierarchySays`, `DataTypeSays`, `DatabaseSays`, `Grammar.CriterionSays` -- what a token says in each of them;
* `parseHierarchies_ok_iff`, `DataType.parseOption_ok_iff`, `DatabaseSpec.parseOption_ok_iff`,
  `Grammar.recognise_keyed_some_iff` -- **a list is accepted exactly when each of its tokens says something**;
* `read_up_to_surplus` -- **all four read a token without the equal signs that it has too many at its
  end, and refuse any other token with more or fewer than one**.
-/

namespace Anonymization

open Anonymization.Field

/-- A token of a list says nothing. -/
def HasMute {α : Type} (Says : Text → α → Prop) (tokens : List Text) : Prop :=
  ∃ token ∈ tokens, ∀ a, ¬Says token a

/-- Where a token says nothing, reading them one by one ends with the failure of a token. -/
theorem HasMute.mapM_fails {α : Type} {Says : Text → α → Prop} {tokens : List Text}
    (h : HasMute Says tokens) {f : Text → Except Failure α} (hf : ∀ t a, f t = .ok a ↔ Says t a) :
    ∃ t ∈ tokens, ∃ e, f t = .error e ∧ tokens.mapM f = .error e := by
  obtain ⟨token, ht, hno⟩ := h
  exact Outcome.mapM_fails ⟨token, ht, fun a ha => hno a ((hf token a).mp ha)⟩

/-! ## 1. Hierarchies -/

/-- What a token of the hierarchies option says: an attribute and its file. -/
def HierarchySays (token : Text) (entry : Text × Text) : Prop :=
  ∃ left right surplus, Says token left right surplus ∧ Text.allBlank left = false ∧
    entry = (Text.trim left, Text.trim right)

namespace Attributes

theorem parseHierarchyToken_ok_iff (token : Text) (entry : Text × Text) :
    parseHierarchyToken token = .ok entry ↔ HierarchySays token entry := by
  unfold parseHierarchyToken
  constructor
  · intro h
    split at h
    · cases h
    · next left right hp =>
      split at h
      · cases h
      · next hb =>
        obtain ⟨surplus, hs⟩ := (pair?_iff token left right).mp hp
        exact ⟨left, right, surplus, hs, by simpa using hb, (Except.ok.inj h).symm⟩
  · rintro ⟨left, right, surplus, hs, hb, rfl⟩
    rw [(pair?_iff token left right).mpr ⟨surplus, hs⟩]
    simp [hb]

theorem parseHierarchyToken_error {token : Text} {e : Failure}
    (h : parseHierarchyToken token = .error e) :
    e = .malformedHierarchySpec token := by
  unfold parseHierarchyToken at h
  split at h
  · exact (Except.error.inj h).symm
  · split at h
    · exact (Except.error.inj h).symm
    · cases h

theorem parseHierarchies_ok_iff (separator : Text) (ps : List Text) (m : Assoc Text Text) :
    parseHierarchies separator ps = .ok m ↔
      ∃ entries, List.Forall₂ HierarchySays (splitPieces separator false ps) entries ∧
        Assoc.ofList entries = m := by
  unfold parseHierarchies
  rw [Outcome.map_ok_iff]
  simp only [Outcome.mapM_ok_iff, parseHierarchyToken_ok_iff]

theorem parseHierarchies_error {separator : Text} {ps : List Text}
    (h : HasMute HierarchySays (splitPieces separator false ps)) :
    ∃ token, parseHierarchies separator ps = .error (.malformedHierarchySpec token) := by
  obtain ⟨t, -, e, he, hm⟩ := h.mapM_fails parseHierarchyToken_ok_iff
  refine ⟨t, (Outcome.map_error_iff _ _ _).mpr ?_⟩
  rw [hm, parseHierarchyToken_error he]

end Attributes

/-! ## 2. Data types -/

/-- What a token of the datatype option says: an attribute and its type, and a format that the type
has no use for. -/
def DataTypeSays (token : Text) (entry : Text × DataType × Option IgnoredFormat) : Prop :=
  ∃ left right surplus d, Says token left right surplus ∧ Text.allBlank left = false ∧
    DataType.parse right = .ok d ∧ entry = (unescapeParentheses (Text.trim left), d)

/-- The failures of the datatype option. -/
inductive DataTypeFailure : Failure → Prop where
  | malformed (spec : Text) : DataTypeFailure (.malformedDataTypeSpec spec)
  | unknown (word : Text) : DataTypeFailure (.unknownDataType word)

namespace DataType

theorem parse_error {spec : Text} {e : Failure} (h : parse spec = .error e) :
    DataTypeFailure e := by
  unfold parse at h
  split at h
  · rw [← Except.error.inj h]
    exact .malformed spec
  · next word _ _ =>
    split at h
    · rw [← Except.error.inj h]
      exact .unknown word
    · split at h
      · cases h
      · split at h <;> cases h

theorem parseToken_ok_iff (token : Text) (entry : Text × DataType × Option IgnoredFormat) :
    parseToken token = .ok entry ↔ DataTypeSays token entry := by
  unfold parseToken
  constructor
  · intro h
    split at h
    · cases h
    · next left right hp =>
      split at h
      · cases h
      · next hb =>
        obtain ⟨d, hd, he⟩ := (Outcome.map_ok_iff _ _ _).mp h
        obtain ⟨surplus, hs⟩ := (pair?_iff token left right).mp hp
        exact ⟨left, right, surplus, d, hs, by simpa using hb, hd, he.symm⟩
  · rintro ⟨left, right, surplus, d, hs, hb, hd, rfl⟩
    rw [(pair?_iff token left right).mpr ⟨surplus, hs⟩]
    simp [hb, hd, Except.map]

theorem parseToken_error {token : Text} {e : Failure} (h : parseToken token = .error e) :
    DataTypeFailure e := by
  unfold parseToken at h
  split at h
  · rw [← Except.error.inj h]
    exact .malformed token
  · split at h
    · rw [← Except.error.inj h]
      exact .malformed token
    · exact parse_error ((Outcome.map_error_iff _ _ _).mp h)

/-- Reading tokens is reading each of them. -/
theorem readTokens_eq (ts : List Text) :
    (∃ entries, readTokens ts = (entries, none) ∧ ts.mapM parseToken = .ok entries) ∨
      ∃ entries e, readTokens ts = (entries, some e) ∧ ts.mapM parseToken = .error e := by
  induction ts with
  | nil => exact .inl ⟨[], rfl, rfl⟩
  | cons token ts ih =>
    rw [readTokens, List.mapM_cons]
    cases parseToken token with
    | error e => exact .inr ⟨[], e, rfl, rfl⟩
    | ok entry =>
      rcases ih with ⟨entries, hr, hm⟩ | ⟨entries, e, hr, hm⟩
      · exact .inl ⟨entry :: entries, by rw [hr], by rw [hm]; rfl⟩
      · exact .inr ⟨entry :: entries, e, by rw [hr], by rw [hm]; rfl⟩

theorem parseOption_eq (separator : Text) (ps : List Text) :
    parseOption separator ps =
      ((tokens separator ps).mapM parseToken).map fun entries => Assoc.ofList
        (entries.map fun (name, d, _) => (name, d)) := by
  unfold parseOption
  rcases readTokens_eq (tokens separator ps) with ⟨entries, hr, hm⟩ | ⟨entries, e, hr, hm⟩
  · rw [hr, hm]
    rfl
  · rw [hr, hm]
    rfl

theorem parseOption_ok_iff (separator : Text) (ps : List Text) (m : Assoc Text DataType) :
    parseOption separator ps = .ok m ↔
      ∃ entries, List.Forall₂ DataTypeSays (splitPieces separator true ps) entries ∧
        Assoc.ofList (entries.map fun (name, d, _) => (name, d)) = m := by
  rw [parseOption_eq, Outcome.map_ok_iff]
  simp only [Outcome.mapM_ok_iff, parseToken_ok_iff]
  rfl

theorem parseOption_error {separator : Text} {ps : List Text}
    (h : HasMute DataTypeSays (splitPieces separator true ps)) :
    ∃ e, DataTypeFailure e ∧ parseOption separator ps = .error e := by
  obtain ⟨t, -, e, he, hm⟩ := h.mapM_fails parseToken_ok_iff
  refine ⟨e, parseToken_error he, ?_⟩
  rw [parseOption_eq, Outcome.map_error_iff]
  exact hm

end DataType

/-! ## 3. The database -/

/-- What a token of the database option says: a key and its value. -/
def DatabaseSays (token : Text) (entry : DatabaseSpec.Key × Text) : Prop :=
  ∃ left right surplus key, Says token left right surplus ∧
    DatabaseSpec.Key.ofWord? (Text.trim left) = some key ∧ entry = (key, Text.trim right)

namespace DatabaseSpec

/-- The tokens of the database option. -/
def tokens (separator option : Text) : List Text :=
  split separator false (dropBrackets (Text.trim option))

theorem parseToken_ok_iff (token : Text) (entry : Key × Text) :
    parseToken token = .ok entry ↔ DatabaseSays token entry := by
  unfold parseToken
  constructor
  · intro h
    split at h
    · cases h
    · next left right hp =>
      split at h
      · cases h
      · next key hk =>
        obtain ⟨surplus, hs⟩ := (pair?_iff token left right).mp hp
        exact ⟨left, right, surplus, key, hs, hk, (Except.ok.inj h).symm⟩
  · rintro ⟨left, right, surplus, key, hs, hk, rfl⟩
    rw [(pair?_iff token left right).mpr ⟨surplus, hs⟩]
    simp [hk]

theorem parseToken_error {token : Text} {e : Failure} (h : parseToken token = .error e) :
    ∃ fault, e = .malformedDatabaseSpec token fault := by
  unfold parseToken at h
  split at h
  · exact ⟨_, (Except.error.inj h).symm⟩
  · split at h
    · exact ⟨_, (Except.error.inj h).symm⟩
    · cases h

theorem parseValues_ok_iff (separator option : Text) (m : Assoc Key Text) :
    parseValues separator option = .ok m ↔
      ∃ entries, List.Forall₂ DatabaseSays (tokens separator option) entries ∧
        Assoc.ofList entries = m := by
  unfold parseValues
  rw [Outcome.map_ok_iff]
  simp only [Outcome.mapM_ok_iff, parseToken_ok_iff]
  rfl

/-- A blank option has no tokens. -/
theorem tokens_of_allBlank {separator option : Text} (h : Text.allBlank option = true) :
    tokens separator option = [] := by
  unfold tokens
  rw [(Text.trim_eq_nil_iff option).mpr h]
  rfl

theorem parseOption_eq (separator : Text) {option : Text} (hb : ¬Text.allBlank option = true) :
    parseOption separator (some option) =
      parseValues separator option >>= fun values => (ofValues option values).map some := by
  unfold parseOption
  simp only [if_neg hb]
  cases parseValues separator option with
  | error e => rfl
  | ok values =>
    show (ofValues option values >>= _) = (ofValues option values).map some
    cases ofValues option values <;> rfl

theorem parseOption_ok_iff (separator option : Text) (s : DatabaseSpec) :
    parseOption separator (some option) = .ok (some s) ↔
      ∃ entries, List.Forall₂ DatabaseSays (tokens separator option) entries ∧
        ofValues option (Assoc.ofList entries) = .ok s := by
  by_cases hb : Text.allBlank option = true
  · rw [tokens_of_allBlank hb]
    simp only [parseOption, hb, ↓reduceIte, List.forall₂_nil_left_iff, exists_eq_left]
    constructor
    · intro h
      cases h
    · intro h
      cases h
  · rw [parseOption_eq separator hb, Outcome.bind_ok_iff]
    simp only [parseValues_ok_iff, Outcome.map_ok_iff, Option.some.injEq, exists_eq_right]
    constructor
    · rintro ⟨m, ⟨entries, he, rfl⟩, hs⟩
      exact ⟨entries, he, hs⟩
    · intro ⟨entries, he, hs⟩
      exact ⟨_, ⟨entries, he, rfl⟩, hs⟩

theorem parseOption_error {separator option : Text}
    (h : HasMute DatabaseSays (tokens separator option)) :
    ∃ token fault,
      parseOption separator (some option) = .error (.malformedDatabaseSpec token fault) := by
  obtain ⟨t, ht, e, he, hm⟩ := h.mapM_fails parseToken_ok_iff
  obtain ⟨fault, rfl⟩ := parseToken_error he
  have hblank : ¬Text.allBlank option = true := by
    intro hb
    rw [tokens_of_allBlank hb] at ht
    cases ht
  refine ⟨t, fault, ?_⟩
  have hv : parseValues separator option = .error (.malformedDatabaseSpec t fault) :=
    (Outcome.map_error_iff _ _ _).mpr hm
  rw [parseOption_eq separator hblank, hv]
  rfl

end DatabaseSpec

/-! ## 4. Criteria with an attribute -/

namespace Grammar

/-- What a token of a grammar with an attribute holds: the attribute, and what stands for the numbers
of its form. -/
def Holds (g : Grammar) (token a : Text) (cs : List Captured) : Prop :=
  ∃ left right surplus, Says token left right surplus ∧ Text.allBlank left = false ∧
    a = unescapeParentheses (Text.trim left) ∧ Spells g.pieces cs (Text.trim right)

/-- What such a token says: the criterion with this attribute and these numbers. -/
def CriterionSays (g : Grammar) (token : Text) (c : Criterion) : Prop :=
  ∃ a cs, g.Holds token a cs ∧ Makes g a cs c ∧ KeepsLimit cs

theorem captures_iff_holds {g : Grammar} (hg : g.keyed = true) (token a : Text)
    (cs : List Captured) :
    g.Captures token a cs ↔ g.Holds token a cs := by
  unfold Captures
  simp only [parts?_keyed hg, keyedParts?_iff, matchPieces?_iff]
  constructor
  · rintro ⟨_, ⟨left, right, surplus, hs, hb, ha, rfl⟩, hcs⟩
    exact ⟨left, right, surplus, hs, hb, ha, hcs⟩
  · intro ⟨left, right, surplus, hs, hb, ha, hcs⟩
    exact ⟨_, ⟨left, right, surplus, hs, hb, ha, rfl⟩, hcs⟩

theorem recognise_keyed_some_iff {g : Grammar} (hg : g.keyed = true) (token : Text)
    (c : Criterion) :
    g.recognise token = .ok (some c) ↔ g.CriterionSays token c := by
  rw [recognise_some_iff]
  simp only [captures_iff_holds hg]
  rfl

theorem recognise_keyed_none_iff {g : Grammar} (hg : g.keyed = true) (token : Text) :
    g.recognise token = .ok none ↔ ∀ a cs, ¬g.Holds token a cs := by
  rw [recognise_none_iff]
  simp only [captures_iff_holds hg]

end Grammar

/-! ## 5. Equal signs at the end -/

/-- **A token is read without the equal signs that it has too many at its end**: what the four lists
accept and find is what their tokens say, and a token says something only up to these. A token that
says nothing is refused, so any token is whose equal signs are more or fewer than one in another way. -/
theorem read_up_to_surplus (separator : Text) :
    (∀ ps, (∀ m, Attributes.parseHierarchies separator ps = .ok m ↔
          ∃ entries, List.Forall₂ HierarchySays (splitPieces separator false ps) entries ∧
            Assoc.ofList entries = m) ∧
        (HasMute HierarchySays (splitPieces separator false ps) →
          ∃ token,
            Attributes.parseHierarchies separator ps = .error (.malformedHierarchySpec token))) ∧
      (∀ ps, (∀ m, DataType.parseOption separator ps = .ok m ↔
          ∃ entries, List.Forall₂ DataTypeSays (splitPieces separator true ps) entries ∧
            Assoc.ofList (entries.map fun (name, d, _) => (name, d)) = m) ∧
        (HasMute DataTypeSays (splitPieces separator true ps) →
          ∃ e, DataTypeFailure e ∧ DataType.parseOption separator ps = .error e)) ∧
      (∀ option, (∀ s, DatabaseSpec.parseOption separator (some option) = .ok (some s) ↔
          ∃ entries, List.Forall₂ DatabaseSays (DatabaseSpec.tokens separator option) entries ∧
            DatabaseSpec.ofValues option (Assoc.ofList entries) = .ok s) ∧
        (HasMute DatabaseSays (DatabaseSpec.tokens separator option) → ∃ token fault,
          DatabaseSpec.parseOption separator (some option) =
            .error (.malformedDatabaseSpec token fault))) ∧
      (∀ (g : Grammar) token, g.keyed = true →
        (∀ c, g.recognise token = .ok (some c) ↔ g.CriterionSays token c) ∧
          (g.recognise token = .ok none ↔ ∀ a cs, ¬g.Holds token a cs)) ∧
      ∀ token left right surplus, Says token left right surplus →
        equalSigns token = surplus + 1 := by
  refine ⟨fun ps => ⟨?_, ?_⟩, fun ps => ⟨?_, ?_⟩, fun option => ⟨?_, ?_⟩,
    fun g token hg => ⟨?_, ?_⟩, ?_⟩
  · exact Attributes.parseHierarchies_ok_iff separator ps
  · exact Attributes.parseHierarchies_error
  · exact DataType.parseOption_ok_iff separator ps
  · exact DataType.parseOption_error
  · exact DatabaseSpec.parseOption_ok_iff separator option
  · exact DatabaseSpec.parseOption_error
  · exact Grammar.recognise_keyed_some_iff hg token
  · exact Grammar.recognise_keyed_none_iff hg token
  · intro token left right surplus h
    exact h.equalSigns_eq

/-- Two equal signs in one token, and its path is read without the second. -/
theorem accepted_with_two_equal_signs :
    (∃ token ∈ splitPieces listSeparator false (pieces "age=h.csv=".toList), equalSigns token ≠ 1) ∧
      Attributes.parseHierarchies listSeparator (pieces "age=h.csv=".toList) =
        .ok [("age".toList, "h.csv".toList)] := by
  refine ⟨⟨"age=h.csv=".toList, ?_, ?_⟩, ?_⟩
  · decide
  · decide
  · decide

end Anonymization
