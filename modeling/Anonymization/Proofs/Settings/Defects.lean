import Anonymization.CommandLine.Program
import Anonymization.Proofs.Criterion.Unambiguity
import Anonymization.Proofs.Hierarchy.Loading
import Anonymization.Proofs.Settings.Config
import Anonymization.Proofs.Settings.Tokens
import Anonymization.Proofs.Table.Refusal
import Anonymization.Proofs.Table.RoundTrip
/-!
# Mistakes that are not reported

A failure is either reported or breaks the program off. Of the options, given as texts, only few can
break it off:

* `Criterion.breaksOff_parseList_iff` -- criteria with a whole number of too many digits;
* `DatabaseSpec.breaksOff_parseOption_iff` -- a port whose characters pass for digits and are no number;
* `FileSystem.breaksOff_readHierarchies_iff` -- a hierarchy file that has an impossible name, is no text,
  is refused as a table, or whose tree is too deep to be measured;
* `Plan.breaksOff_parse_iff`, `Config.breaksOff_parse_iff` -- of a configuration, the criteria and the
  hierarchy files;
* `breaksOff_settings_iff` -- **there is nothing else**, among options that are texts of whole characters.
-/

namespace Anonymization

open Anonymization.Field

/-! ## 1. Breaking off -/

/-- A failure is reported to the user, with its message, or it breaks the program off. -/
theorem CommandLine.endingOf_eq_failed_iff (e : Failure) :
    endingOf e = .finished (.failed e.message) ↔ e.isReported = true := by
  cases e <;> simp [endingOf, Failure.isReported]

/-- The step ends in a failure that is not reported. -/
def BreaksOff {α : Type} (r : Except Failure α) : Prop :=
  ∃ e, r = .error e ∧ e.isReported = false

section

variable {α β : Type}

theorem not_breaksOff_ok (a : α) : ¬BreaksOff (.ok a : Except Failure α) := by
  intro ⟨e, he, _⟩
  cases he

theorem breaksOff_error_iff (e : Failure) :
    BreaksOff (.error e : Except Failure α) ↔ e.isReported = false := by
  simp [BreaksOff]

theorem not_breaksOff_error {e : Failure} (h : e.isReported = true) :
    ¬BreaksOff (.error e : Except Failure α) := by
  simp [breaksOff_error_iff, h]

theorem not_breaksOff_of_isReported {r : Except Failure α}
    (h : ∀ e, r = .error e → e.isReported = true) : ¬BreaksOff r := by
  intro ⟨e, he, hno⟩
  rw [h e he] at hno
  cases hno

/-- Two steps break off where the first does, or the second behind it. -/
theorem breaksOff_bind_iff (x : Except Failure α) (f : α → Except Failure β) :
    BreaksOff (x >>= f) ↔ BreaksOff x ∨ ∃ a, x = .ok a ∧ BreaksOff (f a) := by
  cases x with
  | error e => simp [BreaksOff, bind, Except.bind]
  | ok a => simp [BreaksOff, bind, Except.bind]

theorem breaksOff_map_iff (x : Except Failure α) (f : α → β) :
    BreaksOff (x.map f) ↔ BreaksOff x := by
  unfold BreaksOff
  simp only [Outcome.map_error_iff]

/-- What never breaks off can be left out behind a step. -/
theorem breaksOff_bind_iff_left {x : Except Failure α} {f : α → Except Failure β}
    (hf : ∀ a, ¬BreaksOff (f a)) : BreaksOff (x >>= f) ↔ BreaksOff x := by
  rw [breaksOff_bind_iff]
  exact or_iff_left fun ⟨a, _, h⟩ => hf a h

theorem breaksOff_bind_of_ok {x : Except Failure α} {a : α} (h : x = .ok a)
    (f : α → Except Failure β) : BreaksOff (x >>= f) ↔ BreaksOff (f a) := by
  rw [h]
  rfl

/-- A step for an element and the steps for the rest, whose answers are put together. -/
theorem breaksOff_bind_rest_iff {γ : Type} (x : Except Failure α) (rest : Except Failure β)
    (f : α → β → γ) : BreaksOff (x >>= fun a => rest >>= fun b => .ok (f a b)) ↔
      BreaksOff x ∨ (∃ a, x = .ok a) ∧ BreaksOff rest := by
  rw [breaksOff_bind_iff, ← exists_and_right]
  exact or_congr_right (exists_congr fun a => and_congr_right fun _ =>
    breaksOff_bind_iff_left fun b => not_breaksOff_ok _)

theorem not_breaksOff_bind {x : Except Failure α} {f : α → Except Failure β} (hx : ¬BreaksOff x)
    (hf : ∀ a, ¬BreaksOff (f a)) : ¬BreaksOff (x >>= f) :=
  (breaksOff_bind_iff_left hf).not.mpr hx

/-- Where no element breaks off, all of them do not. -/
theorem not_breaksOff_mapM {f : α → Except Failure β} (hf : ∀ a, ¬BreaksOff (f a)) (xs : List α) :
    ¬BreaksOff (xs.mapM f) := by
  intro ⟨e, he, hno⟩
  obtain ⟨x, -, hx⟩ := Outcome.mapM_error he
  exact hf x ⟨e, hx, hno⟩

/-- What is in front of some element is good, and the element is bad. -/
def ComesTo (Good Bad : α → Prop) (xs : List α) : Prop :=
  ∃ before x after, xs = before ++ x :: after ∧ (∀ y ∈ before, Good y) ∧ Bad x

theorem not_comesTo_nil (Good Bad : α → Prop) : ¬ComesTo Good Bad [] := by
  intro ⟨before, x, after, h, _⟩
  simp at h

theorem comesTo_cons_iff (Good Bad : α → Prop) (x : α) (xs : List α) :
    ComesTo Good Bad (x :: xs) ↔ Bad x ∨ Good x ∧ ComesTo Good Bad xs := by
  constructor
  · intro ⟨before, y, after, h, hgood, hbad⟩
    cases before with
    | nil =>
      obtain ⟨rfl, -⟩ := List.cons.inj h
      exact .inl hbad
    | cons z before =>
      obtain ⟨rfl, rfl⟩ := List.cons.inj h
      obtain ⟨hx, hbefore⟩ := List.forall_mem_cons.mp hgood
      exact .inr ⟨hx, before, y, after, rfl, hbefore, hbad⟩
  · intro h
    rcases h with hbad | ⟨hx, before, y, after, rfl, hgood, hbad⟩
    · exact ⟨[], x, xs, rfl, by simp, hbad⟩
    · exact ⟨x :: before, y, after, rfl, List.forall_mem_cons.mpr ⟨hx, hgood⟩, hbad⟩

end

/-! ## 2. Options that never break off -/

theorem Attributes.not_breaksOff_parseHierarchies (separator : Text) (ps : List Text) :
    ¬BreaksOff (parseHierarchies separator ps) := by
  unfold parseHierarchies
  rw [breaksOff_map_iff]
  refine not_breaksOff_mapM (fun token => not_breaksOff_of_isReported fun e he => ?_) _
  rw [parseHierarchyToken_error he]
  rfl

theorem DataTypeFailure.isReported {e : Failure} (h : DataTypeFailure e) : e.isReported = true := by
  cases h <;> rfl

theorem DataType.not_breaksOff_parseOption (separator : Text) (ps : List Text) :
    ¬BreaksOff (parseOption separator ps) := by
  rw [parseOption_eq, breaksOff_map_iff]
  exact not_breaksOff_mapM
    (fun token => not_breaksOff_of_isReported fun e he => (parseToken_error he).isReported) _

theorem Subset.not_breaksOff_parse (spec : Text) : ¬BreaksOff (parse spec) := by
  unfold parse
  split
  · exact not_breaksOff_error rfl
  · split
    · exact not_breaksOff_error rfl
    · split
      · exact not_breaksOff_error rfl
      · exact not_breaksOff_ok _

theorem Subset.not_breaksOff_parseOption (t? : Option Text) : ¬BreaksOff (parseOption t?) := by
  cases t? with
  | none => exact not_breaksOff_ok _
  | some spec =>
    by_cases hb : Text.allBlank spec = true
    · rw [parseOption, if_pos hb]
      exact not_breaksOff_ok _
    · rw [parseOption, if_neg hb, breaksOff_map_iff]
      exact not_breaksOff_parse spec

theorem Metric.not_breaksOff_parseOption (t? : Option Text) : ¬BreaksOff (parseOption t?) := by
  cases t? with
  | none => exact not_breaksOff_ok _
  | some t =>
    cases hm : all.find? fun m => m.name == Text.capitals (Text.trim t) with
    | some m =>
      simp only [parseOption, hm]
      exact not_breaksOff_ok m
    | none =>
      simp only [parseOption, hm]
      exact not_breaksOff_error rfl

namespace Options

/-- The value of an option that is a text or absent. -/
def given : Option Text → Json
  | none => .null
  | some t => .text t

theorem listed_given (t? : Option Text) : listed (given t?) = .ok (t?.elim [] pieces) := by
  cases t? with
  | none => rfl
  | some t => cases t <;> rfl

theorem worded_given (t? : Option Text) : worded (given t?) = .ok t? := by
  cases t? <;> rfl

theorem number_text (t : Text) : number (.text t) =
    match Numeral.readNumber? t with
    | some x => .ok x
    | none => .error (.unreadableSuppression t) := rfl

theorem not_breaksOff_suppressionLimit (t? : Option Text) :
    ¬BreaksOff (suppressionLimit (given t?)) := by
  have hnumber : ¬BreaksOff (number (given t?)) := by
    cases t? with
    | none => exact not_breaksOff_ok Binary64.zero
    | some t =>
      rw [given, number_text]
      cases Numeral.readNumber? t with
      | some x => exact not_breaksOff_ok x
      | none => exact not_breaksOff_error rfl
  refine not_breaksOff_bind hnumber fun x => ?_
  cases x.inUnitInterval with
  | true => exact not_breaksOff_ok x
  | false => exact not_breaksOff_error rfl

/-- All options are texts or absent. -/
def IsTextual (o : Options) : Prop := ∀ p ∈ o, ∃ t?, p.2 = given t?

variable {o : Options}

theorem IsTextual.value (h : IsTextual o) (name : String) : ∃ t?, o.value name = given t? := by
  unfold Options.value
  cases hv : o.get? name.toList with
  | none => exact ⟨none, rfl⟩
  | some v => exact h _ (Assoc.mem_of_get? hv)

theorem IsTextual.names (h : IsTextual o) (name : String) : ∃ ns, Plan.names o name = .ok ns := by
  obtain ⟨t?, hv⟩ := h.value name
  unfold Plan.names
  rw [hv, listed_given]
  exact ⟨_, rfl⟩

end Options

/-! ## 3. Criteria -/

namespace Criterion

open Grammar

/-- The token is a criterion. -/
def IsToken (t : Text) : Prop := ∃ c, parse Grammar.all 0 t = .ok c

/-- The token is a criterion but for a whole number, which has too many digits. -/
def HasLongNumber (t : Text) : Prop :=
  ∃ g a cs, Captures g (Text.trim t) a cs ∧ ¬KeepsLimit cs

theorem breaksOff_parse_iff (index : Int) (t : Text) :
    BreaksOff (parse Grammar.all index t) ↔ HasLongNumber t := by
  constructor
  · intro hoff
    by_cases hmute : ∀ g a cs, ¬Captures g (Text.trim t) a cs
    · rw [parse_of_mute index hmute, breaksOff_error_iff] at hoff
      cases hoff
    · simp only [not_forall, not_not] at hmute
      obtain ⟨g, a, cs, hcap⟩ := hmute
      obtain ⟨c, hc⟩ := makes_of_captures hcap
      refine ⟨g, a, cs, hcap, fun hl => ?_⟩
      rw [(parse_of_captures mem_all nodup_all index hcap hc).1 hl] at hoff
      exact not_breaksOff_ok c hoff
  · intro ⟨g, a, cs, hcap, hl⟩
    obtain ⟨c, hc⟩ := makes_of_captures hcap
    exact ⟨_, (parse_of_captures mem_all nodup_all index hcap hc).2 hl, rfl⟩

/-- **Criteria break off where the first token that is none has too long a number.** -/
theorem breaksOff_parseTokens_iff (index : Int) (tokens : List Text) :
    BreaksOff (parseTokens Grammar.all index tokens) ↔ ComesTo IsToken HasLongNumber tokens := by
  induction tokens generalizing index with
  | nil => exact iff_of_false (not_breaksOff_ok _) (not_comesTo_nil _ _)
  | cons t ts ih =>
    have hplace : (∃ c, parse Grammar.all index t = .ok c) ↔ IsToken t := by
      unfold IsToken
      simp only [parse_ok_iff mem_all nodup_all]
    rw [comesTo_cons_iff, ← breaksOff_parse_iff index, ← hplace, ← ih (index + 1)]
    exact breaksOff_bind_rest_iff _ _ _

theorem breaksOff_parseList_iff (separator t : Text) :
    BreaksOff (parseList Grammar.all separator t) ↔
      ComesTo IsToken HasLongNumber (split separator true (unbracketed t)) :=
  breaksOff_parseTokens_iff 0 _

theorem breaksOff_parseOption_iff (t? : Option Text) :
    BreaksOff (parseOption t?) ↔ ∃ t, t? = some t ∧
      BreaksOff (parseList Grammar.all listSeparator t) := by
  cases t? with
  | none => exact iff_of_false (not_breaksOff_ok _) fun ⟨t, ht, _⟩ => by cases ht
  | some t => simp only [Option.some.injEq, exists_eq_left', parseOption]

end Criterion

/-! ## 4. The database -/

namespace DatabaseSpec

/-- The values make a specification but for the port: all its characters pass for digits, and not all
are digits that numerals are written with, or there are too many of them. -/
structure HasBadPort (values : Assoc Key Text) : Prop where
  database : ∃ t, values.get? .database = some t
  table : ∃ t, values.get? .table = some t
  type : ∃ t system, values.get? .type = some t ∧ typeOfWord? t = some system
  port : ∃ t, values.get? .port = some t ∧ t ≠ [] ∧ t.all Text.isDigit = true ∧
    ¬(t.all Text.isDecimal = true ∧ t.length ≤ Numeral.digitLimit)

theorem not_breaksOff_required (option : Text) (values : Assoc Key Text) (key : Key) :
    ¬BreaksOff (required option values key) := by
  unfold required
  cases values.get? key with
  | some v => exact not_breaksOff_ok v
  | none => exact not_breaksOff_error rfl

theorem required_ok_iff (option : Text) (values : Assoc Key Text) (key : Key) (v : Text) :
    required option values key = .ok v ↔ values.get? key = some v := by
  unfold required
  cases values.get? key <;> simp

theorem breaksOff_parsePort_iff (option : Text) (port? : Option Text) :
    BreaksOff (parsePort option port?) ↔ ∃ t, port? = some t ∧ t ≠ [] ∧
      t.all Text.isDigit = true ∧
        ¬(t.all Text.isDecimal = true ∧ t.length ≤ Numeral.digitLimit) := by
  cases port? with
  | none => exact iff_of_false (not_breaksOff_ok _) fun ⟨t, ht, _⟩ => by cases ht
  | some t =>
    simp only [Option.some.injEq, exists_eq_left']
    by_cases hdigits : (t.isEmpty || !t.all Text.isDigit) = true
    · rw [parsePort, if_pos hdigits, breaksOff_error_iff]
      refine iff_of_false Bool.true_eq_false.mp fun ⟨hne, hall, _⟩ => ?_
      have hempty : t.isEmpty = false := by simpa using hne
      rw [hempty, hall] at hdigits
      cases hdigits
    · have hport : t ≠ [] ∧ t.all Text.isDigit = true := by
        simp only [Bool.or_eq_true, Bool.not_eq_true', not_or, Bool.not_eq_false,
          List.isEmpty_iff] at hdigits
        exact hdigits
      rw [parsePort, if_neg hdigits, and_iff_right hport.1, and_iff_right hport.2]
      by_cases hdecimal : t.all Text.isDecimal = true
      · have hno : ¬(!t.all Text.isDecimal) = true := by simp [hdecimal]
        rw [if_neg hno, and_iff_right hdecimal]
        unfold Numeral.digitsNumber?
        by_cases hl : t.length ≤ Numeral.digitLimit
        · rw [if_pos hl]
          exact iff_of_false (not_breaksOff_ok _) (not_not_intro hl)
        · rw [if_neg hl]
          exact iff_of_true ⟨_, rfl, rfl⟩ hl
      · rw [if_pos (by simpa using hdecimal)]
        exact iff_of_true ⟨_, rfl, rfl⟩ fun h => hdecimal h.1

theorem breaksOff_ofValues_iff (option : Text) (values : Assoc Key Text) :
    BreaksOff (ofValues option values) ↔ HasBadPort values := by
  unfold ofValues
  simp only [breaksOff_bind_iff, not_breaksOff_required, false_or, required_ok_iff]
  constructor
  · intro h
    obtain ⟨type, htype, database, hdatabase, table, htable, hoff⟩ := h
    cases hsystem : typeOfWord? type with
    | none =>
      rw [hsystem] at hoff
      exact absurd ((breaksOff_error_iff _).mp hoff) Bool.true_eq_false.mp
    | some system =>
      simp only [hsystem, breaksOff_bind_iff] at hoff
      rcases hoff with hoff | ⟨port, -, hoff⟩
      · exact ⟨⟨database, hdatabase⟩, ⟨table, htable⟩, ⟨type, system, htype, hsystem⟩,
          (breaksOff_parsePort_iff _ _).mp hoff⟩
      · exact absurd hoff (not_breaksOff_ok _)
  · intro h
    obtain ⟨database, hdatabase⟩ := h.database
    obtain ⟨table, htable⟩ := h.table
    obtain ⟨type, system, htype, hsystem⟩ := h.type
    refine ⟨type, htype, database, hdatabase, table, htable, ?_⟩
    simp only [hsystem, breaksOff_bind_iff]
    exact .inl ((breaksOff_parsePort_iff _ _).mpr h.port)

theorem not_breaksOff_parseValues (separator option : Text) :
    ¬BreaksOff (parseValues separator option) := by
  unfold parseValues
  rw [breaksOff_map_iff]
  refine not_breaksOff_mapM (fun token => not_breaksOff_of_isReported fun e he => ?_) _
  obtain ⟨fault, rfl⟩ := parseToken_error he
  rfl

/-- **The database option breaks off at a port that passes for a number and is none.** -/
theorem breaksOff_parseOption_iff (separator : Text) (option? : Option Text) :
    BreaksOff (parseOption separator option?) ↔ ∃ option entries, option? = some option ∧
      List.Forall₂ DatabaseSays (tokens separator option) entries ∧
        HasBadPort (Assoc.ofList entries) := by
  cases option? with
  | none =>
    refine iff_of_false (not_breaksOff_ok _) fun h => ?_
    obtain ⟨_, _, h, -⟩ := h
    cases h
  | some option =>
    simp only [Option.some.injEq, exists_and_left, exists_eq_left']
    by_cases hb : Text.allBlank option = true
    · rw [parseOption, if_pos hb, tokens_of_allBlank hb]
      refine iff_of_false (not_breaksOff_ok _) fun h => ?_
      obtain ⟨entries, he, hport⟩ := h
      rw [List.forall₂_nil_left_iff.mp he] at hport
      obtain ⟨t, ht⟩ := hport.database
      cases ht
    · rw [parseOption_eq separator hb, breaksOff_bind_iff]
      simp only [not_breaksOff_parseValues, false_or, breaksOff_map_iff, breaksOff_ofValues_iff,
        parseValues_ok_iff]
      constructor
      · intro h
        obtain ⟨values, ⟨entries, he, hv⟩, hport⟩ := h
        exact ⟨entries, he, hv ▸ hport⟩
      · intro h
        obtain ⟨entries, he, hport⟩ := h
        exact ⟨_, ⟨entries, he, rfl⟩, hport⟩

end DatabaseSpec

/-! ## 5. Hierarchy files -/

namespace FileSystem

variable {fs : FileSystem} {separator : Char}

/-- What breaks off when a hierarchy file is read: its name is none that a file can have, its bytes are
no text, or its text is refused as a table. -/
inductive IsUnreadable (fs : FileSystem) (separator : Char) (path : Text) : Prop where
  | name (h : isPath path = false)
  | bytes {b : ByteArray} (hb : fs.read path = .ok b) (h : Text.decode? b = none)
  | table {b : ByteArray} {t : Text} (hb : fs.read path = .ok b) (ht : Text.decode? b = some t)
      (h : Table.records? separator (Text.lines .kept t) = none)

theorem breaksOff_read_iff (path : Text) : BreaksOff (fs.read path) ↔ isPath path = false := by
  unfold read
  cases hpath : isPath path with
  | false => exact iff_of_true ⟨_, rfl, rfl⟩ rfl
  | true =>
    -- whatever the path leads to, it is a file or reported
    refine iff_of_false ?_ Bool.true_eq_false.mp
    rw [if_neg (by simp)]
    split
    · exact not_breaksOff_error rfl
    · exact not_breaksOff_error rfl
    · exact not_breaksOff_error rfl
    · split
      · exact not_breaksOff_ok _
      · exact not_breaksOff_error rfl

theorem breaksOff_readRecords_iff (path : Text) :
    BreaksOff (fs.readRecords [separator] path) ↔ fs.IsUnreadable separator path := by
  constructor
  · intro hoff
    cases hb : fs.read path with
    | error e =>
      have he : fs.readRecords [separator] path = .error e := by
        unfold readRecords
        rw [hb]
        rfl
      rw [he, breaksOff_error_iff] at hoff
      exact .name ((breaksOff_read_iff path).mp ⟨e, hb, hoff⟩)
    | ok b =>
      rw [readRecords_of_read hb] at hoff
      cases ht : Text.decode? b with
      | none => exact .bytes hb ht
      | some t =>
        refine .table hb ht ?_
        rw [ht] at hoff
        cases hr : Table.records? separator (Text.lines .kept t) with
        | none => rfl
        | some rs =>
          simp only [Table.readRecords, hr] at hoff
          exact absurd hoff (not_breaksOff_ok rs)
  · intro h
    cases h with
    | name h =>
      unfold readRecords
      exact (breaksOff_bind_iff _ _).mpr (.inl ((breaksOff_read_iff path).mpr h))
    | bytes hb h =>
      rw [readRecords_of_read hb, h]
      exact ⟨_, rfl, rfl⟩
    | table hb ht h =>
      rw [readRecords_of_read hb, ht]
      simp only [Table.readRecords, h]
      exact ⟨_, rfl, rfl⟩

theorem not_breaksOff_ofRecords (path : Text) (records : List (List Text)) :
    ¬BreaksOff (Hierarchy.ofRecords path records) := by
  unfold Hierarchy.ofRecords
  split
  · exact not_breaksOff_error rfl
  · split
    · exact not_breaksOff_error rfl
    · exact not_breaksOff_ok _

theorem breaksOff_readHierarchy_iff (path : Text) :
    BreaksOff (fs.readHierarchy [separator] path) ↔ fs.IsUnreadable separator path := by
  unfold readHierarchy
  rw [breaksOff_bind_iff_left (not_breaksOff_ofRecords path), breaksOff_readRecords_iff]

/-- What breaks off when a hierarchy is loaded: its file is unreadable, or its tree has more levels than
can be counted. -/
inductive IsUnloadable (fs : FileSystem) (separator : Char) (path : Text) : Prop where
  | unreadable (h : fs.IsUnreadable separator path)
  | depth {tree : Hierarchy} (ht : fs.readHierarchy [separator] path = .ok tree)
      (h : Hierarchy.depthLimit < tree.height)

theorem breaksOff_loadHierarchy_iff (path : Text) :
    BreaksOff (fs.loadHierarchy [separator] path) ↔ fs.IsUnloadable separator path := by
  unfold loadHierarchy
  rw [breaksOff_bind_iff, breaksOff_readHierarchy_iff]
  constructor
  · intro h
    rcases h with h | ⟨tree, ht, hoff⟩
    · exact .unreadable h
    · refine .depth ht (Nat.not_le.mp fun hle => ?_)
      rw [Hierarchy.measured_of_le hle] at hoff
      exact not_breaksOff_ok tree hoff
  · intro h
    cases h with
    | unreadable h => exact .inl h
    | depth ht h => exact .inr ⟨_, ht, _, Hierarchy.measured_of_gt h, rfl⟩

/-- A hierarchy can be loaded from the file. -/
def HasHierarchy (fs : FileSystem) (separator : Char) (path : Text) : Prop :=
  ∃ tree, fs.loadHierarchy [separator] path = .ok tree

/-- **Hierarchies break off where the first file that gives none is unreadable or too deep.** -/
theorem breaksOff_readHierarchies_iff (files : Assoc Text Text) :
    BreaksOff (fs.readHierarchies [separator] files) ↔
      ComesTo (fun f => fs.HasHierarchy separator f.2) (fun f => fs.IsUnloadable separator f.2)
        files := by
  induction files with
  | nil => exact iff_of_false (not_breaksOff_ok _) (not_comesTo_nil _ _)
  | cons f files ih =>
    obtain ⟨name, path⟩ := f
    rw [comesTo_cons_iff, ← breaksOff_loadHierarchy_iff, ← ih]
    exact breaksOff_bind_rest_iff _ _ _

end FileSystem

/-- **A file with too many columns is too deep**, whatever is in it. -/
theorem Hierarchy.depthLimit_lt_height {rows : List (List Text)} {w : Nat} (hne : rows ≠ [])
    (hwidth : ∀ row ∈ rows, row.length = w) (hwide : depthLimit + 1 < w) :
    depthLimit < (ofRows rows).height := by
  have hheight := height_ofRows hne hwidth (by omega)
  cases htop : commonTop? rows with
  | none =>
    rw [htop] at hheight
    exact hheight ▸ Nat.lt_of_succ_lt hwide
  | some top =>
    rw [htop] at hheight
    exact hheight ▸ Nat.lt_sub_of_add_lt hwide

/-! ## 6. The configuration -/

namespace Plan

variable {o : Options}

theorem breaksOff_criteriaOf_iff {t? : Option Text} (h : o.value "criteria" = Options.given t?) :
    BreaksOff (criteriaOf o) ↔ BreaksOff (Criterion.parseOption t?) := by
  unfold criteriaOf
  rw [h, breaksOff_bind_of_ok (Options.worded_given t?)]
  refine breaksOff_bind_iff_left fun cs => ?_
  cases cs with
  | nil => exact not_breaksOff_error rfl
  | cons c cs => exact not_breaksOff_ok _

theorem not_breaksOff_checkHierarchies (files : Assoc Text Text) (ns : List Text) :
    ¬BreaksOff (checkHierarchies files ns) := by
  induction ns with
  | nil => exact not_breaksOff_ok ()
  | cons name ns ih =>
    rw [checkHierarchies]
    split
    · exact ih
    · exact not_breaksOff_error rfl

/-- **Of all options only the criteria break off** before a file is read. -/
theorem breaksOff_parse_iff (h : o.IsTextual) : BreaksOff (parse o) ↔ BreaksOff (criteriaOf o) := by
  have hnames : ∀ name, ¬BreaksOff (names o name) := by
    intro name
    obtain ⟨ns, hns⟩ := h.names name
    rw [hns]
    exact not_breaksOff_ok ns
  have hlisted : ∀ name, ¬BreaksOff (Options.listed (o.value name)) := by
    intro name
    obtain ⟨t?, hv⟩ := h.value name
    rw [hv, Options.listed_given]
    exact not_breaksOff_ok _
  have hworded : ∀ name, ¬BreaksOff (Options.worded (o.value name)) := by
    intro name
    obtain ⟨t?, hv⟩ := h.value name
    rw [hv, Options.worded_given]
    exact not_breaksOff_ok t?
  have hlimit : ¬BreaksOff (Options.suppressionLimit (o.value "suppression")) := by
    obtain ⟨t?, hv⟩ := h.value "suppression"
    rw [hv]
    exact Options.not_breaksOff_suppressionLimit t?
  obtain ⟨quasi, hquasi⟩ := h.names "quasiidentifying"
  unfold parse
  rw [breaksOff_bind_of_ok hquasi]
  refine breaksOff_bind_iff_left fun criteria => ?_
  refine not_breaksOff_bind (hlisted _) fun _ => ?_
  refine not_breaksOff_bind (DataType.not_breaksOff_parseOption _ _) fun _ => ?_
  refine not_breaksOff_bind (hworded _) fun _ => ?_
  refine not_breaksOff_bind (Subset.not_breaksOff_parseOption _) fun _ => ?_
  refine not_breaksOff_bind (hworded _) fun _ => ?_
  refine not_breaksOff_bind (Metric.not_breaksOff_parseOption _) fun _ => ?_
  refine not_breaksOff_bind hlimit fun _ => ?_
  refine not_breaksOff_bind (hlisted _) fun _ => ?_
  refine not_breaksOff_bind (Attributes.not_breaksOff_parseHierarchies _ _) fun _ => ?_
  refine not_breaksOff_bind (not_breaksOff_checkHierarchies _ _) fun _ => ?_
  refine not_breaksOff_bind (hnames _) fun _ => ?_
  refine not_breaksOff_bind (hnames _) fun _ => ?_
  exact not_breaksOff_bind (hnames _) fun _ => not_breaksOff_ok _

end Plan

/-- **A configuration breaks off at its criteria or at a hierarchy file.** -/
theorem Config.breaksOff_parse_iff {fs : FileSystem} {o : Options} {separator : Char}
    (h : o.IsTextual) :
    BreaksOff (Config.parse fs o [separator]) ↔ BreaksOff (Plan.criteriaOf o) ∨
      ∃ p, Plan.parse o = .ok p ∧ ComesTo (fun f => fs.HasHierarchy separator f.2)
        (fun f => fs.IsUnloadable separator f.2) p.hierarchyFiles := by
  unfold Config.parse
  rw [breaksOff_bind_iff, Plan.breaksOff_parse_iff h]
  refine or_congr_right (exists_congr fun p => and_congr_right fun _ => ?_)
  unfold Plan.load
  rw [← FileSystem.breaksOff_readHierarchies_iff]
  exact breaksOff_bind_iff_left fun trees => not_breaksOff_ok _

/-- **Exactly these mistakes are not reported**, where options are texts or absent: a whole number of too
many digits among the criteria, a port that passes for a number, and a hierarchy file that is unreadable
or too deep. The depth is that of a run from the command line (`Hierarchy.depthLimit`): what calls the
same steps from further inside has less room for them. And a text is made of whole characters here, so
nothing is said of an option that holds half of a surrogate pair. -/
theorem breaksOff_settings_iff (t? : Option Text) (delimiter : Text) (fs : FileSystem) {o : Options}
    (ho : o.IsTextual) (separator : Char) :
    (∀ e, CommandLine.endingOf e = .finished (.failed e.message) ↔ e.isReported = true) ∧
    (¬BreaksOff (Subset.parseOption t?) ∧ ¬BreaksOff (Metric.parseOption t?) ∧
      ¬BreaksOff (Options.suppressionLimit (Options.given t?)) ∧
      ∀ ps, ¬BreaksOff (Attributes.parseHierarchies delimiter ps) ∧
        ¬BreaksOff (DataType.parseOption delimiter ps)) ∧
    (BreaksOff (Criterion.parseOption t?) ↔ ∃ t, t? = some t ∧
      BreaksOff (Criterion.parseList Grammar.all listSeparator t)) ∧
    (∀ t, BreaksOff (Criterion.parseList Grammar.all delimiter t) ↔
      ComesTo Criterion.IsToken Criterion.HasLongNumber
        (split delimiter true (Criterion.unbracketed t))) ∧
    (BreaksOff (DatabaseSpec.parseOption delimiter t?) ↔ ∃ t entries, t? = some t ∧
      List.Forall₂ DatabaseSays (DatabaseSpec.tokens delimiter t) entries ∧
        DatabaseSpec.HasBadPort (Assoc.ofList entries)) ∧
    (∀ name, ∃ names, Plan.names o name = .ok names) ∧
    (∃ criteria?, o.value "criteria" = Options.given criteria? ∧
      (BreaksOff (Config.parse fs o [separator]) ↔ BreaksOff (Criterion.parseOption criteria?) ∨
        ∃ p, Plan.parse o = .ok p ∧ ComesTo (fun f => fs.HasHierarchy separator f.2)
          (fun f => fs.IsUnloadable separator f.2) p.hierarchyFiles)) ∧
    (∀ t, Table.records? separator (Text.lines .kept t) = none → Table.fieldLimit < t.length) ∧
    ∀ rows w, rows ≠ [] → (∀ row ∈ rows, row.length = w) → Hierarchy.depthLimit + 1 < w →
      Hierarchy.depthLimit < (Hierarchy.ofRows rows).height := by
  refine ⟨CommandLine.endingOf_eq_failed_iff, ⟨?_, ?_, ?_, fun ps => ⟨?_, ?_⟩⟩,
    Criterion.breaksOff_parseOption_iff t?, Criterion.breaksOff_parseList_iff delimiter,
    DatabaseSpec.breaksOff_parseOption_iff delimiter t?, ho.names, ?_,
    fun t => Table.length_of_records?_none, fun rows w => Hierarchy.depthLimit_lt_height⟩
  · exact Subset.not_breaksOff_parseOption t?
  · exact Metric.not_breaksOff_parseOption t?
  · exact Options.not_breaksOff_suppressionLimit t?
  · exact Attributes.not_breaksOff_parseHierarchies delimiter ps
  · exact DataType.not_breaksOff_parseOption delimiter ps
  · obtain ⟨criteria?, hv⟩ := ho.value "criteria"
    refine ⟨criteria?, hv, ?_⟩
    rw [← Plan.breaksOff_criteriaOf_iff hv]
    exact Config.breaksOff_parse_iff ho

/-- Options whose hierarchy is in a file. -/
def hierarchyOptions : Options := [
  ("quasiidentifying".toList, .string "age"),
  ("hierarchies".toList, .string "age=age.csv"),
  ("criteria".toList, .string "2-ANONYMITY")]

/-- A hierarchy file with a byte that begins no character. -/
def brokenFiles : FileSystem where
  files := [(["age.csv".toList], ⟨#[0xFF]⟩)]
  directories := []
  here := []

/-- A configuration whose hierarchy file is no text. -/
theorem breaksOff_at_broken_file : hierarchyOptions.IsTextual ∧
    BreaksOff (Config.parse brokenFiles hierarchyOptions [';']) := by
  have htextual : hierarchyOptions.IsTextual := by
    intro p hp
    simp only [hierarchyOptions, List.mem_cons, List.not_mem_nil, or_false] at hp
    rcases hp with rfl | rfl | rfl <;> exact ⟨some _, rfl⟩
  have hfile : brokenFiles.IsUnloadable ';' "age.csv".toList :=
    .unreadable (.bytes (b := ⟨#[0xFF]⟩) rfl rfl)
  obtain ⟨-, -, -, -, -, -, ⟨_, -, hiff⟩, -⟩ :=
    breaksOff_settings_iff none listSeparator brokenFiles htextual ';'
  refine ⟨htextual, hiff.mpr (.inr ⟨_, rfl, ?_⟩)⟩
  exact ⟨[], ("age".toList, "age.csv".toList), [], rfl, by simp, hfile⟩

/-- A superscript digit passes for a digit of a port, and the specification is not reported. -/
theorem breaksOff_at_superscript_port :
    BreaksOff (DatabaseSpec.parseOption listSeparator
      (some "TYPE=MYSQL,DATABASE=d,TABLE=t,PORT=²".toList)) :=
  ⟨.defect .unreadableValue, by decide, rfl⟩

end Anonymization
