import Anonymization.Proofs.Settings.Names
/-!
# The database option of a specification

The option lists keys with their values between brackets. Two levels of escaping lie one in the other:
a backslash in front of each equal sign of a value, and one in front of each comma of a token.

* `parseValues_optionText` -- values that keep their form are found again under their keys;
* `IsGivenBy`, `Holds` -- the entries that an option for a specification may have, and the values that
  make it;
* `ofValues_of_holds` -- such values make the specification;
* `parseOption_optionText` -- **so a specification is read again from its option, in whatever order the
  keys stand**.
-/

namespace Anonymization

open Anonymization.Field

namespace DatabaseSpec

/-! ## 1. Keys and their values -/

/-- A key is known by its name. -/
theorem Key.ofWord?_name (k : Key) : Key.ofWord? (Text.trim k.name) = some k := by
  cases k <;> decide

/-- **A key and its value are found again in their token.** -/
theorem parseToken_pairText (k : Key) {v : Text} (hv : keepsForm v = true) :
    parseToken (pairText k.name v) = .ok (k, v) := by
  obtain ⟨hne, hl, ht, -⟩ := field_of_keepsForm hv
  have hname : k.name ≠ [] ∧ k.name.getLast? ≠ some escapeChar := by cases k <;> decide
  unfold parseToken
  rw [pair?_pairText hname.1 hname.2 hne hl]
  simp only [Key.ofWord?_name, ht]

/-- The brackets of the option are taken away, and no bracket of a value is. -/
theorem dropBrackets_optionText (separator : Text) (entries : List (Key × Text)) :
    dropBrackets (Text.trim (optionText separator entries)) =
      joined separator (entries.map fun e => pairText e.1.name e.2) := by
  have htrim : Text.trim (optionText separator entries) = optionText separator entries := by
    refine (Text.trim_eq_self_iff _).mpr ⟨Text.startsBare_cons.mpr (by decide), fun c hc => ?_⟩
    rw [optionText, List.getLast?_append] at hc
    rw [← Option.some.inj hc]
    decide
  rw [htrim]
  simp [dropBrackets, optionText]

/-- **Values that keep their form are found again under their keys.** -/
theorem parseValues_optionText {entries : List (Key × Text)}
    (h : ∀ e ∈ entries, keepsForm e.2 = true) :
    parseValues listSeparator (optionText listSeparator entries) = .ok (Assoc.ofList entries) := by
  unfold parseValues
  rw [dropBrackets_optionText, split_pairs Key.name h,
    Outcome.mapM_map_ok fun e he => parseToken_pairText e.1 (h e he), List.map_id']
  rfl

/-! ## 2. The entries of a specification -/

/-- A specification that can be given in the option: its texts are not empty, have no blanks around them
and no backslash at their end, and its port has no more digits than a number may have. -/
structure IsDeclarable (s : DatabaseSpec) : Prop where
  database : keepsForm s.database = true
  table : keepsForm s.table = true
  host : keepsForm s.host = true
  user : ∀ u, s.user = some u → keepsForm u = true
  password : ∀ p, s.password = some p → keepsForm p = true
  port : ∀ p, s.port = some p → (Numeral.decimalText p).length ≤ Numeral.digitLimit

/-- The entries say a specification: all its keys with their values, in any order. The host need not be
among them where it is the one that is taken unless one is given. -/
inductive IsGivenBy (s : DatabaseSpec) (entries : List (Key × Text)) : Prop where
  | whole (h : entries.Perm s.entries)
  | withoutHost (hhost : s.host = defaultHost) (h : entries.Perm (s.entries.filter (·.1 ≠ .url)))

/-- The value of a key in a specification. -/
def value? (s : DatabaseSpec) : Key → Option Text
  | .type => some s.type.name
  | .url => some s.host
  | .port => s.port.map Numeral.decimalText
  | .user => s.user
  | .password => s.password
  | .database => some s.database
  | .table => some s.table

theorem mem_entries_iff (s : DatabaseSpec) (k : Key) (v : Text) :
    (k, v) ∈ s.entries ↔ s.value? k = some v := by
  cases k <;> simp [entries, value?, eq_comm]

/-- Each key has one value. -/
theorem nodup_keys_entries (s : DatabaseSpec) : (Assoc.keys s.entries).Nodup := by
  obtain ⟨type, database, table, host, port, user, password⟩ := s
  cases port <;> cases user <;> cases password <;> simp [Assoc.keys, entries]

theorem keepsForm_decimalText (n : Nat) : keepsForm (Numeral.decimalText n) = true := by
  have hdigit : ∀ c ∈ Numeral.decimalText n, Text.isBlank c = false ∧ c ≠ escapeChar := fun c hc =>
    have hc := Numeral.isDecimal_of_mem_decimalText hc
    ⟨Text.isBlank_of_isDecimal hc, fun e => by rw [e] at hc; revert hc; decide⟩
  have htrim : Text.trim (Numeral.decimalText n) = Numeral.decimalText n :=
    (Text.trim_eq_self_iff _).mpr ⟨fun c hc => (hdigit c (List.mem_of_head? hc)).1,
      fun c hc => (hdigit c (List.mem_of_getLast? hc)).1⟩
  simp only [keepsForm, Bool.and_eq_true, Bool.not_eq_true', List.isEmpty_eq_false_iff, beq_iff_eq,
    bne_iff_ne]
  exact ⟨⟨Numeral.decimalText_ne_nil n, htrim⟩,
    fun hl => (hdigit _ (List.mem_of_getLast? hl)).2 rfl⟩

/-- All values of a specification that can be given keep their form. -/
theorem IsDeclarable.keepsForm_value {s : DatabaseSpec} (h : s.IsDeclarable) {k : Key} {v : Text}
    (hv : s.value? k = some v) : keepsForm v = true := by
  cases k with
  | type =>
    rw [← Option.some.inj hv]
    cases s.type <;> decide
  | url => exact Option.some.inj hv ▸ h.host
  | port =>
    obtain ⟨p, -, rfl⟩ := Option.map_eq_some_iff.mp hv
    exact keepsForm_decimalText p
  | user => exact h.user v hv
  | password => exact h.password v hv
  | database => exact Option.some.inj hv ▸ h.database
  | table => exact Option.some.inj hv ▸ h.table

theorem IsGivenBy.mem_entries {s : DatabaseSpec} {es : List (Key × Text)} (h : s.IsGivenBy es)
    {e : Key × Text} (he : e ∈ es) : e ∈ s.entries := by
  cases h with
  | whole h => exact h.mem_iff.mp he
  | withoutHost _ h => exact List.mem_of_mem_filter (h.mem_iff.mp he)

theorem IsGivenBy.nodup {s : DatabaseSpec} {es : List (Key × Text)} (h : s.IsGivenBy es) :
    (Assoc.keys es).Nodup := by
  cases h with
  | whole h => exact (h.map Prod.fst).nodup_iff.mpr s.nodup_keys_entries
  | withoutHost _ h =>
    exact (h.map Prod.fst).nodup_iff.mpr (s.nodup_keys_entries.sublist (List.filter_sublist.map _))

/-! ## 3. The specification of some values -/

/-- The values make a specification: each key has its value, but the host may have none if it is the one
that is taken then. -/
structure Holds (values : Assoc Key Text) (s : DatabaseSpec) : Prop where
  value : ∀ k, k ≠ .url → values.get? k = s.value? k
  host : (values.get? .url).getD defaultHost = s.host

/-- **The map of the entries makes the specification**, in whatever order they stand. -/
theorem IsGivenBy.holds {s : DatabaseSpec} {es : List (Key × Text)} (h : s.IsGivenBy es) :
    Holds (Assoc.ofList es) s := by
  have hget : ∀ k v, Assoc.get? (Assoc.ofList es) k = some v ↔ (k, v) ∈ es :=
    Assoc.get?_ofList_iff_mem h.nodup
  refine ⟨fun k hk => Option.ext fun v => ?_, ?_⟩
  · rw [hget, ← mem_entries_iff]
    cases h with
    | whole h => exact h.mem_iff
    | withoutHost _ h => simp [h.mem_iff, hk]
  · cases h with
    | whole h => rw [(hget .url s.host).mpr (h.mem_iff.mpr ((s.mem_entries_iff _ _).mpr rfl))]; rfl
    | withoutHost hhost h =>
      have hnone : Assoc.get? (Assoc.ofList es) Key.url = none := by
        refine Option.eq_none_iff_forall_ne_some.mpr fun v hv => ?_
        have hmem := h.mem_iff.mp ((hget _ _).mp hv)
        simp at hmem
      rw [hnone, hhost]
      rfl

/-- A port that was written is read again. -/
theorem parsePort_decimalText (option : Text) {p : Nat}
    (h : (Numeral.decimalText p).length ≤ Numeral.digitLimit) :
    parsePort option (some (Numeral.decimalText p)) = .ok (some p) := by
  have hdecimal : (Numeral.decimalText p).all Text.isDecimal = true :=
    List.all_eq_true.mpr fun c hc => Numeral.isDecimal_of_mem_decimalText hc
  have hdigit : (Numeral.decimalText p).all Text.isDigit = true :=
    List.all_eq_true.mpr fun c hc => by
      rw [Text.isDigit, Numeral.isDecimal_of_mem_decimalText hc, Bool.true_or]
  have hempty : (Numeral.decimalText p).isEmpty = false :=
    List.isEmpty_eq_false_iff.mpr (Numeral.decimalText_ne_nil p)
  have hnumber : Numeral.digitsNumber? (Numeral.decimalText p) = some p := by
    rw [Numeral.digitsNumber?, if_pos h, Numeral.digitsValue_decimalText]
  simp [parsePort, hdecimal, hdigit, hempty, hnumber]

/-- **Values that hold a specification give it.** -/
theorem ofValues_of_holds (option : Text) {values : Assoc Key Text} {s : DatabaseSpec}
    (h : Holds values s) (hs : s.IsDeclarable) : ofValues option values = .ok s := by
  have htype : typeOfWord? s.type.name = some s.type := by cases s.type <;> decide
  have hport : parsePort option (s.value? .port) = .ok s.port := by
    unfold value?
    cases hp : s.port with
    | none => rfl
    | some p => exact parsePort_decimalText option (hs.port p hp)
  have hrequired : ∀ k v, k ≠ .url → s.value? k = some v → required option values k = .ok v := by
    intro k v hk hv
    rw [required, h.value k hk, hv]
  unfold ofValues
  rw [hrequired .type _ (by decide) rfl, hrequired .database _ (by decide) rfl,
    hrequired .table _ (by decide) rfl, h.value .port (by decide), h.value .user (by decide),
    h.value .password (by decide), h.host, hport]
  simp only [bind, Except.bind, htype]
  rfl

/-! ## 4. The option -/

/-- **A specification is read again from its option**, in whatever order its keys stand there, and whether
the usual host is among them or not. Its texts may hold commas, equal signs, brackets and quotes, and
backslashes that do not stand at the end. -/
theorem parseOption_optionText {s : DatabaseSpec} (hs : s.IsDeclarable) {entries : List (Key × Text)}
    (h : s.IsGivenBy entries) :
    parseOption listSeparator (some (optionText listSeparator entries)) = .ok (some s) := by
  have hvalues : parseValues listSeparator (optionText listSeparator entries) =
      .ok (Assoc.ofList entries) :=
    parseValues_optionText fun e he =>
      hs.keepsForm_value ((s.mem_entries_iff e.1 e.2).mp (h.mem_entries he))
  have hblank : ¬Text.allBlank (optionText listSeparator entries) = true := by
    have hopen : Text.isBlank '[' = false := by decide
    simp [optionText, Text.allBlank, hopen]
  rw [parseOption_eq listSeparator hblank, hvalues]
  show (ofValues _ _).map some = _
  rw [ofValues_of_holds _ h.holds hs]
  rfl

/-- A specification with separators, brackets, quotes and backslashes in its texts, on the usual host. -/
def oddDatabase : DatabaseSpec where
  type := .postgresql
  database := "d,b\\,=1".toList
  table := "[t]]".toList
  host := defaultHost
  port := some 5432
  user := some "'u'=".toList
  password := some "=p\\\"w, x".toList

/-- Its keys with their values, without the host and in another order. -/
def oddEntries : List (Key × Text) :=
  [(.password, "=p\\\"w, x".toList), (.port, "5432".toList), (.database, "d,b\\,=1".toList),
    (.type, "POSTGRESQL".toList), (.user, "'u'=".toList), (.table, "[t]]".toList)]

/-- Every separator in a value has its backslash, and the brackets of the table are its own. -/
theorem odd_database_read_again :
    oddDatabase.IsDeclarable ∧ oddDatabase.IsGivenBy oddEntries ∧
      optionText listSeparator oddEntries =
        ("[PASSWORD=\\=p\\\"w\\, x,PORT=5432,DATABASE=d\\,b\\\\,\\=1,TYPE=POSTGRESQL," ++
          "USER='u'\\=,TABLE=[t]]]").toList ∧
      parseOption listSeparator (some (optionText listSeparator oddEntries)) =
        .ok (some oddDatabase) := by
  have hs : oddDatabase.IsDeclarable :=
    ⟨by decide, by decide, by decide, by decide, by decide, fun p hp => Option.some.inj hp ▸ by decide⟩
  have hentries : oddDatabase.IsGivenBy oddEntries := .withoutHost rfl (by decide)
  exact ⟨hs, hentries, by decide, parseOption_optionText hs hentries⟩

end DatabaseSpec

end Anonymization
