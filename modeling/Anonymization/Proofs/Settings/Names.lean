import Anonymization.Proofs.Assoc
import Anonymization.Proofs.Criterion.RoundTrip
import Anonymization.Proofs.Settings.Tokens
/-!
# One name in all options

The lists of names, the hierarchies, the data types and the criteria escape a name in different ways:
each of them puts a backslash in front of the separators that it cuts at, and the grouped ones in front
of parentheses.

* `Nested`, `passed_nested` -- a format whose parentheses are nested closes what it opens;
* `pair?_pairText` -- a name and its value are found again in their token;
* `DataType.split?_text`, `DataType.parse_text` -- a data type is read again from its text;
* `parseNames_joined`, `parseHierarchies_text`, `parseOption_text` -- so is each of the lists;
* `options_agree_on_names` -- **one name, written for each option, is one attribute in all of them**.
-/

namespace Anonymization

open Anonymization.Field

/-! ## 1. Groups -/

/-- Every group that is opened is closed behind it, and no other one. -/
inductive Nested : Text → Prop where
  | nil : Nested []
  | cons {c : Char} {t : Text} : c ≠ '(' → c ≠ ')' → Nested t → Nested (c :: t)
  | group {s t : Text} : Nested s → Nested t → Nested ('(' :: s ++ ')' :: t)

/-- A text without parentheses may stand in front. -/
theorem Nested.append {s t : Text} (hs : s.any isParenthesis = false) (ht : Nested t) :
    Nested (s ++ t) := by
  induction s with
  | nil => exact ht
  | cons c s ih =>
    obtain ⟨hc, hrest⟩ := Bool.or_eq_false_iff.mp hs
    simp only [isParenthesis, Bool.or_eq_false_iff, beq_eq_false_iff_ne] at hc
    exact .cons hc.1 hc.2 (ih hrest)

/-- **What a nested text opens, it closes.** -/
theorem passed_nested {t : Text} (hn : Nested t) (h : '\\' ∉ t) (depth : Nat) :
    passed true (false, depth) t = (false, depth) := by
  induction hn generalizing depth with
  | nil => rfl
  | @cons c t ho hc _ ih =>
    obtain ⟨hne, ht⟩ := not_or.mp (mt List.mem_cons.mpr h)
    have hescape : (c == escapeChar) = false := by simpa [escapeChar] using fun e => hne e.symm
    have hdepth : nextDepth true false depth c = depth := by simp [nextDepth, ho, hc]
    rw [passed_cons, hescape, hdepth]
    exact ih ht depth
  | @group s t _ _ ihs iht =>
    have hs : '\\' ∉ s := fun hm => h (by simp [hm])
    have ht : '\\' ∉ t := fun hm => h (by simp [hm])
    have hopen : passed true (false, depth) ('(' :: s) = (false, depth + 1) := ihs hs (depth + 1)
    have hclose : nextDepth true false (depth + 1) ')' = depth := rfl
    rw [passed_append, hopen, passed_cons, hclose]
    exact iht ht depth

/-! ## 2. Tokens -/

/-- A name and its value are two fields. -/
theorem pairText_eq (name value : Text) : pairText name value = joined pairSeparator [name, value] := rfl

/-- **A name and its value are found again.** -/
theorem pair?_pairText {name value : Text} (hn : name ≠ []) (hnl : name.getLast? ≠ some escapeChar)
    (hv : value ≠ []) (hvl : value.getLast? ≠ some escapeChar) :
    pair? (pairText name value) = some (name, value) := by
  have hsplit : split pairSeparator false (joined pairSeparator [name, value]) = [name, value] := by
    refine split_joined (equalSign_plain false) ?_ ?_
    · simpa using ⟨passed_ungrouped_iff.mpr hnl, passed_ungrouped_iff.mpr hvl⟩
    · simpa using ⟨hn, hv⟩
  unfold pair?
  rw [pairText_eq, hsplit]

theorem getLast?_pairText (name : Text) {value : Text} (hv : value ≠ []) :
    (pairText name value).getLast? = value.getLast? := by
  show (escape ['='] name ++ ['='] ++ escape ['='] value).getLast? = _
  rw [escape_eq ('=') value, List.getLast?_append, getLast?_guarded]
  cases h : value.getLast? with
  | none => exact absurd (List.getLast?_eq_none_iff.mp h) hv
  | some c => rfl

theorem pairText_ne_nil (name value : Text) : pairText name value ≠ [] := by
  simp [pairText, pairSeparator]

/-- A list that cuts at commas only cuts between the fields that do not end in a backslash. -/
theorem split_commas {fs : List Text} (h : ∀ f ∈ fs, f ≠ [] ∧ f.getLast? ≠ some escapeChar) :
    split listSeparator false (joined listSeparator fs) = fs :=
  split_joined ⟨Criterion.listSeparator_plain.1, fun h => by cases h⟩
    (fun f hf => passed_ungrouped_iff.mpr (h f hf).2) fun f hf => (h f hf).1

/-! ## 3. Data types -/

/-- A data type that can be given in the option: it has a format only if its values may have one, and
the format is not empty, has no backslash and closes what it opens. -/
structure DataType.IsDeclarable (d : DataType) : Prop where
  hasFormat : ∀ f, d.format = some f → d.name.hasFormat = true
  ne_nil : ∀ f, d.format = some f → f ≠ []
  no_escape : ∀ f, d.format = some f → '\\' ∉ f
  nested : ∀ f, d.format = some f → Nested f

/-- The word in front of what is no letter. -/
theorem Text.word_append {word rest : Text} (hword : ∀ c ∈ word, isWord c = true)
    (hrest : ∀ c, rest.head? = some c → isWord c = false) :
    (word ++ rest).takeWhile isWord = word ∧ (word ++ rest).dropWhile isWord = rest := by
  have hstop : rest.takeWhile isWord = [] ∧ rest.dropWhile isWord = rest := by
    cases rest with
    | nil => exact ⟨rfl, rfl⟩
    | cons c rest => simp [hrest c rfl]
  rw [List.takeWhile_append_of_pos hword, List.dropWhile_append_of_pos hword, hstop.1, hstop.2]
  exact ⟨List.append_nil _, rfl⟩

namespace DataType

/-- What stands behind the name of a type. -/
def formatText (d : DataType) : Text :=
  match d.format with
  | none => []
  | some f => '(' :: f ++ [')']

theorem text_eq (d : DataType) : d.text = d.name.text ++ d.formatText := by
  unfold text formatText
  cases d.format <;> simp

theorem startsBare_name (n : DataTypeName) (rest : Text) : Text.StartsBare (n.text ++ rest) := by
  cases n <;> exact Text.startsBare_cons.mpr (by decide)

/-- The ends of a format are its parentheses. -/
theorem trim_formatText (d : DataType) : Text.trim d.formatText = d.formatText := by
  refine (Text.trim_eq_self_iff _).mpr ⟨?_, ?_⟩
  · intro c hc
    unfold formatText at hc
    split at hc
    · cases hc
    · rw [← Option.some.inj hc]
      decide
  · intro c hc
    unfold formatText at hc
    split at hc
    · cases hc
    · rw [List.getLast?_append] at hc
      rw [← Option.some.inj hc]
      decide

/-- **A type and its format are found in its text.** -/
theorem split?_text (d : DataType) : split? d.text = some (d.name.text, d.format) := by
  have hhead : ∀ c, d.formatText.head? = some c → Text.isWord c = false := by
    intro c hc
    unfold formatText at hc
    split at hc
    · cases hc
    · rw [← Option.some.inj hc]
      decide
  have hname : ∀ c ∈ d.name.text, Text.isWord c = true :=
    List.all_eq_true.mp (by cases d.name <;> decide)
  obtain ⟨hword, hrest⟩ := Text.word_append hname hhead
  have hne : d.name.text.isEmpty = false := by cases d.name <;> rfl
  unfold split?
  rw [text_eq, Text.trimStart_of_startsBare (startsBare_name _ _)]
  simp only [hword, hrest, hne, trim_formatText, Bool.false_eq_true, if_false]
  unfold formatText
  cases hf : d.format with
  | none => rfl
  | some f => simp

theorem ofWord?_text (n : DataTypeName) : DataTypeName.ofWord? n.text = some n := by
  cases n <;> decide

/-- A data type that a specification can have: it has a format only if its values may have one, and the
format is not empty. -/
structure IsSpecifiable (d : DataType) : Prop where
  hasFormat : ∀ f, d.format = some f → d.name.hasFormat = true
  ne_nil : ∀ f, d.format = some f → f ≠ []

theorem IsDeclarable.isSpecifiable {d : DataType} (h : d.IsDeclarable) : d.IsSpecifiable :=
  ⟨h.hasFormat, h.ne_nil⟩

/-- **A data type that a specification can have is read again from its text**, whatever stands in its
format, and nothing of it is ignored. -/
theorem parse_text {d : DataType} (h : d.IsSpecifiable) : parse d.text = .ok (d, none) := by
  obtain ⟨name, format⟩ := d
  unfold parse
  rw [split?_text]
  simp only [ofWord?_text]
  cases format with
  | none => rfl
  | some f =>
    have hformat : name.hasFormat = true := h.hasFormat f rfl
    have hempty : f.isEmpty = false := by simpa using h.ne_nil f rfl
    simp only [hformat, hempty, Bool.false_eq_true, if_true, if_false]

/-- No backslash stands in the text of a data type. -/
theorem not_mem_text {d : DataType} (h : d.IsDeclarable) : '\\' ∉ d.text := by
  have hname : '\\' ∉ d.name.text := by cases d.name <;> decide
  unfold text
  cases hf : d.format with
  | none => exact hname
  | some f => simp [hname, h.no_escape f hf]

theorem text_ne_nil (d : DataType) : d.text ≠ [] := by
  rw [text_eq]
  exact List.append_ne_nil_of_left_ne_nil (by cases d.name <;> decide) _

theorem getLast?_text {d : DataType} (h : d.IsDeclarable) : d.text.getLast? ≠ some escapeChar :=
  fun hl => not_mem_text h (List.mem_of_getLast? hl)

/-- What the text of a data type opens, it closes. -/
theorem passed_text {d : DataType} (h : d.IsDeclarable) :
    passed true (false, 0) (guarded (· == '=') d.text) = (false, 0) := by
  rw [passed_guarded_separator (equalSign_plain true)]
  refine passed_nested ?_ (not_mem_text h) 0
  have hname : d.name.text.any isParenthesis = false := by cases d.name <;> decide
  rw [text_eq]
  refine Nested.append hname ?_
  unfold formatText
  cases hf : d.format with
  | none => exact .nil
  | some f => exact .group (h.nested f hf) .nil

end DataType

/-! ## 4. Each option -/

/-- A name that keeps its form is a field. -/
theorem field_of_keepsForm {t : Text} (h : keepsForm t = true) :
    t ≠ [] ∧ t.getLast? ≠ some escapeChar ∧ Text.trim t = t ∧ Text.allBlank t = false := by
  obtain ⟨⟨hb, hl⟩, ht⟩ := (Criterion.keepsForm_iff t).mp h
  refine ⟨?_, hl, ht, hb⟩
  rintro rfl
  cases hb

/-- Tokens whose values keep their form are fields, whatever stands in front of the values. -/
theorem split_pairs {κ : Type} (name : κ → Text) {entries : List (κ × Text)}
    (h : ∀ e ∈ entries, keepsForm e.2 = true) :
    split listSeparator false (joined listSeparator (entries.map fun e => pairText (name e.1) e.2)) =
      entries.map fun e => pairText (name e.1) e.2 := by
  refine split_commas fun t ht => ?_
  obtain ⟨e, he, rfl⟩ := List.mem_map.mp ht
  obtain ⟨hne, hl, -⟩ := field_of_keepsForm (h e he)
  exact ⟨pairText_ne_nil _ _, by rw [getLast?_pairText _ hne]; exact hl⟩

/-- **Names that were listed are read again.** -/
theorem Attributes.parseNames_joined {names : List Text} (h : ∀ n ∈ names, keepsForm n = true) :
    parseNames listSeparator (pieces (joined listSeparator names)) = names := by
  have hsplit : splitPieces listSeparator false (pieces (joined listSeparator names)) = names :=
    split_commas fun n hn => ⟨(field_of_keepsForm (h n hn)).1, (field_of_keepsForm (h n hn)).2.1⟩
  unfold parseNames
  rw [hsplit, List.map_congr_left fun n hn => (field_of_keepsForm (h n hn)).2.2.1]
  exact List.map_id' names

/-- **So are names and their files.** -/
theorem Attributes.parseHierarchies_text {entries : List (Text × Text)}
    (h : ∀ e ∈ entries, keepsForm e.1 = true ∧ keepsForm e.2 = true) :
    parseHierarchies listSeparator (pieces (hierarchiesText listSeparator entries)) =
      .ok (Assoc.ofList entries) := by
  have hsplit : splitPieces listSeparator false (pieces (hierarchiesText listSeparator entries)) =
      entries.map fun e => pairText e.1 e.2 := split_pairs id fun e he => (h e he).2
  have htoken : ∀ e ∈ entries, parseHierarchyToken (pairText e.1 e.2) = .ok e := by
    intro e he
    obtain ⟨hn, hnl, hnt, hnb⟩ := field_of_keepsForm (h e he).1
    obtain ⟨hp, hpl, hpt, -⟩ := field_of_keepsForm (h e he).2
    unfold parseHierarchyToken
    rw [pair?_pairText hn hnl hp hpl]
    simp [hnb, hnt, hpt]
  unfold parseHierarchies
  rw [hsplit, Outcome.mapM_map_ok htoken, List.map_id']
  rfl

namespace DataType

/-- A name and its data type in the datatype option. -/
def tokenText (name : Text) (d : DataType) : Text :=
  pairText (escapeParentheses name) d.text

/-- **What a token opens, it closes**: no parenthesis of the name counts. -/
theorem isShut_tokenText (name : Text) {d : DataType} (h : d.IsDeclarable) :
    IsShut true (tokenText name d) := by
  have htext : tokenText name d =
      guarded Criterion.isSpecial name ++ '=' :: guarded (· == '=') d.text := by
    show escape ['='] (escapeParentheses name) ++ ['='] ++ escape ['='] d.text = _
    rw [escape_eq, escape_eq, escapeParentheses_eq, Criterion.guarded_name, List.append_assoc]
    rfl
  have hdepth := Criterion.passed_guarded name false 0
  unfold IsShut
  rw [htext, passed_append, passed_cons, hdepth, nextDepth_separator (equalSign_plain true)]
  exact passed_text h

theorem parseToken_tokenText {name : Text} (hn : keepsForm name = true) {d : DataType}
    (h : d.IsDeclarable) : parseToken (tokenText name d) = .ok (name, d, none) := by
  obtain ⟨hne, hl, ht, hb⟩ := field_of_keepsForm hn
  have hpair : pair? (tokenText name d) = some (escapeParentheses name, d.text) := by
    unfold tokenText
    refine pair?_pairText ?_ ?_ (text_ne_nil d) (getLast?_text h)
    · intro hnil
      have hlast := getLast?_guarded isParenthesis name
      rw [← escapeParentheses_eq, hnil] at hlast
      exact hne (List.getLast?_eq_none_iff.mp hlast.symm)
    · rw [escapeParentheses_eq, getLast?_guarded]
      exact hl
  have hname : unescapeParentheses (Text.trim (escapeParentheses name)) = name := by
    rw [escapeParentheses_eq, Criterion.unescapeParentheses_trim_guarded, ht]
  have hblank : Text.allBlank (escapeParentheses name) = false := by
    rw [escapeParentheses_eq, Criterion.allBlank_guarded, hb]
  unfold parseToken
  rw [hpair]
  simp [hblank, hname, parse_text h.isSpecifiable, Except.map]

/-- **So are names and their data types.** -/
theorem parseOption_text {entries : List (Text × DataType)}
    (h : ∀ e ∈ entries, keepsForm e.1 = true ∧ e.2.IsDeclarable) :
    parseOption listSeparator (pieces (optionText listSeparator entries)) =
      .ok (Assoc.ofList entries) := by
  have hsplit : tokens listSeparator (pieces (optionText listSeparator entries)) =
      entries.map fun e => tokenText e.1 e.2 := by
    refine split_joined Criterion.listSeparator_plain (fun t ht => ?_) fun t ht => ?_
    · obtain ⟨e, he, rfl⟩ := List.mem_map.mp ht
      exact isShut_tokenText e.1 (h e he).2
    · obtain ⟨e, -, rfl⟩ := List.mem_map.mp ht
      exact pairText_ne_nil _ _
  have htoken : ∀ e ∈ entries, parseToken (tokenText e.1 e.2) = .ok (e.1, e.2, none) :=
    fun e he => parseToken_tokenText (h e he).1 (h e he).2
  have hentries : (entries.map fun e => (e.1, e.2, (none : Option IgnoredFormat))).map
      (fun e => (e.1, e.2.1)) = entries := by
    rw [List.map_map]
    exact List.map_id' entries
  rw [parseOption_eq, hsplit, Outcome.mapM_map_ok htoken]
  show Except.ok (Assoc.ofList (List.map _ _)) = _
  rw [hentries]

end DataType

/-! ## 5. All options -/

/-- A column of a table, with the file of its hierarchy and the type of its values. -/
structure Column where
  name : Text
  path : Text
  type : DataType

/-- A column that can be given in the options: its name and its path are not empty, have no blanks
around them and no backslash at their end. -/
structure Column.IsDeclarable (c : Column) : Prop where
  name : keepsForm c.name = true
  path : keepsForm c.path = true
  type : c.type.IsDeclarable

/-- **One name, written for each option, is one attribute in all of them.** The names that are listed
are the names of the columns; the hierarchies and the data types are the maps of the names to the paths
and to the types; and a criterion about one of the names is about this name. -/
theorem options_agree_on_names (columns : List Column) (h : ∀ c ∈ columns, c.IsDeclarable) :
    Attributes.parseNames listSeparator (pieces (joined listSeparator (columns.map Column.name))) =
        columns.map Column.name ∧
      (∃ files,
        Attributes.parseHierarchies listSeparator (pieces (Attributes.hierarchiesText listSeparator
          (columns.map fun c => (c.name, c.path)))) = .ok files ∧
        Assoc.IsMapOf files (columns.map fun c => (c.name, c.path))) ∧
      (∃ types,
        DataType.parseOption listSeparator (pieces (DataType.optionText listSeparator
          (columns.map fun c => (c.name, c.type)))) = .ok types ∧
        Assoc.IsMapOf types (columns.map fun c => (c.name, c.type))) ∧
      ∀ c ∈ columns, ∀ k : Criterion, k.attribute? = some c.name → k.hasPlainNumbers = true →
        ∀ index, Criterion.parse Grammar.all index k.text = .ok k := by
  refine ⟨?_, ?_, ?_, ?_⟩
  · refine Attributes.parseNames_joined fun n hn => ?_
    obtain ⟨c, hc, rfl⟩ := List.mem_map.mp hn
    exact (h c hc).name
  · refine ⟨_, Attributes.parseHierarchies_text fun e he => ?_, Assoc.isMapOf_ofList _⟩
    obtain ⟨c, hc, rfl⟩ := List.mem_map.mp he
    exact ⟨(h c hc).name, (h c hc).path⟩
  · refine ⟨_, DataType.parseOption_text fun e he => ?_, Assoc.isMapOf_ofList _⟩
    obtain ⟨c, hc, rfl⟩ := List.mem_map.mp he
    exact ⟨(h c hc).name, (h c hc).type⟩
  · intro c hc k hk hplain index
    refine (Criterion.parse_text_self_iff index k).mpr ((Criterion.isCanonical_iff k).mpr ⟨hplain, ?_⟩)
    intro a ha
    rw [hk] at ha
    rw [← Option.some.inj ha]
    exact (h c hc).name

/-- A name with a comma, a parenthesis, a backslash and an equal sign in it, given twice. -/
def oddName : Text := "a,(b\\=c".toList

/-- Three columns, two of them with the same name. -/
def oddColumns : List Column :=
  [⟨oddName, "h,1.csv".toList, ⟨.date, some "dd(M,y)".toList⟩⟩,
    ⟨"b".toList, "h=2.csv".toList, ⟨.integer, none⟩⟩,
    ⟨oddName, "h3.csv".toList, ⟨.decimal, some "0=0".toList⟩⟩]

/-- The name comes first in the maps, with the file and the type that were given last. -/
theorem odd_columns_agree :
    Attributes.parseNames listSeparator
        (pieces (joined listSeparator (oddColumns.map Column.name))) =
      [oddName, "b".toList, oddName] ∧
    (∃ files,
      Attributes.parseHierarchies listSeparator (pieces (Attributes.hierarchiesText listSeparator
        (oddColumns.map fun c => (c.name, c.path)))) = .ok files ∧
      Assoc.keys files = [oddName, "b".toList] ∧ files.get? oddName = some "h3.csv".toList) ∧
    (∃ types,
      DataType.parseOption listSeparator (pieces (DataType.optionText listSeparator
        (oddColumns.map fun c => (c.name, c.type)))) = .ok types ∧
      Assoc.keys types = [oddName, "b".toList] ∧
        types.get? oddName = some ⟨.decimal, some "0=0".toList⟩) ∧
    Criterion.parse Grammar.all 0 (Criterion.distinctLDiversity oddName 2).text =
      .ok (.distinctLDiversity oddName 2) := by
  have hdate : DataType.IsDeclarable ⟨.date, some "dd(M,y)".toList⟩ := by
    refine ⟨fun f hf => rfl, fun f hf => ?_, fun f hf => ?_, fun f hf => ?_⟩ <;>
      obtain rfl := Option.some.inj hf
    · decide
    · decide
    · exact .append (s := ['d', 'd']) (by decide)
        (.group (.append (s := ['M', ',', 'y']) (by decide) .nil) .nil)
  have hdecimal : DataType.IsDeclarable ⟨.decimal, some "0=0".toList⟩ := by
    refine ⟨fun f hf => rfl, fun f hf => ?_, fun f hf => ?_, fun f hf => ?_⟩ <;>
      obtain rfl := Option.some.inj hf
    · decide
    · decide
    · exact .append (s := ['0', '=', '0']) (by decide) .nil
  have hinteger : DataType.IsDeclarable ⟨.integer, none⟩ := by
    refine ⟨?_, ?_, ?_, ?_⟩ <;> (intro f hf; cases hf)
  obtain ⟨hnames, ⟨files, hf, hfiles⟩, ⟨types, ht, htypes⟩, hcriteria⟩ :=
    options_agree_on_names oddColumns (by
      simp only [oddColumns, List.forall_mem_cons]
      exact ⟨⟨by decide, by decide, hdate⟩, ⟨by decide, by decide, hinteger⟩,
        ⟨by decide, by decide, hdecimal⟩, by simp⟩)
  refine ⟨hnames, ⟨files, hf, ?_, ?_⟩, ⟨types, ht, ?_, ?_⟩, ?_⟩
  · rw [hfiles.order]
    decide
  · exact (hfiles.last _ _).mpr
      ⟨[(oddName, "h,1.csv".toList), ("b".toList, "h=2.csv".toList)], [], rfl, List.not_mem_nil⟩
  · rw [htypes.order]
    decide
  · exact (htypes.last _ _).mpr ⟨[(oddName, ⟨.date, some "dd(M,y)".toList⟩),
      ("b".toList, ⟨.integer, none⟩)], [], rfl, List.not_mem_nil⟩
  · exact hcriteria _ List.mem_cons_self _ rfl (by decide) 0

end Anonymization
