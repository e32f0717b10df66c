import Anonymization.Proofs.Settings.Names
import Anonymization.Settings.Subset
/-!
# Data types and subsets, read again from their texts

Specifications come in many forms: blanks around their parts, letters of any case, a format that is
ignored. What they say has one text, and that text says the same.

* `DataType.isSpecifiable_of_parse`, `DataType.parse_text_iff` -- **which data types a specification can
  have**: exactly those that are read again from their texts;
* `Subset.isSpecifiable_of_parse`, `Subset.parseOption_text_iff` -- **and which subsets**;
* `read_again_from_text` -- both, with the formats and the contents in full.
-/

namespace Anonymization

/-! ## 1. Data types -/

namespace DataType

theorem isSpecifiable_plain (n : DataTypeName) : IsSpecifiable ⟨n, none⟩ :=
  ⟨by simp, by simp⟩

theorem isSpecifiable_format {n : DataTypeName} {f : Text} :
    IsSpecifiable ⟨n, some f⟩ ↔ n.hasFormat = true ∧ f ≠ [] := by
  constructor
  · intro h
    exact ⟨h.hasFormat f rfl, h.ne_nil f rfl⟩
  · intro ⟨hformat, hne⟩
    exact ⟨fun _ _ => hformat, fun f' hf' => Option.some.inj hf' ▸ hne⟩

/-- **What a specification says is a type that has a use for its format**, and the format is not empty. -/
theorem isSpecifiable_of_parse {spec : Text} {d : DataType} {ignored : Option IgnoredFormat}
    (h : parse spec = .ok (d, ignored)) : d.IsSpecifiable := by
  unfold parse at h
  split at h
  · cases h
  · split at h
    · cases h
    · next name _ =>
      split at h
      · cases h
        exact isSpecifiable_plain name
      · split at h
        · next f _ hformat =>
          cases h
          split
          · exact isSpecifiable_plain name
          · next hf => exact isSpecifiable_format.mpr ⟨hformat, by simpa using hf⟩
        · cases h
          exact isSpecifiable_plain name

/-- **A data type is read again from its text exactly when a specification can have it.** -/
theorem parse_text_iff (d : DataType) : parse d.text = .ok (d, none) ↔ d.IsSpecifiable :=
  ⟨isSpecifiable_of_parse, parse_text⟩

end DataType

/-! ## 2. Subsets -/

namespace Subset

/-- A subset that a specification can have: its content is not empty and has no blanks around it. -/
structure IsSpecifiable (s : Subset) : Prop where
  ne_nil : s.content ≠ []
  trim : Text.trim s.content = s.content

/-- **A kind and its content are found in the text**, however many equal signs the content has. -/
theorem split?_text (s : Subset) : split? s.text = some (s.kind.text, s.content) := by
  have hbare : Text.StartsBare s.text := by
    unfold text
    cases s.kind <;> exact Text.startsBare_cons.mpr (by decide)
  have hname : ∀ c ∈ s.kind.text, Text.isWord c = true :=
    List.all_eq_true.mp (by cases s.kind <;> decide)
  have hsign : ∀ c, ('=' :: s.content).head? = some c → Text.isWord c = false := by
    intro c hc
    rw [← Option.some.inj hc]
    decide
  obtain ⟨hword, hrest⟩ := Text.word_append hname hsign
  have hne : s.kind.text.isEmpty = false := by cases s.kind <;> rfl
  have hstart : Text.trimStart ('=' :: s.content) = '=' :: s.content :=
    Text.trimStart_of_startsBare (Text.startsBare_cons.mpr (by decide))
  unfold split?
  rw [Text.trimStart_of_startsBare hbare]
  unfold text
  simp only [hword, hrest, hstart, hne, Bool.false_eq_true, if_false]

theorem ofWord?_text (k : SubsetKind) : SubsetKind.ofWord? k.text = some k := by
  cases k <;> decide

theorem isSpecifiable_of_parse {spec : Text} {s : Subset} (h : parse spec = .ok s) :
    s.IsSpecifiable := by
  unfold parse at h
  split at h
  · cases h
  · split at h
    · cases h
    · next hb =>
      split at h
      · cases h
      · cases h
        exact ⟨fun hnil => hb ((Text.trim_eq_nil_iff _).mp hnil), Text.trim_trim _⟩

/-- **What the option says is a subset with a content**, without the blanks around it. -/
theorem isSpecifiable_of_parseOption {spec : Text} {s : Subset}
    (h : parseOption (some spec) = .ok (some s)) : s.IsSpecifiable := by
  simp only [parseOption] at h
  split at h
  · cases h
  · obtain ⟨s', hs', he⟩ := (Outcome.map_ok_iff _ _ _).mp h
    exact Option.some.inj he ▸ isSpecifiable_of_parse hs'

/-- **A subset that the option can have is read again from its text.** -/
theorem parseOption_text {s : Subset} (h : s.IsSpecifiable) :
    parseOption (some s.text) = .ok (some s) := by
  have hcontent : Text.allBlank s.content = false := by
    rw [← Bool.not_eq_true, ← Text.trim_eq_nil_iff, h.trim]
    exact h.ne_nil
  have hblank : Text.allBlank s.text = false := by
    unfold text
    cases s.kind <;> rfl
  have hparse : parse s.text = .ok s := by
    unfold parse
    rw [split?_text]
    simp only [hcontent, ofWord?_text, h.trim, Bool.false_eq_true, if_false]
  unfold parseOption
  simp only [hblank, hparse, Bool.false_eq_true, if_false]
  rfl

theorem parseOption_text_iff (s : Subset) :
    parseOption (some s.text) = .ok (some s) ↔ s.IsSpecifiable :=
  ⟨isSpecifiable_of_parseOption, parseOption_text⟩

end Subset

/-! ## 3. Both -/

theorem DataTypeName.hasFormat_iff (n : DataTypeName) :
    n.hasFormat = true ↔ n = .decimal ∨ n = .date := by
  cases n <;> simp [hasFormat]

/-- **Data types and subsets have a canonical text.** What a specification says is read again from its
text. A type with a format is so exactly when it is a decimal or a date and the format is not empty,
whatever parentheses, line ends and blanks it holds; and a subset, when its content is not empty and has
no blanks around it, whatever else it holds. -/
theorem read_again_from_text :
    (∀ spec d ignored, DataType.parse spec = .ok (d, ignored) →
      DataType.parse d.text = .ok (d, none)) ∧
    (∀ spec s, Subset.parseOption (some spec) = .ok (some s) →
      Subset.parseOption (some s.text) = .ok (some s)) ∧
    (∀ name f, DataType.parse (DataType.text ⟨name, some f⟩) = .ok (⟨name, some f⟩, none) ↔
      (name = .decimal ∨ name = .date) ∧ f ≠ []) ∧
    (∀ kind content,
      Subset.parseOption (some (Subset.text ⟨kind, content⟩)) = .ok (some ⟨kind, content⟩) ↔
        content ≠ [] ∧ Text.trim content = content) := by
  refine ⟨fun spec d ignored h => ?_, fun spec s h => ?_, fun name f => ?_, fun kind content => ?_⟩
  · exact DataType.parse_text (DataType.isSpecifiable_of_parse h)
  · exact Subset.parseOption_text (Subset.isSpecifiable_of_parseOption h)
  · rw [DataType.parse_text_iff, DataType.isSpecifiable_format, DataTypeName.hasFormat_iff]
  · rw [Subset.parseOption_text_iff]
    exact ⟨fun h => ⟨h.ne_nil, h.trim⟩, fun h => ⟨h.1, h.2⟩⟩

/-- Letters outside ASCII in the words, a format that is no more than a parenthesis and a line end with
blanks around them, and a query with equal signs. -/
theorem read_again_from_odd_texts :
    DataType.parse "\tdate ( )\n( ) \n".toList = .ok (⟨.date, some " )\n( ".toList⟩, none) ∧
      DataType.parse (DataType.text ⟨.date, some " )\n( ".toList⟩) =
        .ok (⟨.date, some " )\n( ".toList⟩, none) ∧
      DataType.parse "ſtring(ignored)".toList =
        .ok (⟨.string, none⟩, some ⟨"ignored".toList, .string⟩) ∧
      DataType.parse (DataType.text ⟨.string, none⟩) = .ok (⟨.string, none⟩, none) ∧
      Subset.parseOption (some " ﬁle = =a=b \n".toList) = .ok (some ⟨.file, "=a=b".toList⟩) ∧
      Subset.parseOption (some (Subset.text ⟨.file, "=a=b".toList⟩)) =
        .ok (some ⟨.file, "=a=b".toList⟩) := by
  have hdate : DataType.parse "\tdate ( )\n( ) \n".toList =
      .ok (⟨.date, some " )\n( ".toList⟩, none) := by decide
  have hstring : DataType.parse "ſtring(ignored)".toList =
      .ok (⟨.string, none⟩, some ⟨"ignored".toList, .string⟩) := by decide
  have hfile : Subset.parseOption (some " ﬁle = =a=b \n".toList) =
      .ok (some ⟨.file, "=a=b".toList⟩) := by decide +kernel
  obtain ⟨htypes, hsubsets, -, -⟩ := read_again_from_text
  exact ⟨hdate, htypes _ _ _ hdate, hstring, htypes _ _ _ hstring, hfile, hsubsets _ _ hfile⟩

end Anonymization
