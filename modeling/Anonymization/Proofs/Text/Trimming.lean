import Anonymization.Criterion.Derivation
import Mathlib
/-!
# Blanks at the ends of a text

* `StartsBare`, `EndsBare` -- no blank stands at this end;
* `trim_eq_self_iff` -- exactly these texts are left as they are;
* `trimStart_append`, `trimEnd_append` -- what is taken away at an end are blanks;
* `isBlank_of_isDecimal` -- no digit is a blank.
-/

namespace Anonymization.Text

/-- The text does not begin with a blank. -/
def StartsBare (t : Text) : Prop := ∀ c, t.head? = some c → isBlank c = false

/-- The text does not end with a blank. -/
def EndsBare (t : Text) : Prop := ∀ c, t.getLast? = some c → isBlank c = false

/-! ## 1. One end -/

theorem blanks_nil : Blanks [] := by
  simp [Blanks]

theorem startsBare_cons {c : Char} {t : Text} : StartsBare (c :: t) ↔ isBlank c = false := by
  simp [StartsBare]

theorem startsBare_reverse {t : Text} : StartsBare t.reverse ↔ EndsBare t := by
  simp [StartsBare, EndsBare, List.head?_reverse]

theorem trimStart_blanks {b : Text} (hb : Blanks b) (t : Text) :
    trimStart (b ++ t) = trimStart t := by
  induction b with
  | nil => rfl
  | cons c b ih =>
    have hc : isBlank c = true := hb c List.mem_cons_self
    unfold trimStart at ih ⊢
    rw [List.cons_append, List.dropWhile_cons, if_pos hc]
    exact ih fun x hx => hb x (List.mem_cons_of_mem _ hx)

theorem trimStart_of_startsBare {t : Text} (h : StartsBare t) : trimStart t = t := by
  cases t with
  | nil => rfl
  | cons c t => simp [trimStart, startsBare_cons.mp h]

theorem startsBare_trimStart (t : Text) : StartsBare (trimStart t) := by
  induction t with
  | nil => simp [StartsBare, trimStart]
  | cons c t ih =>
    unfold trimStart at ih ⊢
    rw [List.dropWhile_cons]
    split
    · exact ih
    · next h => exact startsBare_cons.mpr (by simpa using h)

/-- What is taken away at the start are blanks. -/
theorem trimStart_append (t : Text) : ∃ b, Blanks b ∧ t = b ++ trimStart t :=
  ⟨t.takeWhile isBlank, fun _ hc => List.mem_takeWhile_imp hc,
    (List.takeWhile_append_dropWhile (p := isBlank) (l := t)).symm⟩

theorem trimEnd_eq (t : Text) : trimEnd t = (trimStart t.reverse).reverse := rfl

theorem trimEnd_of_endsBare {t : Text} (h : EndsBare t) : trimEnd t = t := by
  rw [trimEnd_eq, trimStart_of_startsBare (startsBare_reverse.mpr h), List.reverse_reverse]

theorem endsBare_trimEnd (t : Text) : EndsBare (trimEnd t) := by
  rw [trimEnd_eq, ← startsBare_reverse, List.reverse_reverse]
  exact startsBare_trimStart _

/-- What is taken away at the end are blanks. -/
theorem trimEnd_append (t : Text) : ∃ b, Blanks b ∧ t = trimEnd t ++ b := by
  obtain ⟨b, hb, ht⟩ := trimStart_append t.reverse
  refine ⟨b.reverse, fun c hc => hb c (List.mem_reverse.mp hc), ?_⟩
  have h := congrArg List.reverse ht
  rw [List.reverse_reverse, List.reverse_append] at h
  exact h

theorem trimEnd_blanks {b : Text} (hb : Blanks b) (t : Text) : trimEnd (t ++ b) = trimEnd t := by
  rw [trimEnd_eq, trimEnd_eq, List.reverse_append,
    trimStart_blanks fun c hc => hb c (List.mem_reverse.mp hc)]

/-- What begins without a blank is not touched when something in front of it is trimmed. -/
theorem trimStart_append_of_startsBare {w : Text} (hw : StartsBare w) (t : Text) :
    trimStart (t ++ w) = trimStart t ++ w := by
  obtain ⟨b, hb, ht⟩ := trimStart_append t
  have hbare : StartsBare (trimStart t ++ w) := by
    intro c hc
    rw [List.head?_append] at hc
    cases hhead : (trimStart t).head? with
    | none => rw [hhead] at hc; exact hw c hc
    | some d => rw [hhead] at hc; exact startsBare_trimStart t c (hhead.trans hc)
  conv_lhs => rw [ht, List.append_assoc]
  rw [trimStart_blanks hb, trimStart_of_startsBare hbare]

theorem trimEnd_append_of_endsBare {w : Text} (hw : EndsBare w) (t : Text) :
    trimEnd (w ++ t) = w ++ trimEnd t := by
  rw [trimEnd_eq, trimEnd_eq, List.reverse_append,
    trimStart_append_of_startsBare (startsBare_reverse.mpr hw), List.reverse_append,
    List.reverse_reverse]

/-! ## 2. Both ends -/

theorem startsBare_trim (t : Text) : StartsBare (trim t) := by
  intro c hc
  obtain ⟨b, -, hs⟩ := trimEnd_append (trimStart t)
  apply startsBare_trimStart t c
  unfold trim at hc
  rw [hs, List.head?_append, hc]
  rfl

theorem endsBare_trim (t : Text) : EndsBare (trim t) := endsBare_trimEnd _

/-- **A text is left as it is exactly when no blank stands at its ends.** -/
theorem trim_eq_self_iff (t : Text) : trim t = t ↔ StartsBare t ∧ EndsBare t := by
  constructor
  · intro h
    rw [← h]
    exact ⟨startsBare_trim t, endsBare_trim t⟩
  · intro ⟨hs, he⟩
    rw [trim, trimStart_of_startsBare hs, trimEnd_of_endsBare he]

theorem trim_trim (t : Text) : trim (trim t) = trim t :=
  (trim_eq_self_iff _).mpr ⟨startsBare_trim t, endsBare_trim t⟩

theorem trim_trimStart (t : Text) : trim (trimStart t) = trim t := by
  unfold trim
  rw [trimStart_of_startsBare (startsBare_trimStart t)]

/-- A text with no blank at its end is trimmed at its start only. -/
theorem trim_of_endsBare {t : Text} (h : EndsBare t) : trim t = trimStart t := by
  obtain ⟨b, -, ht⟩ := trimStart_append t
  refine trimEnd_of_endsBare fun c hc => h c ?_
  rw [ht, List.getLast?_append, hc]
  rfl

/-- A text with no blank at its start is trimmed at its end only. -/
theorem trim_of_startsBare {t : Text} (h : StartsBare t) : trim t = trimEnd t := by
  rw [trim, trimStart_of_startsBare h]

/-- Around a character that is no blank each side is trimmed at its own end. -/
theorem trim_around {c : Char} (hc : isBlank c = false) (s t : Text) :
    trim (s ++ c :: t) = trimStart s ++ c :: trimEnd t := by
  have hend : EndsBare (trimStart s ++ [c]) := by
    intro d hd
    rw [List.getLast?_concat] at hd
    exact Option.some.inj hd ▸ hc
  rw [trim, trimStart_append_of_startsBare (startsBare_cons.mpr hc), List.append_cons,
    trimEnd_append_of_endsBare hend, List.append_assoc, List.singleton_append]

theorem length_trimStart_le (t : Text) : (trimStart t).length ≤ t.length := by
  obtain ⟨b, -, ht⟩ := trimStart_append t
  have h := congrArg List.length ht
  rw [List.length_append] at h
  omega

theorem length_trim_le (t : Text) : (trim t).length ≤ t.length := by
  obtain ⟨b, -, ht⟩ := trimEnd_append (trimStart t)
  have h := congrArg List.length ht
  have hs := length_trimStart_le t
  rw [List.length_append] at h
  unfold trim
  omega

/-- Nothing is left exactly of blanks. -/
theorem trim_eq_nil_iff (t : Text) : trim t = [] ↔ allBlank t = true := by
  obtain ⟨b, hb, hs⟩ := trimStart_append t
  obtain ⟨b', hb', he⟩ := trimEnd_append (trimStart t)
  unfold allBlank
  rw [List.all_eq_true]
  constructor
  · intro h
    unfold trim at h
    rw [h, List.nil_append] at he
    intro c hc
    rw [hs, he] at hc
    rcases List.mem_append.mp hc with hc | hc
    · exact hb c hc
    · exact hb' c hc
  · intro h
    have hnil : trimStart t = [] := by
      have h2 := trimStart_blanks (b := t) h []
      rw [List.append_nil] at h2
      exact h2
    unfold trim
    rw [hnil]
    rfl

theorem allBlank_trimStart (t : Text) : allBlank (trimStart t) = allBlank t := by
  rw [Bool.eq_iff_iff, ← trim_eq_nil_iff, ← trim_eq_nil_iff, trim_trimStart]

/-- The end of a text that is not blank stays when its start is trimmed. -/
theorem getLast?_trimStart {t : Text} (h : allBlank t = false) :
    (trimStart t).getLast? = t.getLast? := by
  obtain ⟨b, -, ht⟩ := trimStart_append t
  have hne : trimStart t ≠ [] := by
    intro hnil
    have htrim : trim t = [] := by rw [← trim_trimStart, hnil]; rfl
    rw [(trim_eq_nil_iff t).mp htrim] at h
    cases h
  conv_rhs => rw [ht, List.getLast?_append_of_ne_nil _ hne]

/-! ## 3. Digits -/

/-- A digit stands in one of the rows of ten. -/
theorem exists_zero_of_isDecimal {c : Char} (h : isDecimal c = true) :
    ∃ z ∈ digitZeros, ∃ k < 10, c = Char.ofNat (z + k) := by
  unfold isDecimal digitValue? at h
  split at h
  · split at h
    · next hd =>
      refine ⟨0x30, by decide, c.toNat - 0x30, by omega, ?_⟩
      rw [show 0x30 + (c.toNat - 0x30) = c.toNat by omega, Char.ofNat_toNat]
    · cases h
  · rw [Option.isSome_map, List.find?_isSome] at h
    obtain ⟨z, hz, hc⟩ := h
    simp only [Bool.and_eq_true, decide_eq_true_eq] at hc
    refine ⟨z, hz, c.toNat - z, by omega, ?_⟩
    rw [show z + (c.toNat - z) = c.toNat by omega, Char.ofNat_toNat]

theorem isBlank_digit : ∀ z ∈ digitZeros, ∀ k < 10, isBlank (Char.ofNat (z + k)) = false := by
  decide +kernel

/-- **No digit is a blank.** -/
theorem isBlank_of_isDecimal {c : Char} (h : isDecimal c = true) : isBlank c = false := by
  obtain ⟨z, hz, k, hk, rfl⟩ := exists_zero_of_isDecimal h
  exact isBlank_digit z hz k hk

end Anonymization.Text
