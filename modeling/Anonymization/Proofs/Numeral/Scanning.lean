import Anonymization.Criterion.Derivation
import Anonymization.Proofs.Numeral.Digits
import Anonymization.Proofs.Text.Trimming
/-!
# Reading a number at the start of a text

* `takeDigits_append` -- all digits in a row are taken;
* `take?_sound` -- **what is taken is a numeral**, and the rest stands behind it;
* `take?_complete` -- **a numeral is taken as a whole** where no character follows that could belong
  to it.
-/

namespace Anonymization.Numeral

/-- No digit comes first. -/
def EndsDigits (t : Text) : Prop := ∀ c, t.head? = some c → Text.isDecimal c = false

/-- Nothing comes first that a numeral goes on with. -/
def EndsNumber (t : Text) : Prop :=
  ∀ c, t.head? = some c → Text.isDecimal c = false ∧ c ≠ '.' ∧ c ≠ 'e' ∧ c ≠ 'E'

theorem EndsNumber.endsDigits {t : Text} (h : EndsNumber t) : EndsDigits t := fun c hc => (h c hc).1

/-! ## 1. Digits and signs -/

theorem takeDigits_append {d rest : Text} (hd : ∀ c ∈ d, Text.isDecimal c = true)
    (hr : EndsDigits rest) :
    Written.takeDigits (d ++ rest) = (d, rest) := by
  unfold Written.takeDigits
  rw [List.takeWhile_append_of_pos hd, List.dropWhile_append_of_pos hd]
  cases rest with
  | nil => simp
  | cons c rest =>
    have hc : Text.isDecimal c = false := hr c rfl
    simp [hc]

/-- The digits that are taken, and no digit behind them. -/
theorem takeDigits_spec (t : Text) :
    ∃ d rest, Written.takeDigits t = (d, rest) ∧ t = d ++ rest ∧
      (∀ c ∈ d, Text.isDecimal c = true) ∧
      EndsDigits rest := by
  refine ⟨_, _, rfl, List.takeWhile_append_dropWhile.symm, fun c hc => List.mem_takeWhile_imp hc,
    ?_⟩
  intro c hc
  have h := List.head?_dropWhile_not (p := Text.isDecimal) (l := t)
  rw [hc] at h
  exact h

theorem digits_of_cons {c : Char} {d : Text} (h : ∀ x ∈ c :: d, Text.isDecimal x = true) :
    Text.Digits (c :: d) :=
  ⟨by simp, h⟩

/-- A sign, and what is behind it. -/
theorem splitSign_sound (t : Text) :
    ∃ sign, SignSpells (splitSign t).1 sign ∧ t = sign ++ (splitSign t).2 := by
  unfold splitSign
  split
  · exact ⟨_, .minus, rfl⟩
  · exact ⟨_, .plus, rfl⟩
  · exact ⟨_, .absent, rfl⟩

theorem splitSign_complete {negative : Bool} {sign t : Text} (h : SignSpells negative sign)
    (ht : ∀ c, t.head? = some c → c ≠ '-' ∧ c ≠ '+') : splitSign (sign ++ t) = (negative, t) := by
  cases h with
  | minus => rfl
  | plus => rfl
  | absent =>
    cases t with
    | nil => rfl
    | cons c t =>
      obtain ⟨h1, h2⟩ := ht c rfl
      simp [splitSign, h1, h2]

/-- No sign is a digit. -/
theorem not_sign_of_isDecimal {c : Char} (h : Text.isDecimal c = true) : c ≠ '-' ∧ c ≠ '+' := by
  refine ⟨?_, ?_⟩
  · rintro rfl
    revert h
    decide
  · rintro rfl
    revert h
    decide

/-- A row of digits does not begin with a sign. -/
theorem not_sign_of_digits {d t : Text} (hd : Text.Digits d) :
    ∀ c, (d ++ t).head? = some c → c ≠ '-' ∧ c ≠ '+' := by
  intro c hc
  obtain ⟨x, d', rfl⟩ := List.exists_cons_of_ne_nil hd.1
  have hx : x = c := by simpa using hc
  exact not_sign_of_isDecimal (hx ▸ hd.2 x List.mem_cons_self)

/-! ## 2. The exponent -/

theorem takeExponent?_sound {t rest digits : Text} {negative : Bool}
    (h : Written.takeExponent? t = some (negative, digits, rest)) :
    ∃ scale, t = scale ++ rest ∧ ExponentSpells negative digits scale := by
  cases t with
  | nil => cases h
  | cons mark t =>
    by_cases hm : mark = 'e' ∨ mark = 'E'
    · obtain ⟨sign, hs, ht⟩ := splitSign_sound t
      obtain ⟨d, r, htake, hu, hd, -⟩ := takeDigits_spec (splitSign t).2
      rw [Written.takeExponent?, if_pos hm] at h
      simp only [htake] at h
      cases d with
      | nil => cases h
      | cons c d =>
        simp only [Option.some.injEq, Prod.mk.injEq] at h
        obtain ⟨rfl, rfl, rfl⟩ := h
        refine ⟨mark :: sign ++ c :: d, ?_, .present hm hs (digits_of_cons hd)⟩
        rw [ht, hu]
        simp
    · rw [Written.takeExponent?, if_neg hm] at h
      cases h

theorem takeExponent?_complete {negative : Bool} {digits scale rest : Text}
    (h : ExponentSpells negative digits scale) (hne : digits ≠ []) (hr : EndsDigits rest) :
    Written.takeExponent? (scale ++ rest) = some (negative, digits, rest) := by
  cases h with
  | absent => exact absurd rfl hne
  | @present mark _ sign _ hm hs hd =>
    obtain ⟨c, d, rfl⟩ := List.exists_cons_of_ne_nil hd.1
    have hsign := splitSign_complete (t := c :: d ++ rest) hs (not_sign_of_digits hd)
    have htake := takeDigits_append hd.2 hr
    rw [List.cons_append, List.cons_append, List.append_assoc, Written.takeExponent?, if_pos hm,
      hsign]
    simp only [htake]

theorem takeExponent?_none {rest : Text} (hr : EndsNumber rest) :
    Written.takeExponent? rest = none := by
  cases rest with
  | nil => rfl
  | cons c rest =>
    obtain ⟨-, -, h1, h2⟩ := hr c rfl
    rw [Written.takeExponent?, if_neg (by simp [h1, h2])]

theorem withExponent_sound {negative : Bool} {whole fraction t rest : Text} {w : Written}
    (h : Written.withExponent negative whole fraction t = (w, rest)) :
    ∃ exponentNegative exponent scale, w = ⟨negative, whole, fraction, exponentNegative, exponent⟩ ∧
      t = scale ++ rest ∧ ExponentSpells exponentNegative exponent scale := by
  unfold Written.withExponent at h
  split at h
  · next hx =>
    obtain ⟨rfl, rfl⟩ := Prod.mk.inj h
    obtain ⟨scale, ht, hs⟩ := takeExponent?_sound hx
    exact ⟨_, _, scale, rfl, ht, hs⟩
  · obtain ⟨rfl, rfl⟩ := Prod.mk.inj h
    exact ⟨_, _, [], rfl, rfl, .absent⟩

theorem withExponent_complete {negative exponentNegative : Bool}
    {whole fraction exponent scale rest : Text}
    (h : ExponentSpells exponentNegative exponent scale) (hr : EndsNumber rest) :
    Written.withExponent negative whole fraction (scale ++ rest) =
      (⟨negative, whole, fraction, exponentNegative, exponent⟩, rest) := by
  unfold Written.withExponent
  cases h with
  | absent => rw [List.nil_append, takeExponent?_none hr]
  | present hm hs hd => rw [takeExponent?_complete (.present hm hs hd) hd.1 hr.endsDigits]

/-! ## 3. The number -/

/-- **What is taken is a numeral.** -/
theorem take?_sound {t rest : Text} {w : Written} (h : Written.take? t = some (w, rest)) :
    ∃ numeral, t = numeral ++ rest ∧ Written.Spells w numeral := by
  obtain ⟨sign, hs, ht⟩ := splitSign_sound t
  obtain ⟨d, r, htake, hu, hd, -⟩ := takeDigits_spec (splitSign t).2
  suffices hbody : ∃ digits scale whole fraction exponentNegative exponent,
      w = ⟨(splitSign t).1, whole, fraction, exponentNegative, exponent⟩ ∧
        d ++ r = digits ++ scale ++ rest ∧
        DigitsSpell whole fraction digits ∧ ExponentSpells exponentNegative exponent scale by
    obtain ⟨digits, scale, whole, fraction, en, exponent, rfl, hdr, hspell, hscale⟩ := hbody
    refine ⟨sign ++ digits ++ scale, ?_, .mk hs hspell hscale⟩
    rw [ht, hu, hdr]
    simp
  unfold Written.take? at h
  simp only [htake] at h
  split at h
  · -- a fraction alone
    next r' heq =>
    obtain ⟨rfl, rfl⟩ := Prod.mk.inj heq
    obtain ⟨f, r'', htake', hr', hf, -⟩ := takeDigits_spec r'
    simp only [htake'] at h
    cases f with
    | nil => cases h
    | cons c f =>
      obtain ⟨en, exponent, scale, rfl, hr'', hscale⟩ := withExponent_sound (Option.some.inj h)
      exact ⟨'.' :: c :: f, scale, [], c :: f, en, exponent, rfl, by rw [hr', hr'']; simp,
        .fraction (digits_of_cons hf), hscale⟩
  · cases h
  · -- digits and a point
    next whole r' hne heq =>
    obtain ⟨rfl, rfl⟩ := Prod.mk.inj heq
    obtain ⟨f, r'', htake', hr', hf, -⟩ := takeDigits_spec r'
    simp only [htake'] at h
    obtain ⟨en, exponent, scale, rfl, hr'', hscale⟩ := withExponent_sound (Option.some.inj h)
    have hw : Text.Digits d := ⟨hne, hd⟩
    cases f with
    | nil =>
      exact ⟨d ++ ['.'], scale, d, [], en, exponent, rfl, by rw [hr', hr'']; simp, .point hw,
        hscale⟩
    | cons c f =>
      exact ⟨d ++ '.' :: c :: f, scale, d, c :: f, en, exponent, rfl, by rw [hr', hr'']; simp,
        .both hw (digits_of_cons hf), hscale⟩
  · -- digits alone
    next whole r' hne hne' hne'' heq =>
    obtain ⟨rfl, rfl⟩ := Prod.mk.inj heq
    obtain ⟨en, exponent, scale, rfl, hr', hscale⟩ := withExponent_sound (Option.some.inj h)
    have hw : Text.Digits d := ⟨hne', hd⟩
    exact ⟨d, scale, d, [], en, exponent, rfl, by rw [hr']; simp, .whole hw, hscale⟩

/-- An exponent does not begin like the digits in front of it go on, and neither does what is behind it. -/
theorem endsDigits_scale {negative : Bool} {exponent scale rest : Text}
    (h : ExponentSpells negative exponent scale) (hr : EndsNumber rest) :
    ∀ c, (scale ++ rest).head? = some c → Text.isDecimal c = false ∧ c ≠ '.' := by
  intro c hc
  cases h with
  | absent => exact ⟨(hr c hc).1, (hr c hc).2.1⟩
  | present hm hs hd =>
    have hc' := Option.some.inj hc
    rcases hm with rfl | rfl
    · subst hc'
      decide
    · subst hc'
      decide

/-- What is taken where digits stand and no point behind them. -/
theorem take?_whole {negative : Bool} {sign whole t : Text} (hs : SignSpells negative sign)
    (hw : Text.Digits whole) (ht : ∀ c, t.head? = some c → Text.isDecimal c = false ∧ c ≠ '.') :
    Written.take? (sign ++ (whole ++ t)) = some (Written.withExponent negative whole [] t) := by
  unfold Written.take?
  rw [splitSign_complete hs (not_sign_of_digits hw)]
  simp only [takeDigits_append hw.2 fun c hc => (ht c hc).1]
  split
  · next heq => exact absurd (Prod.mk.inj heq).1 hw.1
  · next heq => exact absurd (Prod.mk.inj heq).1 hw.1
  · next heq =>
    obtain ⟨-, rfl⟩ := Prod.mk.inj heq
    exact absurd rfl (ht '.' rfl).2
  · next heq =>
    obtain ⟨rfl, rfl⟩ := Prod.mk.inj heq
    rfl

/-- What is taken where digits and a point stand. -/
theorem take?_point {negative : Bool} {sign whole fraction t : Text} (hs : SignSpells negative sign)
    (hw : Text.Digits whole) (hf : ∀ c ∈ fraction, Text.isDecimal c = true) (ht : EndsDigits t) :
    Written.take? (sign ++ (whole ++ '.' :: (fraction ++ t))) =
      some (Written.withExponent negative whole fraction t) := by
  unfold Written.take?
  rw [splitSign_complete hs (not_sign_of_digits hw)]
  have hpoint : EndsDigits ('.' :: (fraction ++ t)) := by
    intro c hc
    rw [← Option.some.inj hc]
    decide
  simp only [takeDigits_append hw.2 hpoint]
  split
  · next heq => exact absurd (Prod.mk.inj heq).1 hw.1
  · next heq => exact absurd (Prod.mk.inj heq).1 hw.1
  · next heq =>
    obtain ⟨rfl, hrest⟩ := Prod.mk.inj heq
    rw [← (List.cons.inj hrest).2]
    simp only [takeDigits_append hf ht]
  · next hne heq =>
    obtain ⟨rfl, rfl⟩ := Prod.mk.inj heq
    exact (hne _ rfl).elim

/-- What is taken where a fraction stands alone. -/
theorem take?_fraction {negative : Bool} {sign fraction t : Text} (hs : SignSpells negative sign)
    (hf : Text.Digits fraction) (ht : EndsDigits t) :
    Written.take? (sign ++ '.' :: (fraction ++ t)) =
      some (Written.withExponent negative [] fraction t) := by
  unfold Written.take?
  have hpoint : EndsDigits ('.' :: (fraction ++ t)) := by
    intro c hc
    rw [← Option.some.inj hc]
    decide
  have htake := takeDigits_append (d := []) (by simp) hpoint
  rw [List.nil_append] at htake
  rw [splitSign_complete hs fun c hc => by rw [← Option.some.inj hc]; decide]
  simp only [htake, takeDigits_append hf.2 ht]
  obtain ⟨c, f, rfl⟩ := List.exists_cons_of_ne_nil hf.1
  rfl

/-- **A numeral is taken as a whole.** -/
theorem take?_complete {w : Written} {numeral rest : Text} (h : Written.Spells w numeral)
    (hr : EndsNumber rest) :
    Written.take? (numeral ++ rest) = some (w, rest) := by
  obtain @⟨negative, whole, fraction, en, exponent, sign, digits, scale, hs, hd, hscale⟩ := h
  have hends := endsDigits_scale hscale hr
  rw [List.append_assoc, List.append_assoc]
  cases hd with
  | whole hw => rw [take?_whole hs hw hends, withExponent_complete hscale hr]
  | point hw =>
    have htake := @take?_point _ _ _ [] _ hs hw (by simp) fun c hc => (hends c hc).1
    rw [List.nil_append, withExponent_complete hscale hr] at htake
    rw [List.append_assoc]
    exact htake
  | both hw hf =>
    rw [List.append_assoc, List.cons_append, take?_point hs hw hf.2 fun c hc => (hends c hc).1,
      withExponent_complete hscale hr]
  | fraction hf =>
    rw [List.cons_append, take?_fraction hs hf fun c hc => (hends c hc).1,
      withExponent_complete hscale hr]

/-! ## 4. The characters of a number -/

/-- A digit, a sign, a point or the mark of an exponent. -/
def InNumeral (c : Char) : Prop := Text.isDecimal c = true ∨ c ∈ ['+', '-', '.', 'e', 'E']

theorem inNumeral_of_sign {negative : Bool} {sign : Text} (h : SignSpells negative sign) :
    ∀ c ∈ sign, InNumeral c := by
  cases h <;> simp [InNumeral]

theorem inNumeral_of_digits {d : Text} (h : Text.Digits d) :
    ∀ c ∈ d, InNumeral c := fun c hc => .inl (h.2 c hc)

/-- **Nothing else stands in a numeral.** -/
theorem inNumeral_of_spells {w : Written} {numeral : Text} (h : Written.Spells w numeral) :
    ∀ c ∈ numeral, InNumeral c := by
  obtain ⟨hs, hd, hscale⟩ := h
  intro c hc
  rcases List.mem_append.mp hc with hc | hc
  · rcases List.mem_append.mp hc with hc | hc
    · exact inNumeral_of_sign hs c hc
    · cases hd with
      | whole hw => exact inNumeral_of_digits hw c hc
      | point hw =>
        rcases List.mem_append.mp hc with hc | hc
        · exact inNumeral_of_digits hw c hc
        · rw [List.mem_singleton.mp hc]
          exact .inr (by decide)
      | both hw hf =>
        rcases List.mem_append.mp hc with hc | hc
        · exact inNumeral_of_digits hw c hc
        · rcases List.mem_cons.mp hc with rfl | hc
          · exact .inr (by decide)
          · exact inNumeral_of_digits hf c hc
      | fraction hf =>
        rcases List.mem_cons.mp hc with rfl | hc
        · exact .inr (by decide)
        · exact inNumeral_of_digits hf c hc
  · cases hscale with
    | absent => cases hc
    | present hm hs hd =>
      rcases List.mem_cons.mp hc with rfl | hc
      · rcases hm with rfl | rfl <;> exact .inr (by decide)
      · rcases List.mem_append.mp hc with hc | hc
        · exact inNumeral_of_sign hs c hc
        · exact inNumeral_of_digits hd c hc

theorem inNumeral_signedText (n : Int) : ∀ c ∈ signedText n, InNumeral c := by
  have hdigits : ∀ k, ∀ c ∈ decimalText k, InNumeral c :=
    fun k c hc => .inl (isDecimal_of_mem_decimalText hc)
  cases n with
  | ofNat k => exact hdigits k
  | negSucc k => exact List.forall_mem_cons.mpr ⟨.inr (by decide), hdigits (k + 1)⟩

end Anonymization.Numeral
