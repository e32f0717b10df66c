import Anonymization.Criterion.Derivation
import Anonymization.Proofs.Numeral.Rounding
/-!
# A printed number is a numeral of that number

* `spells_scaled`, `spells_below_one`, `spells_whole`, `spells_both` -- the four ways to set digits out;
* `setOut_spells` -- however its digits are set out, a decimal is written as a numeral;
* `text_spells` -- **the text of a finite number is a numeral whose value is this number**.
-/

namespace Anonymization

open Numeral

/-- A digit alone, or digits in front of more of them. -/
theorem Text.Digits.append {s t : Text} (hs : Text.Digits s)
    (ht : ∀ c ∈ t, Text.isDecimal c = true) :
    Text.Digits (s ++ t) := by
  refine ⟨fun h => hs.1 (List.append_eq_nil_iff.mp h).1, fun c hc => ?_⟩
  rcases List.mem_append.mp hc with hc | hc
  · exact hs.2 c hc
  · exact ht c hc

theorem Text.isDecimal_zeros (k : Nat) : ∀ c ∈ List.replicate k '0', Text.isDecimal c = true := by
  intro c hc
  rw [List.eq_of_mem_replicate hc]
  decide

/-- Zeros in front of digits. -/
theorem Text.Digits.behind_zeros {t : Text} (ht : Text.Digits t) (k : Nat) :
    Text.Digits (List.replicate k '0' ++ t) := by
  refine ⟨fun h => ht.1 (List.append_eq_nil_iff.mp h).2, fun c hc => ?_⟩
  rcases List.mem_append.mp hc with hc | hc
  · exact Text.isDecimal_zeros k c hc
  · exact ht.2 c hc

theorem Text.digits_zero : Text.Digits ['0'] :=
  ⟨by simp, Text.isDecimal_zeros 1⟩

theorem Numeral.digits_decimalText (n : Nat) : Text.Digits (decimalText n) :=
  ⟨decimalText_ne_nil n, fun _ => isDecimal_of_mem_decimalText⟩

namespace Binary64

/-! ## 1. The exponent -/

theorem digitsValue_padded (width : Nat) (t : Text) :
    Text.digitsValue (padded width t) = Text.digitsValue t := by
  unfold padded
  rw [Text.digitsValue_append, Text.digitsValue_zeros, Nat.zero_mul, Nat.zero_add]

theorem digits_padded (width : Nat) {t : Text} (ht : Text.Digits t) :
    Text.Digits (padded width t) :=
  ht.behind_zeros (width - t.length)

/-- The sign of an exponent, and its digits without it. -/
theorem exponentText_spells (l : Layout) (e : Int) :
    ∃ negative digits, ExponentSpells negative digits (exponentText l e) ∧
      (if negative then -(Text.digitsValue digits : Int) else Text.digitsValue digits) = e := by
  have hd : Text.Digits (padded l.exponentWidth (decimalText e.natAbs)) :=
    digits_padded _ (digits_decimalText _)
  have hv : Text.digitsValue (padded l.exponentWidth (decimalText e.natAbs)) = e.natAbs := by
    rw [digitsValue_padded, digitsValue_decimalText]
  unfold exponentText
  by_cases he : e < 0
  · refine ⟨true, padded l.exponentWidth (decimalText e.natAbs), ?_, ?_⟩
    · rw [if_pos he]
      exact .present (.inl rfl) .minus hd
    · rw [hv]
      simp only [↓reduceIte]
      omega
  · refine ⟨false, padded l.exponentWidth (decimalText e.natAbs), ?_, ?_⟩
    · rw [if_neg he]
      exact .present (.inl rfl) .plus hd
    · rw [hv]
      simp only [Bool.false_eq_true, ↓reduceIte]
      omega

/-! ## 2. The digits, set out -/

/-- What a text without sign says: these digits (a power of ten more than asked for does not count)
with the first one at the place `10 ^ e`. -/
structure SetOut (t : Text) (e : Int) (out : Text) where
  whole : Text
  fraction : Text
  negative : Bool
  exponent : Text
  digits : Text
  scale : Text
  /-- Zeros behind the digits. -/
  zeros : Nat
  out_eq : out = digits ++ scale
  digits_spell : DigitsSpell whole fraction digits
  scale_spells : ExponentSpells negative exponent scale
  value_eq : Text.digitsValue (whole ++ fraction) = Text.digitsValue t * 10 ^ zeros
  place_eq : (if negative then -(Text.digitsValue exponent : Int) else Text.digitsValue exponent) -
    fraction.length + zeros = e + 1 - t.length

/-- With an exponent, one digit stands in front of the point, and no point where no other digit is. -/
theorem spells_scaled {d : Char} {rest : Text} (ht : Text.Digits (d :: rest)) (e : Int) :
    Nonempty (SetOut (d :: rest) e
      (if rest =
        [] then d :: exponentText layout e else d :: '.' :: rest ++ exponentText layout e)) := by
  obtain ⟨negative, exponent, hs, hv⟩ := exponentText_spells layout e
  have hd : Text.Digits [d] :=
    ⟨by simp, fun c hc => ht.2 c (List.mem_singleton.mp hc ▸ List.mem_cons_self)⟩
  by_cases hrest : rest = []
  · subst hrest
    rw [if_pos rfl]
    refine ⟨⟨[d], [], negative, exponent, [d], _, 0, rfl, .whole hd, hs, by simp, ?_⟩⟩
    rw [hv]
    simp
  · rw [if_neg hrest]
    have hr : Text.Digits rest := ⟨hrest, fun c hc => ht.2 c (List.mem_cons_of_mem _ hc)⟩
    refine ⟨⟨[d], rest, negative, exponent, [d] ++ '.' :: rest, _, 0, by simp, .both hd hr, hs,
      by simp, ?_⟩⟩
    rw [hv, List.length_cons]
    push_cast
    omega

/-- Below one, zeros stand behind the point. -/
theorem spells_below_one {t : Text} (ht : Text.Digits t) {e : Int} (he : e < 0) :
    Nonempty (SetOut t e ('0' :: '.' :: List.replicate (-e - 1).toNat '0' ++ t)) := by
  refine ⟨⟨['0'], _, false, [], _, [], 0, ?_,
    .both Text.digits_zero (ht.behind_zeros (-e - 1).toNat), .absent, ?_, ?_⟩⟩
  · simp
  · have h0 : (Text.digitValue? '0').getD 0 = 0 := by decide
    rw [List.singleton_append, Text.digitsValue_cons, Text.digitsValue_append,
      Text.digitsValue_zeros, h0]
    simp
  · have h0 : Text.digitsValue [] = 0 := rfl
    simp only [Bool.false_eq_true, ↓reduceIte, List.length_append, List.length_replicate, h0]
    push_cast
    omega

/-- A whole number has zeros up to the point and one behind it. -/
theorem spells_whole {t : Text} (ht : Text.Digits t) {e : Int} (he : 0 ≤ e)
    (hlen : t.length ≤ e.toNat + 1) :
    Nonempty (SetOut t e (t ++ List.replicate (e.toNat + 1 - t.length) '0' ++ ['.', '0'])) := by
  have hw := ht.append (Text.isDecimal_zeros (e.toNat + 1 - t.length))
  refine ⟨⟨_, ['0'], false, [], _, [], e.toNat + 1 - t.length + 1, ?_, .both hw Text.digits_zero,
    .absent, ?_, ?_⟩⟩
  · simp
  · rw [List.append_assoc, Text.digitsValue_append, ← List.replicate_succ', Text.digitsValue_zeros,
      List.length_replicate, Nat.add_zero]
  · have h0 : Text.digitsValue [] = 0 := rfl
    simp only [Bool.false_eq_true, ↓reduceIte, List.length_singleton, h0]
    push_cast
    omega

/-- Otherwise digits stand on both sides of the point. -/
theorem spells_both {t : Text} (ht : Text.Digits t) {e : Int} (he : 0 ≤ e)
    (hlen : e.toNat + 1 < t.length) :
    Nonempty (SetOut t e (t.take (e.toNat + 1) ++ '.' :: t.drop (e.toNat + 1))) := by
  have hw : Text.Digits (t.take (e.toNat + 1)) :=
    ⟨by simp [ht.1], fun c hc => ht.2 c (List.mem_of_mem_take hc)⟩
  have hf : Text.Digits (t.drop (e.toNat + 1)) :=
    ⟨by simp; omega, fun c hc => ht.2 c (List.mem_of_mem_drop hc)⟩
  refine ⟨⟨_, _, false, [], _, [], 0, ?_, .both hw hf, .absent, ?_, ?_⟩⟩
  · simp
  · simp
  · have h0 : Text.digitsValue [] = 0 := rfl
    simp only [Bool.false_eq_true, ↓reduceIte, List.length_drop, h0]
    push_cast
    omega

/-- **However its digits are set out, a decimal is written as a numeral.** -/
theorem setOut_spells {t : Text} (ht : Text.Digits t) (e : Int) :
    Nonempty (SetOut t e (setOut layout t e)) := by
  unfold setOut
  split
  · obtain ⟨d, rest, rfl⟩ := List.exists_cons_of_ne_nil ht.1
    have hscaled := spells_scaled ht e
    cases rest with
    | nil => exact hscaled
    | cons d' rest => exact hscaled
  · split
    · next he => exact spells_below_one ht he
    · next he =>
      simp only
      split
      · next hlen => exact spells_whole ht (by omega) hlen
      · next hlen => exact spells_both ht (by omega) (by omega)

/-! ## 3. The number -/

/-- The shortest decimal of a magnitude that is not zero has a digit that is not zero. -/
theorem digits_shortest_pos {rank : Nat} (h : 0 < rank) (hr : rank < ranks) :
    0 < (shortest rank).digits := by
  have hread := @ofDecimal_of_readsBack ⟨rank, hr⟩ _ (readsBack_shortest h hr) false
  generalize shortest rank = d at hread
  by_contra hd
  have hzero : d.digits = 0 := by omega
  have hrank : ofRank false 0 = .finite false ⟨rank, hr⟩ := by
    rw [← hread, hzero]
    simp [ofDecimal]
  unfold ofRank at hrank
  split at hrank
  · simp only [finite.injEq, true_and, Fin.mk.injEq] at hrank
    omega
  · cases hrank

/-- The magnitude of a rank is written as a numeral that is read as this rank. -/
theorem magnitudeText_spells (rank : Fin ranks) :
    ∃ whole fraction negative exponent digits scale, DigitsSpell whole fraction digits ∧
      ExponentSpells negative exponent scale ∧ magnitudeText rank = digits ++ scale ∧
      ∀ sign, Written.value ⟨sign, whole, fraction, negative, exponent⟩ = .finite sign rank := by
  by_cases h : rank.val = 0
  · have ht : magnitudeText rank = ['0', '.', '0'] ++ [] := by simp [magnitudeText, h]
    refine ⟨['0'], ['0'], false, [], _, [], .both Text.digits_zero Text.digits_zero, .absent, ht,
      fun sign => ?_⟩
    have hv : Text.digitsValue (['0'] ++ ['0']) = 0 := by decide
    have hpos : 0 < ranks := by omega
    unfold Written.value ofDecimal
    simp only [hv, true_or, ↓reduceIte]
    unfold ofRank
    rw [dif_pos hpos]
    congr 1
    exact Fin.ext h.symm
  · have hpos : 0 < rank.val := by omega
    have hread :=
      fun sign => @ofDecimal_of_readsBack rank _ (readsBack_shortest hpos rank.isLt) sign
    have hd := digits_shortest_pos hpos rank.isLt
    unfold magnitudeText
    rw [if_neg h]
    generalize shortest rank = d at hread hd ⊢
    have hdigits : Text.Digits (dropZeros (decimalText d.digits)) := by
      refine ⟨dropZeros_ne_nil hd, fun c hc => ?_⟩
      obtain ⟨k, hk⟩ := dropZeros_append (decimalText d.digits)
      exact isDecimal_of_mem_decimalText (n := d.digits) (hk ▸ List.mem_append_left _ hc)
    obtain ⟨k, hlen, hval⟩ := digitsValue_dropZeros (decimalText d.digits)
    rw [digitsValue_decimalText] at hval
    obtain ⟨s⟩ := setOut_spells hdigits (d.exponent + (decimalText d.digits).length - 1)
    refine ⟨s.whole, s.fraction, s.negative, s.exponent, s.digits, s.scale, s.digits_spell,
      s.scale_spells, s.out_eq, fun sign => ?_⟩
    unfold Written.value
    simp only
    have hshift : ofDecimal sign d.digits d.exponent =
        ofDecimal sign (Text.digitsValue (dropZeros (decimalText d.digits))) (d.exponent + k) := by
      conv_lhs => rw [hval, ofDecimal_shift]
    rw [s.value_eq, ofDecimal_shift, s.place_eq, ← hread sign, hshift]
    congr 1
    omega

/-- **The text of a finite number is a numeral, and its value is this number.** -/
theorem text_spells {x : Binary64} (h : x.isFinite = true) :
    ∃ w, Written.Spells w x.text ∧ w.value = x := by
  cases x with
  | finite negative rank =>
    obtain ⟨whole, fraction, en, exponent, digits, scale, hd, hs, ht, hv⟩ :=
      magnitudeText_spells rank
    refine ⟨⟨negative, whole, fraction, en, exponent⟩, ?_, hv negative⟩
    have htext : text (.finite negative rank) =
        (if negative then ['-'] else []) ++ digits ++ scale := by
      rw [List.append_assoc, ← ht]
      rfl
    rw [htext]
    cases negative with
    | false => exact .mk .absent hd hs
    | true => exact .mk .minus hd hs
  | infinite negative => cases h
  | nan => cases h

end Binary64

end Anonymization
