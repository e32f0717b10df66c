import Mathlib
import Anonymization.Numeral.Reading
import Anonymization.Proofs.Numeral.Rounding
/-!
# Which numbers are out of range

A decimal is read as an infinity exactly from halfway between the greatest finite number and the power
of two behind it on.

* `significand_lt`, `le_significand` -- how many gaps fit into a quotient;
* `nearestRank_lt_iff` -- **where the ranks of a row end**, ties going to the even rank behind it;
* `isFinite_ofDecimal_iff` -- **which decimals are finite**, those told by their length included;
* `isFinite_value_iff` -- so it is for what is written.
-/

namespace Anonymization.Binary64

/-! ## 1. The significand -/

/-- A quotient holds fewer gaps than there are in two rows. -/
theorem significand_lt (num den : Nat) : num / (den * Nat.pow 2 (gap num den)) < 2 * row := by
  have hlog : num / den < 2 ^ (Nat.log2 (num / den) + 1) := Nat.lt_log2_self
  have hpow : (2 : Nat) ^ (Nat.log2 (num / den) + 1) ≤ 2 * row * 2 ^ gap num den := by
    have hrow : 2 * row = 2 ^ 53 := rfl
    rw [hrow, ← Nat.pow_add]
    refine Nat.pow_le_pow_right (by omega) ?_
    unfold gap
    omega
  rw [← Nat.div_div_eq_div_mul]
  exact Nat.div_lt_of_lt_mul (Nat.mul_comm _ _ ▸ hlog.trans_le hpow)

/-- Behind the first two rows a quotient holds as many gaps as there are in a row. -/
theorem le_significand {num den : Nat} (h : 0 < gap num den) :
    row ≤ num / (den * Nat.pow 2 (gap num den)) := by
  have hlog : Nat.log2 (num / den) = 52 + gap num den := by
    unfold gap at h ⊢
    omega
  have hne : num / den ≠ 0 := by
    intro h0
    rw [h0] at hlog
    have : Nat.log2 0 = 0 := rfl
    omega
  have hle : 2 ^ (52 + gap num den) ≤ num / den := hlog ▸ Nat.log2_self_le hne
  rw [Nat.pow_add] at hle
  rw [← Nat.div_div_eq_div_mul]
  exact (Nat.le_div_iff_mul_le (Nat.pow_pos (by omega))).mpr hle

/-! ## 2. The last rank of a row -/

theorem nearestRank_le (num den : Nat) : nearestRank num den ≤
    gap num den * row + num / (den * Nat.pow 2 (gap num den)) + 1 := by
  unfold nearestRank
  dsimp only
  split
  · exact Nat.le_refl _
  · exact Nat.le_succ _

theorem le_nearestRank (num den : Nat) :
    gap num den * row + num / (den * Nat.pow 2 (gap num den)) ≤ nearestRank num den := by
  unfold nearestRank
  dsimp only
  split
  · exact Nat.le_succ _
  · exact Nat.le_refl _

/-- The gap at least doubles from row to row. -/
theorem two_mul_unit_le (den : Nat) {s s' : Nat} (h : s < s') : 2 * (den * 2 ^ s) ≤ den * 2 ^ s' := by
  have hpow : 2 ^ (s + 1) ≤ 2 ^ s' := Nat.pow_le_pow_right (by omega) h
  have hmul := Nat.mul_le_mul_left den hpow
  rw [Nat.pow_succ, ← Nat.mul_assoc] at hmul
  omega

/-- **Where the ranks of a row end.** What is nearer to the row behind it, or as near, has a rank there. -/
theorem nearestRank_lt_iff (num : Nat) {den : Nat} (hden : 0 < den) (scale : Nat) :
    nearestRank num den < (scale + 2) * row ↔ 2 * num < (4 * row - 1) * (den * 2 ^ scale) := by
  have hrow : 1 ≤ row := by decide
  obtain ⟨s, hs⟩ : ∃ s, gap num den = s := ⟨_, rfl⟩
  have hunit : 0 < den * 2 ^ s := Nat.mul_pos hden (Nat.pow_pos (by omega))
  have hlt : num / (den * 2 ^ s) < 2 * row := hs ▸ significand_lt num den
  have hle : nearestRank num den ≤ s * row + num / (den * 2 ^ s) + 1 := hs ▸ nearestRank_le num den
  have hge : s * row + num / (den * 2 ^ s) ≤ nearestRank num den := hs ▸ le_nearestRank num den
  have hrows : (scale + 2) * row = scale * row + 2 * row := Nat.add_mul _ _ _
  rcases Nat.lt_trichotomy s scale with hless | rfl | hmore
  · -- the row of the quotient lies in front
    have hmul : (s + 1) * row ≤ scale * row := Nat.mul_le_mul_right _ hless
    rw [Nat.succ_mul] at hmul
    refine iff_of_true (by omega) ?_
    have hnum := (Nat.div_lt_iff_lt_mul hunit).mp hlt
    calc 2 * num < 2 * (2 * row * (den * 2 ^ s)) := by omega
      _ = 4 * row * (den * 2 ^ s) := by ring
      _ ≤ (4 * row - 1) * 2 * (den * 2 ^ s) := Nat.mul_le_mul_right _ (by omega)
      _ = (4 * row - 1) * (2 * (den * 2 ^ s)) := Nat.mul_assoc _ _ _
      _ ≤ (4 * row - 1) * (den * 2 ^ scale) := Nat.mul_le_mul_left _ (two_mul_unit_le den hless)
  · have hdiv := Nat.div_add_mod num (den * 2 ^ s)
    have hmod := Nat.mod_lt num hunit
    by_cases hlast : num / (den * 2 ^ s) + 1 = 2 * row
    · -- behind the last rank of the row the quotient is rounded up from half a gap on, that rank being odd
      have heven : (s + 2) * row % 2 = 0 := by
        rw [Nat.mul_mod, show row % 2 = 0 from rfl, Nat.mul_zero]
      have hfactor : (4 * row - 1) * (den * 2 ^ s) =
          2 * (den * 2 ^ s * (num / (den * 2 ^ s))) + den * 2 ^ s := by
        rw [show 4 * row - 1 = 2 * (num / (den * 2 ^ s)) + 1 by omega]
        ring
      have hrank : nearestRank num den =
          if den * 2 ^ s < 2 * (num % (den * 2 ^ s)) ∨ (den * 2 ^ s = 2 * (num % (den * 2 ^ s)) ∧
            (s * row + num / (den * 2 ^ s)) % 2 = 1) then s * row + num / (den * 2 ^ s) + 1
          else s * row + num / (den * 2 ^ s) := hs ▸ rfl
      rw [hrank, hfactor]
      split
      · exact iff_of_false (by omega) (by omega)
      · exact iff_of_true (by omega) (by omega)
    · have hnum : num < (num / (den * 2 ^ s) + 1) * (den * 2 ^ s) :=
        (Nat.div_lt_iff_lt_mul hunit).mp (Nat.lt_succ_self _)
      refine iff_of_true (by omega) ?_
      calc 2 * num < 2 * ((num / (den * 2 ^ s) + 1) * (den * 2 ^ s)) := by omega
        _ = 2 * (num / (den * 2 ^ s) + 1) * (den * 2 ^ s) := (Nat.mul_assoc _ _ _).symm
        _ ≤ (4 * row - 1) * (den * 2 ^ s) := Nat.mul_le_mul_right _ (by omega)
  · -- the row of the quotient lies behind
    have hmul : (scale + 1) * row ≤ s * row := Nat.mul_le_mul_right _ hmore
    rw [Nat.succ_mul] at hmul
    have hrank : row ≤ num / (den * 2 ^ s) := hs ▸ le_significand (by omega)
    refine iff_of_false (by omega) (Nat.not_lt.mpr ?_)
    have hnum := (Nat.le_div_iff_mul_le hunit).mp hrank
    calc (4 * row - 1) * (den * 2 ^ scale) ≤ 4 * row * (den * 2 ^ scale) := Nat.mul_le_mul_right _ (by omega)
      _ = 2 * (row * (2 * (den * 2 ^ scale))) := by ring
      _ ≤ 2 * (row * (den * 2 ^ s)) :=
        Nat.mul_le_mul_left _ (Nat.mul_le_mul_left _ (two_mul_unit_le den hmore))
      _ ≤ 2 * num := Nat.mul_le_mul_left _ hnum

/-! ## 3. Decimals -/

/-- Halfway between the greatest significand of 53 bits and the power of two behind it, in gaps of twice this
power of two. -/
def halfway (scale : Nat) : Nat := (4 * row - 1) * 2 ^ scale

/-- The least magnitude that is rounded to an infinity, halfway between the greatest finite number and the
power of two behind it: `2 ^ 1024 - 2 ^ 970`. -/
def overflow : Nat := halfway 970

-- the exponents stay variables from here on: no step is to see the powers themselves

theorem overflow_eq {j : Nat} (hj : j = 970) : overflow = (4 * row - 1) * 2 ^ j := by
  rw [← halfway, hj, overflow]

theorem stepsInOne_eq {k : Nat} (hk : k = 1074) : stepsInOne = 2 ^ k :=
  have hsteps : stepsInOne = Nat.pow 2 k := hk ▸ rfl
  hsteps

theorem overflow_pos : 0 < overflow := by
  obtain ⟨j, hj⟩ : ∃ j, j = 970 := ⟨_, rfl⟩
  rw [overflow_eq hj]
  exact Nat.mul_pos (by decide) (Nat.pow_pos (by omega))

theorem overflow_le {n : Nat} (hn : n = 310) : overflow ≤ 10 ^ n :=
  have h : overflow ≤ Nat.pow 10 n := by
    rw [hn]
    decide +kernel
  h

theorem isFinite_ofRank_iff (negative : Bool) (rank : Nat) : (ofRank negative rank).isFinite = true ↔ rank < ranks := by
  unfold ofRank
  split
  · next h => exact iff_of_true rfl h
  · next h => exact iff_of_false Bool.false_ne_true h

/-- **Which quotients are finite.** -/
theorem isFinite_ofRatio_iff (negative : Bool) (num : Nat) {den : Nat} (hden : 0 < den) :
    (ofRatio negative num den).isFinite = true ↔ num < overflow * den := by
  obtain ⟨k, hk⟩ : ∃ k, k = 1074 := ⟨_, rfl⟩
  obtain ⟨j, hj⟩ : ∃ j, j = 970 := ⟨_, rfl⟩
  have hranks : ranks = (j + k + 1 + 2) * row := by
    rw [hj, hk]
    rfl
  have hleft : 2 * (num * 2 ^ k) = num * (2 ^ k * 2) := by ring
  have hright : (4 * row - 1) * (den * 2 ^ (j + k + 1)) = (4 * row - 1) * 2 ^ j * den * (2 ^ k * 2) := by
    rw [Nat.pow_succ, Nat.pow_add]
    ring
  unfold ofRatio
  rw [isFinite_ofRank_iff, hranks, nearestRank_lt_iff _ hden, stepsInOne_eq hk, overflow_eq hj, hleft,
    hright]
  exact Nat.mul_lt_mul_right (Nat.mul_pos (Nat.pow_pos (by omega)) (by omega))

/-- The decimal `digits * 10 ^ exponent` is below the magnitudes that are rounded to an infinity. -/
def InRange (digits : Nat) (exponent : Int) : Prop :=
  digits * 10 ^ exponent.toNat < overflow * 10 ^ (-exponent).toNat

/-- A decimal of at most as many places as a digit takes is in range. -/
theorem inRange_of_places {digits : Nat} {exponent : Int}
    (h : ((Numeral.decimalText digits).length : Int) + exponent ≤ 0) : InRange digits exponent := by
  have hten : digits < 10 ^ (-exponent).toNat := by
    by_cases hlen : (Numeral.decimalText digits).length = 0
    · exact absurd (List.length_eq_zero_iff.mp hlen) (Numeral.decimalText_ne_nil digits)
    · exact (Numeral.length_decimalText_le_iff (by omega)).mp (by omega)
  unfold InRange
  rw [show exponent.toNat = 0 by omega, Nat.pow_zero, Nat.mul_one]
  exact hten.trans_le (Nat.le_mul_of_pos_left _ overflow_pos)

/-- A decimal of more than 310 places is out of range. -/
theorem not_inRange_of_places {digits : Nat} {exponent : Int} (hdigits : digits ≠ 0)
    (h : 310 < ((Numeral.decimalText digits).length : Int) + exponent) : ¬InRange digits exponent := by
  obtain ⟨n, hn⟩ : ∃ n, n = 310 := ⟨_, rfl⟩
  obtain ⟨l, hl⟩ : ∃ l, (Numeral.decimalText digits).length = l + 1 :=
    ⟨_, (Nat.succ_pred_eq_of_pos (List.length_pos_iff.mpr (Numeral.decimalText_ne_nil digits))).symm⟩
  have hten : 10 ^ l ≤ digits := by
    by_contra hlt
    by_cases h0 : l = 0
    · rw [h0] at hlt
      exact hdigits (by omega)
    · have hlen := (Numeral.length_decimalText_le_iff (by omega)).mpr (Nat.not_le.mp hlt)
      omega
  unfold InRange
  rw [Nat.not_lt]
  calc overflow * 10 ^ (-exponent).toNat ≤ 10 ^ n * 10 ^ (-exponent).toNat := Nat.mul_le_mul_right _ (overflow_le hn)
    _ = 10 ^ (n + (-exponent).toNat) := (Nat.pow_add _ _ _).symm
    _ ≤ 10 ^ (l + exponent.toNat) := Nat.pow_le_pow_right (by omega) (by omega)
    _ = 10 ^ l * 10 ^ exponent.toNat := Nat.pow_add _ _ _
    _ ≤ digits * 10 ^ exponent.toNat := Nat.mul_le_mul_right _ hten

/-- **Which decimals are finite.** -/
theorem isFinite_ofDecimal_iff (negative : Bool) (digits : Nat) (exponent : Int) :
    (ofDecimal negative digits exponent).isFinite = true ↔ InRange digits exponent := by
  unfold ofDecimal
  dsimp only
  split
  · next h =>
    refine iff_of_true rfl ?_
    rcases h with rfl | h
    · unfold InRange
      rw [Nat.zero_mul]
      exact Nat.mul_pos overflow_pos (Nat.pow_pos (by omega))
    · exact inRange_of_places (by omega)
  · next hzero =>
    split
    · next h => exact iff_of_false Bool.false_ne_true (not_inRange_of_places (fun h0 => hzero (.inl h0)) h)
    · split
      · next hexponent =>
        rw [isFinite_ofRatio_iff negative _ Nat.one_pos, InRange, show (-exponent).toNat = 0 by omega,
          Nat.pow_zero]
        exact Iff.rfl
      · next hexponent =>
        have hten : 0 < Nat.pow 10 (-exponent).toNat := Nat.pow_pos (by omega)
        rw [isFinite_ofRatio_iff negative _ hten, InRange, show exponent.toNat = 0 by omega, Nat.pow_zero,
          Nat.mul_one]
        exact Iff.rfl

end Anonymization.Binary64

namespace Anonymization.Numeral.Written

/-- What is written is below the magnitudes that are rounded to an infinity. -/
def InRange (w : Written) : Prop :=
  Binary64.InRange (Text.digitsValue (w.whole ++ w.fraction))
    ((if w.exponentNegative then -(Text.digitsValue w.exponent : Int) else Text.digitsValue w.exponent) -
      w.fraction.length)

/-- **What is written is read as a finite number exactly if it is in range**, and as an infinity otherwise. -/
theorem isFinite_value_iff (w : Written) : w.value.isFinite = true ↔ w.InRange :=
  Binary64.isFinite_ofDecimal_iff _ _ _

end Anonymization.Numeral.Written
