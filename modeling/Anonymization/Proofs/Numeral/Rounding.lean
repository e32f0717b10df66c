import Anonymization.Numeral.Shortest
import Anonymization.Proofs.Numeral.Digits
/-!
# Rounding, and the decimals that read back

A number is rounded from a quotient; what counts is the quotient, not how it is written.

* `nearestRank_scale` -- numerator and denominator may be multiplied by the same number;
* `nearestRank_units` -- **a magnitude rounds to its own rank**;
* `ofDecimal_shift` -- digits and exponent may be traded against each other;
* `readsBack_shortest` -- **the shortest decimal of a rank reads back as this rank**.
-/

namespace Anonymization.Binary64

/-! ## 1. Quotients -/

theorem gap_scale (num den : Nat) {c : Nat} (hc : 0 < c) :
    gap (num * c) (den * c) = gap num den := by
  unfold gap
  rw [Nat.mul_div_mul_right num den hc]

/-- **Only the quotient is rounded.** -/
theorem nearestRank_scale (num den : Nat) {c : Nat} (hc : 0 < c) :
    nearestRank (num * c) (den * c) = nearestRank num den := by
  have hunit : den * c * Nat.pow 2 (gap num den) = den * Nat.pow 2 (gap num den) * c := by ring
  have hlt : ∀ a b : Nat, a * c < 2 * (b * c) ↔ a < 2 * b := fun a b => by
    rw [← Nat.mul_assoc]
    exact Nat.mul_lt_mul_right hc
  have heq : ∀ a b : Nat, a * c = 2 * (b * c) ↔ a = 2 * b := fun a b => by
    rw [← Nat.mul_assoc]
    exact Nat.mul_left_inj (by omega)
  unfold nearestRank
  simp only [gap_scale num den hc, hunit, Nat.mul_div_mul_right _ _ hc, Nat.mul_mod_mul_right, hlt,
    heq]

theorem ofRatio_scale (negative : Bool) (num den : Nat) {c : Nat} (hc : 0 < c) :
    ofRatio negative (num * c) (den * c) = ofRatio negative num den := by
  unfold ofRatio
  rw [Nat.mul_right_comm, nearestRank_scale _ _ hc]

/-! ## 2. Magnitudes -/

/-- In the first two rows a magnitude is its rank. -/
theorem units_of_lt {r : Nat} (h : r < 2 * row) : units r = r := by
  have hr : r / row ≤ 1 := by
    have := (Nat.div_lt_iff_lt_mul (by decide)).mpr h
    omega
  have hs : r / row - 1 = 0 := by omega
  unfold units
  simp [hs]

/-- From the second row on a magnitude is a significand of 53 bits times the gap. -/
theorem units_of_le {r : Nat} (h : row ≤ r) :
    ∃ m s, row ≤ m ∧ m < 2 * row ∧ r = s * row + m ∧ units r = m * 2 ^ s := by
  have hpos : 0 < row := by decide
  have h1 : 1 ≤ r / row := (Nat.le_div_iff_mul_le hpos).mpr (by omega)
  obtain ⟨s, hs⟩ : ∃ s, r / row = s + 1 := ⟨r / row - 1, by omega⟩
  have hd := Nat.div_add_mod r row
  have hm := Nat.mod_lt r hpos
  rw [hs] at hd
  have hr : r = s * row + (row + r % row) := by
    rw [Nat.mul_comm, Nat.add_mul, Nat.one_mul] at hd
    omega
  refine ⟨row + r % row, s, by omega, by omega, hr, ?_⟩
  unfold units
  rw [hs]
  have hsub : r - s * row = row + r % row := by omega
  simp only [Nat.add_sub_cancel, hsub]
  rfl

theorem units_pos {r : Nat} (h : 0 < r) : 0 < units r := by
  by_cases hr : r < 2 * row
  · rw [units_of_lt hr]
    exact h
  · obtain ⟨m, s, hm, -, -, hu⟩ := units_of_le (r := r) (by omega)
    rw [hu]
    have : 0 < row := by decide
    exact Nat.mul_pos (by omega) (Nat.pow_pos (by omega))

/-- The gap around a significand of 53 bits is the power it stands with. -/
theorem gap_significand {m s : Nat} (h1 : row ≤ m) (h2 : m < 2 * row) : gap (m * 2 ^ s) 1 = s := by
  have hlow : 2 ^ (52 + s) ≤ m * 2 ^ s := by
    rw [Nat.pow_add]
    exact Nat.mul_le_mul_right _ h1
  have hhigh : m * 2 ^ s < 2 ^ (52 + s + 1) := by
    have hp : (2 : Nat) ^ (52 + s + 1) = 2 * 2 ^ 52 * 2 ^ s := by ring
    rw [hp]
    exact Nat.mul_lt_mul_of_pos_right h2 (Nat.pow_pos (by omega))
  have hne : m * 2 ^ s ≠ 0 := by
    have := Nat.pow_pos (n := 52 + s) (show 0 < 2 by omega)
    omega
  unfold gap
  rw [Nat.div_one, (Nat.log2_eq_iff hne).mpr ⟨hlow, hhigh⟩]
  omega

/-- **A magnitude rounds to its own rank**: it is a whole number of gaps. -/
theorem nearestRank_units {r : Nat} (h : 0 < r) : nearestRank (units r) 1 = r := by
  by_cases hr : r < row
  · have hlog : Nat.log2 r < 53 := (Nat.log2_lt (by omega)).mpr (by
      have : row = 2 ^ 52 := rfl
      omega)
    have hgap : gap r 1 = 0 := by
      unfold gap
      rw [Nat.div_one]
      omega
    rw [units_of_lt (by omega)]
    unfold nearestRank
    simp [hgap, Nat.mod_one]
  · obtain ⟨m, s, h1, h2, hrank, hu⟩ := units_of_le (r := r) (by omega)
    have hpow : 0 < Nat.pow 2 s := Nat.pow_pos (by omega)
    rw [hu]
    unfold nearestRank
    rw [gap_significand h1 h2]
    have hdiv : m * 2 ^ s / (1 * Nat.pow 2 s) = m := by
      rw [Nat.one_mul]
      exact Nat.mul_div_cancel m hpow
    have hmod : m * 2 ^ s % (1 * Nat.pow 2 s) = 0 := by
      rw [Nat.one_mul]
      exact Nat.mul_mod_left m (2 ^ s)
    simp only [hdiv, hmod]
    rw [if_neg (by omega), hrank]

/-! ## 3. Decimals -/

/-- A rank is a finite number or an infinity, of the sign that is given. -/
theorem ofRank_cases (k : Nat) :
    (∃ r : Fin ranks, ∀ negative, ofRank negative k = .finite negative r) ∨
      ∀ negative, ofRank negative k = .infinite negative := by
  by_cases h : k < ranks
  · exact .inl ⟨⟨k, h⟩, fun _ => dif_pos h⟩
  · exact .inr fun _ => dif_neg h

/-- **A decimal is read as a finite number or as an infinity; the sign is the one it is read with.** -/
theorem ofDecimal_cases (digits : Nat) (exponent : Int) :
    (∃ r : Fin ranks, ∀ negative, ofDecimal negative digits exponent = .finite negative r) ∨
      ∀ negative, ofDecimal negative digits exponent = .infinite negative := by
  unfold ofDecimal ofRatio
  simp only
  split
  · exact ofRank_cases _
  · split
    · exact .inr fun _ => rfl
    · split <;> exact ofRank_cases _

/-- The part of `ofDecimal` that rounds. -/
theorem ratio_shift (negative : Bool) (digits k : Nat) (exponent : Int) :
    (if 0 ≤ exponent then ofRatio negative (digits * 10 ^ k * Nat.pow 10 exponent.toNat) 1
      else ofRatio negative (digits * 10 ^ k) (Nat.pow 10 (-exponent).toNat)) =
    (if 0 ≤ exponent + k then ofRatio negative (digits * Nat.pow 10 (exponent + k).toNat) 1
      else ofRatio negative digits (Nat.pow 10 (-(exponent + k)).toNat)) := by
  have ten : ∀ n : Nat, 0 < Nat.pow 10 n := fun n => Nat.pow_pos (by omega)
  have hadd : ∀ a b : Nat, Nat.pow 10 (a + b) = Nat.pow 10 a * Nat.pow 10 b :=
    fun a b => Nat.pow_add 10 a b
  have hk : 10 ^ k = Nat.pow 10 k := rfl
  rw [hk]
  by_cases he : 0 ≤ exponent
  · have hsum : (exponent + k).toNat = k + exponent.toNat := by omega
    rw [if_pos he, if_pos (by omega), hsum, hadd, Nat.mul_assoc]
  · rw [if_neg he]
    by_cases hs : 0 ≤ exponent + k
    · -- the shift reaches over the point: the denominator is what is left of it
      have hsum : k = (exponent + k).toNat + (-exponent).toNat := by omega
      rw [if_pos hs, show Nat.pow 10 k = Nat.pow 10 ((exponent + k).toNat + (-exponent).toNat) from
        congrArg _ hsum, hadd, ← Nat.mul_assoc]
      have h := ofRatio_scale negative (digits * Nat.pow 10 (exponent + k).toNat) 1
        (ten (-exponent).toNat)
      rw [Nat.one_mul] at h
      exact h
    · have hsum : (-exponent).toNat = (-(exponent + k)).toNat + k := by omega
      rw [if_neg hs, hsum, hadd]
      exact ofRatio_scale negative digits _ (ten k)

/-- **Digits and exponent may be traded against each other.** -/
theorem ofDecimal_shift (negative : Bool) (digits k : Nat) (exponent : Int) :
    ofDecimal negative (digits * 10 ^ k) exponent = ofDecimal negative digits (exponent + k) := by
  by_cases hd : digits = 0
  · subst hd
    simp [ofDecimal]
  · have hne : digits * 10 ^ k ≠ 0 := Nat.mul_ne_zero hd (by positivity)
    have hplaces : ((Numeral.decimalText (digits * 10 ^ k)).length : Int) + exponent =
        ((Numeral.decimalText digits).length : Int) + (exponent + k) := by
      rw [Numeral.length_decimalText_mul_pow (by omega)]
      push_cast
      ring
    unfold ofDecimal
    simp only [hplaces, hd, hne, false_or]
    rw [ratio_shift]

/-! ## 4. The shortest decimal -/

/-- A decimal that reads back does so with either sign. -/
theorem ofDecimal_of_readsBack {rank : Fin ranks} {d : Decimal} (h : readsBack rank d = true)
    (negative : Bool) : ofDecimal negative d.digits d.exponent = .finite negative rank := by
  unfold readsBack at h
  rcases ofDecimal_cases d.digits d.exponent with ⟨r, hr⟩ | hi
  · rw [hr false] at h
    simp only [beq_iff_eq] at h
    rw [hr negative, Fin.ext h]
  · rw [hi false] at h
    simp at h

theorem readsBack_of_ofDecimal {r : Fin ranks} {d : Decimal}
    (h : ofDecimal false d.digits d.exponent = .finite false r) : readsBack r d = true := by
  unfold readsBack
  rw [h]
  exact beq_self_eq_true r.val

/-- What is found on a grid reads back. -/
theorem readsBack_of_nearest {rank : Nat} {n : (Decimal × Nat) × (Decimal × Nat)} {d : Decimal}
    (h : nearest? rank n = some d) : readsBack rank d = true := by
  unfold nearest? at h
  split at h
  · next hlow hhigh =>
    split at h
    · cases h
      exact hlow
    · cases h
      exact hhigh
  · next hlow _ =>
    cases h
    exact hlow
  · next _ hhigh =>
    cases h
    exact hhigh
  · cases h

/-! ## 5. The exact decimal -/

/-- Every finite magnitude is below a power of two that is large enough. -/
theorem units_lt {rank b : Nat} (hr : rank < ranks) (hb : ∀ s ≤ 2100, 2 ^ s ≤ b) :
    units rank < b := by
  by_cases hsmall : rank < 2 * row
  · have hrow : 2 * row = 2 ^ 53 := rfl
    calc units rank = rank := units_of_lt hsmall
      _ < 2 ^ 53 := hrow ▸ hsmall
      _ ≤ b := hb 53 (by omega)
  · obtain ⟨m, s, -, hm, hrank, hu⟩ := units_of_le (r := rank) (by omega)
    have hs : s < 2047 := by
      have hrow : 0 < row := by decide
      have hlt : s * row < 2047 * row := by
        unfold ranks at hr
        omega
      exact (Nat.mul_lt_mul_right hrow).mp hlt
    have h53 : m < 2 ^ 53 := hm
    calc units rank = m * 2 ^ s := hu
      _ < 2 ^ 53 * 2 ^ s := Nat.mul_lt_mul_of_pos_right h53 (Nat.pow_pos (by omega))
      _ = 2 ^ (53 + s) := (Nat.pow_add 2 53 s).symm
      _ ≤ b := hb (53 + s) (by omega)

theorem digits_exactDecimal {k : Nat} (hk : k = 1074) (rank : Nat) :
    (exactDecimal rank).digits = units rank * Nat.pow 5 k := by
  rw [hk, exactDecimal]

/-- The exact decimal of a magnitude is neither beyond all numbers nor nearest to zero. -/
theorem length_exactDecimal {rank : Nat} (h : 0 < rank) (hr : rank < ranks) :
    744 ≤ (Numeral.decimalText (exactDecimal rank).digits).length ∧
      (Numeral.decimalText (exactDecimal rank).digits).length ≤ 1384 := by
  -- the exponents stay variables: only the kernel is to see the powers themselves
  obtain ⟨t, ht⟩ : ∃ t, t = 2100 := ⟨_, rfl⟩
  obtain ⟨k, hk⟩ : ∃ k, k = 1074 := ⟨_, rfl⟩
  have hlow : Nat.pow 10 743 ≤ Nat.pow 5 k := by
    rw [hk]
    decide +kernel
  have hhigh : Nat.pow 2 t * Nat.pow 5 k ≤ Nat.pow 10 1384 := by
    rw [hk, ht]
    decide +kernel
  have hfive : 0 < Nat.pow 5 k := Nat.pow_pos (by omega)
  have hunits : units rank < Nat.pow 2 t :=
    units_lt hr fun s hs => Nat.pow_le_pow_right (by omega) (by omega)
  rw [digits_exactDecimal hk]
  constructor
  · by_contra hlt
    have hlen : (Numeral.decimalText (units rank * Nat.pow 5 k)).length ≤ 743 := by omega
    have hsmall := (Numeral.length_decimalText_le_iff (by omega)).mp hlen
    have hle : Nat.pow 5 k ≤ units rank * Nat.pow 5 k := Nat.le_mul_of_pos_left _ (units_pos h)
    exact absurd hsmall (Nat.not_lt.mpr (Nat.le_trans hlow hle))
  · have hmul := Nat.mul_lt_mul_of_pos_right hunits hfive
    exact (Numeral.length_decimalText_le_iff (by omega)).mpr (Nat.lt_of_lt_of_le hmul hhigh)

/-- A magnitude, written as a quotient by a power of ten, rounds to its own rank. -/
theorem ofRatio_units {rank k : Nat} (h : 0 < rank) (hr : rank < ranks)
    (hk : stepsInOne = Nat.pow 2 k) :
    ofRatio false (units rank * Nat.pow 5 k) (Nat.pow 10 k) = .finite false ⟨rank, hr⟩ := by
  have hten : Nat.pow 5 k * Nat.pow 2 k = Nat.pow 10 k := (Nat.mul_pow 5 2 k).symm
  have hscale := nearestRank_scale (units rank) 1 (c := Nat.pow 10 k) (Nat.pow_pos (by omega))
  unfold ofRatio
  rw [hk, Nat.mul_assoc, hten]
  rw [Nat.one_mul] at hscale
  rw [hscale, nearestRank_units h]
  exact dif_pos hr

/-- A decimal with a fraction that lies within the range of the format is rounded. -/
theorem ofDecimal_fraction {digits k : Nat} (hne : digits ≠ 0) (hk : 0 < k)
    (hlow : k ≤ (Numeral.decimalText digits).length + 330)
    (hhigh : (Numeral.decimalText digits).length ≤ k + 310) :
    ofDecimal false digits (-(k : Int)) = ofRatio false digits (Nat.pow 10 k) := by
  unfold ofDecimal
  simp only
  rw [if_neg (by omega), if_neg (by omega), if_neg (by omega), Int.neg_neg, Int.toNat_natCast]

/-- **The exact decimal reads back.** -/
theorem readsBack_exactDecimal {rank : Nat} (h : 0 < rank) (hr : rank < ranks) :
    readsBack rank (exactDecimal rank) = true := by
  obtain ⟨hlow, hhigh⟩ := length_exactDecimal h hr
  have hne : (exactDecimal rank).digits ≠ 0 := by
    intro h0
    rw [h0] at hlow
    have hone : (Numeral.decimalText 0).length = 1 := rfl
    omega
  obtain ⟨k, hk⟩ : ∃ k, k = 1074 := ⟨_, rfl⟩
  have hexponent : (exactDecimal rank).exponent = -(k : Int) := hk ▸ rfl
  have hsteps : stepsInOne = Nat.pow 2 k := hk ▸ rfl
  apply readsBack_of_ofDecimal (r := ⟨rank, hr⟩)
  rw [hexponent, ofDecimal_fraction hne (by omega) (by omega) (by omega), digits_exactDecimal hk]
  exact ofRatio_units h hr hsteps

/-- **The shortest decimal of a rank reads back as this rank**, whatever grid it was found on. -/
theorem readsBack_shortest {rank : Nat} (h : 0 < rank) (hr : rank < ranks) :
    readsBack rank (shortest rank) = true := by
  have hfrom : ∀ fuel exponent, readsBack rank (shortestFrom rank fuel exponent) = true := by
    intro fuel
    induction fuel with
    | zero => exact fun _ => readsBack_exactDecimal h hr
    | succ fuel ih =>
      intro exponent
      rw [shortestFrom]
      cases hg : onGrid? rank exponent with
      | none => exact ih _
      | some d => exact readsBack_of_nearest hg
  exact hfrom 17 _

end Anonymization.Binary64
