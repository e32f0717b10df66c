import Anonymization.Numeral.Whole
import Mathlib
/-!
# Digits and the number they denote

* `digitsValue_append` -- a row of digits in two parts;
* `digitsValue_decimalText` -- the digits of a number denote that number;
* `length_decimalText_le_iff` -- how many digits a number has;
* `digitsValue_dropZeros` -- zeros at the end are a power of ten.
-/

namespace Anonymization

namespace Text

/-! ## 1. Rows of digits -/

theorem digitValue?_lt {c : Char} {d : Nat} (h : digitValue? c = some d) : d < 10 := by
  unfold digitValue? at h
  split at h
  · split at h
    · simp only [Option.some.injEq] at h
      omega
    · cases h
  · obtain ⟨z, hz, rfl⟩ := Option.map_eq_some_iff.mp h
    have hp := List.find?_some hz
    simp only [Bool.and_eq_true, decide_eq_true_eq] at hp
    omega

/-- A decimal digit counts less than ten, any other character nothing. -/
theorem digitValue?_getD_lt (c : Char) : (digitValue? c).getD 0 < 10 := by
  cases h : digitValue? c with
  | none => simp
  | some d => exact digitValue?_lt h

/-- Reading on from a number already read. -/
theorem foldl_digits (t : Text) (n : Nat) :
    t.foldl (fun n c => 10 * n + (digitValue? c).getD 0) n = n * 10 ^ t.length + digitsValue t := by
  induction t generalizing n with
  | nil => simp [digitsValue]
  | cons c t ih =>
    have h0 := ih ((digitValue? c).getD 0)
    unfold digitsValue
    simp only [List.foldl_cons, List.length_cons, Nat.mul_zero, Nat.zero_add]
    rw [ih, h0, Nat.pow_succ, Nat.add_mul]
    ring

/-- **The number of two rows of digits, one behind the other.** -/
theorem digitsValue_append (s t : Text) :
    digitsValue (s ++ t) = digitsValue s * 10 ^ t.length + digitsValue t := by
  rw [digitsValue, List.foldl_append, foldl_digits]
  rfl

theorem digitsValue_cons (c : Char) (t : Text) :
    digitsValue (c :: t) = (digitValue? c).getD 0 * 10 ^ t.length + digitsValue t := by
  rw [← List.singleton_append, digitsValue_append]
  simp [digitsValue]

/-- Zeros in a row denote nothing. -/
theorem digitsValue_zeros (k : Nat) : digitsValue (List.replicate k '0') = 0 := by
  induction k with
  | zero => rfl
  | succ k ih =>
    have h0 : (digitValue? '0').getD 0 = 0 := by decide
    rw [List.replicate_succ, digitsValue_cons, h0, ih]
    simp

theorem digitsValue_lt (t : Text) : digitsValue t < 10 ^ t.length := by
  induction t with
  | nil => simp [digitsValue]
  | cons c t ih =>
    have hc := digitValue?_getD_lt c
    rw [digitsValue_cons, List.length_cons, Nat.pow_succ]
    nlinarith

end Text

namespace Numeral

/-! ## 2. The digits of a number -/

theorem digitValue?_digitChar {n : Nat} (h : n < 10) :
    Text.digitValue? (Nat.digitChar n) = some n := by
  interval_cases n <;> rfl

/-- The last digit stands behind those of the tenth part. -/
theorem decimalText_step (n : Nat) :
    decimalText n = (if n < 10 then [] else decimalText (n / 10)) ++ [Nat.digitChar (n % 10)] := by
  unfold decimalText
  rw [Nat.toDigits_eq_if (by omega)]
  split
  · next h => rw [Nat.mod_eq_of_lt h, List.nil_append]
  · rfl

theorem decimalText_ne_nil (n : Nat) : decimalText n ≠ [] := Nat.toDigits_ne_nil

/-- **The digits of a number denote it.** -/
theorem digitsValue_decimalText (n : Nat) : Text.digitsValue (decimalText n) = n := by
  induction n using Nat.strongRecOn with
  | ind n ih =>
    have hd : Text.digitsValue [Nat.digitChar (n % 10)] = n % 10 := by
      simp [Text.digitsValue, digitValue?_digitChar (Nat.mod_lt n (by omega))]
    rw [decimalText_step, Text.digitsValue_append, hd, List.length_singleton, Nat.pow_one]
    split
    · simp [Text.digitsValue]
      omega
    · rw [ih (n / 10) (by omega)]
      omega

theorem isDecimal_of_mem_decimalText {n : Nat} {c : Char} (h : c ∈ decimalText n) :
    Text.isDecimal c = true := by
  induction n using Nat.strongRecOn with
  | ind n ih =>
    rw [decimalText_step, List.mem_append] at h
    rcases h with h | h
    · split at h
      · cases h
      · exact ih (n / 10) (by omega) h
    · rw [List.mem_singleton] at h
      rw [h, Text.isDecimal, digitValue?_digitChar (Nat.mod_lt n (by omega))]
      rfl

/-- **A number has at most `k` digits exactly when it is below `10 ^ k`.** -/
theorem length_decimalText_le_iff {n k : Nat} (hk : 0 < k) :
    (decimalText n).length ≤ k ↔ n < 10 ^ k :=
  Nat.length_toDigits_le_iff (by omega) hk

/-- A power of ten more is that many digits more. -/
theorem length_decimalText_mul_pow {n : Nat} (hn : 0 < n) (k : Nat) :
    (decimalText (n * 10 ^ k)).length = (decimalText n).length + k := by
  induction k with
  | zero => simp
  | succ k ih =>
    have hpos : 0 < n * 10 ^ k := Nat.mul_pos hn (Nat.pow_pos (by omega))
    have hmul : n * 10 ^ (k + 1) = 10 * (n * 10 ^ k) := by ring
    rw [decimalText_step, if_neg (by omega), List.length_append, List.length_singleton]
    have hdiv : n * 10 ^ (k + 1) / 10 = n * 10 ^ k := by omega
    rw [hdiv, ih]
    omega

/-- A row of digits that keeps a limit denotes a number whose digits keep it. -/
theorem length_decimalText_digitsValue {t : Text} (ht : t ≠ []) :
    (decimalText (Text.digitsValue t)).length ≤ t.length :=
  (length_decimalText_le_iff (List.length_pos_iff.mpr ht)).mpr (Text.digitsValue_lt t)

/-! ## 3. Zeros at the end -/

/-- The digits without the zeros at their end. -/
def dropZeros (t : Text) : Text :=
  (t.reverse.dropWhile (· == '0')).reverse

/-- What is dropped at the end are zeros. -/
theorem dropZeros_append (t : Text) : ∃ k, t = dropZeros t ++ List.replicate k '0' := by
  refine ⟨(t.reverse.takeWhile (· == '0')).length, ?_⟩
  have hz : t.reverse.takeWhile (· == '0') =
      List.replicate (t.reverse.takeWhile (· == '0')).length '0' :=
    List.eq_replicate_iff.mpr ⟨rfl, fun c hc => by simpa using List.mem_takeWhile_imp hc⟩
  have h :=
    congrArg List.reverse (List.takeWhile_append_dropWhile (p := (· == '0')) (l := t.reverse))
  rw [List.reverse_append, List.reverse_reverse, hz, List.reverse_replicate] at h
  exact h.symm

/-- **Zeros at the end are a power of ten.** -/
theorem digitsValue_dropZeros (t : Text) :
    ∃ k, t.length = (dropZeros t).length + k ∧
      Text.digitsValue t = Text.digitsValue (dropZeros t) * 10 ^ k := by
  obtain ⟨k, hk⟩ := dropZeros_append t
  refine ⟨k, ?_, ?_⟩
  · conv_lhs => rw [hk]
    simp
  · conv_lhs => rw [hk]
    rw [Text.digitsValue_append, Text.digitsValue_zeros, List.length_replicate, Nat.add_zero]

/-- What is left of a number that is not zero has a digit. -/
theorem dropZeros_ne_nil {n : Nat} (hn : 0 < n) : dropZeros (decimalText n) ≠ [] := by
  intro h
  obtain ⟨k, -, hv⟩ := digitsValue_dropZeros (decimalText n)
  rw [digitsValue_decimalText, h] at hv
  simp [Text.digitsValue] at hv
  omega

end Numeral

end Anonymization
