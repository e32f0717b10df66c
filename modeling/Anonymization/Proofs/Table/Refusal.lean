import Anonymization.Proofs.Table.Returns
/-!
# What is never refused as a table

Where every line end ends a line, only a field that is too long makes the reader refuse a text.

* `char?_isSome`, `phase_of_char?` -- what a character needs to be taken, and when it ends a line;
* `text?_isSome` -- **from any state, a rest that fits the field begun is read to its end**;
* `length_of_records?_none` -- so a text that is refused is longer than a field may be.
-/

namespace Anonymization.Table

open Reader

variable {separator : Char}

/-! ## 1. One character -/

/-- A character is taken where the field begun is not full and no line is at its end. -/
theorem char?_isSome (separator : Char) {s : Reader} {c : Char} (hsize : s.size < fieldLimit)
    (hphase : s.phase = .atLineEnd → isLineEnd c = true) : ∃ s', char? separator s c = some s' := by
  have hroom : ¬fieldLimit ≤ s.size := Nat.not_le.mpr hsize
  rw [← Option.isSome_iff_exists]
  unfold char? beginField? add?
  grind

/-- The reader is at the end of a line only behind a character of it. -/
theorem phase_of_char? {s s' : Reader} {c : Char} (h : char? separator s c = some s')
    (hphase : s'.phase = .atLineEnd) : isLineEnd c = true := by
  by_contra hl
  unfold char? beginField? add? saveField at h
  grind

theorem size_of_char?_le {s s' : Reader} {c : Char} (h : char? separator s c = some s') :
    s'.size ≤ s.size + 1 := by
  cases moves_of_char? h with
  | turns p => exact Nat.le_succ _
  | completes p => exact Nat.zero_le _
  | adds p _ _ => exact Nat.le_refl _

theorem size_lineEnd_le (s : Reader) : s.lineEnd.size ≤ s.size := by
  rcases lineEnd_cases s with e | e | e
  · rw [e]
  · rw [e]
    exact Nat.le_refl _
  · rw [e]
    exact Nat.zero_le _

theorem phase_lineEnd (s : Reader) : s.lineEnd.phase ≠ .atLineEnd := by
  unfold lineEnd
  split <;> simp_all [saveRecord, saveField]

theorem size_behind_le (returns : Bool) (c : Char) (rest : Text) (s : Reader) :
    (s.behind returns c rest).size ≤ s.size := by
  unfold Reader.behind
  split
  · exact size_lineEnd_le s
  · exact Nat.le_refl _

/-- At the end of a line that was not ended the text goes on. -/
theorem behind_atLineEnd {returns : Bool} {c : Char} {rest : Text} {s : Reader}
    (h : (s.behind returns c rest).phase = .atLineEnd) :
    s.phase = .atLineEnd ∧ Text.endsLine returns c rest = false ∧ rest ≠ [] := by
  unfold Reader.behind at h
  split at h
  · exact absurd h (phase_lineEnd s)
  · next he => simpa [h] using he

/-! ## 2. A text -/

/-- **A rest that fits the field begun is read to its end**, unless it goes on behind the end of a
line. -/
theorem text?_isSome (separator : Char) (t : Text) (s : Reader) (hsize : s.size + t.length ≤ fieldLimit)
    (hphase : s.phase = .atLineEnd → t.head? = some '\n') :
    ∃ s', text? separator true s t = some s' := by
  induction t generalizing s with
  | nil => exact ⟨s, rfl⟩
  | cons c t ih =>
    rw [List.length_cons] at hsize
    have hc : s.phase = .atLineEnd → isLineEnd c = true := by
      intro hp
      rw [Option.some.inj (hphase hp)]
      decide
    obtain ⟨s₁, h₁⟩ := char?_isSome separator (by omega) hc
    have hsize₁ := size_of_char?_le h₁
    have hsize₂ := size_behind_le true c t s₁
    rw [text?_cons, h₁]
    refine ih (s₁.behind true c t) (by omega) fun hp => ?_
    -- a line end that does not end its line is a carriage return in front of a line feed
    obtain ⟨hp, he, ht⟩ := behind_atLineEnd hp
    have hl := phase_of_char? h₁ hp
    simp only [isLineEnd, Bool.or_eq_true, beq_iff_eq] at hl
    rcases hl with rfl | rfl
    · simp [Text.endsLine] at he
    · simpa [Text.endsLine] using he

/-- **A text that is refused is longer than a field may be.** -/
theorem length_of_records?_none {t : Text} (h : records? separator (Text.lines .kept t) = none) :
    fieldLimit < t.length := by
  by_contra hle
  obtain ⟨s, hs⟩ := text?_isSome separator t start (by simpa [start] using hle)
    fun hp => by cases hp
  have hsome : records? separator (Text.lines .kept t) = some s.finish := congrArg (Option.map finish) hs
  rw [h] at hsome
  cases hsome

end Anonymization.Table
