import Anonymization.Proofs.Field.Joining
/-!
# Separators at the end of a token

The fields of a token that are empty at its end do not count, so neither do the separators that a
token has too many there. For a token `name=value`:

* `divides_iff` -- one bare equal sign divides a token in two fields;
* `fieldsFrom_surplus`, `core_of_fieldsFrom` -- separators at the end are empty fields at the end, and
  the other way round;
* `Says`, `pair?_iff` -- **the two sides of a token are those of its core**, what stands in front of the
  equal signs that it has too many at its end;
* `Says.equalSigns_eq` -- how many these are.
-/

namespace Anonymization.Field

/-! ## 1. Empty fields at the end -/

section

variable {separator : Char} {grouped : Bool}

theorem fieldsFrom_replicate (k : Nat) :
    fieldsFrom separator grouped false 0 (List.replicate k separator) =
      List.replicate (k + 1) [] := by
  induction k with
  | zero => rfl
  | succ k ih => rw [List.replicate_succ, fieldsFrom_cut, ih, ← List.replicate_succ]

/-- **Separators at the end are empty fields at the end**, when nothing holds the first of them. -/
theorem fieldsFrom_surplus (hs : IsPlainSeparator separator grouped) (core : Text) (k : Nat)
    (state : Bool × Nat) (h : k ≠ 0 → passed grouped state core = (false, 0)) :
    fieldsFrom separator grouped state.1 state.2 (core ++ List.replicate k separator) =
      fieldsFrom separator grouped state.1 state.2 core ++ List.replicate k [] := by
  cases k with
  | zero => rw [List.replicate_zero, List.replicate_zero, List.append_nil, List.append_nil]
  | succ k => rw [List.replicate_succ, fieldsFrom_seam hs state (h (by omega)), fieldsFrom_replicate]

theorem putFront_ne_replicate {c : Char} {t : Text} {fs : List Text} {k : Nat} :
    putFront (c :: t) fs ≠ List.replicate k [] := by
  intro h
  cases k with
  | zero => exact putFront_ne_nil _ _ h
  | succ k => cases fs <;> simp [putFront, List.replicate_succ] at h

/-- A text of which all fields are empty is a row of separators. -/
theorem eq_replicate_of_fieldsFrom (hs : IsPlainSeparator separator grouped) {k : Nat} {t : Text}
    (h : fieldsFrom separator grouped false 0 t = List.replicate k []) :
    t = List.replicate (k - 1) separator := by
  induction t generalizing k with
  | nil =>
    have hlen := congrArg List.length h
    simp [fieldsFrom] at hlen
    rw [← hlen]
    rfl
  | cons c t ih =>
    by_cases hc : c = separator
    · subst hc
      rw [fieldsFrom_cut] at h
      cases k with
      | zero => cases h
      | succ k =>
        rw [List.replicate_succ, List.cons.injEq] at h
        have ht := ih h.2
        cases k with
        | zero => exact absurd h.2 (fieldsFrom_ne_nil _ _ _)
        | succ k => rw [ht, Nat.add_sub_cancel, Nat.add_sub_cancel, ← List.replicate_succ]
    · rw [fieldsFrom_cons hs, if_neg fun h => hc h.1] at h
      split at h
      · next he =>
        -- a backslash goes, but the separator behind it stays
        obtain ⟨t', rfl⟩ := List.head?_eq_some_iff.mp he.2
        rw [he.1, nextDepth_escape, beq_self_eq_true, fieldsFrom_cons hs,
          if_neg (fun h => by cases h.2.1), if_neg (fun h => hs.1 h.1)] at h
        exact absurd h putFront_ne_replicate
      · exact absurd h putFront_ne_replicate

/-- **Empty fields at the end are separators at the end.** -/
theorem core_of_fieldsFrom (hs : IsPlainSeparator separator grouped) {t : Text}
    (state : Bool × Nat) {fs : List Text} {k : Nat} (hfs : fs ≠ [])
    (h : fieldsFrom separator grouped state.1 state.2 t = fs ++ List.replicate k []) :
    ∃ core, t = core ++ List.replicate k separator ∧
      (k ≠ 0 → passed grouped state core = (false, 0)) ∧
      fieldsFrom separator grouped state.1 state.2 core = fs := by
  cases k with
  | zero =>
    rw [List.replicate_zero, List.append_nil] at h
    exact ⟨t, by rw [List.replicate_zero, List.append_nil], fun h => absurd rfl h, h⟩
  | succ k =>
    obtain ⟨core, rest, rfl, hp, hfields, hempty⟩ :=
      seam_of_fieldsFrom hs state hfs (List.cons_ne_nil _ _) h
    rw [eq_replicate_of_fieldsFrom (k := k + 1) hs hempty]
    exact ⟨core, rfl, fun _ => hp, hfields⟩

end

/-! ## 2. The two sides of a token -/

/-- Between a name and its value. -/
theorem equalSign_plain (grouped : Bool) : IsPlainSeparator '=' grouped :=
  ⟨by decide, fun _ => ⟨by decide, by decide⟩⟩

/-- The number of bare equal signs. -/
def equalSigns (t : Text) : Nat := (cuts '=' false t).length

/-- The fields of a token, those that are empty at its end too. -/
def sides (token : Text) : List Text := fieldsFrom '=' false false 0 token

theorem length_segments (separator : Char) (t : Text) (n : Nat) (is : List Nat) :
    (segments separator t n is).length = is.length + 1 := by
  induction is generalizing n with
  | nil => rfl
  | cons i is ih => rw [segments, List.length_cons, ih, List.length_cons]

theorem sides_eq_segments (token : Text) :
    sides token = segments '=' token 0 (cuts '=' false token) := by
  have h := segments_eq_fieldsFrom (equalSign_plain false) token token.length 0 (by omega)
  rw [cutsFrom_zero] at h
  exact h.symm

/-- Each bare equal sign stands between two fields. -/
theorem length_sides (token : Text) : (sides token).length = equalSigns token + 1 := by
  rw [sides_eq_segments, length_segments]
  rfl

/-- **One bare equal sign divides a token in two.** -/
theorem divides_iff (token left right : Text) :
    Grammar.Divides token left right ↔ sides token = [left, right] := by
  rw [sides_eq_segments]
  constructor
  · rintro ⟨i, hi, rfl, rfl⟩
    rw [hi]
    rfl
  · intro h
    have hlen := congrArg List.length h
    rw [length_segments] at hlen
    obtain ⟨i, hi⟩ :=
      List.length_eq_one_iff.mp (show (cuts '=' false token).length = 1 by simpa using hlen)
    rw [hi] at h
    simp only [segments, List.cons.injEq, and_true] at h
    exact ⟨i, hi, h.1.symm, h.2.symm⟩

/-- A token says this on its left and on its right, with so many equal signs too many at its end: in
front of these stands a token that one bare equal sign divides, and no backslash holds the first. -/
def Says (token left right : Text) (surplus : Nat) : Prop :=
  ∃ core, token = core ++ List.replicate surplus '=' ∧
    (surplus ≠ 0 → core.getLast? ≠ some escapeChar) ∧ Grammar.Divides core left right ∧ right ≠ []

theorem Says.sides_eq {token left right : Text} {surplus : Nat}
    (h : Says token left right surplus) :
    sides token = [left, right] ++ List.replicate surplus [] := by
  obtain ⟨core, rfl, hlast, hd, -⟩ := h
  have hf := fieldsFrom_surplus (equalSign_plain false) core surplus (false, 0)
    fun hk => passed_ungrouped_iff.mpr (hlast hk)
  rw [← (divides_iff core left right).mp hd]
  exact hf

/-- **How many bare equal signs a token has.** -/
theorem Says.equalSigns_eq {token left right : Text} {surplus : Nat}
    (h : Says token left right surplus) :
    equalSigns token = surplus + 1 := by
  have hlen := congrArg List.length h.sides_eq
  rw [length_sides] at hlen
  simp at hlen
  omega

/-- A token that says something holds an equal sign. -/
theorem Says.equalSign_mem {token left right : Text} {surplus : Nat}
    (h : Says token left right surplus) :
    '=' ∈ token := by
  by_contra hno
  have hsigns := h.equalSigns_eq
  have hcuts : cuts '=' false token = [] := by
    refine List.filter_eq_nil_iff.mpr fun i hi hcut => hno ?_
    have hlt := List.mem_range.mp hi
    have hc := ((isCut_iff token hlt).mp hcut).1
    exact hc ▸ List.getElem_mem hlt
  rw [equalSigns, hcuts] at hsigns
  cases hsigns

/-- **The two sides of a token are those of its core.** -/
theorem pair?_iff (token left right : Text) :
    pair? token = some (left, right) ↔ ∃ surplus, Says token left right surplus := by
  have hpair : pair? token = some (left, right) ↔
      split pairSeparator false token = [left, right] := by
    unfold pair?
    split
    · next h => rw [h]; simp
    · next h =>
      constructor
      · intro hsome
        cases hsome
      · intro hfields
        exact absurd hfields (h left right)
  rw [hpair]
  constructor
  · intro h
    obtain ⟨k, hk, hlast⟩ := (split_eq_iff (equalSign_plain false) token _).mp h
    obtain ⟨core, ht, hp, hf⟩ := core_of_fieldsFrom (equalSign_plain false) (false, 0) (by simp) hk
    exact ⟨k, core, ht, fun hk => passed_ungrouped_iff.mp (hp hk),
      (divides_iff core left right).mpr hf, fun hr => hlast (by rw [hr]; rfl)⟩
  · intro ⟨k, h⟩
    refine (split_eq_iff (equalSign_plain false) token _).mpr ⟨k, h.sides_eq, ?_⟩
    obtain ⟨-, -, -, -, hr⟩ := h
    simpa using hr

end Anonymization.Field
