import Anonymization.Proofs.Field.Cutting
/-!
# Fields, joined and cut again

Fields are joined with a backslash in front of each separator in them, but their own backslashes are
left as they are. So the separator behind a field cuts only if the field is shut: no backslash stands
at its end and, in a grouped list, every group that it opens is closed.

* `passed`, `IsShut` -- what is known behind a text, and the fields behind which nothing is open;
* `fieldsFrom_seam`, `seam_of_fieldsFrom` -- **behind a text that is shut a separator cuts**, and nowhere
  else; `split_append` -- so the fields of both sides are those of the whole;
* `fieldsFrom_escaped`, `length_fieldsFrom_escaped` -- a field that was escaped comes out as it was; if it
  is not shut, it takes the next one with it;
* `fieldsFrom_joined_iff`, `split_joined_iff` -- **so exactly lists of shut fields are found again**;
* `isShut_field`, `shut_split` -- the fields of any text are shut, except for the last one;
* `joined_return_iff`, `split_joined_split` -- what follows for the lists that survive, and for the
  lists that come out of a text.
-/

namespace Anonymization.Field

section

variable {separator : Char} {grouped : Bool}

/-! ## 1. Behind a text -/

/-- What is known behind a text: whether a backslash came last, and how many groups are open. -/
def passed (grouped : Bool) (state : Bool × Nat) (t : Text) : Bool × Nat :=
  t.foldl (fun s c => (c == escapeChar, nextDepth grouped s.1 s.2 c)) state

theorem passed_cons (state : Bool × Nat) (c : Char) (t : Text) :
    passed grouped state (c :: t) =
      passed grouped (c == escapeChar, nextDepth grouped state.1 state.2 c) t := rfl

theorem passed_append (state : Bool × Nat) (s t : Text) :
    passed grouped state (s ++ t) = passed grouped (passed grouped state s) t := List.foldl_append

/-- Behind a separator it does not matter whether a backslash stood in front of it. -/
theorem passed_separator (hs : IsPlainSeparator separator grouped) (state : Bool × Nat) (t : Text) :
    passed grouped state (separator :: t) = passed grouped (false, state.2) t := by
  have hne : (separator == escapeChar) = false := by simpa using hs.1
  rw [passed_cons, hne, nextDepth_separator hs]

theorem passed_fst (state : Bool × Nat) (t : Text) :
    (passed grouped state t).1 = if t = [] then state.1 else t.getLast? == some escapeChar := by
  induction t generalizing state with
  | nil => rfl
  | cons c t ih =>
    rw [passed_cons, ih, List.getLast?_cons]
    cases t with
    | nil => simp
    | cons d t => simp [List.getLast?_cons]

theorem passed_snd_ungrouped (escaped : Bool) (t : Text) : (passed false (escaped, 0) t).2 = 0 := by
  induction t generalizing escaped with
  | nil => rfl
  | cons c t ih =>
    rw [passed_cons]
    exact ih _

/-- A field behind which neither a backslash nor a group waits. -/
def IsShut (grouped : Bool) (f : Text) : Prop :=
  passed grouped (false, 0) f = (false, 0)

/-- Where there are no groups, only a backslash can wait. -/
theorem passed_ungrouped_iff {core : Text} :
    passed false (false, 0) core = (false, 0) ↔ core.getLast? ≠ some escapeChar := by
  rw [Prod.ext_iff, passed_snd_ungrouped, passed_fst]
  cases core <;> simp

theorem IsShut.ungrouped {f : Text} (h : IsShut grouped f) : IsShut false f := by
  have hescaped : (passed false (false, 0) f).1 = (passed grouped (false, 0) f).1 := by
    rw [passed_fst, passed_fst]
  refine Prod.ext (hescaped.trans ?_) (passed_snd_ungrouped false f)
  rw [show passed grouped (false, 0) f = (false, 0) from h]

/-! ## 2. Two texts in a row -/

theorem exists_fields (separator : Char) (grouped : Bool) (state : Bool × Nat) (t : Text) :
    ∃ f fs, fieldsFrom separator grouped state.1 state.2 t = f :: fs :=
  List.exists_cons_of_ne_nil (fieldsFrom_ne_nil _ _ _)

/-- The number of fields, from the first character. -/
theorem length_fieldsFrom_cons (hs : IsPlainSeparator separator grouped) (state : Bool × Nat)
    (c : Char) (t : Text) :
    (fieldsFrom separator grouped state.1 state.2 (c :: t)).length =
      (if c = separator ∧ state = (false, 0) then 1 else 0) +
        (fieldsFrom separator grouped (c == escapeChar) (nextDepth grouped state.1 state.2 c)
          t).length := by
  rw [fieldsFrom_cons hs]
  simp only [Prod.ext_iff]
  split
  · exact Nat.add_comm _ _
  · split
    · exact (Nat.zero_add _).symm
    · rw [length_putFront _ (fieldsFrom_ne_nil _ _ _), Nat.zero_add]

/-- **Two texts in a row share one field**: the last of the first and the first of the second. -/
theorem length_fieldsFrom_append (hs : IsPlainSeparator separator grouped) (state : Bool × Nat)
    (s t : Text) :
    (fieldsFrom separator grouped state.1 state.2 (s ++ t)).length + 1 =
      (fieldsFrom separator grouped state.1 state.2 s).length +
        (fieldsFrom separator grouped (passed grouped state s).1 (passed grouped state s).2
          t).length := by
  induction s generalizing state with
  | nil => exact Nat.add_comm _ _
  | cons c s ih =>
    have hrest := ih (c == escapeChar, nextDepth grouped state.1 state.2 c)
    rw [List.cons_append, length_fieldsFrom_cons hs, length_fieldsFrom_cons hs, passed_cons,
      Nat.add_assoc, hrest, Nat.add_assoc]

/-- What follows a text does not change what its backslashes escape, unless one stands at its end. -/
theorem escapes_append_iff {c : Char} {s t : Text} (h : s = [] → c ≠ escapeChar) :
    (c = escapeChar ∧ (s ++ t).head? = some separator) ↔
      c = escapeChar ∧ s.head? = some separator := by
  cases s with
  | nil => exact ⟨fun hc => absurd hc.1 (h rfl), fun hc => absurd hc.1 (h rfl)⟩
  | cons d s => rfl

/-- No backslash stands at the end of a text that is shut. -/
theorem ne_escapeChar_of_passed {c : Char} {s : Text} {n : Nat}
    (h : passed grouped (c == escapeChar, n) s = (false, 0)) : s = [] → c ≠ escapeChar := by
  rintro rfl
  have hstate : (c == escapeChar) = false := congrArg Prod.fst h
  simpa using hstate

/-- **Behind a text that is shut a separator cuts.** -/
theorem fieldsFrom_seam (hs : IsPlainSeparator separator grouped) {s : Text} (state : Bool × Nat)
    (h : passed grouped state s = (false, 0)) (t : Text) :
    fieldsFrom separator grouped state.1 state.2 (s ++ separator :: t) =
      fieldsFrom separator grouped state.1 state.2 s ++
        fieldsFrom separator grouped false 0 t := by
  induction s generalizing state with
  | nil =>
    have hstate : state = (false, 0) := h
    rw [hstate]
    exact fieldsFrom_cut t
  | cons c s ih =>
    have hrest := ih (c == escapeChar, nextDepth grouped state.1 state.2 c) h
    rw [List.cons_append, fieldsFrom_cons hs, fieldsFrom_cons hs, hrest]
    simp only [escapes_append_iff (ne_escapeChar_of_passed h)]
    split
    · rfl
    · split
      · rfl
      · exact putFront_append _ (fieldsFrom_ne_nil _ _ _) _

/-- **And between two fields the text has such a separator.** -/
theorem seam_of_fieldsFrom (hs : IsPlainSeparator separator grouped) {t : Text}
    (state : Bool × Nat) {fs gs : List Text} (hfs : fs ≠ []) (hgs : gs ≠ [])
    (h : fieldsFrom separator grouped state.1 state.2 t = fs ++ gs) :
    ∃ s u, t = s ++ separator :: u ∧ passed grouped state s = (false, 0) ∧
      fieldsFrom separator grouped state.1 state.2 s = fs ∧
      fieldsFrom separator grouped false 0 u = gs := by
  obtain ⟨f, fs, rfl⟩ := List.exists_cons_of_ne_nil hfs
  induction t generalizing state f fs with
  | nil => exact absurd (List.append_eq_nil_iff.mp (List.cons.inj h).2.symm).2 hgs
  | cons c t ih =>
    have hrest := @ih (c == escapeChar, nextDepth grouped state.1 state.2 c)
    rw [fieldsFrom_cons hs] at h
    by_cases hcut : c = separator ∧ state.1 = false ∧ state.2 = 0
    · rw [if_pos hcut] at h
      obtain ⟨rfl, htail⟩ := List.cons.inj h
      cases fs with
      | nil =>
        have hne : (separator == escapeChar) = false := by simpa using hs.1
        rw [hcut.1, hcut.2.1, hcut.2.2, hne, nextDepth_separator hs] at htail
        exact ⟨[], t, by rw [hcut.1]; rfl, Prod.ext hcut.2.1 hcut.2.2, rfl, htail⟩
      | cons g fs =>
        obtain ⟨s, u, rfl, hp, hfields, hothers⟩ := hrest g fs (List.cons_ne_nil g fs) htail
        exact ⟨c :: s, u, rfl, hp, by rw [fieldsFrom_cons hs, if_pos hcut, hfields], hothers⟩
    · rw [if_neg hcut] at h
      by_cases hescape : c = escapeChar ∧ t.head? = some separator
      · rw [if_pos hescape] at h
        obtain ⟨s, u, rfl, hp, hfields, hothers⟩ := hrest f fs hfs h
        rw [escapes_append_iff (ne_escapeChar_of_passed hp)] at hescape
        exact ⟨c :: s, u, rfl, hp,
          by rw [fieldsFrom_cons hs, if_neg hcut, if_pos hescape, hfields], hothers⟩
      · rw [if_neg hescape] at h
        obtain ⟨g, rest, hg⟩ := exists_fields separator grouped
          (c == escapeChar, nextDepth grouped state.1 state.2 c) t
        rw [hg, putFront_cons] at h
        obtain ⟨rfl, rfl⟩ := List.cons.inj h
        obtain ⟨s, u, rfl, hp, hfields, hothers⟩ := hrest g fs (List.cons_ne_nil g fs) hg
        rw [escapes_append_iff (ne_escapeChar_of_passed hp)] at hescape
        exact ⟨c :: s, u, rfl, hp,
          by rw [fieldsFrom_cons hs, if_neg hcut, if_neg hescape, hfields]; rfl, hothers⟩

/-- One step of the machine, as far as it decides what the next character is. -/
theorem state_step (hs : IsPlainSeparator separator grouped) (s : Cutter) (c : Char) :
    ((s.step [separator] grouped [c]).pending, (s.step [separator] grouped [c]).depth) =
      (c == escapeChar, nextDepth grouped s.pending s.depth c) := by
  by_cases hc : c = escapeChar
  · rw [hc, step_escape hs, nextDepth_escape, beq_self_eq_true]
  · have hescape : (c == escapeChar) = false := by simpa using hc
    by_cases hcs : c = separator
    · rw [hescape, hcs, step_separator hs, nextDepth_separator hs]
      split
      · next h => rw [h.2]
      · rfl
    · rw [step_other hc hcs, hescape]

/-- **What the machine knows behind a text.** -/
theorem state_foldl (hs : IsPlainSeparator separator grouped) (t : Text) (s : Cutter) :
    (((pieces t).foldl (Cutter.step [separator] grouped) s).pending,
        ((pieces t).foldl (Cutter.step [separator] grouped) s).depth) =
      passed grouped (s.pending, s.depth) t := by
  induction t generalizing s with
  | nil => rfl
  | cons c t ih =>
    rw [passed_cons, ← state_step hs]
    exact ih _

/-- The text ends outside every group, on no backslash and in a field that is not empty: another field
can follow. -/
structure EndsInField (separator : Text) (grouped : Bool) (t : Text) : Prop where
  not_pending : (scan separator grouped (pieces t)).pending = false
  no_group : (scan separator grouped (pieces t)).depth = 0
  begun : (scan separator grouped (pieces t)).begun ≠ []

theorem EndsInField.passed_eq (hs : IsPlainSeparator separator grouped) {s : Text}
    (h : EndsInField [separator] grouped s) : passed grouped (false, 0) s = (false, 0) := by
  have hstate := state_foldl hs s Cutter.start
  exact hstate.symm.trans (Prod.ext h.not_pending h.no_group)

/-- No field of such a text is dropped. -/
theorem EndsInField.split_eq (hs : IsPlainSeparator separator grouped) {s : Text}
    (h : EndsInField [separator] grouped s) :
    split [separator] grouped s = fieldsFrom separator grouped false 0 s ∧
      ∃ f, (split [separator] grouped s).getLast? = some f ∧ f ≠ [] := by
  have hlast : (fieldsFrom separator grouped false 0 s).getLast? =
      some (scan [separator] grouped (pieces s)).begun.reverse := by
    rw [← fields_scan hs, List.getLast?_reverse, Cutter.fields, if_neg (by simp [h.not_pending])]
    rfl
  have hne : (scan [separator] grouped (pieces s)).begun.reverse ≠ [] := by simpa using h.begun
  have heq : split [separator] grouped s = fieldsFrom separator grouped false 0 s :=
    (split_eq_iff hs s _).mpr ⟨0, by simp, by rw [hlast]; simpa using h.begun⟩
  exact ⟨heq, _, heq ▸ hlast, hne⟩

/-- **Two texts in a row have the fields of the first and of the second**, if a separator stands between
them and the first one ends in a field. -/
theorem split_append (hs : IsPlainSeparator separator grouped) {s : Text}
    (h : EndsInField [separator] grouped s) (t : Text) :
    split [separator] grouped (s ++ separator :: t) =
      split [separator] grouped s ++ split [separator] grouped t := by
  obtain ⟨hsplit, f, hf, hne⟩ := h.split_eq hs
  obtain ⟨k, hk, hlast⟩ := (split_eq_iff hs t _).mp rfl
  refine (split_eq_iff hs _ _).mpr ⟨k, ?_, ?_⟩
  · rw [fieldsFrom_seam hs (false, 0) (h.passed_eq hs), ← hsplit, hk, List.append_assoc]
  · rw [List.getLast?_append]
    cases hl : (split [separator] grouped t).getLast? with
    | none => rw [Option.none_or, hf]; simpa using hne
    | some g => rw [hl] at hlast; exact hlast

/-! ## 3. Fields that were escaped -/

/-- **A field that was escaped comes out as it was.** -/
theorem fieldsFrom_escaped (hs : IsPlainSeparator separator grouped) (state : Bool × Nat)
    (f : Text) :
    fieldsFrom separator grouped state.1 state.2 (guarded (· == separator) f) = [f] := by
  induction f generalizing state with
  | nil => rfl
  | cons c f ih =>
    rw [guarded_cons]
    by_cases hc : c = separator
    · subst hc
      rw [if_pos (beq_self_eq_true c), List.cons_append, List.singleton_append,
        fieldsFrom_escape hs, ih (false, state.2), putFront_cons]
      rfl
    · have hhead := head?_guarded (p := (· == separator)) (beq_self_eq_true separator) hs.1 f
      rw [if_neg (by simpa using hc), List.singleton_append,
        fieldsFrom_keep (fun h => hc h.1) fun _ => hhead,
        ih (c == escapeChar, nextDepth grouped state.1 state.2 c), putFront_cons]
      rfl

/-- **Escaping separators changes nothing behind a text.** -/
theorem passed_guarded_separator (hs : IsPlainSeparator separator grouped) (state : Bool × Nat)
    (f : Text) : passed grouped state (guarded (· == separator) f) = passed grouped state f := by
  induction f generalizing state with
  | nil => rfl
  | cons c f ih =>
    rw [guarded_cons]
    by_cases hc : c = separator
    · subst hc
      rw [if_pos (beq_self_eq_true c), List.cons_append, List.singleton_append, passed_cons,
        passed_separator hs, passed_separator hs, nextDepth_escape]
      exact ih _
    · rw [if_neg (by simpa using hc), List.singleton_append, passed_cons, passed_cons]
      exact ih _

/-- **Behind a field that is shut another one begins; one that is not shut takes it with it.** -/
theorem length_fieldsFrom_escaped (hs : IsPlainSeparator separator grouped) (state : Bool × Nat)
    (f t : Text) :
    (fieldsFrom separator grouped state.1 state.2
        (guarded (· == separator) f ++ separator :: t)).length =
      (if passed grouped state f = (false, 0) then 1 else 0) +
        (fieldsFrom separator grouped false (passed grouped state f).2 t).length := by
  have hne : (separator == escapeChar) = false := by simpa using hs.1
  have h := length_fieldsFrom_append hs state (guarded (· == separator) f) (separator :: t)
  rw [fieldsFrom_escaped hs, passed_guarded_separator hs, length_fieldsFrom_cons hs, hne,
    nextDepth_separator hs, List.length_singleton] at h
  simp only [true_and] at h
  omega

/-! ## 4. Fields that were joined -/

theorem joined_cons (f g : Text) (fs : List Text) :
    joined [separator] (f :: g :: fs) =
      guarded (· == separator) f ++ separator :: joined [separator] (g :: fs) := by
  show escape [separator] f ++ [separator] ++ joined [separator] (g :: fs) = _
  rw [escape_eq, List.append_assoc]
  rfl

theorem fieldsFrom_joined_single (hs : IsPlainSeparator separator grouped) (depth : Nat)
    (f : Text) : fieldsFrom separator grouped false depth (joined [separator] [f]) = [f] := by
  show fieldsFrom separator grouped false depth (escape [separator] f) = [f]
  rw [escape_eq]
  exact fieldsFrom_escaped hs (false, depth) f

/-- There are never more fields than were joined. -/
theorem length_fieldsFrom_joined_le (hs : IsPlainSeparator separator grouped) {fs : List Text}
    (h : fs ≠ []) (depth : Nat) :
    (fieldsFrom separator grouped false depth (joined [separator] fs)).length ≤ fs.length := by
  induction fs generalizing depth with
  | nil => exact absurd rfl h
  | cons f fs ih =>
    cases fs with
    | nil => rw [fieldsFrom_joined_single hs]
    | cons g fs =>
      have hrest := ih (List.cons_ne_nil g fs) (passed grouped (false, depth) f).2
      rw [joined_cons, length_fieldsFrom_escaped hs (false, depth), List.length_cons]
      split <;> omega

/-- A field that is shut comes out as it was. -/
theorem fieldsFrom_joined_cons (hs : IsPlainSeparator separator grouped) {f : Text}
    (hf : IsShut grouped f) (g : Text) (fs : List Text) :
    fieldsFrom separator grouped false 0 (joined [separator] (f :: g :: fs)) =
      f :: fieldsFrom separator grouped false 0 (joined [separator] (g :: fs)) := by
  have hshut : passed grouped (false, 0) (guarded (· == separator) f) = (false, 0) := by
    rw [passed_guarded_separator hs]
    exact hf
  rw [joined_cons, fieldsFrom_seam hs (false, 0) hshut, fieldsFrom_escaped hs (false, 0)]
  rfl

/-- **Fields, joined, are found again exactly when all of them but the last are shut.** -/
theorem fieldsFrom_joined_iff (hs : IsPlainSeparator separator grouped) {fs : List Text}
    (h : fs ≠ []) :
    fieldsFrom separator grouped false 0 (joined [separator] fs) = fs ↔
      ∀ f ∈ fs.dropLast, IsShut grouped f := by
  induction fs with
  | nil => exact absurd rfl h
  | cons f fs ih =>
    cases fs with
    | nil => simp [fieldsFrom_joined_single hs]
    | cons g fs =>
      rw [List.dropLast_cons_cons, List.forall_mem_cons, ← ih (List.cons_ne_nil g fs)]
      constructor
      · intro heq
        have hshut : IsShut grouped f := by
          by_contra hopen
          have hpassed : ¬passed grouped (false, 0) f = (false, 0) := hopen
          -- it would take the next field with it, and so one would be missing
          have hlen := length_fieldsFrom_escaped hs (false, 0) f (joined [separator] (g :: fs))
          have hle := length_fieldsFrom_joined_le hs (List.cons_ne_nil g fs)
            (passed grouped (false, 0) f).2
          rw [← joined_cons, heq, if_neg hpassed, List.length_cons] at hlen
          omega
        rw [fieldsFrom_joined_cons hs hshut] at heq
        exact ⟨hshut, (List.cons.inj heq).2⟩
      · intro ⟨hshut, hrest⟩
        rw [fieldsFrom_joined_cons hs hshut, hrest]

/-- **Which lists of fields are found again when they were joined**: those that do not end in an empty
field, and in which every field but the last is shut. -/
theorem split_joined_iff (hs : IsPlainSeparator separator grouped) (fs : List Text) :
    split [separator] grouped (joined [separator] fs) = fs ↔
      fs.getLast? ≠ some [] ∧ ∀ f ∈ fs.dropLast, IsShut grouped f := by
  by_cases hnil : fs = []
  · subst hnil
    exact ⟨fun _ => ⟨by simp, by simp⟩, fun _ => rfl⟩
  · rw [split_eq_iff hs, ← fieldsFrom_joined_iff hs hnil]
    constructor
    · intro ⟨k, hk, hlast⟩
      have hle := length_fieldsFrom_joined_le hs hnil 0
      rw [hk, List.length_append, List.length_replicate] at hle
      have hzero : k = 0 := by omega
      rw [hzero, List.replicate_zero, List.append_nil] at hk
      exact ⟨hlast, hk⟩
    · intro ⟨hlast, heq⟩
      exact ⟨0, by rw [heq, List.replicate_zero, List.append_nil], hlast⟩

/-- Shut fields that are not empty are found again. -/
theorem split_joined (hs : IsPlainSeparator separator grouped) {fs : List Text}
    (hf : ∀ f ∈ fs, IsShut grouped f) (hne : ∀ f ∈ fs, f ≠ []) :
    split [separator] grouped (joined [separator] fs) = fs :=
  (split_joined_iff hs fs).mpr
    ⟨fun h => hne [] (List.mem_of_getLast? h) rfl, fun f h => hf f (List.mem_of_mem_dropLast h)⟩

/-- **Fields that were joined are found again exactly when the last is not empty and no other one ends in
a backslash**, or when there are none. -/
theorem joined_return_iff (h : separator ≠ '\\') (fs : List Text) :
    split [separator] false (joined [separator] fs) = fs ↔
      fs = [] ∨ (fs.getLast? ≠ some [] ∧ ∀ f ∈ fs.dropLast, f.getLast? ≠ some '\\') := by
  have hs : IsPlainSeparator separator false := ⟨h, fun h => by cases h⟩
  have hshut : ∀ f, IsShut false f ↔ f.getLast? ≠ some '\\' := fun _ => passed_ungrouped_iff
  rw [split_joined_iff hs]
  simp only [hshut]
  constructor
  · exact .inr
  · rintro (rfl | hfields)
    · simp
    · exact hfields

/-- Separators, backslashes in front of separators and an empty field in the middle come back, and so
does a backslash at the very end; one at the end of another field does not. -/
theorem joined_return_backslashes :
    (',' ≠ '\\' ∧
      split [','] false (joined [','] ["a,\\\\,b".toList, [], "\\(c".toList, "d\\".toList]) =
        ["a,\\\\,b".toList, [], "\\(c".toList, "d\\".toList]) ∧
    ('(' ≠ '\\' ∧
      split ['('] false (joined ['('] ["a\\".toList, "b".toList]) ≠ ["a\\".toList, "b".toList]) := by
  refine ⟨⟨by decide, (joined_return_iff (by decide) _).mpr (.inr ⟨by decide, by decide⟩)⟩,
    by decide, fun h => ?_⟩
  rcases (joined_return_iff (by decide) _).mp h with h | ⟨-, h⟩
  · cases h
  · exact h "a\\".toList (by decide) (by decide)

/-! ## 5. Fields that were found -/

/-- Behind a field the same is known as behind the text that it was found in, although it lacks the
backslashes that were in front of separators. -/
theorem passed_field (hs : IsPlainSeparator separator grouped) {t f : Text} (state : Bool × Nat)
    (h : fieldsFrom separator grouped state.1 state.2 t = [f]) :
    passed grouped state f = passed grouped state t := by
  induction t generalizing state f with
  | nil => rw [← (List.cons.inj h).1]
  | cons c t ih =>
    obtain ⟨g, gs, hg⟩ := exists_fields separator grouped
      (c == escapeChar, nextDepth grouped state.1 state.2 c) t
    have hrest := @ih g (c == escapeChar, nextDepth grouped state.1 state.2 c)
    rw [fieldsFrom_cons hs, hg] at h
    split at h
    · cases (List.cons.inj h).2
    · split at h
      · next hescape =>
        -- the field begins with the separator, and there the backslash is forgotten
        obtain ⟨rfl, rfl⟩ := List.cons.inj h
        obtain ⟨t', rfl⟩ := List.head?_eq_some_iff.mp hescape.2
        obtain ⟨g', gs', hg'⟩ := exists_fields separator grouped (false, state.2) t'
        have hbegins := hg
        rw [hescape.1, beq_self_eq_true, nextDepth_escape, fieldsFrom_held hs, hg',
          putFront_cons] at hbegins
        obtain ⟨rfl, -⟩ := List.cons.inj hbegins
        rw [passed_cons, ← hrest hg, hescape.1, nextDepth_escape, List.singleton_append,
          passed_separator hs, passed_separator hs]
      · obtain ⟨rfl, rfl⟩ := List.cons.inj h
        exact hrest hg

/-- **A field with another one behind it is shut.** -/
theorem isShut_field (hs : IsPlainSeparator separator grouped) {t f : Text} {fs gs : List Text}
    (h : fieldsFrom separator grouped false 0 t = fs ++ f :: gs) (hgs : gs ≠ []) :
    IsShut grouped f := by
  -- the text from this field on
  obtain ⟨u, hu⟩ : ∃ u, fieldsFrom separator grouped false 0 u = [f] ++ gs := by
    by_cases hfs : fs = []
    · exact ⟨t, by rw [h, hfs]; rfl⟩
    · obtain ⟨-, u, -, -, -, hu⟩ :=
        seam_of_fieldsFrom hs (false, 0) hfs (List.cons_ne_nil f gs) h
      exact ⟨u, hu⟩
  obtain ⟨s, -, -, hp, hf, -⟩ :=
    seam_of_fieldsFrom hs (false, 0) (List.cons_ne_nil f []) hgs hu
  exact (passed_field hs (false, 0) hf).trans hp

/-- **What a text is split into**: the last field is not empty, and every other one is shut. -/
theorem shut_split (hs : IsPlainSeparator separator grouped) (t : Text) :
    (split [separator] grouped t).getLast? ≠ some [] ∧
      ∀ f ∈ (split [separator] grouped t).dropLast, IsShut grouped f := by
  obtain ⟨k, hk, hlast⟩ := (split_eq_iff hs t _).mp rfl
  refine ⟨hlast, fun f hf => ?_⟩
  have hne : split [separator] grouped t ≠ [] := by
    intro hnil
    rw [hnil] at hf
    cases hf
  obtain ⟨fs, gs, hsplit⟩ := List.append_of_mem hf
  have hfields : fieldsFrom separator grouped false 0 t =
      fs ++ f :: (gs ++ [(split [separator] grouped t).getLast hne] ++ List.replicate k []) := by
    rw [hk]
    conv_lhs => rw [← List.dropLast_append_getLast hne, hsplit]
    simp
  exact isShut_field hs hfields (by simp)

/-- **The fields that a text is split into are a normal form**: joined, they are found again, and they
are found as well when no group counts any more. -/
theorem split_joined_split (hs : IsPlainSeparator separator grouped) (t : Text) :
    split [separator] grouped (joined [separator] (split [separator] grouped t)) =
        split [separator] grouped t ∧
      split [separator] false (joined [separator] (split [separator] grouped t)) =
        split [separator] grouped t := by
  have hplain : IsPlainSeparator separator false := ⟨hs.1, fun h => by cases h⟩
  obtain ⟨hlast, hshut⟩ := shut_split hs t
  exact ⟨(split_joined_iff hs _).mpr ⟨hlast, hshut⟩,
    (split_joined_iff hplain _).mpr ⟨hlast, fun f hf => (hshut f hf).ungrouped⟩⟩

/-- A text whose groups do not match, with backslashes in front of a parenthesis, inside a group, at the
end of a field and at its own end. -/
theorem split_joined_unbalanced :
    IsPlainSeparator ',' true ∧
      split [','] true "a),(b,\\(c\\,d),\\\\,e,,(f,\\".toList =
        ["a)".toList, "(b,\\(c,d)".toList, "\\,e".toList, [], "(f,\\".toList] ∧
      joined [','] (split [','] true "a),(b,\\(c\\,d),\\\\,e,,(f,\\".toList) =
        "a),(b\\,\\(c\\,d),\\\\,e,,(f\\,\\".toList ∧
      split [','] true (joined [','] (split [','] true "a),(b,\\(c\\,d),\\\\,e,,(f,\\".toList)) =
        split [','] true "a),(b,\\(c\\,d),\\\\,e,,(f,\\".toList := by
  have hs : IsPlainSeparator ',' true := ⟨by decide, fun _ => ⟨by decide, by decide⟩⟩
  exact ⟨hs, by decide, by decide, (split_joined_split hs _).1⟩

end

end Anonymization.Field
