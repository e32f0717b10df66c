import Anonymization.Proofs.Field.Escaping
/-!
# Cutting, three ways

The fields of a text are said in `Field.split` by a machine that holds a backslash back until it
knows the next character, and in `Field.fieldsByPosition` by the positions of the cuts. In between
stands `fieldsFrom`, which goes through the text and looks one character ahead.

* `fieldsAfter_step`, `fields_foldl` -- what one step of the machine, and a run of it, preserve;
* `segments_eq_fieldsFrom` -- the positions find the same, from any position on;
* `split_eq_fieldsFrom`, `split_eq_fieldsByPosition` -- **hence all three agree**;
* `dropEmptyEnd_eq_iff`, `split_eq_iff` -- what is dropped at the end;
* `split_by_position` -- **the fields are what lies between the cuts**, less the empty ones at the end.
-/

namespace Anonymization.Field

/-! ## 1. One character ahead -/

/-- How many groups are open behind a character. -/
def nextDepth (grouped escaped : Bool) (depth : Nat) (c : Char) : Nat :=
  if grouped && !escaped then
    if c = '(' then depth + 1 else if c = ')' then depth - 1 else depth
  else depth

/-- The texts with one put in front of the first. -/
def putFront (t : Text) : List Text → List Text
  | [] => [t]
  | f :: fs => (t ++ f) :: fs

/-- The fields of a text behind a backslash (`escaped`) or another character, with `depth` groups
open. A backslash in front of a separator is dropped. -/
def fieldsFrom (separator : Char) (grouped : Bool) : Bool → Nat → Text → List Text
  | _, _, [] => [[]]
  | escaped, depth, c :: rest =>
    if c = separator ∧ escaped = false ∧ depth = 0 then
      [] :: fieldsFrom separator grouped false 0 rest
    else if c = escapeChar ∧ rest.head? = some separator then
      fieldsFrom separator grouped true depth rest
    else
      putFront [c]
        (fieldsFrom separator grouped (c == escapeChar) (nextDepth grouped escaped depth c) rest)

/-- A separator that means nothing else: no backslash and, where there are groups, no parenthesis. -/
def IsPlainSeparator (separator : Char) (grouped : Bool) : Prop :=
  separator ≠ escapeChar ∧ (grouped = true → separator ≠ '(' ∧ separator ≠ ')')

theorem putFront_ne_nil (t : Text) (fs : List Text) : putFront t fs ≠ [] := by
  cases fs <;> simp [putFront]

theorem putFront_putFront (s t : Text) (fs : List Text) :
    putFront s (putFront t fs) = putFront (s ++ t) fs := by
  cases fs <;> simp [putFront]

theorem putFront_cons (t f : Text) (fs : List Text) : putFront t (f :: fs) = (t ++ f) :: fs := rfl

theorem putFront_nil {fs : List Text} (h : fs ≠ []) : putFront [] fs = fs := by
  cases fs with
  | nil => exact absurd rfl h
  | cons f fs => rfl

theorem putFront_append (t : Text) {fs : List Text} (h : fs ≠ []) (gs : List Text) :
    putFront t (fs ++ gs) = putFront t fs ++ gs := by
  cases fs with
  | nil => exact absurd rfl h
  | cons f fs => rfl

theorem length_putFront (t : Text) {fs : List Text} (h : fs ≠ []) :
    (putFront t fs).length = fs.length := by
  cases fs with
  | nil => exact absurd rfl h
  | cons f fs => rfl

section

variable {separator : Char} {grouped : Bool}

/-- A separator opens and closes no group. -/
theorem nextDepth_separator (hs : IsPlainSeparator separator grouped) (escaped : Bool)
    (depth : Nat) :
    nextDepth grouped escaped depth separator = depth := by
  unfold nextDepth
  split
  · next h =>
    obtain ⟨h1, h2⟩ := hs.2 (by simp only [Bool.and_eq_true] at h; exact h.1)
    rw [if_neg h1, if_neg h2]
  · rfl

theorem nextDepth_escape (grouped escaped : Bool) (depth : Nat) :
    nextDepth grouped escaped depth escapeChar = depth := by
  simp [nextDepth, escapeChar]

theorem fieldsFrom_ne_nil (escaped : Bool) (depth : Nat) (t : Text) :
    fieldsFrom separator grouped escaped depth t ≠ [] := by
  induction t generalizing escaped depth with
  | nil => simp [fieldsFrom]
  | cons c t ih =>
    unfold fieldsFrom
    split
    · simp
    · split
      · exact ih _ _
      · exact putFront_ne_nil _ _

/-- The fields of a text come from those behind its first character. -/
theorem fieldsFrom_cons (hs : IsPlainSeparator separator grouped) (escaped : Bool) (depth : Nat)
    (c : Char) (t : Text) :
    fieldsFrom separator grouped escaped depth (c :: t) =
      if c = separator ∧ escaped = false ∧ depth = 0 then
        [] :: fieldsFrom separator grouped (c == escapeChar) (nextDepth grouped escaped depth c) t
      else if c = escapeChar ∧ t.head? = some separator then
        fieldsFrom separator grouped (c == escapeChar) (nextDepth grouped escaped depth c) t
      else putFront [c]
        (fieldsFrom separator grouped (c == escapeChar) (nextDepth grouped escaped depth c) t) := by
  rw [fieldsFrom]
  split
  · next h =>
    have hne : (separator == escapeChar) = false := by simpa using hs.1
    rw [h.1, h.2.1, h.2.2, nextDepth_separator hs, hne]
  · split
    · next h => rw [h.1, nextDepth_escape, beq_self_eq_true]
    · rfl

/-- A separator that nothing holds cuts. -/
theorem fieldsFrom_cut (t : Text) :
    fieldsFrom separator grouped false 0 (separator :: t) =
      [] :: fieldsFrom separator grouped false 0 t := by
  rw [fieldsFrom, if_pos ⟨rfl, rfl, rfl⟩]

/-- A separator behind a backslash is kept. -/
theorem fieldsFrom_held (hs : IsPlainSeparator separator grouped) (depth : Nat) (t : Text) :
    fieldsFrom separator grouped true depth (separator :: t) =
      putFront [separator] (fieldsFrom separator grouped false depth t) := by
  have hne : (separator == escapeChar) = false := by simpa using hs.1
  rw [fieldsFrom, if_neg (fun h => by cases h.2.1), if_neg (fun h => hs.1 h.1), hne,
    nextDepth_separator hs]

/-- A backslash in front of a separator is dropped, and the separator kept. -/
theorem fieldsFrom_escape (hs : IsPlainSeparator separator grouped) (escaped : Bool) (depth : Nat)
    (t : Text) :
    fieldsFrom separator grouped escaped depth (escapeChar :: separator :: t) =
      putFront [separator] (fieldsFrom separator grouped false depth t) := by
  rw [fieldsFrom, if_neg (fun h => hs.1 h.1.symm), if_pos ⟨rfl, rfl⟩, fieldsFrom_held hs]

/-- A character that does not cut and is not dropped. -/
theorem fieldsFrom_keep {escaped : Bool} {depth : Nat} {c : Char} {t : Text}
    (h1 : ¬(c = separator ∧ escaped = false ∧ depth = 0))
    (h2 : c = escapeChar → t.head? ≠ some separator) :
    fieldsFrom separator grouped escaped depth (c :: t) =
      putFront [c]
        (fieldsFrom separator grouped (c == escapeChar) (nextDepth grouped escaped depth c) t) := by
  rw [fieldsFrom, if_neg h1, if_neg (fun h => h2 h.1 h.2)]

/-- A text without separators is one field. -/
theorem fieldsFrom_of_not_mem (hs : IsPlainSeparator separator grouped) {t : Text}
    (h : separator ∉ t)
    (escaped : Bool) (depth : Nat) : fieldsFrom separator grouped escaped depth t = [t] := by
  induction t generalizing escaped depth with
  | nil => rfl
  | cons c t ih =>
    obtain ⟨hc, ht⟩ := not_or.mp (mt List.mem_cons.mpr h)
    have hhead : t.head? ≠ some separator := fun hh => ht (List.mem_of_head? hh)
    rw [fieldsFrom_cons hs, if_neg fun h' => hc h'.1.symm, if_neg fun h' => hhead h'.2, ih ht,
      putFront_cons]
    rfl

/-! ## 2. The machine -/

/-- The machine at a backslash: it waits, and one that waited is let go. -/
theorem step_escape (hs : IsPlainSeparator separator grouped) (s : Cutter) :
    s.step [separator] grouped [escapeChar] =
      ⟨s.done, (if s.pending then [escapeChar] else []) ++ s.begun, true, s.depth⟩ := by
  have hne : ¬escapeChar = separator := fun e => hs.1 e.symm
  have hp : ¬(grouped = true ∧ ([escapeChar] = opening ∨ [escapeChar] = closing)) := by
    rintro ⟨-, h | h⟩ <;> cases h
  obtain ⟨done, begun, pending, depth⟩ := s
  cases pending with
  | false => simp [Cutter.step, Cutter.plain]
  | true => simp [Cutter.step, hne, hp, Cutter.keep]

/-- The machine at a separator: a backslash that waits or an open group holds it. -/
theorem step_separator (hs : IsPlainSeparator separator grouped) (s : Cutter) :
    s.step [separator] grouped [separator] =
      if s.pending = false ∧ s.depth = 0 then ⟨s.begun.reverse :: s.done, [], false, 0⟩
      else ⟨s.done, separator :: s.begun, false, s.depth⟩ := by
  obtain ⟨done, begun, pending, depth⟩ := s
  have ho : ¬(grouped = true ∧ [separator] = opening) := fun h => (hs.2 h.1).1 (List.cons.inj h.2).1
  have hc : ¬(grouped = true ∧ [separator] = closing) := fun h => (hs.2 h.1).2 (List.cons.inj h.2).1
  cases pending with
  | true => simp [Cutter.step, Cutter.keep]
  | false =>
    by_cases hd : depth = 0
    · simp [Cutter.step, Cutter.plain, hs.1, hd]
    · simp [Cutter.step, Cutter.plain, hs.1, ho, hc, hd, Cutter.keep]

/-- The machine at any other character: a backslash that waits is let go. -/
theorem step_other {c : Char} (hc : c ≠ escapeChar) (hcs : c ≠ separator) (s : Cutter) :
    s.step [separator] grouped [c] =
      ⟨s.done, c :: (if s.pending then [escapeChar] else []) ++ s.begun, false,
        nextDepth grouped s.pending s.depth c⟩ := by
  obtain ⟨done, begun, pending, depth⟩ := s
  cases pending with
  | true =>
    by_cases hp : grouped = true ∧ ([c] = opening ∨ [c] = closing)
    · simp [Cutter.step, hcs, hp, Cutter.keep, nextDepth]
    · have ho : ¬(grouped = true ∧ [c] = opening) := fun h => hp ⟨h.1, .inl h.2⟩
      have hcl : ¬(grouped = true ∧ [c] = closing) := fun h => hp ⟨h.1, .inr h.2⟩
      simp [Cutter.step, Cutter.plain, hcs, hp, ho, hcl, hc, Cutter.keep, nextDepth]
  | false =>
    cases grouped with
    | false => simp [Cutter.step, Cutter.plain, hcs, hc, Cutter.keep, nextDepth]
    | true =>
      simp only [Cutter.step, Cutter.plain, Cutter.keep, nextDepth, opening, closing,
        List.cons.injEq, hcs, hc]
      by_cases ho : c = '('
      · simp [ho]
      · by_cases hcl : c = ')'
        · simp [hcl]
        · simp [ho, hcl]

/-- The backslash that waits, unless a separator follows. -/
def heldBack (separator : Char) (pending : Bool) (t : Text) : Text :=
  if pending = true ∧ t.head? ≠ some separator then [escapeChar] else []

/-- The fields that come out when the machine goes on from a state. -/
def fieldsAfter (separator : Char) (grouped : Bool) (s : Cutter) (t : Text) : List Text :=
  s.done.reverse ++ putFront (s.begun.reverse ++ heldBack separator s.pending t)
    (fieldsFrom separator grouped s.pending s.depth t)

/-- **One step of the machine leaves what comes out as it is.** -/
theorem fieldsAfter_step (hs : IsPlainSeparator separator grouped) (s : Cutter) (c : Char)
    (t : Text) :
    fieldsAfter separator grouped (s.step [separator] grouped [c]) t =
      fieldsAfter separator grouped s (c :: t) := by
  unfold fieldsAfter
  by_cases hc : c = escapeChar
  · subst hc
    have hne : ¬escapeChar = separator := fun e => hs.1 e.symm
    have hheld : heldBack separator s.pending (escapeChar :: t) =
        if s.pending then [escapeChar] else [] := by
      simp [heldBack, hne]
    rw [step_escape hs, hheld]
    by_cases ht : t.head? = some separator
    · have hf : fieldsFrom separator grouped s.pending s.depth (escapeChar :: t) =
          fieldsFrom separator grouped true s.depth t := by
        rw [fieldsFrom, if_neg (fun h => hne h.1), if_pos ⟨rfl, ht⟩]
      rw [hf]
      cases s.pending <;> simp [heldBack, ht]
    · rw [fieldsFrom_keep (fun h => hne h.1) (fun _ => ht), nextDepth_escape, putFront_putFront]
      cases s.pending <;> simp [heldBack, ht]
  · have hescape : (c == escapeChar) = false := by simpa using hc
    by_cases hcs : c = separator
    · subst hcs
      rw [step_separator hs]
      split
      · next h =>
        -- the separator cuts
        rw [h.1, h.2, fieldsFrom_cut]
        simp [heldBack, putFront_cons, putFront_nil (fieldsFrom_ne_nil _ _ _)]
      · next h =>
        -- it is held, and no group opens or closes there
        rw [fieldsFrom_keep (fun h' => h h'.2) (fun h' => absurd h' hc), hescape,
          nextDepth_separator hs, putFront_putFront]
        simp [heldBack]
    · rw [step_other hc hcs, fieldsFrom_keep (fun h => hcs h.1) (fun h => absurd h hc), hescape,
        putFront_putFront]
      cases s.pending <;> simp [heldBack, hcs]

/-- **The machine, begun in any state, finds the fields.** -/
theorem fields_foldl (hs : IsPlainSeparator separator grouped) (t : Text) (s : Cutter) :
    ((pieces t).foldl (Cutter.step [separator] grouped) s).fields.reverse =
      fieldsAfter separator grouped s t := by
  induction t generalizing s with
  | nil =>
    obtain ⟨done, begun, pending, depth⟩ := s
    cases pending <;>
      simp [pieces, Cutter.fields, fieldsAfter, heldBack, fieldsFrom, putFront, Cutter.keep]
  | cons c t ih =>
    rw [← fieldsAfter_step hs]
    exact ih _

theorem fields_scan (hs : IsPlainSeparator separator grouped) (t : Text) :
    (scan [separator] grouped (pieces t)).fields.reverse =
      fieldsFrom separator grouped false 0 t := by
  have hstart : fieldsAfter separator grouped Cutter.start t =
      fieldsFrom separator grouped false 0 t := by
    simp [fieldsAfter, Cutter.start, heldBack, putFront_nil (fieldsFrom_ne_nil _ _ _)]
  exact (fields_foldl hs t Cutter.start).trans hstart

theorem split_eq_fieldsFrom (hs : IsPlainSeparator separator grouped) (t : Text) :
    split [separator] grouped t = dropEmptyEnd (fieldsFrom separator grouped false 0 t) := by
  unfold dropEmptyEnd
  rw [← fields_scan hs, List.reverse_reverse]
  rfl

/-! ## 3. The positions -/

theorem isEscaped_succ (t : Text) {n : Nat} (h : n < t.length) :
    isEscaped t (n + 1) = (t[n] == escapeChar) := by
  simp [isEscaped, h]

/-- The groups that are open in front of a position, in a list that has groups. -/
def groupsAt (grouped : Bool) (t : Text) (i : Nat) : Nat :=
  if grouped then depthAt t i else 0

theorem groupsAt_succ (grouped : Bool) (t : Text) {n : Nat} (h : n < t.length) :
    groupsAt grouped t (n + 1) = nextDepth grouped (isEscaped t n) (groupsAt grouped t n) t[n] := by
  cases grouped with
  | false => simp [groupsAt, nextDepth]
  | true =>
    simp only [groupsAt, nextDepth, ↓reduceIte, depthAt, isBare, List.getElem?_eq_getElem h,
      Bool.true_and]
    cases isEscaped t n <;> simp

theorem isCut_iff (t : Text) {n : Nat} (h : n < t.length) :
    isCut separator grouped t n = true ↔
      t[n] = separator ∧ isEscaped t n = false ∧ groupsAt grouped t n = 0 := by
  unfold isCut isBare groupsAt
  rw [List.getElem?_eq_getElem h]
  cases grouped <;> simp [and_assoc]

theorem isTakenAway_iff (t : Text) {n : Nat} (h : n < t.length) :
    isTakenAway separator t n = true ↔
      t[n] = escapeChar ∧ (t.drop (n + 1)).head? = some separator := by
  unfold isTakenAway
  rw [List.getElem?_eq_getElem h, List.head?_drop]
  simp

theorem between_self (t : Text) (n : Nat) : between separator t n n = [] := by
  simp [between]

/-- The text between two positions, from its first character. -/
theorem between_succ (t : Text) {n stop : Nat} (h : n < t.length) (hs : n < stop) :
    between separator t n stop =
      (if isTakenAway separator t n then [] else [t[n]]) ++ between separator t (n + 1) stop := by
  unfold between
  rw [show stop - n = stop - (n + 1) + 1 by omega, List.range'_succ, List.filter_cons]
  cases isTakenAway separator t n with
  | true => rfl
  | false => simp [h]

/-- The first text, from its first character. -/
theorem segments_succ (t : Text) {n : Nat} (h : n < t.length) {is : List Nat}
    (his : ∀ i ∈ is, n < i) :
    segments separator t n is =
      putFront (if isTakenAway separator t n then [] else [t[n]])
        (segments separator t (n + 1) is) := by
  cases is with
  | nil => rw [segments, segments, putFront_cons, between_succ t h h]
  | cons i is => rw [segments, segments, putFront_cons, between_succ t h (his i List.mem_cons_self)]

/-- The positions of the cuts from one position on. -/
def cutsFrom (separator : Char) (grouped : Bool) (t : Text) (n : Nat) : List Nat :=
  (List.range' n (t.length - n)).filter (isCut separator grouped t)

theorem cutsFrom_zero (t : Text) : cutsFrom separator grouped t 0 = cuts separator grouped t := by
  unfold cutsFrom cuts
  rw [Nat.sub_zero, List.range_eq_range']

theorem cutsFrom_length (t : Text) : cutsFrom separator grouped t t.length = [] := by
  simp [cutsFrom]

theorem cutsFrom_succ (t : Text) {n : Nat} (h : n < t.length) :
    cutsFrom separator grouped t n =
      (if isCut separator grouped t n then [n] else []) ++
        cutsFrom separator grouped t (n + 1) := by
  unfold cutsFrom
  rw [show t.length - n = t.length - (n + 1) + 1 by omega, List.range'_succ, List.filter_cons]
  split <;> rfl

theorem le_of_mem_cutsFrom {t : Text} {n i : Nat} (h : i ∈ cutsFrom separator grouped t n) :
    n ≤ i := by
  have := List.mem_range'_1.mp (List.mem_filter.mp h).1
  omega

/-- **The positions find the fields, from any position on.** -/
theorem segments_eq_fieldsFrom (hs : IsPlainSeparator separator grouped) (t : Text) (k n : Nat)
    (hk : n + k = t.length) :
    segments separator t n (cutsFrom separator grouped t n) =
      fieldsFrom separator grouped (isEscaped t n) (groupsAt grouped t n) (t.drop n) := by
  induction k generalizing n with
  | zero =>
    rw [show n = t.length by omega, cutsFrom_length, List.drop_length, fieldsFrom, segments,
      between_self]
  | succ k ih =>
    have hn : n < t.length := by omega
    have hrest := ih (n + 1) (by omega)
    rw [isEscaped_succ t hn, groupsAt_succ grouped t hn] at hrest
    rw [cutsFrom_succ t hn, List.drop_eq_getElem_cons hn]
    by_cases hcut : isCut separator grouped t n = true
    · obtain ⟨hc, he, hg⟩ := (isCut_iff t hn).mp hcut
      have hsep : (separator == escapeChar) = false := by simpa using hs.1
      rw [hc, he, hg, hsep, nextDepth_separator hs] at hrest
      rw [if_pos hcut, List.singleton_append, segments, between_self, hrest, he, hg, hc,
        fieldsFrom_cut]
    · have hlater : ∀ i ∈ cutsFrom separator grouped t (n + 1), n < i :=
        fun i hi => le_of_mem_cutsFrom hi
      rw [if_neg hcut, List.nil_append, segments_succ t hn hlater, hrest]
      by_cases htaken : isTakenAway separator t n = true
      · obtain ⟨hc, hhead⟩ := (isTakenAway_iff t hn).mp htaken
        have hsep : ¬escapeChar = separator := fun e => hs.1 e.symm
        rw [if_pos htaken, putFront_nil (fieldsFrom_ne_nil _ _ _), hc, nextDepth_escape, fieldsFrom,
          if_neg fun h => hsep h.1, if_pos ⟨rfl, hhead⟩, beq_self_eq_true]
      · have hkeep := @fieldsFrom_keep separator grouped _ _ _ (t.drop (n + 1))
          (fun h => hcut ((isCut_iff t hn).mpr h))
          (fun hc hh => htaken ((isTakenAway_iff t hn).mpr ⟨hc, hh⟩))
        rw [if_neg htaken, hkeep]

/-- **The machine and the positions find the same fields.** -/
theorem split_eq_fieldsByPosition (hs : IsPlainSeparator separator grouped) (t : Text) :
    split [separator] grouped t = fieldsByPosition separator grouped t := by
  have h := segments_eq_fieldsFrom hs t t.length 0 (by omega)
  have hg : groupsAt grouped t 0 = 0 := by simp [groupsAt, depthAt]
  rw [fieldsByPosition, split_eq_fieldsFrom hs, ← cutsFrom_zero, h, hg]
  rfl

/-! ## 4. Empty fields at the end -/

/-- **What is dropped at the end of a list of fields**: empty ones, and all of them. -/
theorem dropEmptyEnd_eq_iff (fs gs : List Text) :
    dropEmptyEnd fs = gs ↔ ∃ k, fs = gs ++ List.replicate k [] ∧ gs.getLast? ≠ some [] := by
  constructor
  · rintro rfl
    refine ⟨(fs.reverse.takeWhile List.isEmpty).length, ?_, ?_⟩
    · have hz : fs.reverse.takeWhile List.isEmpty =
          List.replicate (fs.reverse.takeWhile List.isEmpty).length [] :=
        List.eq_replicate_iff.mpr ⟨rfl, fun f hf => by simpa using List.mem_takeWhile_imp hf⟩
      have h := congrArg List.reverse
        (List.takeWhile_append_dropWhile (p := List.isEmpty) (l := fs.reverse))
      rw [List.reverse_append, List.reverse_reverse, hz, List.reverse_replicate] at h
      exact h.symm
    · intro h
      unfold dropEmptyEnd at h
      rw [List.getLast?_reverse] at h
      have hhead := List.head?_dropWhile_not (p := List.isEmpty) (l := fs.reverse)
      rw [h] at hhead
      simp at hhead
  · rintro ⟨k, rfl, h⟩
    unfold dropEmptyEnd
    rw [List.reverse_append, List.reverse_replicate, List.dropWhile_append_of_pos]
    · rw [← List.head?_reverse] at h
      cases hr : gs.reverse with
      | nil =>
        rw [List.reverse_eq_nil_iff.mp hr]
        rfl
      | cons f rest =>
        rw [hr, List.head?_cons] at h
        have hf : f.isEmpty = false := by simpa using h
        rw [List.dropWhile_cons, hf, if_neg (by simp), ← hr, List.reverse_reverse]
    · intro f hf
      rw [List.eq_of_mem_replicate hf]
      rfl

/-- The fields of a text, by those that are empty at its end too. -/
theorem split_eq_iff (hs : IsPlainSeparator separator grouped) (t : Text) (fs : List Text) :
    split [separator] grouped t = fs ↔
      ∃ k, fieldsFrom separator grouped false 0 t = fs ++ List.replicate k [] ∧
        fs.getLast? ≠ some [] := by
  rw [split_eq_fieldsFrom hs, dropEmptyEnd_eq_iff]

/-- **The fields of a text are what lies between its cuts**, in order and less the backslashes in front
of separators; of these texts the empty ones at the end do not count, and all others do. -/
theorem split_by_position (hs : IsPlainSeparator separator grouped) (t : Text) :
    split [separator] grouped t = fieldsByPosition separator grouped t ∧
      ∃ surplus, segments separator t 0 (cuts separator grouped t) =
          split [separator] grouped t ++ List.replicate surplus [] ∧
        (split [separator] grouped t).getLast? ≠ some [] := by
  have heq := split_eq_fieldsByPosition hs t
  exact ⟨heq, (dropEmptyEnd_eq_iff _ _).mp heq.symm⟩

/-- Two backslashes in front of a comma, commas in a group, escaped parentheses and one that closes
nothing, an empty field inside and two at the end. -/
theorem split_by_position_grouped :
    IsPlainSeparator ',' true ∧
      split [','] true "a\\\\,b,(c,\\(d,e),,f)\\g,,".toList =
        fieldsByPosition ',' true "a\\\\,b,(c,\\(d,e),,f)\\g,,".toList ∧
      cuts ',' true "a\\\\,b,(c,\\(d,e),,f)\\g,,".toList = [5, 15, 16, 21, 22] ∧
      split [','] true "a\\\\,b,(c,\\(d,e),,f)\\g,,".toList =
        ["a\\,b".toList, "(c,\\(d,e)".toList, [], "f)\\g".toList] := by
  have hs : IsPlainSeparator ',' true := ⟨by decide, fun _ => ⟨by decide, by decide⟩⟩
  exact ⟨hs, (split_by_position hs _).1, by decide, by decide⟩

end

end Anonymization.Field
