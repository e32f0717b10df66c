import Anonymization.Text.Lines
import Mathlib
/-!
# Line ends and lines

* `unifyEnds_append`, `unifyEnds_of_not_mem` -- line ends are unified part by part, and where there is no
  carriage return nothing changes;
* `HasLines` -- what the lines of a text are, said of its ends: a line feed, a carriage return, or both;
* `exists_lines`, `hasLines_iff` -- **every text has lines, and they are what it is cut into**;
* `HasLines.append`, `HasLines.rewriteEnds` -- **what stands behind some lines adds its own, and whichever
  end the lines have, they are the same**.
-/

namespace Anonymization.Text

/-! ## 1. Unified ends -/

theorem unifyEnds_cons {c : Char} {rest : Text} (h : c = '\r' → rest.head? ≠ some '\n') :
    unifyEnds (c :: rest) = (if c = '\r' then '\n' else c) :: unifyEnds rest := by
  rw [unifyEnds]
  split
  · next hc => rw [if_neg (h hc)]
  · rfl

/-- A carriage return in front of a line feed is no line end of its own. -/
theorem unifyEnds_twoEnds (rest : Text) :
    unifyEnds ('\r' :: '\n' :: rest) = unifyEnds ('\n' :: rest) := by
  conv_lhs => rw [unifyEnds]
  rfl

/-- Two texts one behind the other, unless a line end goes from one into the other. -/
theorem unifyEnds_append {a b : Text} (h : a.getLast? = some '\r' → b.head? ≠ some '\n') :
    unifyEnds (a ++ b) = unifyEnds a ++ unifyEnds b := by
  induction a with
  | nil => rfl
  | cons c a ih =>
    cases a with
    | nil =>
      have hc : c = '\r' → b.head? ≠ some '\n' := fun hc => h (by rw [hc]; rfl)
      rw [List.singleton_append, unifyEnds_cons hc, unifyEnds_cons (by simp)]
      rfl
    | cons c' a =>
      have hrest := ih fun hlast => h (by rw [List.getLast?_cons_cons]; exact hlast)
      rw [List.cons_append] at hrest
      rw [List.cons_append, List.cons_append]
      by_cases hc : c = '\r' ∧ c' = '\n'
      · obtain ⟨rfl, rfl⟩ := hc
        rw [unifyEnds_twoEnds, unifyEnds_twoEnds, hrest]
      · have hends : ∀ u : Text, c = '\r' → (c' :: u).head? ≠ some '\n' :=
          fun u hr hn => hc ⟨hr, Option.some.inj hn⟩
        rw [unifyEnds_cons (hends _), unifyEnds_cons (hends _), hrest, List.cons_append]

/-- Where all line ends are line feeds there is no carriage return. -/
theorem return_not_mem_unifyEnds (t : Text) : '\r' ∉ unifyEnds t := by
  induction t with
  | nil => exact List.not_mem_nil
  | cons c rest ih =>
    rw [unifyEnds]
    split
    · split
      · exact ih
      · simpa using ih
    · next hc => simpa [Ne.symm hc] using ih

theorem unifyEnds_eq_nil_iff (t : Text) : unifyEnds t = [] ↔ t = [] := by
  induction t with
  | nil => exact Iff.rfl
  | cons c rest ih =>
    rw [unifyEnds]
    split
    · split
      · next hhead =>
        rw [ih]
        refine iff_of_false (fun hnil => ?_) (List.cons_ne_nil _ _)
        rw [hnil] at hhead
        cases hhead
      · exact iff_of_false (List.cons_ne_nil _ _) (List.cons_ne_nil _ _)
    · exact iff_of_false (List.cons_ne_nil _ _) (List.cons_ne_nil _ _)

/-- A text without carriage returns has no line ends to unify. -/
theorem unifyEnds_of_not_mem {t : Text} (h : '\r' ∉ t) : unifyEnds t = t := by
  induction t with
  | nil => rfl
  | cons c rest ih =>
    rw [List.mem_cons, not_or] at h
    rw [unifyEnds, if_neg (fun e => h.1 e.symm), ih h.2]

/-! ## 2. Lines with their ends -/

/-- Inside a line no character ends it. -/
theorem endsLine_inside {returns : Bool} {t line a b : Text} {x c : Char}
    (hline : line ∈ cutLines returns t) (h : line = a ++ x :: c :: b) :
    endsLine returns x (c :: b) = false := by
  induction t generalizing line a with
  | nil => exact absurd hline List.not_mem_nil
  | cons d rest ih =>
    rw [cutLines] at hline
    split at hline
    · rcases List.mem_cons.mp hline with rfl | hline
      · simp [List.cons_eq_append_iff] at h
      · exact ih hline h
    · next hd =>
      split at hline
      · next hnil =>
        obtain rfl := List.mem_singleton.mp hline
        simp [List.cons_eq_append_iff] at h
      · next first others hlines =>
        have hmem : ∀ l ∈ first :: others, l ∈ cutLines returns rest := fun l hl => hlines ▸ hl
        rcases List.mem_cons.mp hline with rfl | hline
        · cases a with
          | nil =>
            obtain ⟨rfl, rfl⟩ := List.cons.inj h
            have hhead : rest.head? = some c := by
              have hflat := cutLines_flatten returns rest
              rw [hlines] at hflat
              rw [← hflat]
              rfl
            simpa [endsLine, hhead] using hd
          | cons e a => exact ih (hmem first List.mem_cons_self) (List.cons.inj h).2
        · exact ih (hmem line (List.mem_cons_of_mem _ hline)) h

/-- A line up to its line feed. -/
theorem cutLines_lineFeed {l : Text} (h : '\n' ∉ l) (rest : Text) :
    cutLines false (l ++ '\n' :: rest) = (l ++ ['\n']) :: cutLines false rest := by
  induction l with
  | nil => simp [cutLines, endsLine]
  | cons c l ih =>
    obtain ⟨hc, hl⟩ := not_or.mp (mt List.mem_cons.mpr h)
    have hno : endsLine false c (l ++ '\n' :: rest) = false := by
      simpa [endsLine] using fun e => hc e.symm
    rw [List.cons_append, cutLines, hno, ih hl]
    rfl

/-- A text without a line feed is one line. -/
theorem cutLines_unbroken {l : Text} (h : '\n' ∉ l) (hne : l ≠ []) : cutLines false l = [l] := by
  induction l with
  | nil => exact absurd rfl hne
  | cons c l ih =>
    obtain ⟨hc, hl⟩ := not_or.mp (mt List.mem_cons.mpr h)
    have hno : endsLine false c l = false := by simpa [endsLine] using fun e => hc e.symm
    rw [cutLines, hno]
    cases l with
    | nil => rfl
    | cons d l =>
      rw [ih hl (List.cons_ne_nil d l)]
      rfl

/-! ## 3. Lines without their ends -/

/-- The text ends a line, `rest` being what stands behind it. A carriage return in front of a line feed
does not end it alone. -/
inductive IsEnd (rest : Text) : Text → Prop where
  | lineFeed : IsEnd rest ['\n']
  | both : IsEnd rest ['\r', '\n']
  | carriageReturn (h : rest.head? ≠ some '\n') : IsEnd rest ['\r']

/-- No line ends in the text. -/
structure IsUnbroken (l : Text) : Prop where
  no_lineFeed : '\n' ∉ l
  no_return : '\r' ∉ l

/-- The lines of a text, without their ends. The last one may have none, and then it is not empty. -/
inductive HasLines : Text → List Text → Prop where
  | nil : HasLines [] []
  | last {l : Text} (hl : IsUnbroken l) (hne : l ≠ []) : HasLines l [l]
  | line {l e rest : Text} {ls : List Text} (hl : IsUnbroken l) (he : IsEnd rest e)
      (h : HasLines rest ls) : HasLines (l ++ e ++ rest) (l :: ls)

/-- The first line of a text with its end, and the rest. -/
theorem exists_first_line {t : Text} (hne : t ≠ []) :
    IsUnbroken t ∨ ∃ l e rest, IsUnbroken l ∧ IsEnd rest e ∧ t = l ++ e ++ rest := by
  induction t with
  | nil => exact absurd rfl hne
  | cons c t ih =>
    have hnil : IsUnbroken [] := ⟨List.not_mem_nil, List.not_mem_nil⟩
    by_cases hfeed : c = '\n'
    · exact .inr ⟨[], ['\n'], t, hnil, .lineFeed, by rw [hfeed]; rfl⟩
    by_cases hreturn : c = '\r'
    · by_cases hhead : t.head? = some '\n'
      · obtain ⟨rest, rfl⟩ := List.head?_eq_some_iff.mp hhead
        exact .inr ⟨[], ['\r', '\n'], rest, hnil, .both, by rw [hreturn]; rfl⟩
      · exact .inr ⟨[], ['\r'], t, hnil, .carriageReturn hhead, by rw [hreturn]; rfl⟩
    have hcons : ∀ l, IsUnbroken l → IsUnbroken (c :: l) := fun l hl =>
      ⟨by simp [Ne.symm hfeed, hl.no_lineFeed], by simp [Ne.symm hreturn, hl.no_return]⟩
    by_cases ht : t = []
    · exact .inl (ht ▸ hcons [] hnil)
    rcases ih ht with hl | ⟨l, e, rest, hl, he, rfl⟩
    · exact .inl (hcons t hl)
    · exact .inr ⟨c :: l, e, rest, hcons l hl, he, rfl⟩

theorem IsEnd.ne_nil {rest e : Text} (h : IsEnd rest e) : e ≠ [] := by
  cases h <;> exact List.cons_ne_nil _ _

/-- **Every text has lines.** -/
theorem exists_lines (t : Text) : ∃ ls, HasLines t ls := by
  induction h : t.length using Nat.strongRecOn generalizing t with
  | ind n ih =>
    by_cases hne : t = []
    · exact ⟨[], hne ▸ .nil⟩
    rcases exists_first_line hne with hl | ⟨l, e, rest, hl, he, rfl⟩
    · exact ⟨[t], .last hl hne⟩
    · have hpos := List.length_pos_of_ne_nil he.ne_nil
      have hlt : rest.length < n := by
        simp only [List.length_append] at h
        omega
      obtain ⟨ls, hls⟩ := ih rest.length hlt rest rfl
      exact ⟨l :: ls, .line hl he hls⟩

/-- Whichever end a line has, it becomes a line feed. -/
theorem unifyEnds_line {l e rest : Text} (hl : IsUnbroken l) (he : IsEnd rest e) :
    unifyEnds (l ++ e ++ rest) = l ++ '\n' :: unifyEnds rest := by
  have hlast : l.getLast? ≠ some '\r' := fun h => hl.no_return (List.mem_of_getLast? h)
  have hfeed : unifyEnds ('\n' :: rest) = '\n' :: unifyEnds rest :=
    unifyEnds_cons fun h => absurd h (by decide)
  have hend : unifyEnds (e ++ rest) = '\n' :: unifyEnds rest := by
    cases he with
    | lineFeed => exact hfeed
    | both => exact (unifyEnds_twoEnds rest).trans hfeed
    | carriageReturn h => exact unifyEnds_cons fun _ => h
  rw [List.append_assoc, unifyEnds_append fun h => absurd h hlast,
    unifyEnds_of_not_mem hl.no_return, hend]

/-- A line without the line feed at its end. -/
def withoutFeed (line : Text) : Text := line.filter (· ≠ '\n')

theorem IsUnbroken.withoutFeed_eq {l : Text} (h : IsUnbroken l) :
    withoutFeed l = l ∧ withoutFeed (l ++ ['\n']) = l := by
  have hkept : withoutFeed l = l :=
    List.filter_eq_self.mpr fun c hc => decide_eq_true fun e => h.no_lineFeed (e ▸ hc)
  have hfeed : withoutFeed (l ++ ['\n']) = withoutFeed l := by simp [withoutFeed]
  exact ⟨hkept, hfeed.trans hkept⟩

theorem HasLines.map_lines {t : Text} {ls : List Text} (h : HasLines t ls) :
    (lines .unified t).map withoutFeed = ls := by
  induction h with
  | nil => rfl
  | @last l hl hne =>
    show (cutLines false (unifyEnds l)).map withoutFeed = [l]
    rw [unifyEnds_of_not_mem hl.no_return, cutLines_unbroken hl.no_lineFeed hne, List.map_singleton,
      hl.withoutFeed_eq.1]
  | @line l e rest ls hl he _ ih =>
    show (cutLines false (unifyEnds (l ++ e ++ rest))).map withoutFeed = l :: ls
    rw [unifyEnds_line hl he, cutLines_lineFeed hl.no_lineFeed, List.map_cons, hl.withoutFeed_eq.2]
    exact congrArg (l :: ·) ih

/-- **A text has exactly the lines that it is cut into**, without their ends. -/
theorem hasLines_iff (t : Text) (ls : List Text) :
    HasLines t ls ↔ (lines .unified t).map withoutFeed = ls := by
  refine ⟨HasLines.map_lines, fun h => ?_⟩
  obtain ⟨ls', hls'⟩ := exists_lines t
  rw [← h, hls'.map_lines]
  exact hls'

/-! ## 4. Lines of other texts -/

/-- The text is empty, or a line ends at its end. -/
def EndsLine (t : Text) : Prop := ∀ c, t.getLast? = some c → c = '\n' ∨ c = '\r'

/-- An end in front of another text stays one, or takes the line feed with which that begins. -/
theorem IsEnd.append {e : Text} (h : IsEnd [] e) (t : Text) :
    IsEnd t e ∨ ∃ rest, t = '\n' :: rest ∧ IsEnd rest (e ++ ['\n']) := by
  cases h with
  | lineFeed => exact .inl .lineFeed
  | both => exact .inl .both
  | carriageReturn _ =>
    by_cases hhead : t.head? = some '\n'
    · obtain ⟨rest, rfl⟩ := List.head?_eq_some_iff.mp hhead
      exact .inr ⟨rest, rfl, .both⟩
    · exact .inl (.carriageReturn hhead)

/-- **What stands behind whole lines adds its own lines.** -/
theorem HasLines.append {s : Text} {ls : List Text} (h : HasLines s ls) (hs : EndsLine s) (t : Text) :
    ∃ more, HasLines (s ++ t) (ls ++ more) := by
  induction h with
  | nil => exact exists_lines t
  | @last l hl hne =>
    -- a line without an end does not end at its end
    have hmem := List.getLast_mem hne
    rcases hs _ (List.getLast?_eq_some_getLast hne) with hc | hc
    · exact absurd (hc ▸ hmem) hl.no_lineFeed
    · exact absurd (hc ▸ hmem) hl.no_return
  | @line l e rest ls hl he hrest ih =>
    by_cases hnil : rest = []
    · subst hnil
      obtain rfl : ls = [] := hrest.map_lines.symm
      rcases he.append t with he | ⟨rest, rfl, he⟩
      · obtain ⟨more, hmore⟩ := exists_lines t
        exact ⟨more, by simpa using HasLines.line hl he hmore⟩
      · obtain ⟨more, hmore⟩ := exists_lines rest
        exact ⟨more, by simpa using HasLines.line hl he hmore⟩
    · have hends : EndsLine rest := fun c hc =>
        hs c (by rw [List.getLast?_append, hc]; rfl)
      obtain ⟨more, hmore⟩ := ih hends
      have he' : IsEnd (rest ++ t) e := by
        cases he with
        | lineFeed => exact .lineFeed
        | both => exact .both
        | carriageReturn h =>
          refine .carriageReturn ?_
          rwa [List.head?_append_of_ne_nil _ hnil]
      exact ⟨more, by simpa using HasLines.line hl he' hmore⟩

/-- The text with this end for every line. -/
def rewriteEnds (e t : Text) : Text :=
  (unifyEnds t).flatMap fun c => if c = '\n' then e else [c]

/-- Nothing but line ends is rewritten. -/
theorem rewriteEnds_unbroken (e : Text) {l : Text} (hl : IsUnbroken l) : rewriteEnds e l = l := by
  have hkept : ∀ c ∈ l, (if c = '\n' then e else [c]) = [c] := by
    intro c hc
    rw [if_neg]
    rintro rfl
    exact hl.no_lineFeed hc
  unfold rewriteEnds
  rw [unifyEnds_of_not_mem hl.no_return, List.flatMap_congr hkept]
  exact List.flatMap_singleton' l

theorem rewriteEnds_line (e' : Text) {l e rest : Text} (hl : IsUnbroken l) (he : IsEnd rest e) :
    rewriteEnds e' (l ++ e ++ rest) = l ++ e' ++ rewriteEnds e' rest := by
  have hself := rewriteEnds_unbroken e' hl
  unfold rewriteEnds at hself ⊢
  rw [unifyEnds_of_not_mem hl.no_return] at hself
  rw [unifyEnds_line hl he, List.flatMap_append, hself, List.flatMap_cons, if_pos rfl,
    List.append_assoc]

/-- **Whichever end its lines have, a text has the same lines.** -/
theorem HasLines.rewriteEnds {t : Text} {ls : List Text} (h : HasLines t ls) {e : Text}
    (he : IsEnd [] e) : HasLines (rewriteEnds e t) ls := by
  induction h with
  | nil => exact .nil
  | last hl hne =>
    rw [rewriteEnds_unbroken e hl]
    exact .last hl hne
  | @line l e' rest ls hl he' _ ih =>
    rw [rewriteEnds_line e hl he']
    refine .line hl ?_ ih
    cases he with
    | lineFeed => exact .lineFeed
    | both => exact .both
    | carriageReturn _ =>
      -- no line feed is left behind it
      refine .carriageReturn fun hhead => ?_
      obtain ⟨c, -, hc⟩ := List.mem_flatMap.mp (List.mem_of_head? hhead)
      split at hc
      · exact absurd (List.mem_singleton.mp hc) (by decide)
      · next hne => exact hne (List.mem_singleton.mp hc).symm

end Anonymization.Text
