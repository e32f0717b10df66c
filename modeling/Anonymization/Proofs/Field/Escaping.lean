import Anonymization.Proofs.Text.Trimming
/-!
# Backslashes in front of special characters

* `occurrence_induction` -- what replacing does to a text, from its front on;
* `guarded` -- a text with a backslash in front of every special character; escaping a separator
  (`escape_eq`) and escaping parentheses (`escapeParentheses_eq`) are cases of it;
* `guarded_guarded` -- two kinds of special characters, guarded one after the other;
* `unescapeParentheses_escapeParentheses` -- **parentheses that were escaped are read again**;
* `not_prefix_escape`, `unescape_escape` -- no escaped text begins with the separator, and so **what was
  escaped is read again**, also with separators of several characters;
* `trim_unescapeParentheses`, `getLast?_unescapeParentheses` -- the ends of a text stay.
-/

namespace Anonymization.Field

/-! ## 1. Replacing -/

/-- What belongs to an occurrence already replaced is passed over. -/
theorem replaceFrom_eq_drop (old new : Text) (skip : Nat) (t : Text) :
    Text.replaceFrom old new skip t = Text.replaceFrom old new 0 (t.drop skip) := by
  induction t generalizing skip with
  | nil => cases skip <;> rfl
  | cons c t ih =>
    cases skip with
    | zero => rfl
    | succ skip => exact ih skip

section Replace

variable {old : Text} (hold : old ≠ [])

include hold

theorem replace_eq_replaceFrom (new t : Text) :
    Text.replace old new t = Text.replaceFrom old new 0 t := by
  cases old with
  | nil => exact absurd rfl hold
  | cons c old => rfl

theorem replace_nil (new : Text) : Text.replace old new [] = [] := by
  rw [replace_eq_replaceFrom hold]
  rfl

/-- Where the text to replace stands, it is replaced. -/
theorem replace_append (new t : Text) :
    Text.replace old new (old ++ t) = new ++ Text.replace old new t := by
  rw [replace_eq_replaceFrom hold, replace_eq_replaceFrom hold]
  cases old with
  | nil => exact absurd rfl hold
  | cons c old =>
    have hthere : (c :: old).isPrefixOf (c :: (old ++ t)) = true :=
      List.isPrefixOf_iff_prefix.mpr (List.prefix_append (c :: old) t)
    rw [List.cons_append, Text.replaceFrom, if_pos hthere, replaceFrom_eq_drop, List.length_cons,
      Nat.add_sub_cancel, List.drop_left]

/-- Where it does not stand, one character is kept. -/
theorem replace_cons {c : Char} {t : Text} (new : Text) (h : ¬ old <+: c :: t) :
    Text.replace old new (c :: t) = c :: Text.replace old new t := by
  rw [replace_eq_replaceFrom hold, replace_eq_replaceFrom hold, Text.replaceFrom,
    if_neg (mt List.isPrefixOf_iff_prefix.mp h)]

/-- **A text is read from its front**: what is looked for stands there and is taken whole, or one
character is taken. -/
@[elab_as_elim]
theorem occurrence_induction {P : Text → Prop} (nil : P [])
    (there : ∀ t, P t → P (old ++ t)) (other : ∀ c t, ¬ old <+: c :: t → P t → P (c :: t))
    (t : Text) : P t := by
  induction h : t.length using Nat.strongRecOn generalizing t with
  | ind n ih =>
    subst h
    cases t with
    | nil => exact nil
    | cons c t =>
      by_cases hthere : old <+: c :: t
      · obtain ⟨rest, hrest⟩ := hthere
        have hpos := List.length_pos_of_ne_nil hold
        rw [← hrest] at ih ⊢
        exact there rest (ih rest.length (by rw [List.length_append]; omega) rest rfl)
      · exact other c t hthere (ih t.length (Nat.lt_succ_self _) t rfl)

end Replace

/-- Replacing a character. -/
theorem replace_char (c : Char) (new t : Text) :
    Text.replace [c] new t = t.flatMap fun x => if x = c then new else [x] := by
  induction t using occurrence_induction (List.cons_ne_nil c []) with
  | nil => rfl
  | there t ih =>
    rw [replace_append (List.cons_ne_nil c []), ih, List.singleton_append, List.flatMap_cons, if_pos rfl]
  | other x t h ih =>
    have hne : x ≠ c := by
      rintro rfl
      exact h (List.prefix_append [x] t)
    rw [replace_cons (List.cons_ne_nil c []) new h, ih, List.flatMap_cons, if_neg hne]
    rfl

/-- Two characters in a row, where they do not stand. -/
theorem replace_two_cons {a b c : Char} {t : Text} (new : Text) (h : c = a → t.head? ≠ some b) :
    Text.replace [a, b] new (c :: t) = c :: Text.replace [a, b] new t := by
  refine replace_cons (List.cons_ne_nil a [b]) new ?_
  rintro ⟨rest, hrest⟩
  obtain ⟨rfl, rfl⟩ := List.cons.inj hrest
  exact h rfl rfl

/-! ## 2. Guarding -/

/-- The text with a backslash in front of every special character. -/
def guarded (special : Char → Bool) (t : Text) : Text :=
  t.flatMap fun c => if special c then [escapeChar, c] else [c]

section Guarded

variable {p q : Char → Bool} {c : Char} {s t : Text}

@[simp] theorem guarded_nil : guarded p [] = [] := rfl

theorem guarded_cons (p : Char → Bool) (c : Char) (t : Text) :
    guarded p (c :: t) = (if p c then [escapeChar, c] else [c]) ++ guarded p t := List.flatMap_cons

theorem guarded_append (p : Char → Bool) (s t : Text) :
    guarded p (s ++ t) = guarded p s ++ guarded p t :=
  List.flatMap_append

/-- A text without special characters is left as it is. -/
theorem guarded_of_forall (h : ∀ c ∈ t, p c = false) : guarded p t = t := by
  induction t with
  | nil => rfl
  | cons c t ih =>
    rw [guarded_cons, h c List.mem_cons_self, ih fun x hx => h x (List.mem_cons_of_mem _ hx)]
    rfl

/-- The last character stays the last. -/
theorem getLast?_guarded (p : Char → Bool) (t : Text) : (guarded p t).getLast? = t.getLast? := by
  induction t with
  | nil => rfl
  | cons c t ih =>
    rw [guarded_cons, List.getLast?_append, ih, List.getLast?_cons]
    split <;> cases t.getLast? <;> rfl

/-- **Two kinds of special characters, guarded one after the other.** -/
theorem guarded_guarded (hq : q escapeChar = false) (hpq : ∀ c, p c = true → q c = false)
    (t : Text) :
    guarded q (guarded p t) = guarded (fun c => p c || q c) t := by
  induction t with
  | nil => rfl
  | cons c t ih =>
    rw [guarded_cons, guarded_cons, guarded_append, ih]
    by_cases hc : p c = true
    · simp [hc, guarded_cons, hq, hpq c hc]
    · have hc' : p c = false := by simpa using hc
      simp [hc', guarded_cons]

/-- Blanks stay as they are when none of them is special. -/
theorem guarded_blanks (hp : ∀ c, p c = true → Text.isBlank c = false) {b : Text}
    (hb : Text.Blanks b) : guarded p b = b := by
  refine guarded_of_forall fun c hc => ?_
  cases h : p c with
  | false => rfl
  | true => exact absurd (hb c hc) (by simp [hp c h])

/-- No blank comes to stand in front. -/
theorem startsBare_guarded (p : Char → Bool) {t : Text} (ht : Text.StartsBare t) :
    Text.StartsBare (guarded p t) := by
  cases t with
  | nil => exact ht
  | cons c t =>
    rw [guarded_cons]
    split
    · exact Text.startsBare_cons.mpr (by decide)
    · exact Text.startsBare_cons.mpr (Text.startsBare_cons.mp ht)

/-- Blanks in front stay in front. -/
theorem trimStart_guarded (hp : ∀ c, p c = true → Text.isBlank c = false) (t : Text) :
    Text.trimStart (guarded p t) = guarded p (Text.trimStart t) := by
  obtain ⟨b, hb, ht⟩ := Text.trimStart_append t
  conv_lhs => rw [ht, guarded_append, guarded_blanks hp hb, Text.trimStart_blanks hb]
  exact Text.trimStart_of_startsBare (startsBare_guarded p (Text.startsBare_trimStart t))

/-- **The blanks at the ends of a guarded text are those of the text**, when none of them is special. -/
theorem trim_guarded (hp : ∀ c, p c = true → Text.isBlank c = false) (t : Text) :
    Text.trim (guarded p t) = guarded p (Text.trim t) := by
  obtain ⟨b, hb, ht⟩ := Text.trimEnd_append (Text.trimStart t)
  have hend : Text.EndsBare (guarded p (Text.trim t)) := by
    intro c hc
    rw [getLast?_guarded] at hc
    exact Text.endsBare_trim t c hc
  rw [Text.trim, trimStart_guarded hp]
  conv_lhs => rw [ht, guarded_append, guarded_blanks hp hb, Text.trimEnd_blanks hb]
  exact Text.trimEnd_of_endsBare hend

end Guarded

/-! ## 3. Separators and parentheses -/

theorem replace_eq_guarded (c : Char) (t : Text) :
    Text.replace [c] [escapeChar, c] t = guarded (· == c) t := by
  rw [replace_char]
  unfold guarded
  congr 1
  funext x
  by_cases h : x = c
  · simp [h]
  · simp [h]

theorem escape_eq_replace {separator : Text} (hne : separator ≠ []) (t : Text) :
    escape separator t = Text.replace separator (escapeChar :: separator) t := by
  unfold escape
  split
  · next h =>
    rw [List.isEmpty_iff.mp h, replace_nil hne]
  · rfl

/-- Escaping a separator guards it. -/
theorem escape_eq (separator : Char) (t : Text) :
    escape [separator] t = guarded (· == separator) t :=
  (escape_eq_replace (List.cons_ne_nil separator []) t).trans (replace_eq_guarded separator t)

/-- An opening or a closing parenthesis. -/
def isParenthesis (c : Char) : Bool := c == '(' || c == ')'

/-- Escaping parentheses guards them. -/
theorem escapeParentheses_eq (t : Text) : escapeParentheses t = guarded isParenthesis t := by
  unfold escapeParentheses
  rw [replace_eq_guarded, replace_eq_guarded, guarded_guarded (by decide) (by simp +contextual)]
  rfl

/-- The head of a guarded text is a backslash or the head of the text. -/
theorem head?_guarded {p : Char → Bool} {b : Char} (hp : p b = true) (hb : b ≠ escapeChar)
    (t : Text) :
    (guarded p t).head? ≠ some b := by
  cases t with
  | nil => simp
  | cons c t =>
    rw [guarded_cons]
    split
    · simp only [List.cons_append, List.head?_cons, ne_eq, Option.some.injEq]
      exact fun e => hb e.symm
    · next h =>
      simp only [List.cons_append, List.head?_cons, ne_eq, Option.some.injEq]
      intro e
      exact h (e ▸ hp)

/-- Taking a backslash away in front of one special character leaves the others guarded. -/
theorem replace_two_guarded {p : Char → Bool} {b : Char} (hp : p b = true) (hb : b ≠ escapeChar)
    (t : Text) :
    Text.replace [escapeChar, b] [b] (guarded p t) = guarded (fun c => p c && c != b) t := by
  induction t with
  | nil => rfl
  | cons c t ih =>
    have hhead := head?_guarded hp hb t
    rw [guarded_cons, guarded_cons]
    by_cases hc : p c = true
    · by_cases hcb : c = b
      · subst hcb
        rw [if_pos hc, if_neg (by simp)]
        exact (replace_append (List.cons_ne_nil escapeChar [c]) [c] _).trans (congrArg (c :: ·) ih)
      · rw [if_pos hc, if_pos (by simp [hc, hcb])]
        show Text.replace [escapeChar, b] [b] (escapeChar :: c :: guarded p t) = _
        rw [replace_two_cons [b] (by simp [hcb]), replace_two_cons [b] fun _ => hhead, ih]
        rfl
    · rw [if_neg hc, if_neg (by simp [hc])]
      show Text.replace [escapeChar, b] [b] (c :: guarded p t) = _
      rw [replace_two_cons [b] fun _ => hhead, ih]
      rfl

/-- **Escaped parentheses are read again.** -/
theorem unescapeParentheses_escapeParentheses (t : Text) :
    unescapeParentheses (escapeParentheses t) = t := by
  unfold unescapeParentheses
  rw [escapeParentheses_eq, replace_two_guarded (by decide) (by decide),
    replace_two_guarded (by decide) (by decide)]
  refine guarded_of_forall fun c _ => ?_
  by_cases h1 : c = '('
  · simp [h1]
  · by_cases h2 : c = ')'
    · simp [h2]
    · simp [isParenthesis, h1, h2]

/-! ## 4. Separators of any length -/

theorem unescape_eq_replace (separator t : Text) :
    unescape separator t = Text.replace (escapeChar :: separator) separator t := by
  unfold unescape
  split
  · next h =>
    rw [List.isEmpty_iff.mp h, replace_nil (List.cons_ne_nil _ _)]
  · rfl

section Separator

variable {separator : Text} (hne : separator ≠ [])

include hne

theorem escape_append (t : Text) :
    escape separator (separator ++ t) = escapeChar :: separator ++ escape separator t := by
  rw [escape_eq_replace hne, escape_eq_replace hne, replace_append hne]

theorem escape_cons {c : Char} {t : Text} (h : ¬ separator <+: c :: t) :
    escape separator (c :: t) = c :: escape separator t := by
  rw [escape_eq_replace hne, escape_eq_replace hne, replace_cons hne _ h]

/-- What begins an escaped text and has no backslash, begins the text. -/
theorem prefix_of_prefix_escape {p t : Text} (hp : escapeChar ∉ p) (h : p <+: escape separator t) :
    p <+: t := by
  induction t using occurrence_induction hne generalizing p with
  | nil => exact h
  | there t _ =>
    rw [escape_append hne] at h
    cases p with
    | nil => exact List.nil_prefix
    | cons c p =>
      rw [List.cons_append, List.cons_prefix_cons] at h
      exact absurd (h.1 ▸ List.mem_cons_self) hp
  | other d t hother ih =>
    rw [escape_cons hne hother] at h
    cases p with
    | nil => exact List.nil_prefix
    | cons c p =>
      rw [List.cons_prefix_cons] at h ⊢
      exact ⟨h.1, ih (fun hmem => hp (List.mem_cons_of_mem _ hmem)) h.2⟩

/-- **No escaped text begins with the separator.** -/
theorem not_prefix_escape (hfree : escapeChar ∉ separator) (t : Text) :
    ¬ separator <+: escape separator t := by
  intro h
  obtain ⟨rest, rfl⟩ := prefix_of_prefix_escape hne hfree h
  rw [escape_append hne] at h
  cases separator with
  | nil => exact hne rfl
  | cons c separator =>
    rw [List.cons_append, List.cons_prefix_cons] at h
    exact hfree (h.1 ▸ List.mem_cons_self)

/-- **Only the separators that were escaped are unescaped.** In a character that was kept no occurrence of
the escaped separator begins: it would be a backslash, and the separator would have to follow. -/
theorem unescape_escape_of_readable (hread : escapeChar ∉ separator ∨ separator = [escapeChar])
    (t : Text) : unescape separator (escape separator t) = t := by
  have hne' := List.cons_ne_nil escapeChar separator
  rw [unescape_eq_replace]
  induction t using occurrence_induction hne with
  | nil => rfl
  | there t ih => rw [escape_append hne, replace_append hne', ih]
  | other c t hother ih =>
    have hkept : ¬ escapeChar :: separator <+: c :: escape separator t := by
      rw [List.cons_prefix_cons]
      rintro ⟨rfl, hbegin⟩
      rcases hread with hfree | rfl
      · exact not_prefix_escape hne hfree t hbegin
      · exact hother (List.prefix_append [escapeChar] t)
    rw [escape_cons hne hother, replace_cons hne' separator hkept, ih]

end Separator

/-- **What was escaped is read again**, whatever stands in the text: a separator of any length that has no
backslash, a backslash as the separator, and parentheses. -/
theorem unescape_escape (t : Text) :
    (∀ separator : Text, separator ≠ [] → escapeChar ∉ separator →
      unescape separator (escape separator t) = t) ∧
    unescape [escapeChar] (escape [escapeChar] t) = t ∧
    unescapeParentheses (escapeParentheses t) = t := by
  refine ⟨fun separator hne hfree => unescape_escape_of_readable hne (.inl hfree) t, ?_,
    unescapeParentheses_escapeParentheses t⟩
  exact unescape_escape_of_readable (List.cons_ne_nil escapeChar []) (.inr rfl) t

/-- Separators that overlap, with backslashes in front of them and at the end. -/
theorem unescape_escape_overlapping :
    let separator := "aba".toList
    let t := "\\ababa(aba\\".toList
    separator ≠ [] ∧ escapeChar ∉ separator ∧
      escape separator t = "\\\\ababa(\\aba\\".toList ∧
      unescape separator (escape separator t) = t ∧
      unescape [escapeChar] (escape [escapeChar] t) = t ∧
      unescapeParentheses (escapeParentheses t) = t := by
  intro separator t
  have hne : separator ≠ [] := by decide
  have hfree : escapeChar ∉ separator := by decide
  obtain ⟨hseparator, hbackslash, hparentheses⟩ := unescape_escape t
  exact ⟨hne, hfree, by decide, hseparator separator hne hfree, hbackslash, hparentheses⟩

/-- A separator that ends in a backslash runs into the backslash in front of it. -/
example :
    let separator := "a\\".toList
    unescape separator (escape separator "\\aa\\".toList) = "a\\a\\".toList := by decide

/-! ## 5. The ends of a text whose parentheses are unescaped -/

/-- The last character stays the last. -/
theorem getLast?_replace_two (a b : Char) (t : Text) :
    (Text.replace [a, b] [b] t).getLast? = t.getLast? := by
  have hne := List.cons_ne_nil a [b]
  induction t using occurrence_induction hne with
  | nil => rfl
  | there t ih => rw [replace_append hne, List.getLast?_append, ih, List.getLast?_append]; rfl
  | other c t h ih => rw [replace_cons hne [b] h, List.getLast?_cons, ih, List.getLast?_cons]

/-- A text begins without a blank as it did before. -/
theorem startsBare_replace_two {a b : Char} (hb : Text.isBlank b = false) {t : Text}
    (ht : Text.StartsBare t) :
    Text.StartsBare (Text.replace [a, b] [b] t) := by
  have hne := List.cons_ne_nil a [b]
  cases t using occurrence_induction hne with
  | nil => exact ht
  | there t =>
    rw [replace_append hne]
    exact Text.startsBare_cons.mpr hb
  | other c t h =>
    rw [replace_cons hne [b] h]
    exact Text.startsBare_cons.mpr (Text.startsBare_cons.mp ht)

theorem getLast?_unescapeParentheses (t : Text) :
    (unescapeParentheses t).getLast? = t.getLast? := by
  unfold unescapeParentheses
  rw [getLast?_replace_two, getLast?_replace_two]

/-- **No blank comes to stand at an end of a text whose parentheses are unescaped.** -/
theorem trim_unescapeParentheses {t : Text} (h : Text.trim t = t) :
    Text.trim (unescapeParentheses t) = unescapeParentheses t := by
  obtain ⟨hs, he⟩ := (Text.trim_eq_self_iff t).mp h
  refine (Text.trim_eq_self_iff _).mpr ⟨?_, ?_⟩
  · exact startsBare_replace_two (by decide) (startsBare_replace_two (by decide) hs)
  · intro c hc
    rw [getLast?_unescapeParentheses] at hc
    exact he c hc

theorem unescapeParentheses_ne_nil {t : Text} (h : t ≠ []) : unescapeParentheses t ≠ [] := by
  intro hnil
  have hl := getLast?_unescapeParentheses t
  rw [hnil] at hl
  exact h (List.getLast?_eq_none_iff.mp hl.symm)

end Anonymization.Field
