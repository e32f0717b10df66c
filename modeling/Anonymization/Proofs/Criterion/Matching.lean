import Anonymization.Proofs.Numeral.Scanning
/-!
# Matching a form

* `matchPieces?_sound`, `matchPieces?_complete` -- what the matcher finds, the form spells, and the
  other way round where a keyword ends every number;
* `matchPieces?_iff` -- **so it is for the grammars**;
* `opener_of_spells` -- a text shows by its first letters which form it may have, so **no text has two
  forms**;
* `not_mem_of_spells` -- characters that stand in no form.
-/

namespace Anonymization

/-! ## 1. Letters -/

namespace Text

/-- Only letters have another letter that they are written for, and that is a capital one. -/
theorem keyLetter_cases (c : Char) :
    keyLetter c = c ∨ (c ∈ ['ſ', 'ı', 'İ', '\u212A'] ∨ 97 ≤ c.toNat ∧ c.toNat ≤ 122) ∧
      65 ≤ (keyLetter c).toNat ∧ (keyLetter c).toNat ≤ 90 := by
  unfold keyLetter
  split
  · exact .inr ⟨.inl (by decide), by decide⟩
  · exact .inr ⟨.inl (by decide), by decide⟩
  · exact .inr ⟨.inl (by decide), by decide⟩
  · exact .inr ⟨.inl (by decide), by decide⟩
  · unfold Char.toUpper
    split
    · next h =>
      have h1 : 97 ≤ c.val.toNat := UInt32.le_iff_toNat_le.mp h.1
      have h2 : c.val.toNat ≤ 122 := UInt32.le_iff_toNat_le.mp h.2
      have hx : ('A'.val - 'a'.val).toNat = 2 ^ 32 - 32 := by decide
      have hup : (c.val + ('A'.val - 'a'.val)).toNat = c.val.toNat - 32 := by
        rw [UInt32.toNat_add, hx]
        omega
      refine .inr ⟨.inr ⟨h1, h2⟩, ?_⟩
      show 65 ≤ (c.val + ('A'.val - 'a'.val)).toNat ∧ (c.val + ('A'.val - 'a'.val)).toNat ≤ 90
      rw [hup]
      omega
    · exact .inl rfl

/-- What is no capital letter is written only for itself. -/
theorem eq_of_keyLetter {c k : Char} (h : keyLetter c = k) (hk : ¬(65 ≤ k.toNat ∧ k.toNat ≤ 90)) :
    c = k := by
  rcases keyLetter_cases c with hc | ⟨-, hc⟩
  · exact hc ▸ h
  · exact absurd (h ▸ hc) hk

theorem keyLetter_digit :
    ∀ z ∈ digitZeros, ∀ k < 10, keyLetter (Char.ofNat (z + k)) = Char.ofNat (z + k) := by
  decide +kernel

theorem keyLetter_of_isDecimal {c : Char} (h : isDecimal c = true) : keyLetter c = c := by
  obtain ⟨z, hz, k, hk, rfl⟩ := exists_zero_of_isDecimal h
  exact keyLetter_digit z hz k hk

theorem keyLetter_of_isBlank {c : Char} (h : isBlank c = true) : keyLetter c = c := by
  rcases keyLetter_cases c with hc | ⟨hc | hc, -⟩
  · exact hc
  · simp only [List.mem_cons, List.not_mem_nil, or_false] at hc
    rcases hc with rfl | rfl | rfl | rfl <;> exact absurd h (by decide)
  · exfalso
    simp only [isBlank, Bool.or_eq_true, Bool.and_eq_true, decide_eq_true_eq, beq_iff_eq] at h
    omega

theorem SameLetters.cons {k : Char} {keyword t : Text} (h : SameLetters (k :: keyword) t) :
    ∃ c t', t = c :: t' ∧ keyLetter c = keyLetter k ∧ SameLetters keyword t' := by
  cases t with
  | nil => cases h
  | cons c t =>
    simp only [SameLetters, List.map_cons, List.cons.injEq] at h
    exact ⟨c, t, rfl, h.1, h.2⟩

/-- **A keyword is found exactly where its letters stand.** -/
theorem afterKeyword?_iff (keyword t rest : Text) :
    afterKeyword? keyword t = some rest ↔ ∃ t', t = t' ++ rest ∧ SameLetters keyword t' := by
  induction keyword generalizing t with
  | nil =>
    constructor
    · intro h
      exact ⟨[], Option.some.inj h, rfl⟩
    · rintro ⟨t', rfl, h⟩
      rw [List.map_eq_nil_iff.mp h]
      rfl
  | cons k keyword ih =>
    constructor
    · intro h
      cases t with
      | nil => cases h
      | cons c t =>
        rw [afterKeyword?] at h
        split at h
        · next hc =>
          obtain ⟨t', rfl, hk⟩ := (ih t).mp h
          exact ⟨c :: t', rfl, by simp [SameLetters, hc, show t'.map keyLetter = _ from hk]⟩
        · cases h
    · rintro ⟨t', rfl, h⟩
      obtain ⟨c, t'', rfl, hc, hk⟩ := h.cons
      rw [List.cons_append, afterKeyword?, if_pos hc]
      exact (ih _).mpr ⟨t'', rfl, hk⟩

end Text

namespace Grammar

/-! ## 2. Numbers between blanks -/

theorem trimStart_blanks_append {b t : Text} (hb : Text.Blanks b) (ht : Text.StartsBare t) :
    Text.trimStart (b ++ t) = t := by
  rw [Text.trimStart_blanks hb, Text.trimStart_of_startsBare ht]

theorem takeWhole?_sound {t digits rest : Text} (h : takeWhole? t = some (digits, rest)) :
    ∃ before after, Text.Blanks before ∧ Text.Digits digits ∧ Text.Blanks after ∧
      t = before ++ digits ++ after ++ rest := by
  obtain ⟨before, hb, ht⟩ := Text.trimStart_append t
  obtain ⟨d, r, htake, hu, hd, -⟩ := Numeral.takeDigits_spec (Text.trimStart t)
  obtain ⟨after, ha, hr⟩ := Text.trimStart_append r
  unfold takeWhole? at h
  simp only [htake] at h
  cases d with
  | nil => cases h
  | cons c d =>
    simp only [Option.some.injEq, Prod.mk.injEq] at h
    obtain ⟨rfl, rfl⟩ := h
    refine ⟨before, after, hb, Numeral.digits_of_cons hd, ha, ?_⟩
    rw [List.append_assoc, ← hr, List.append_assoc, ← hu, ← ht]

theorem takeNumber?_sound {t rest : Text} {w : Numeral.Written}
    (h : takeNumber? t = some (w, rest)) :
    ∃ before numeral after, Text.Blanks before ∧ Numeral.Written.Spells w numeral ∧
      Text.Blanks after ∧
      t = before ++ numeral ++ after ++ rest := by
  obtain ⟨before, hb, ht⟩ := Text.trimStart_append t
  unfold takeNumber? at h
  obtain ⟨⟨w', r⟩, htake, heq⟩ := Option.map_eq_some_iff.mp h
  obtain ⟨rfl, rfl⟩ := Prod.mk.inj heq
  obtain ⟨numeral, hu, hn⟩ := Numeral.take?_sound htake
  obtain ⟨after, ha, hr⟩ := Text.trimStart_append r
  refine ⟨before, numeral, after, hb, hn, ha, ?_⟩
  rw [List.append_assoc, ← hr, List.append_assoc, ← hu, ← ht]

/-- Behind a number, blanks apart, comes nothing that it could go on with. -/
def EndsPiece (t : Text) : Prop := Text.StartsBare t ∧ Numeral.EndsNumber t

/-- Blanks do not go on with a number either. -/
theorem endsNumber_blanks {after rest : Text} (ha : Text.Blanks after)
    (hr : Numeral.EndsNumber rest) :
    Numeral.EndsNumber (after ++ rest) := by
  cases after with
  | nil => exact hr
  | cons b after =>
    intro c hc
    have hb : Text.isBlank c = true := Option.some.inj hc ▸ ha b List.mem_cons_self
    refine ⟨?_, ?_, ?_, ?_⟩
    · cases hd : Text.isDecimal c with
      | false => rfl
      | true =>
        rw [Text.isBlank_of_isDecimal hd] at hb
        cases hb
    all_goals
      rintro rfl
      exact absurd hb (by decide)

theorem startsBare_digits {d t : Text} (hd : Text.Digits d) : Text.StartsBare (d ++ t) := by
  obtain ⟨c, d', rfl⟩ := List.exists_cons_of_ne_nil hd.1
  exact Text.startsBare_cons.mpr (Text.isBlank_of_isDecimal (hd.2 c List.mem_cons_self))

theorem startsBare_numeral {w : Numeral.Written} {numeral t : Text}
    (h : Numeral.Written.Spells w numeral) :
    Text.StartsBare (numeral ++ t) := by
  obtain ⟨hs, hd, -⟩ := h
  rw [List.append_assoc, List.append_assoc]
  cases hs with
  | plus => exact Text.startsBare_cons.mpr (by decide)
  | minus => exact Text.startsBare_cons.mpr (by decide)
  | absent =>
    rw [List.nil_append]
    cases hd with
    | whole hw => exact startsBare_digits hw
    | point hw =>
      rw [List.append_assoc]
      exact startsBare_digits hw
    | both hw _ =>
      rw [List.append_assoc]
      exact startsBare_digits hw
    | fraction _ => exact Text.startsBare_cons.mpr (by decide)

theorem takeWhole?_complete {before digits after rest : Text} (hb : Text.Blanks before)
    (hd : Text.Digits digits) (ha : Text.Blanks after) (hr : EndsPiece rest) :
    takeWhole? (before ++ digits ++ after ++ rest) = some (digits, rest) := by
  have htake := Numeral.takeDigits_append hd.2 (endsNumber_blanks ha hr.2).endsDigits
  unfold takeWhole?
  rw [List.append_assoc, List.append_assoc, trimStart_blanks_append hb (startsBare_digits hd),
    htake]
  obtain ⟨c, d, rfl⟩ := List.exists_cons_of_ne_nil hd.1
  simp only [trimStart_blanks_append ha hr.1]

theorem takeNumber?_complete {before numeral after rest : Text} {w : Numeral.Written}
    (hb : Text.Blanks before)
    (hn : Numeral.Written.Spells w numeral) (ha : Text.Blanks after) (hr : EndsPiece rest) :
    takeNumber? (before ++ numeral ++ after ++ rest) = some (w, rest) := by
  unfold takeNumber?
  rw [List.append_assoc, List.append_assoc, trimStart_blanks_append hb (startsBare_numeral hn),
    Numeral.take?_complete hn (endsNumber_blanks ha hr.2), Option.map_some]
  simp only [trimStart_blanks_append ha hr.1]

/-! ## 3. Forms -/

/-- **What the matcher finds, the form spells.** -/
theorem matchPieces?_sound {ps : List Piece} {t : Text} {cs : List Captured}
    (h : matchPieces? ps t = some cs) :
    Spells ps cs t := by
  induction ps generalizing t cs with
  | nil =>
    cases t with
    | nil =>
      cases h
      exact .nil
    | cons c t => cases h
  | cons p ps ih =>
    cases p with
    | literal keyword =>
      rw [matchPieces?] at h
      obtain ⟨rest, hk, hrest⟩ := Option.bind_eq_some_iff.mp h
      obtain ⟨t', rfl, hl⟩ := (Text.afterKeyword?_iff keyword t rest).mp hk
      exact .literal hl (ih hrest)
    | whole =>
      rw [matchPieces?] at h
      obtain ⟨⟨digits, rest⟩, hw, hrest⟩ := Option.bind_eq_some_iff.mp h
      obtain ⟨cs', hcs, rfl⟩ := Option.map_eq_some_iff.mp hrest
      obtain ⟨before, after, hb, hd, ha, rfl⟩ := takeWhole?_sound hw
      exact .whole hb hd ha (ih hcs)
    | number =>
      rw [matchPieces?] at h
      obtain ⟨⟨w, rest⟩, hw, hrest⟩ := Option.bind_eq_some_iff.mp h
      obtain ⟨cs', hcs, rfl⟩ := Option.map_eq_some_iff.mp hrest
      obtain ⟨before, numeral, after, hb, hn, ha, rfl⟩ := takeNumber?_sound hw
      exact .number hb hn ha (ih hcs)

/-- A keyword with this in front ends a number. -/
def endMarks : List Char := ['-', ',', ')']

/-- A keyword stands here that ends a number. -/
def opensWithEnd : List Piece → Bool
  | .literal (k :: _) :: _ => endMarks.contains k
  | _ => false

/-- Behind each number stands a keyword that ends it. -/
def isDelimited : List Piece → Bool
  | [] => true
  | .literal _ :: ps => isDelimited ps
  | .whole :: ps | .number :: ps => opensWithEnd ps && isDelimited ps

theorem isDelimited_pieces (g : Grammar) : isDelimited g.pieces = true := by
  cases g <;> decide

/-- A mark is written only for itself, and nothing in a number or around it is a mark. -/
theorem endMarks_spec {c k : Char} (hk : k ∈ endMarks) (h : Text.keyLetter c = Text.keyLetter k) :
    c = k ∧ Text.isBlank c = false ∧ Text.isDecimal c = false ∧ c ≠ '.' ∧ c ≠ 'e' ∧ c ≠ 'E' := by
  simp only [endMarks, List.mem_cons, List.not_mem_nil, or_false] at hk
  have hc : c = k := by
    rcases hk with rfl | rfl | rfl <;> exact Text.eq_of_keyLetter (h.trans (by decide)) (by decide)
  subst hc
  refine ⟨rfl, ?_⟩
  rcases hk with rfl | rfl | rfl
  · exact ⟨by decide, by decide, by decide, by decide, by decide⟩
  · exact ⟨by decide, by decide, by decide, by decide, by decide⟩
  · exact ⟨by decide, by decide, by decide, by decide, by decide⟩

theorem endsPiece_of_opensWithEnd {ps : List Piece} {cs : List Captured} {t : Text}
    (hp : opensWithEnd ps = true) (h : Spells ps cs t) : EndsPiece t := by
  cases h with
  | nil => cases hp
  | whole => cases hp
  | number => cases hp
  | @literal keyword _ _ _ _ hl _ =>
    cases keyword with
    | nil => cases hp
    | cons k keyword =>
      obtain ⟨c, t', rfl, hc, -⟩ := hl.cons
      obtain ⟨-, hblank, hnum⟩ := endMarks_spec (by simpa [opensWithEnd] using hp) hc
      exact ⟨Text.startsBare_cons.mpr hblank, fun x hx => Option.some.inj hx ▸ hnum⟩

/-- **What a form spells, the matcher finds**, where a keyword ends every number. -/
theorem matchPieces?_complete {ps : List Piece} {t : Text} {cs : List Captured}
    (hp : isDelimited ps = true) (h : Spells ps cs t) : matchPieces? ps t = some cs := by
  induction h with
  | nil => rfl
  | @literal keyword t ps cs rest hl _ ih =>
    rw [matchPieces?, (Text.afterKeyword?_iff keyword (t ++ rest) rest).mpr ⟨t, rfl, hl⟩]
    exact ih hp
  | whole hb hd ha hrest ih =>
    simp only [isDelimited, Bool.and_eq_true] at hp
    rw [matchPieces?, takeWhole?_complete hb hd ha (endsPiece_of_opensWithEnd hp.1 hrest),
      Option.bind_some]
    exact congrArg (Option.map _) (ih hp.2)
  | number hb hn ha hrest ih =>
    simp only [isDelimited, Bool.and_eq_true] at hp
    rw [matchPieces?, takeNumber?_complete hb hn ha (endsPiece_of_opensWithEnd hp.1 hrest),
      Option.bind_some]
    exact congrArg (Option.map _) (ih hp.2)

/-- **The matcher finds exactly what a grammar spells.** -/
theorem matchPieces?_iff (g : Grammar) (t : Text) (cs : List Captured) :
    matchPieces? g.pieces t = some cs ↔ Spells g.pieces cs t :=
  ⟨matchPieces?_sound, matchPieces?_complete (isDelimited_pieces g)⟩

/-! ## 4. Which form a text may have -/

/-- The only grammar whose form a text with these letters may have. -/
def openerOfLetters : Text → Grammar
  | '(' :: _ => .dPresence
  | 'I' :: _ => .inclusion
  | 'D' :: _ => .distinctLDiversity
  | 'R' :: _ => .recursiveLDiversity
  | 'H' :: _ => .hierarchicalTCloseness
  | 'E' :: 'N' :: _ => .entropyLDiversity
  | 'E' :: _ => .equalTCloseness
  | _ => .kAnonymity

/-- The only grammar whose form a text may have, by its first letters. -/
def opener (t : Text) : Grammar := openerOfLetters (t.map Text.keyLetter)

/-- A text that begins with no letter and no parenthesis. -/
theorem openerOfLetters_of_other {c : Char} {t : Text} (hc : c ∉ ['(', 'I', 'D', 'R', 'H', 'E']) :
    openerOfLetters (c :: t) = .kAnonymity := by
  simp only [List.mem_cons, List.not_mem_nil, or_false, not_or] at hc
  obtain ⟨h1, h2, h3, h4, h5, h6⟩ := hc
  unfold openerOfLetters
  split <;> simp_all

/-- A blank or a digit is none of the first letters of the keywords. -/
theorem opener_of_isBlank_or_isDecimal {c : Char} {t : Text}
    (hc : Text.isBlank c = true ∨ Text.isDecimal c = true) : opener (c :: t) = .kAnonymity := by
  have hself : Text.keyLetter c = c := by
    rcases hc with hc | hc
    · exact Text.keyLetter_of_isBlank hc
    · exact Text.keyLetter_of_isDecimal hc
  refine openerOfLetters_of_other fun hm => ?_
  rw [hself] at hm
  simp only [List.mem_cons, List.not_mem_nil, or_false] at hm
  rcases hm with rfl | rfl | rfl | rfl | rfl | rfl <;> rcases hc with hc | hc <;>
    exact absurd hc (by decide)

/-- The letters of a form with a keyword in front are those of the keyword. -/
theorem letters_of_literal {keyword : Text} {ps : List Piece} {cs : List Captured} {t : Text}
    (h : Spells (.literal keyword :: ps) cs t) :
    ∃ letters, t.map Text.keyLetter = keyword.map Text.keyLetter ++ letters := by
  obtain ⟨_, _⟩ | @⟨_, t', _, _, rest, hl, -⟩ := h
  exact ⟨rest.map Text.keyLetter, by rw [List.map_append, show t'.map Text.keyLetter = _ from hl]⟩

/-- **A text shows by its first letters which form it has.** -/
theorem opener_of_spells {g : Grammar} {cs : List Captured} {t : Text} (h : Spells g.pieces cs t) :
    opener t = g := by
  unfold opener
  cases g with
  | kAnonymity =>
    obtain @⟨⟩ | ⟨_, _⟩ | @⟨before, digits, after, _, _, rest, hb, hd, -, -⟩ := h
    cases before with
    | nil =>
      obtain ⟨c, d, rfl⟩ := List.exists_cons_of_ne_nil hd.1
      exact opener_of_isBlank_or_isDecimal (.inr (hd.2 c List.mem_cons_self))
    | cons c before => exact opener_of_isBlank_or_isDecimal (.inl (hb c List.mem_cons_self))
  | dPresence | inclusion | distinctLDiversity | entropyLDiversity | recursiveLDiversity | hierarchicalTCloseness
    | equalTCloseness =>
    obtain ⟨letters, hl⟩ := letters_of_literal h
    rw [hl]
    rfl

/-- **No text has two forms**, and what stands for the numbers of its form is settled too. -/
theorem spells_unique {g g' : Grammar} {cs cs' : List Captured} {t : Text}
    (h : Spells g.pieces cs t) (h' : Spells g'.pieces cs' t) : g = g' ∧ cs = cs' := by
  have hg : g = g' := (opener_of_spells h).symm.trans (opener_of_spells h')
  subst hg
  have hcs := ((matchPieces?_iff g t cs).mpr h).symm.trans ((matchPieces?_iff g t cs').mpr h')
  exact ⟨rfl, Option.some.inj hcs⟩

/-! ## 5. Characters that stand in no form -/

/-- The keywords of a form hold no equal sign. -/
def lacksEqualSign : List Piece → Bool
  | [] => true
  | .literal keyword :: ps => !(keyword.map Text.keyLetter).contains '=' && lacksEqualSign ps
  | _ :: ps => lacksEqualSign ps

theorem not_mem_blanks {b : Text} (hb : Text.Blanks b) : '=' ∉ b :=
  fun h => absurd (hb '=' h) (by decide)

/-- **No equal sign stands in a form.** -/
theorem not_mem_of_spells {ps : List Piece} {cs : List Captured} {t : Text}
    (hp : lacksEqualSign ps = true) (h : Spells ps cs t) : '=' ∉ t := by
  induction h with
  | nil => simp
  | @literal keyword t ps cs rest hl _ ih =>
    simp only [lacksEqualSign, Bool.and_eq_true, Bool.not_eq_true', List.contains_eq_mem,
      decide_eq_false_iff_not] at hp
    rw [List.mem_append, not_or]
    refine ⟨fun hm => hp.1 ?_, ih hp.2⟩
    rw [← show t.map Text.keyLetter = _ from hl]
    exact List.mem_map_of_mem (f := Text.keyLetter) hm
  | whole hb hd ha _ ih =>
    simp only [List.mem_append, not_or]
    exact ⟨⟨⟨not_mem_blanks hb, fun h => absurd (hd.2 '=' h) (by decide)⟩, not_mem_blanks ha⟩,
      ih hp⟩
  | number hb hn ha _ ih =>
    simp only [List.mem_append, not_or]
    refine ⟨⟨⟨not_mem_blanks hb, fun h => ?_⟩, not_mem_blanks ha⟩, ih hp⟩
    rcases Numeral.inNumeral_of_spells hn '=' h with h | h
    · exact absurd h (by decide)
    · exact absurd h (by decide)

theorem lacksEqualSign_pieces (g : Grammar) : lacksEqualSign g.pieces = true := by
  cases g <;> decide

end Grammar

end Anonymization
