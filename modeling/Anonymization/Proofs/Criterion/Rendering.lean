import Anonymization.Proofs.Criterion.Writing
/-!
# The text of a criterion

* `text_of_attribute` -- the text of a criterion about an attribute, with one backslash in front of each
  parenthesis and each equal sign of the name;
* `isShut_text`, `trim_text` -- what opens is closed, and blanks in front belong to the name;
* `captures_text_iff` -- **what is found in the text of a criterion**;
* `parse_text_iff`, `parse_text_self_iff` -- **which criterion it is read as**, and when as the same.
-/

namespace Anonymization.Criterion

open Anonymization.Field Anonymization.Grammar

/-! ## 1. The text -/

/-- What has a backslash in front of it in the name of an attribute. -/
def isSpecial (c : Char) : Bool := isParenthesis c || c == '='

theorem isSpecial_not_blank (c : Char) (h : isSpecial c = true) : Text.isBlank c = false := by
  simp only [isSpecial, isParenthesis, Bool.or_eq_true, beq_iff_eq] at h
  rcases h with (rfl | rfl) | rfl <;> decide

theorem isParenthesis_not_blank (c : Char) (h : isParenthesis c = true) : Text.isBlank c = false :=
  isSpecial_not_blank c (by simp [isSpecial, h])

variable {c : Criterion} {a : Text}

/-- The name as it is written: its parentheses escaped, then its equal signs. -/
theorem text_of_attribute_escaped (h : c.attribute? = some a) :
    c.text = guarded (· == '=') (guarded isParenthesis a) ++ '=' :: c.body := by
  unfold text attributeText
  rw [h, ← escapeParentheses_eq, ← escape_eq]
  simp [pairSeparator]

/-- Escaping parentheses and then equal signs guards both. -/
theorem guarded_name (a : Text) :
    guarded (· == '=') (guarded isParenthesis a) = guarded isSpecial a := by
  refine guarded_guarded (by decide) (fun x hx => ?_) a
  simp only [isParenthesis, Bool.or_eq_true, beq_iff_eq] at hx
  rcases hx with rfl | rfl <;> decide

theorem text_of_attribute (h : c.attribute? = some a) :
    c.text = guarded isSpecial a ++ '=' :: c.body := by
  rw [text_of_attribute_escaped h, guarded_name]

theorem text_of_none (h : c.attribute? = none) : c.text = c.body := by
  unfold text
  rw [h]

theorem getLast?_text (c : Criterion) : ∃ x, c.text.getLast? = some x ∧ x ∈ lastLetters := by
  obtain ⟨x, hx, hl⟩ := getLast?_body c
  refine ⟨x, ?_, hl⟩
  cases h : c.attribute? with
  | none => rw [text_of_none h, hx]
  | some a => rw [text_of_attribute h, List.getLast?_append, List.getLast?_cons, hx]; rfl

theorem text_ne_nil (c : Criterion) : c.text ≠ [] := by
  intro h
  obtain ⟨x, hx, -⟩ := getLast?_text c
  rw [h] at hx
  cases hx

theorem lastLetters_spec {x : Char} (h : x ∈ lastLetters) : Text.isBlank x = false ∧ x ≠ ']' := by
  simp only [lastLetters, List.mem_cons, List.not_mem_nil, or_false] at h
  rcases h with rfl | rfl | rfl | rfl <;> exact ⟨by decide, by decide⟩

theorem endsBare_body (c : Criterion) : Text.EndsBare c.body := by
  obtain ⟨x, hx, hl⟩ := getLast?_body c
  intro y hy
  rw [hx] at hy
  exact Option.some.inj hy ▸ (lastLetters_spec hl).1

theorem endsBare_text (c : Criterion) : Text.EndsBare c.text := by
  obtain ⟨x, hx, hl⟩ := getLast?_text c
  intro y hy
  rw [hx] at hy
  exact Option.some.inj hy ▸ (lastLetters_spec hl).1

theorem trim_body (c : Criterion) : Text.trim c.body = c.body := by
  obtain ⟨x, hx, hblank, -⟩ := head?_body c
  refine (Text.trim_eq_self_iff _).mpr ⟨fun y hy => ?_, endsBare_body c⟩
  rw [hx] at hy
  exact Option.some.inj hy ▸ hblank

/-- **Blanks in front of a text are blanks in front of the name.** -/
theorem trim_text (c : Criterion) : Text.trim c.text = (c.mapAttribute Text.trimStart).text := by
  cases h : c.attribute? with
  | none =>
    have hself : c.mapAttribute Text.trimStart = c :=
      (mapAttribute_eq_self_iff _ c).mpr fun a ha => by rw [h] at ha; cases ha
    rw [hself, text_of_none h, trim_body]
  | some a =>
    have h' : (c.mapAttribute Text.trimStart).attribute? = some (Text.trimStart a) := by
      rw [attribute?_mapAttribute, h]
      rfl
    have hbare : Text.StartsBare ('=' :: c.body) := Text.startsBare_cons.mpr (by decide)
    rw [Text.trim_of_endsBare (endsBare_text c), text_of_attribute h, text_of_attribute h',
      body_mapAttribute, Text.trimStart_append_of_startsBare hbare,
      trimStart_guarded isSpecial_not_blank]

/-- No parenthesis of a name opens or closes a group. -/
theorem passed_guarded (a : Text) (escaped : Bool) (depth : Nat) :
    (passed true (escaped, depth) (guarded isSpecial a)).2 = depth := by
  induction a generalizing escaped with
  | nil => rfl
  | cons x a ih =>
    rw [guarded_cons, passed_append]
    by_cases hx : isSpecial x = true
    · have hpassed : passed true (escaped, depth) [escapeChar, x] = (x == escapeChar, depth) := by
        rw [passed_cons, passed_cons, nextDepth_escape]
        simp [nextDepth, passed]
      rw [if_pos hx, hpassed]
      exact ih _
    · have hdepth : nextDepth true escaped depth x = depth := by
        simp only [isSpecial, isParenthesis, Bool.or_eq_true, beq_iff_eq, not_or] at hx
        simp [nextDepth, hx]
      rw [if_neg hx, passed_cons, hdepth]
      exact ih _

/-- **What a text opens, it closes, and it leaves no backslash.** -/
theorem isShut_text (c : Criterion) : IsShut true c.text := by
  cases h : c.attribute? with
  | none =>
    rw [text_of_none h]
    exact isShut_body c
  | some a =>
    have hdepth := passed_guarded a false 0
    unfold IsShut
    rw [text_of_attribute h, passed_append, passed_cons]
    have hnext : nextDepth true (passed true (false, 0) (guarded isSpecial a)).1
        (passed true (false, 0) (guarded isSpecial a)).2 '=' = 0 := by
      rw [hdepth]
      simp [nextDepth]
    rw [hnext]
    exact isShut_body c

/-! ## 2. What is found in it -/

/-- A name that is found again in front of its equal sign: it is not blank, and no backslash at its end
takes the equal sign for its own. -/
def IsFound (a : Text) : Prop := Text.allBlank a = false ∧ a.getLast? ≠ some escapeChar

theorem sides_text (h : c.attribute? = some a) (ha : a.getLast? ≠ some escapeChar) :
    sides c.text = [guarded isParenthesis a, c.body] := by
  have hshut : passed false (false, 0) (guarded (· == '=') (guarded isParenthesis a)) =
      (false, 0) := by
    rw [passed_guarded_separator (equalSign_plain false), passed_ungrouped_iff, getLast?_guarded]
    exact ha
  unfold sides
  rw [text_of_attribute_escaped h, fieldsFrom_seam (equalSign_plain false) (false, 0) hshut,
    fieldsFrom_escaped (equalSign_plain false) (false, 0),
    fieldsFrom_of_not_mem (equalSign_plain false) (not_mem_body c).1]
  rfl

/-- A backslash at the end of the name takes the equal sign for its own. -/
theorem equalSigns_text (h : c.attribute? = some a) (ha : a.getLast? = some escapeChar) :
    equalSigns c.text = 0 := by
  have hheld : passed false (false, 0) (guarded isParenthesis a) ≠ (false, 0) := by
    rw [ne_eq, passed_ungrouped_iff, getLast?_guarded, not_not]
    exact ha
  have hlen := length_fieldsFrom_escaped (equalSign_plain false) (false, 0)
    (guarded isParenthesis a) c.body
  rw [if_neg hheld, fieldsFrom_of_not_mem (equalSign_plain false) (not_mem_body c).1,
    ← text_of_attribute_escaped h] at hlen
  have hsides := length_sides c.text
  rw [show (sides c.text).length = 0 + [c.body].length from hlen] at hsides
  simpa using hsides.symm

/-- A name with its parentheses escaped is read as the name without the blanks around it. -/
theorem unescapeParentheses_trim_guarded (a : Text) :
    unescapeParentheses (Text.trim (guarded isParenthesis a)) = Text.trim a := by
  rw [trim_guarded isParenthesis_not_blank, ← escapeParentheses_eq,
    unescapeParentheses_escapeParentheses]

theorem allBlank_guarded (a : Text) :
    Text.allBlank (guarded isParenthesis a) = Text.allBlank a := by
  rw [Bool.eq_iff_iff, ← Text.trim_eq_nil_iff, ← Text.trim_eq_nil_iff]
  constructor
  · intro h
    rw [← unescapeParentheses_trim_guarded, h]
    rfl
  · intro h
    rw [trim_guarded isParenthesis_not_blank, h]
    rfl

theorem body_ne_nil (c : Criterion) : c.body ≠ [] := by
  obtain ⟨x, hx, -⟩ := head?_body c
  intro hnil
  rw [hnil] at hx
  cases hx

/-- **What stands in front of the equal sign of a text, and behind it.** -/
theorem keyedParts?_text (h : c.attribute? = some a) (name body : Text) :
    keyedParts? c.text = some (name, body) ↔ IsFound a ∧ name = Text.trim a ∧ body = c.body := by
  rw [keyedParts?_iff]
  by_cases ha : a.getLast? = some escapeChar
  · constructor
    · rintro ⟨left, right, surplus, hs, -⟩
      have hsigns := hs.equalSigns_eq
      rw [equalSigns_text h ha] at hsigns
      cases hsigns
    · intro hf
      exact absurd ha hf.1.2
  · have hsides := sides_text h ha
    constructor
    · rintro ⟨left, right, surplus, hs, hb, rfl, rfl⟩
      have hs' := hs.sides_eq
      rw [hsides] at hs'
      simp only [List.cons_append, List.nil_append, List.cons.injEq] at hs'
      obtain ⟨rfl, rfl, -⟩ := hs'
      rw [allBlank_guarded] at hb
      exact ⟨⟨hb, ha⟩, unescapeParentheses_trim_guarded a, trim_body c⟩
    · rintro ⟨⟨hb, -⟩, rfl, rfl⟩
      have hdivides := (divides_iff c.text (guarded isParenthesis a) c.body).mpr hsides
      exact ⟨_, _, 0, ⟨c.text, by simp, fun hk => absurd rfl hk, hdivides, body_ne_nil c⟩,
        (allBlank_guarded a).trans hb, (unescapeParentheses_trim_guarded a).symm,
          (trim_body c).symm⟩

theorem mem_text (h : c.attribute? = some a) : '=' ∈ c.text := by
  rw [text_of_attribute h]
  simp

/-- Only its own grammar finds something in a body. -/
theorem grammar_of_matchPieces? {c : Criterion} {g : Grammar} {cs : List Captured}
    (hm : matchPieces? g.pieces c.body = some cs) : g = c.grammar :=
  (opener_of_spells (matchPieces?_sound hm)).symm.trans (opener_body c)

/-- **What is found in the text of a criterion**: its own grammar finds its numbers if they are plain,
and the attribute without the blanks around it. -/
theorem captures_text_iff (c : Criterion) (g : Grammar) (name : Text) (cs : List Captured) :
    g.Captures c.text name cs ↔ g = c.grammar ∧ matchPieces? c.grammar.pieces c.body = some cs ∧
      (∀ a, c.attribute? = some a → IsFound a) ∧ name = (c.attribute?.map Text.trim).getD [] := by
  unfold Captures
  cases h : c.attribute? with
  | none =>
    rw [text_of_none h]
    constructor
    · intro ⟨body, hp, hm⟩
      cases hk : g.keyed with
      | true =>
        rw [parts?_keyed hk] at hp
        obtain ⟨left, right, surplus, hs, -⟩ := (keyedParts?_iff _ _ _).mp hp
        exact absurd hs.equalSign_mem (not_mem_body c).1
      | false =>
        rw [parts?_plain hk, Option.some.injEq, Prod.mk.injEq] at hp
        obtain ⟨rfl, rfl⟩ := hp
        have hg := grammar_of_matchPieces? hm
        exact ⟨hg, hg ▸ hm, by simp, rfl⟩
    · rintro ⟨rfl, hm, -, rfl⟩
      have hk : c.grammar.keyed = false := by rw [keyed_grammar, h]; rfl
      exact ⟨c.body, parts?_plain hk _, hm⟩
  | some a =>
    constructor
    · intro ⟨body, hp, hm⟩
      cases hk : g.keyed with
      | false =>
        rw [parts?_plain hk, Option.some.injEq, Prod.mk.injEq] at hp
        obtain ⟨rfl, rfl⟩ := hp
        exact absurd (mem_text h)
          (not_mem_of_spells (lacksEqualSign_pieces g) (matchPieces?_sound hm))
      | true =>
        rw [parts?_keyed hk] at hp
        obtain ⟨hf, rfl, rfl⟩ := (keyedParts?_text h name body).mp hp
        have hg := grammar_of_matchPieces? hm
        exact ⟨hg, hg ▸ hm, fun b hb => Option.some.inj hb ▸ hf, rfl⟩
    · rintro ⟨rfl, hm, hf, rfl⟩
      have hk : c.grammar.keyed = true := by rw [keyed_grammar, h]; rfl
      exact ⟨c.body, (parts?_keyed hk _).trans ((keyedParts?_text h _ _).mpr ⟨hf a rfl, rfl, rfl⟩),
        hm⟩

/-! ## 3. Which criterion it is read as -/

theorem isFound_trimStart (a : Text) : IsFound (Text.trimStart a) ↔ IsFound a := by
  unfold IsFound
  rw [Text.allBlank_trimStart]
  refine and_congr_right fun hb => ?_
  rw [Text.getLast?_trimStart hb]

/-- **The text of a criterion is read as this criterion, with the blanks around its attribute gone**, if
its numbers are plain and its attribute is found. -/
theorem parse_text_iff (index : Int) (c c' : Criterion) :
    parse Grammar.all index c.text = .ok c' ↔ c.hasPlainNumbers = true ∧
      (∀ a, c.attribute? = some a → IsFound a) ∧ c' = c.mapAttribute Text.trim := by
  have hname : ∀ name, name = ((c.mapAttribute Text.trimStart).attribute?.map Text.trim).getD [] →
      (c.mapAttribute fun _ => name) = c.mapAttribute Text.trim := by
    rintro _ rfl
    refine mapAttribute_congr fun a ha => ?_
    rw [attribute?_mapAttribute, ha]
    exact Text.trim_trimStart a
  rw [parse_ok_iff mem_all nodup_all, trim_text]
  simp only [captures_text_iff, grammar_mapAttribute, body_mapAttribute]
  constructor
  · rintro ⟨g, name, cs, ⟨rfl, hm, hf, hn⟩, hmakes, hl⟩
    have hplain := hasPlainNumbers_of_matchPieces? hm hl
    refine ⟨hplain, fun a ha => ?_, ?_⟩
    · refine (isFound_trimStart a).mp (hf _ ?_)
      rw [attribute?_mapAttribute, ha]
      rfl
    · obtain ⟨cs', hm', -, hmakes'⟩ := captured_of_hasPlainNumbers hplain
      rw [hm] at hm'
      obtain rfl := Option.some.inj hm'
      rw [makes_unique hmakes (hmakes' name), hname name hn]
  · rintro ⟨hplain, hf, rfl⟩
    obtain ⟨cs, hm, hl, hmakes⟩ := captured_of_hasPlainNumbers hplain
    refine ⟨_, _, cs, ⟨rfl, hm, fun a ha => ?_, rfl⟩, ?_, hl⟩
    · rw [attribute?_mapAttribute, Option.map_eq_some_iff] at ha
      obtain ⟨b, hb, rfl⟩ := ha
      exact (isFound_trimStart b).mpr (hf b hb)
    · rw [← hname _ rfl]
      exact hmakes _

theorem keepsForm_iff (a : Text) : keepsForm a = true ↔ IsFound a ∧ Text.trim a = a := by
  unfold keepsForm IsFound
  simp only [Bool.and_eq_true, Bool.not_eq_true', List.isEmpty_eq_false_iff, beq_iff_eq, bne_iff_ne]
  have hblank : Text.trim a = a → (Text.allBlank a = false ↔ a ≠ []) := by
    intro ht
    rw [← Bool.not_eq_true, ← Text.trim_eq_nil_iff, ht]
  constructor
  · intro ⟨⟨hne, ht⟩, hlast⟩
    exact ⟨⟨(hblank ht).mpr hne, hlast⟩, ht⟩
  · intro ⟨⟨hb, hlast⟩, ht⟩
    exact ⟨⟨(hblank ht).mp hb, ht⟩, hlast⟩

theorem isCanonical_iff (c : Criterion) : c.isCanonical = true ↔
    c.hasPlainNumbers = true ∧ ∀ a, c.attribute? = some a → keepsForm a = true := by
  unfold isCanonical
  rw [Bool.and_eq_true]
  cases c.attribute? <;> simp

/-- **A criterion is read from its text again exactly when it is canonical.** -/
theorem parse_text_self_iff (index : Int) (c : Criterion) :
    parse Grammar.all index c.text = .ok c ↔ c.isCanonical = true := by
  rw [parse_text_iff, isCanonical_iff, eq_comm (a := c), mapAttribute_eq_self_iff]
  simp only [keepsForm_iff]
  constructor
  · intro ⟨hplain, hf, ht⟩
    exact ⟨hplain, fun a ha => ⟨hf a ha, ht a ha⟩⟩
  · intro ⟨hplain, h⟩
    exact ⟨hplain, fun a ha => (h a ha).1, fun a ha => (h a ha).2⟩

end Anonymization.Criterion
