import Anonymization.Proofs.Criterion.Rendering
/-!
# Lists of criteria, written and read

* `split_listText` -- the tokens of a list that was written are the texts of its criteria;
* `unbracketed_prefix`, `unbracketed_listText` -- what is taken away in front belongs to the first name;
* `parseList_listText_iff` -- **a list is read again exactly when its criteria are canonical** and no
  bracket stands in front;
* `parse_gives` -- what any token that is a criterion gives; `parseOption_reread_iff` -- **which of
  the lists that are read can be written and read again**.
-/

namespace Anonymization.Criterion

open Anonymization.Field Anonymization.Grammar

/-! ## 1. Tokens -/

section

variable {separator : Char}

/-- What stands behind the first criterion of a list. -/
def listTail (separator : Char) (cs : List Criterion) : Text :=
  if cs = [] then [] else separator :: listText [separator] cs

theorem listText_cons (separator : Char) (c : Criterion) (cs : List Criterion) :
    listText [separator] (c :: cs) = guarded (· == separator) c.text ++ listTail separator cs := by
  unfold listTail
  cases cs with
  | nil =>
    show escape [separator] c.text = _
    rw [escape_eq, if_pos rfl, List.append_nil]
  | cons c' cs =>
    rw [if_neg (by simp)]
    exact joined_cons c.text c'.text (cs.map text)

/-- **The tokens of a list are the texts of its criteria.** -/
theorem split_listText (hs : IsPlainSeparator separator true) (cs : List Criterion) :
    split [separator] true (listText [separator] cs) = cs.map text := by
  refine split_joined hs (fun t ht => ?_) (fun t ht => ?_)
  · obtain ⟨c, -, rfl⟩ := List.mem_map.mp ht
    exact isShut_text c
  · obtain ⟨c, -, rfl⟩ := List.mem_map.mp ht
    exact text_ne_nil c

theorem getLast?_listText (separator : Char) (c : Criterion) (cs : List Criterion) :
    ∃ x, (listText [separator] (c :: cs)).getLast? = some x ∧ x ∈ lastLetters := by
  induction cs generalizing c with
  | nil =>
    obtain ⟨x, hx, hl⟩ := getLast?_text c
    refine ⟨x, ?_, hl⟩
    rw [listText_cons, listTail, if_pos rfl, List.append_nil, getLast?_guarded, hx]
  | cons c' cs ih =>
    obtain ⟨x, hx, hl⟩ := ih c'
    refine ⟨x, ?_, hl⟩
    rw [listText_cons, listTail, if_neg (by simp), List.getLast?_append, List.getLast?_cons, hx]
    rfl

end

/-! ## 2. What is taken away in front -/

/-- The text without a bracket in front. -/
def withoutOpening (t : Text) : Text :=
  if t.head? = some '[' then t.tail else t

/-- The text without a bracket at its end. -/
def withoutClosing (t : Text) : Text :=
  if t.getLast? = some ']' then t.dropLast else t

theorem unbracketed_eq (t : Text) :
    unbracketed t = Text.trim (withoutClosing (withoutOpening (Text.trim t))) := by
  unfold unbracketed withoutClosing
  simp only
  cases Text.trim t with
  | nil => rfl
  | cons y rest =>
    by_cases hy : y = '['
    · subst hy
      rfl
    · have hopening : withoutOpening (y :: rest) = y :: rest := by simp [withoutOpening, hy]
      rw [hopening]
      split
      · next h => exact absurd (List.cons.inj h).1 hy
      · rfl

/-- Nothing comes to stand at the end of a text whose bracket in front is taken away. -/
theorem getLast?_withoutOpening {x : Char} {t : Text} (h : (withoutOpening t).getLast? = some x) :
    t.getLast? = some x := by
  unfold withoutOpening at h
  split at h
  · cases t with
    | nil => exact h
    | cons y rest => rw [List.getLast?_cons, show rest.getLast? = some x from h]; rfl
  · exact h

/-- A text without a bracket at its end is only trimmed, and freed of one in front. -/
theorem unbracketed_of_trim {t s : Text} (ht : Text.trim t = s) (hlast : s.getLast? ≠ some ']') :
    unbracketed t = Text.trim (withoutOpening s) := by
  rw [unbracketed_eq, ht, withoutClosing, if_neg fun h => hlast (getLast?_withoutOpening h)]

/-- What stands behind a part of a text ends as the text does. -/
theorem getLast?_of_append {x y : Char} {w s : Text} (h : (w ++ s).getLast? = some x)
    (hy : s.getLast? = some y) :
    y = x := by
  rw [List.getLast?_append, hy] at h
  exact Option.some.inj h

/-- **Of a text that ends with neither a blank nor a bracket, only blanks and a bracket in front are
taken away.** -/
theorem unbracketed_prefix {t : Text} {x : Char} (hx : t.getLast? = some x)
    (hb : Text.isBlank x = false) (hne : x ≠ ']') :
    ∃ w, t = w ++ unbracketed t ∧ (∀ y ∈ w, Text.isBlank y = true ∨ y = '[') ∧
      (t.head? = some '[' → w ≠ []) := by
  have hends : ∀ w s, t = w ++ s → Text.EndsBare s := by
    intro w s ht y hy
    rw [ht] at hx
    rw [getLast?_of_append hx hy]
    exact hb
  obtain ⟨b, hblank, ht⟩ := Text.trimStart_append t
  have htrim : Text.trim t = Text.trimStart t := Text.trim_of_endsBare (hends [] t rfl)
  have hbracket : (Text.trimStart t).getLast? ≠ some ']' := by
    intro h
    rw [ht] at hx
    exact hne (getLast?_of_append hx h).symm
  rw [unbracketed_of_trim htrim hbracket]
  by_cases hhead : (Text.trimStart t).head? = some '['
  · obtain ⟨rest, hrest⟩ := List.head?_eq_some_iff.mp hhead
    have hsplit : t = b ++ ['['] ++ rest := by
      rw [List.append_assoc, List.singleton_append, ← hrest]
      exact ht
    obtain ⟨b', hblank', hr⟩ := Text.trimStart_append rest
    refine ⟨b ++ ['['] ++ b', ?_, ?_, by simp⟩
    · rw [withoutOpening, if_pos hhead, hrest, List.tail_cons,
        Text.trim_of_endsBare (hends _ _ hsplit), List.append_assoc, ← hr]
      exact hsplit
    · intro y hy
      rw [List.mem_append, List.mem_append, List.mem_singleton] at hy
      rcases hy with (hy | hy) | hy
      · exact .inl (hblank y hy)
      · exact .inr hy
      · exact .inl (hblank' y hy)
  · refine ⟨b, ?_, fun y hy => .inl (hblank y hy), ?_⟩
    · rw [withoutOpening, if_neg hhead, ← htrim, Text.trim_trim, htrim]
      exact ht
    · intro h hnil
      rw [hnil, List.nil_append] at ht
      rw [← ht] at hhead
      exact hhead h

/-- The part of a guarded text that holds no backslash is a part of the text. -/
theorem guarded_append_eq {p : Char → Bool} {t rest w v : Text} (h : guarded p t ++ rest = w ++ v)
    (hw : ∀ x ∈ w, x ≠ escapeChar ∧ rest.head? ≠ some x) :
    ∃ t', t = w ++ t' ∧ v = guarded p t' ++ rest := by
  induction w generalizing t with
  | nil => exact ⟨t, rfl, h.symm⟩
  | cons x w ih =>
    obtain ⟨hx, hhead⟩ := hw x List.mem_cons_self
    cases t with
    | nil =>
      rw [guarded_nil, List.nil_append] at h
      rw [h] at hhead
      exact absurd rfl hhead
    | cons c t =>
      rw [guarded_cons] at h
      split at h
      · exact absurd (List.cons.inj h).1.symm hx
      · obtain ⟨rfl, h'⟩ := List.cons.inj h
        obtain ⟨t', rfl, hv⟩ := ih h' fun y hy => hw y (List.mem_cons_of_mem _ hy)
        exact ⟨t', rfl, hv⟩

section

variable {separator : Char}

/-- Blanks and brackets are not guarded characters, and no backslash either. -/
theorem not_taken {y : Char} (h : Text.isBlank y = true ∨ y = '[') : y ≠ escapeChar ∧ y ≠ '=' := by
  refine ⟨?_, ?_⟩ <;> (rintro rfl; rcases h with h | h <;> exact absurd h (by decide))

/-- The head of a guarded text with another one behind it. -/
theorem head?_guarded_cons (p : Char → Bool) (c : Char) (t rest : Text) :
    (guarded p (c :: t) ++ rest).head? = some (if p c then escapeChar else c) := by
  rw [guarded_cons]
  split <;> rfl

/-- What is taken away in front of a list that was written: blanks and a bracket. -/
theorem unbracketed_listText_prefix (separator : Char) (c : Criterion) (cs : List Criterion) :
    ∃ w, listText [separator] (c :: cs) = w ++ unbracketed (listText [separator] (c :: cs)) ∧
      (∀ y ∈ w, Text.isBlank y = true ∨ y = '[') ∧
      ((listText [separator] (c :: cs)).head? = some '[' → w ≠ []) := by
  obtain ⟨x, hx, hl⟩ := getLast?_listText separator c cs
  exact unbracketed_prefix hx (lastLetters_spec hl).1 (lastLetters_spec hl).2

/-- Nothing is taken away in front of a body, which begins with neither a blank nor a bracket. -/
theorem unbracketed_listText_of_none {c : Criterion} (h : c.attribute? = none)
    (cs : List Criterion) :
    unbracketed (listText [separator] (c :: cs)) = listText [separator] (c :: cs) := by
  obtain ⟨w, hw, htaken, -⟩ := unbracketed_listText_prefix separator c cs
  cases w with
  | nil => exact hw.symm
  | cons y w =>
    have hy := htaken y List.mem_cons_self
    obtain ⟨z, hz, hblank, hne⟩ := head?_body c
    obtain ⟨rest, hbody⟩ := List.head?_eq_some_iff.mp hz
    have hhead := congrArg List.head? hw
    rw [listText_cons, text_of_none h, hbody, head?_guarded_cons] at hhead
    have hy' : (if z == separator then escapeChar else z) = y := Option.some.inj hhead
    split at hy'
    · exact absurd hy'.symm (not_taken hy).1
    · rw [← hy'] at hy
      rcases hy with hy | hy
      · rw [hblank] at hy
        cases hy
      · exact absurd hy hne

/-- In front of an attribute, so many of its characters are taken away. -/
theorem unbracketed_listText_of_some (hs : separator ≠ '[') {c : Criterion} {a : Text}
    (h : c.attribute? = some a) (cs : List Criterion) :
    ∃ k, unbracketed (listText [separator] (c :: cs)) =
      listText [separator] (c.mapAttribute (List.drop k) :: cs) ∧
      (a.head? = some '[' → k ≠ 0) ∧ (Text.StartsBare a → a.head? ≠ some '[' → k = 0) := by
  obtain ⟨w, hw, htaken, hbracket⟩ := unbracketed_listText_prefix separator c cs
  have htext : listText [separator] (c :: cs) =
      guarded (· == separator) (guarded isSpecial a) ++
        (guarded (· == separator) ('=' :: c.body) ++ listTail separator cs) := by
    rw [listText_cons, text_of_attribute h, guarded_append, List.append_assoc]
  have hrest : ∀ y ∈ w, y ≠ escapeChar ∧
      (guarded (· == separator) ('=' :: c.body) ++ listTail separator cs).head? ≠ some y := by
    intro y hy
    obtain ⟨h1, h2⟩ := not_taken (htaken y hy)
    refine ⟨h1, fun hhead => ?_⟩
    rw [head?_guarded_cons] at hhead
    have hy' := Option.some.inj hhead
    split at hy'
    · exact h1 hy'.symm
    · exact h2 hy'.symm
  -- what is taken away stands in the text of the attribute, and so in the attribute
  rw [htext] at hw
  obtain ⟨t', ht', hv⟩ := guarded_append_eq hw hrest
  rw [← List.append_nil (guarded isSpecial a)] at ht'
  obtain ⟨a', rfl, ha'⟩ := guarded_append_eq ht' fun y hy => ⟨(hrest y hy).1, by simp⟩
  rw [List.append_nil] at ha'
  have h' : (c.mapAttribute (List.drop w.length)).attribute? = some a' := by
    rw [attribute?_mapAttribute, h, Option.map_some, List.drop_left]
  refine ⟨w.length, ?_, fun hhead hlen => ?_, fun hbare hhead => ?_⟩
  · rw [htext, hv, listText_cons, text_of_attribute h', body_mapAttribute, guarded_append,
      List.append_assoc, ha']
  · have hnil : w = [] := List.length_eq_zero_iff.mp hlen
    obtain ⟨rest, ha⟩ := List.head?_eq_some_iff.mp hhead
    have hsep : ('[' == separator) = false := by simpa using fun e => hs e.symm
    refine hbracket ?_ hnil
    rw [htext, ha, guarded_cons, if_neg (by decide), List.singleton_append, head?_guarded_cons,
      hsep]
    rfl
  · cases w with
    | nil => rfl
    | cons y w =>
      rcases htaken y List.mem_cons_self with hy | hy
      · rw [Text.startsBare_cons.mp hbare] at hy
        cases hy
      · exact absurd (by rw [hy]; rfl) hhead

/-- **What is taken away in front of a list that was written belongs to the first attribute.** -/
theorem unbracketed_listText (hs : separator ≠ '[') (c : Criterion) (cs : List Criterion) :
    ∃ k, unbracketed (listText [separator] (c :: cs)) =
      listText [separator] (c.mapAttribute (List.drop k) :: cs) ∧
      ∀ a, c.attribute? = some a →
        (a.head? = some '[' → k ≠ 0) ∧ (Text.StartsBare a → a.head? ≠ some '[' → k = 0) := by
  cases h : c.attribute? with
  | none =>
    have hself : c.mapAttribute (List.drop 0) = c := by
      refine (mapAttribute_eq_self_iff _ c).mpr fun a ha => ?_
      rw [h] at ha
      cases ha
    refine ⟨0, ?_, fun a ha => by cases ha⟩
    rw [hself]
    exact unbracketed_listText_of_none h cs
  | some a =>
    obtain ⟨k, hk, hhead⟩ := unbracketed_listText_of_some hs h cs
    refine ⟨k, hk, fun b hb => ?_⟩
    rw [← Option.some.inj hb]
    exact hhead

end

/-! ## 3. Written and read again -/

/-- The tokens of a list are read one by one, whatever their places. -/
theorem parseTokens_ok_iff (index : Int) (ts : List Text) (cs : List Criterion) :
    parseTokens Grammar.all index ts = .ok cs ↔
      List.Forall₂ (fun t c => parse Grammar.all 0 t = .ok c) ts cs := by
  induction ts generalizing index cs with
  | nil =>
    rw [List.forall₂_nil_left_iff]
    exact ⟨fun h => (Except.ok.inj h).symm, fun h => by rw [h]; rfl⟩
  | cons t ts ih =>
    have hplace : ∀ c, parse Grammar.all index t = .ok c ↔ parse Grammar.all 0 t = .ok c := by
      intro c
      rw [parse_ok_iff mem_all nodup_all, parse_ok_iff mem_all nodup_all]
    rw [parseTokens, Outcome.bind_ok_iff, List.forall₂_cons_left_iff]
    constructor
    · intro ⟨c, hc, h⟩
      obtain ⟨cs', hcs', h⟩ := (Outcome.bind_ok_iff _ _ _).mp h
      exact ⟨c, cs', (hplace c).mp hc, (ih _ cs').mp hcs', (Except.ok.inj h).symm⟩
    · rintro ⟨c, cs', hc, hcs', rfl⟩
      exact ⟨c, (hplace c).mpr hc, (Outcome.bind_ok_iff _ _ _).mpr ⟨cs', (ih _ cs').mpr hcs', rfl⟩⟩

/-- The list of criteria is read, and what is read is related to it place by place. -/
def RereadAs (R : Criterion → Criterion → Prop) (separator : Text) (cs : List Criterion) : Prop :=
  ∃ cs', parseList Grammar.all separator (listText separator cs) = .ok cs' ∧ List.Forall₂ R cs' cs

theorem rereadAs_eq_iff (separator : Text) (cs : List Criterion) :
    RereadAs Eq separator cs ↔
      parseList Grammar.all separator (listText separator cs) = .ok cs := by
  unfold RereadAs
  simp [List.forall₂_eq_eq_eq]

/-- A way to be equal that tells attributes apart. -/
structure TellsAttributes (R : Criterion → Criterion → Prop) : Prop where
  refl : ∀ c, c.hasPlainNumbers = true → R c c
  tells : ∀ f c, R (c.mapAttribute f) c → c.mapAttribute f = c

theorem tellsAttributes_eq : TellsAttributes Eq where
  refl _ _ := rfl
  tells _ _ h := h

theorem sameNumber_self {x : Binary64} (h : x.isFinite = true) : x.sameNumber x = true := by
  cases x with
  | finite negative rank => simp [Binary64.sameNumber]
  | infinite negative => cases h
  | nan => cases h

theorem tellsAttributes_same : TellsAttributes fun c' c => same c' c = true := by
  constructor
  · intro c h
    cases c <;> simp_all [same, hasPlainNumbers, sameNumber_self]
  · intro f c h
    rw [mapAttribute_eq_self_iff]
    cases c <;> simp_all [same, mapAttribute, attribute?]

/-- A criterion is read from its text as an equal one exactly when it is canonical. -/
theorem reread_iff {R : Criterion → Criterion → Prop} (hR : TellsAttributes R) (index : Int)
    (c : Criterion) :
    (∃ c', parse Grammar.all index c.text = .ok c' ∧ R c' c) ↔ c.isCanonical = true := by
  constructor
  · intro ⟨c', hc', hr⟩
    have hself := ((parse_text_iff index c c').mp hc').2.2
    rw [hself] at hr
    rw [hself, hR.tells _ c hr] at hc'
    exact (parse_text_self_iff index c).mp hc'
  · intro h
    exact ⟨c, (parse_text_self_iff index c).mpr h, hR.refl c ((isCanonical_iff c).mp h).1⟩

theorem reread_rest_iff {R : Criterion → Criterion → Prop} (hR : TellsAttributes R)
    (cs : List Criterion) :
    (∃ cs', List.Forall₂ (fun t c => parse Grammar.all 0 t = .ok c) (cs.map text) cs' ∧
      List.Forall₂ R cs' cs) ↔
      ∀ c ∈ cs, c.isCanonical = true := by
  induction cs with
  | nil => simp
  | cons c cs ih =>
    rw [List.forall_mem_cons, ← ih, ← reread_iff hR 0, List.map_cons]
    constructor
    · intro ⟨_, h, hr⟩
      obtain ⟨c', cs', hc, hcs, rfl⟩ := List.forall₂_cons_left_iff.mp h
      obtain ⟨hr1, hr2⟩ := List.forall₂_cons.mp hr
      exact ⟨⟨c', hc, hr1⟩, cs', hcs, hr2⟩
    · intro ⟨⟨c', hc, hr1⟩, cs', hcs, hr2⟩
      exact ⟨c' :: cs', .cons hc hcs, .cons hr1 hr2⟩

/-- The same of the first criterion of a list, of whose attribute something may be taken away. -/
theorem reread_first_iff {R : Criterion → Criterion → Prop} (hR : TellsAttributes R) {c : Criterion}
    {k : Nat} (hk : ∀ a, c.attribute? = some a →
      (a.head? = some '[' → k ≠ 0) ∧ (Text.StartsBare a → a.head? ≠ some '[' → k = 0)) :
    (∃ c', parse Grammar.all 0 (c.mapAttribute (List.drop k)).text = .ok c' ∧ R c' c) ↔
      c.isCanonical = true ∧ ∀ a, c.attribute? = some a → a.head? ≠ some '[' := by
  -- either way nothing is taken away
  have hself : (∀ a, c.attribute? = some a → k = 0) → c.mapAttribute (List.drop k) = c := by
    intro h0
    refine (mapAttribute_eq_self_iff _ c).mpr fun a ha => ?_
    rw [h0 a ha, List.drop_zero]
  constructor
  · intro ⟨c', hc', hr⟩
    obtain ⟨-, hf, hc⟩ := (parse_text_iff 0 _ c').mp hc'
    have hr' := hr
    rw [hc, mapAttribute_mapAttribute] at hr'
    have htrim := (mapAttribute_eq_self_iff _ c).mp (hR.tells _ c hr')
    have h0 : ∀ a, c.attribute? = some a → k = 0 := by
      intro a ha
      have hblank := (hf (a.drop k) (by rw [attribute?_mapAttribute, ha]; rfl)).1
      have hlen := congrArg List.length (htrim a ha)
      have hle := Text.length_trim_le (a.drop k)
      have hpos : a.length ≠ 0 := by
        intro hz
        rw [List.length_eq_zero_iff.mp hz, List.drop_nil] at hblank
        cases hblank
      rw [List.length_drop] at hle
      omega
    rw [hself h0] at hc'
    exact ⟨(reread_iff hR 0 c).mp ⟨c', hc', hr⟩, fun a ha hhead => (hk a ha).1 hhead (h0 a ha)⟩
  · intro ⟨hcanonical, hhead⟩
    have h0 : ∀ a, c.attribute? = some a → k = 0 := by
      intro a ha
      obtain ⟨-, ht⟩ := (keepsForm_iff a).mp (((isCanonical_iff c).mp hcanonical).2 a ha)
      exact (hk a ha).2 ((Text.trim_eq_self_iff a).mp ht).1 (hhead a ha)
    rw [hself h0]
    exact (reread_iff hR 0 c).mpr hcanonical

/-- No bracket stands in front of the first attribute of a list. -/
def IsUnbracketed (cs : List Criterion) : Prop :=
  ∀ c a, cs.head? = some c → c.attribute? = some a → a.head? ≠ some '['

/-- **A list is read again exactly when its criteria are canonical** and no bracket stands in front. -/
theorem rereadAs_iff {R : Criterion → Criterion → Prop} (hR : TellsAttributes R) {separator : Char}
    (hs : IsPlainSeparator separator true) (hbracket : separator ≠ '[') (cs : List Criterion) :
    RereadAs R [separator] cs ↔ (∀ c ∈ cs, c.isCanonical = true) ∧ IsUnbracketed cs := by
  cases cs with
  | nil =>
    have hnil : parseList Grammar.all [separator] (listText [separator] []) = .ok [] := by
      show parseTokens Grammar.all 0 (split [separator] true (listText [separator] [])) = .ok []
      rw [split_listText hs]
      rfl
    exact ⟨fun _ => ⟨by simp, by simp [IsUnbracketed]⟩, fun _ => ⟨[], hnil, .nil⟩⟩
  | cons c cs =>
    obtain ⟨k, hk, hfirst⟩ := unbracketed_listText hbracket c cs
    have hlist : ∀ cs',
        parseList Grammar.all [separator] (listText [separator] (c :: cs)) = .ok cs' ↔
        List.Forall₂ (fun t c => parse Grammar.all 0 t = .ok c)
          ((c.mapAttribute (List.drop k)).text :: cs.map text) cs' := by
      intro cs'
      unfold parseList
      rw [hk, split_listText hs, parseTokens_ok_iff, List.map_cons]
    have hhead : IsUnbracketed (c :: cs) ↔ ∀ a, c.attribute? = some a → a.head? ≠ some '[' := by
      constructor
      · intro h a
        exact h c a rfl
      · rintro h _ a ⟨⟩
        exact h a
    rw [List.forall_mem_cons, hhead, and_assoc, and_comm (a := ∀ x ∈ cs, _), ← and_assoc,
      ← reread_first_iff hR hfirst, ← reread_rest_iff hR cs]
    unfold RereadAs
    simp only [hlist]
    constructor
    · intro ⟨_, h, hr⟩
      obtain ⟨c', cs', hc, hcs, rfl⟩ := List.forall₂_cons_left_iff.mp h
      obtain ⟨hr1, hr2⟩ := List.forall₂_cons.mp hr
      exact ⟨⟨c', hc, hr1⟩, cs', hcs, hr2⟩
    · intro ⟨⟨c', hc, hr1⟩, cs', hcs, hr2⟩
      exact ⟨c' :: cs', .cons hc hcs, .cons hr1 hr2⟩

/-- **A list of criteria is written and read again as it was**, or as one equal by value, **exactly when
its criteria are canonical** and no bracket stands in front of the first attribute. -/
theorem parseList_listText_iff {separator : Char} (h1 : separator ≠ '\\') (h2 : separator ≠ '(')
    (h3 : separator ≠ ')') (h4 : separator ≠ '[') (cs : List Criterion) :
    (parseList Grammar.all [separator] (listText [separator] cs) = .ok cs ↔
        (∀ c ∈ cs, c.isCanonical = true) ∧ IsUnbracketed cs) ∧
      (RereadAs (fun c' c => same c' c = true) [separator] cs ↔
        (∀ c ∈ cs, c.isCanonical = true) ∧ IsUnbracketed cs) := by
  have hs : IsPlainSeparator separator true := ⟨h1, fun _ => ⟨h2, h3⟩⟩
  rw [← rereadAs_eq_iff]
  exact ⟨rereadAs_iff tellsAttributes_eq hs h4 cs, rereadAs_iff tellsAttributes_same hs h4 cs⟩

/-- Names with a separator, an equal sign and a parenthesis in them. -/
theorem parseList_two_criteria :
    parseList Grammar.all [';'] (listText [';']
      [.distinctLDiversity "a;=(".toList 2, .kAnonymity 5, .distinctLDiversity "[b".toList 3]) =
      .ok [.distinctLDiversity "a;=(".toList 2, .kAnonymity 5,
        .distinctLDiversity "[b".toList 3] := by
  refine (parseList_listText_iff (by decide) (by decide) (by decide) (by decide) _).1.mpr ⟨?_, ?_⟩
  · decide
  · rintro _ a ⟨⟩ ⟨⟩
    decide

/-! ## 4. What is read can be written -/

/-- No number of the criterion is infinite, and no backslash stands at the end of its attribute. -/
structure IsWritable (c : Criterion) : Prop where
  numbers : ∀ x, .number x ∈ c.quantities → ∀ negative, x ≠ .infinite negative
  attribute_end : ∀ a, c.attribute? = some a → a.getLast? ≠ some '\\'

theorem value_cases (w : Numeral.Written) :
    w.value.isFinite = true ∨ ∃ negative, w.value = .infinite negative := by
  unfold Numeral.Written.value
  simp only
  rcases Binary64.ofDecimal_cases (Text.digitsValue (w.whole ++ w.fraction))
    ((if w.exponentNegative then -(Text.digitsValue w.exponent : Int) else Text.digitsValue w.exponent) -
      w.fraction.length) with ⟨r, hr⟩ | hinf
  · rw [hr]
    exact .inl rfl
  · rw [hinf]
    exact .inr ⟨_, rfl⟩

/-- Digits that keep the limit denote a number whose digits keep it. -/
theorem isPlainWhole_digitsValue {digits : Text} (h : digits.length ≤ Numeral.digitLimit) :
    isPlainWhole (Text.digitsValue digits) = true := by
  have hlen : (Numeral.decimalText (Text.digitsValue digits)).length ≤ Numeral.digitLimit := by
    by_cases hnil : digits = []
    · rw [hnil]
      decide
    · exact (Numeral.length_decimalText_digitsValue hnil).trans h
  simp only [isPlainWhole, Bool.and_eq_true, decide_eq_true_eq]
  exact ⟨Int.natCast_nonneg _, hlen⟩

theorem denotes_of_makes {g : Grammar} {a : Text} {cs : List Captured} {c : Criterion}
    (h : Makes g a cs c) :
    List.Forall₂ Quantity.Denotes c.quantities cs ∧
      c.attribute? = if g.keyed then some a else none := by
  cases h with
  | kAnonymity | distinctLDiversity => exact ⟨.cons (.whole _) .nil, rfl⟩
  | inclusion => exact ⟨.nil, rfl⟩
  | dPresence => exact ⟨.cons (.number _) (.cons (.number _) .nil), rfl⟩
  | recursiveLDiversity => exact ⟨.cons (.number _) (.cons (.whole _) .nil), rfl⟩
  | entropyLDiversity | hierarchicalTCloseness | equalTCloseness =>
    exact ⟨.cons (.number _) .nil, rfl⟩

theorem plain_of_denotes {qs : List Quantity} {cs : List Captured}
    (h : List.Forall₂ Quantity.Denotes qs cs) (hl : KeepsLimit cs) :
    ∀ q ∈ qs, q.isPlain = true ∨ ∃ negative, q = .number (.infinite negative) := by
  induction h with
  | nil => simp
  | cons hd _ ih =>
    intro q hq
    cases hd with
    | whole digits =>
      obtain ⟨hlen, hl'⟩ := (keepsLimit_cons_whole _ _).mp hl
      rcases List.mem_cons.mp hq with rfl | hq
      · exact .inl (isPlainWhole_digitsValue hlen)
      · exact ih hl' q hq
    | number w =>
      rcases List.mem_cons.mp hq with rfl | hq
      · rcases value_cases w with hw | ⟨negative, hw⟩
        · exact .inl hw
        · exact .inr ⟨negative, by rw [hw]⟩
      · exact ih ((keepsLimit_cons_number _ _).mp hl) q hq

/-- **What any token that is a criterion gives**: numbers that are plain unless they are infinite, and an
attribute that is not empty and has no blanks around it. -/
theorem parse_gives {index : Int} {t : Text} {c : Criterion}
    (h : parse Grammar.all index t = .ok c) :
    (∀ q ∈ c.quantities, q.isPlain = true ∨ ∃ negative, q = .number (.infinite negative)) ∧
      ∀ a, c.attribute? = some a → a ≠ [] ∧ Text.trim a = a := by
  obtain ⟨g, name, cs, ⟨body, hp, -⟩, hmakes, hl⟩ := (parse_ok_iff mem_all nodup_all index t c).mp h
  obtain ⟨hd, hattribute⟩ := denotes_of_makes hmakes
  refine ⟨plain_of_denotes hd hl, fun a ha => ?_⟩
  rw [hattribute] at ha
  cases hk : g.keyed with
  | false =>
    rw [hk] at ha
    cases ha
  | true =>
    rw [hk] at ha
    obtain rfl := Option.some.inj ha
    rw [parts?_keyed hk] at hp
    obtain ⟨left, right, surplus, -, hb, rfl, -⟩ := (keyedParts?_iff _ _ _).mp hp
    refine ⟨unescapeParentheses_ne_nil fun hnil => ?_,
      trim_unescapeParentheses (Text.trim_trim left)⟩
    rw [(Text.trim_eq_nil_iff left).mp hnil] at hb
    cases hb

/-- **Of the criteria that are read, the writable ones are canonical.** -/
theorem isCanonical_iff_isWritable {index : Int} {t : Text} {c : Criterion}
    (h : parse Grammar.all index t = .ok c) :
    c.isCanonical = true ↔ IsWritable c := by
  obtain ⟨hnumbers, hattribute⟩ := parse_gives h
  rw [isCanonical_iff, hasPlainNumbers_iff]
  constructor
  · intro ⟨hplain, hkeeps⟩
    refine ⟨fun x hx negative hinf => ?_,
      fun a ha hlast => ((keepsForm_iff a).mp (hkeeps a ha)).1.2 hlast⟩
    have hx' := hplain _ hx
    rw [hinf] at hx'
    cases hx'
  · intro ⟨hfinite, hend⟩
    refine ⟨fun q hq => ?_, fun a ha => ?_⟩
    · rcases hnumbers q hq with hplain | ⟨negative, rfl⟩
      · exact hplain
      · exact absurd rfl (hfinite _ hq negative)
    · obtain ⟨hne, htrim⟩ := hattribute a ha
      refine (keepsForm_iff a).mpr ⟨⟨?_, hend a ha⟩, htrim⟩
      rw [← Bool.not_eq_true, ← Text.trim_eq_nil_iff, htrim]
      exact hne

theorem listSeparator_plain : IsPlainSeparator ',' true :=
  ⟨by decide, fun _ => ⟨by decide, by decide⟩⟩

/-- The criteria of an option, each of them a token that was read. -/
theorem mem_of_parseOption {t : Text} {cs : List Criterion} (h : parseOption (some t) = .ok cs) :
    ∀ c ∈ cs, ∃ token, parse Grammar.all 0 token = .ok c := by
  have hread := (parseTokens_ok_iff 0 _ cs).mp h
  intro c hc
  obtain ⟨token, -, htoken⟩ := Outcome.exists_of_forall₂ hread c hc
  exact ⟨token, htoken⟩

/-- **Which of the lists that are read can be written and read again**: those whose numbers are not
infinite, whose attributes have no backslash at the end, and whose first attribute has no bracket in
front. Each of its criteria alone is read from its text again, as it was or as one equal by value,
exactly when it is writable. -/
theorem parseOption_reread_iff {t : Text} {cs : List Criterion}
    (h : parseOption (some t) = .ok cs) :
    (parseOption (some (listText listSeparator cs)) = .ok cs ↔
      (∀ c ∈ cs, IsWritable c) ∧ IsUnbracketed cs) ∧
      (RereadAs (fun c' c => same c' c = true) listSeparator cs ↔
        (∀ c ∈ cs, IsWritable c) ∧ IsUnbracketed cs) ∧
      ∀ c ∈ cs, ∀ index, (parse Grammar.all index c.text = .ok c ↔ IsWritable c) ∧
        ((∃ c', parse Grammar.all index c.text = .ok c' ∧ same c' c = true) ↔ IsWritable c) := by
  have hwritable : ∀ c ∈ cs, (c.isCanonical = true ↔ IsWritable c) := by
    intro c hc
    obtain ⟨token, htoken⟩ := mem_of_parseOption h c hc
    exact isCanonical_iff_isWritable htoken
  have hall : (∀ c ∈ cs, c.isCanonical = true) ↔ ∀ c ∈ cs, IsWritable c :=
    forall₂_congr hwritable
  refine ⟨?_, ?_, fun c hc index => ⟨?_, ?_⟩⟩
  · rw [← hall, ← rereadAs_iff tellsAttributes_eq listSeparator_plain (by decide), rereadAs_eq_iff]
    rfl
  · rw [← hall]
    exact rereadAs_iff tellsAttributes_same listSeparator_plain (by decide) cs
  · rw [parse_text_self_iff, hwritable c hc]
  · rw [reread_iff tellsAttributes_same, hwritable c hc]

/-- An option with brackets, blanks and small letters, whose list is written without them. -/
theorem parseOption_reread_two :
    parseOption (some (listText listSeparator [.kAnonymity 5, .distinctLDiversity "a".toList 2])) =
      .ok [.kAnonymity 5, .distinctLDiversity "a".toList 2] := by
  have hread : parseOption (some "[ 5-anonymity, a = Distinct-(2)-diversity ]".toList) =
      .ok [.kAnonymity 5, .distinctLDiversity "a".toList 2] := by rfl
  refine (parseOption_reread_iff hread).1.mpr ⟨?_, ?_⟩
  · intro c hc
    simp only [List.mem_cons, List.not_mem_nil, or_false] at hc
    rcases hc with rfl | rfl
    · exact ⟨by simp [quantities], by simp [attribute?]⟩
    · exact ⟨by simp [quantities], by rintro _ ⟨⟩; decide⟩
  · rintro _ _ ⟨⟩ ⟨⟩

/-- Three options that are read and whose lists are not read again: a bracket in front of the first
attribute, a backslash at the end of an attribute, a number out of range. -/
theorem parseOption_reread_fails :
    (parseOption (some "[[a=DISTINCT-(2)-DIVERSITY]".toList) =
        .ok [.distinctLDiversity "[a".toList 2] ∧
      parseOption (some (listText listSeparator [.distinctLDiversity "[a".toList 2])) =
        .ok [.distinctLDiversity "a".toList 2]) ∧
    (parseOption (some "a\\ =DISTINCT-(2)-DIVERSITY".toList) =
        .ok [.distinctLDiversity "a\\".toList 2] ∧
      ∃ e, parseOption (some (listText listSeparator [.distinctLDiversity "a\\".toList 2])) =
        .error e) ∧
    (parseOption (some "a=ENTROPY-(1e400)-DIVERSITY".toList) =
        .ok [.entropyLDiversity "a".toList (.infinite false)] ∧
      ∃ e, parseOption
          (some (listText listSeparator [.entropyLDiversity "a".toList (.infinite false)])) =
        .error e) :=
  ⟨⟨rfl, rfl⟩, ⟨rfl, _, rfl⟩, rfl, _, rfl⟩

end Anonymization.Criterion
