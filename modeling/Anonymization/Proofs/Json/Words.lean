import Anonymization.Json.Printer
import Anonymization.Proofs.Numeral.Printing
import Anonymization.Proofs.Numeral.Scanning
/-!
# The words that are no JSON

What a JSON text says outside its strings, where alone it may have the words `Infinity` and `NaN`.

* `outside` -- what is left of a text when its strings are cut out; `outside_stringText` -- **a text in
  quotes is cut out whole**, whatever it holds;
* `Shows` -- a part of a text has these numbers, and one of the words exactly if one of them is not finite;
* `shows_render` -- **so it is for the text of every value**, part by part;
* `hasWord_indented_iff` -- a value has a JSON text exactly if its numbers are finite.
-/

namespace Anonymization.Json

/-! ## 1. Outside strings -/

/-- What stands outside strings. The first argument says that the text begins in a string. -/
def outside : Bool → Text → Text
  | _, [] => []
  | false, '"' :: rest => outside true rest
  | false, c :: rest => c :: outside false rest
  | true, '"' :: rest => outside false rest
  | true, '\\' :: _ :: rest => outside true rest
  | true, _ :: rest => outside true rest

/-- One of the words for numbers that are not finite stands in the text. -/
def HasWord (t : Text) : Prop :=
  "Infinity".toList <:+: t ∨ "NaN".toList <:+: t

/-- No string begins in the text and goes on behind it. -/
def Balanced (t : Text) : Prop :=
  ∀ rest, outside false (t ++ rest) = outside false t ++ outside false rest

theorem Balanced.append {s t : Text} (hs : Balanced s) (ht : Balanced t) : Balanced (s ++ t) := by
  intro rest
  rw [List.append_assoc, hs, ht, hs t, List.append_assoc]

theorem outside_cons {c : Char} (hc : c ≠ '"') (rest : Text) :
    outside false (c :: rest) = c :: outside false rest := by
  rw [outside]
  exact hc

theorem outside_inside_cons {c : Char} (hc : c ≠ '"' ∧ c ≠ '\\') (rest : Text) :
    outside true (c :: rest) = outside true rest := by
  simp [outside, hc]

/-- Without a quote nothing is cut out. -/
theorem outside_of_not_mem {t : Text} (h : '"' ∉ t) (rest : Text) :
    outside false (t ++ rest) = t ++ outside false rest := by
  induction t with
  | nil => rfl
  | cons c t ih =>
    have hc : c ≠ '"' := fun hc => h (hc ▸ List.mem_cons_self)
    rw [List.cons_append, outside_cons hc, ih fun hmem => h (List.mem_cons_of_mem _ hmem)]
    rfl

/-- In a string characters are passed over. -/
theorem outside_inside {t : Text} (h : ∀ c ∈ t, c ≠ '"' ∧ c ≠ '\\') (rest : Text) :
    outside true (t ++ rest) = outside true rest := by
  induction t with
  | nil => rfl
  | cons c t ih =>
    rw [List.cons_append, outside_inside_cons (h c List.mem_cons_self)]
    exact ih fun x hx => h x (List.mem_cons_of_mem _ hx)

/-- In a string a backslash passes over the next character. -/
theorem outside_escape (c : Char) (rest : Text) : outside true ('\\' :: c :: rest) = outside true rest := rfl

theorem hexDigit_ne {n : Nat} (h : n < 16) : Text.hexDigit n ≠ '"' ∧ Text.hexDigit n ≠ '\\' := by
  revert n
  decide

theorem hexDigits_ne (width n : Nat) : ∀ c ∈ Text.hexDigits width n, c ≠ '"' ∧ c ≠ '\\' := by
  induction width generalizing n with
  | zero => exact fun c hc => absurd hc List.not_mem_nil
  | succ width ih =>
    intro c hc
    rcases List.mem_append.mp hc with hc | hc
    · exact ih _ c hc
    · rw [List.mem_singleton.mp hc]
      exact hexDigit_ne (Nat.mod_lt n (by omega))

/-- A character does not end the string that it stands in. -/
theorem outside_stringChar (c : Char) (rest : Text) :
    outside true (stringChar c ++ rest) = outside true rest := by
  unfold stringChar
  split_ifs with hspecial
  · exact outside_escape _ _
  · exact outside_escape _ _
  · exact outside_escape _ _
  · exact outside_escape _ _
  · exact outside_escape _ _
  · exact outside_escape _ _
  · rw [List.cons_append, List.cons_append, outside_escape]
    exact outside_inside (hexDigits_ne _ _) rest
  · have hplain : ∀ x ∈ [c], x ≠ '"' ∧ x ≠ '\\' := by
      simpa [not_or] using hspecial
    exact outside_inside hplain rest

/-- **A text in quotes is cut out whole.** -/
theorem outside_stringText (t rest : Text) : outside false (stringText t ++ rest) = outside false rest := by
  have hinside : ∀ t : Text, outside true (t.flatMap stringChar ++ '"' :: rest) = outside false rest := by
    intro t
    induction t with
    | nil => rfl
    | cons c t ih => rw [List.flatMap_cons, List.append_assoc, outside_stringChar, ih]
  have hopen : outside false (stringText t ++ rest) = outside true (t.flatMap stringChar ++ '"' :: rest) := by
    unfold stringText
    rw [List.append_assoc]
    rfl
  rw [hopen, hinside]

/-! ## 2. Parts of a text -/

/-- A part of a text has these numbers: it has one of the words exactly if one of them is not finite, and
else no letter with which the words begin. -/
structure Shows (t : Text) (xs : List Binary64) : Prop where
  balanced : Balanced t
  finite : (∀ x ∈ xs, x.isFinite = true) → ∀ c ∈ outside false t, c ≠ 'I' ∧ c ≠ 'N'
  word : ∀ x ∈ xs, x.isFinite = false → HasWord (outside false t)

theorem HasWord.append_left {t : Text} (h : HasWord t) (s : Text) : HasWord (s ++ t) :=
  h.imp (·.trans (List.suffix_append s t).isInfix) (·.trans (List.suffix_append s t).isInfix)

theorem HasWord.append_right {s : Text} (h : HasWord s) (t : Text) : HasWord (s ++ t) :=
  h.imp (·.trans (List.prefix_append s t).isInfix) (·.trans (List.prefix_append s t).isInfix)

theorem not_hasWord {t : Text} (h : ∀ c ∈ t, c ≠ 'I' ∧ c ≠ 'N') : ¬HasWord t := by
  intro hword
  cases hword with
  | inl hinside => exact (h 'I' (hinside.subset (by decide))).1 rfl
  | inr hinside => exact (h 'N' (hinside.subset (by decide))).2 rfl

/-- **A part shows one of the words exactly if one of its numbers is not finite.** -/
theorem Shows.hasWord_iff {t : Text} {xs : List Binary64} (h : Shows t xs) :
    HasWord (outside false t) ↔ ∃ x ∈ xs, x.isFinite = false := by
  constructor
  · intro hword
    by_contra hall
    refine not_hasWord (h.finite fun x hx => ?_) hword
    by_contra hx'
    exact hall ⟨x, hx, by simpa using hx'⟩
  · rintro ⟨x, hx, hfinite⟩
    exact h.word x hx hfinite

theorem Shows.append {s t : Text} {xs ys : List Binary64} (hs : Shows s xs) (ht : Shows t ys) :
    Shows (s ++ t) (xs ++ ys) where
  balanced := hs.balanced.append ht.balanced
  finite h c hc := by
    rw [List.forall_mem_append] at h
    rw [hs.balanced t] at hc
    rcases List.mem_append.mp hc with hc | hc
    · exact hs.finite h.1 c hc
    · exact ht.finite h.2 c hc
  word x hx hfinite := by
    rw [hs.balanced t]
    rcases List.mem_append.mp hx with hx | hx
    · exact (hs.word x hx hfinite).append_right _
    · exact (ht.word x hx hfinite).append_left _

/-- Where there is no quote all characters count. -/
theorem shows_of_not_mem {t : Text} {xs : List Binary64} (hquote : '"' ∉ t)
    (hfinite : (∀ x ∈ xs, x.isFinite = true) → ∀ c ∈ t, c ≠ 'I' ∧ c ≠ 'N')
    (hword : ∀ x ∈ xs, x.isFinite = false → HasWord t) : Shows t xs := by
  have hself : outside false t = t := by
    have h := outside_of_not_mem hquote []
    rwa [List.append_nil, outside, List.append_nil] at h
  refine ⟨fun rest => ?_, ?_, ?_⟩
  · rw [hself, outside_of_not_mem hquote]
  · rwa [hself]
  · rwa [hself]

/-- No quote, and no letter with which the words begin. -/
def Wordless (t : Text) : Prop :=
  ∀ c ∈ t, c ∉ ['"', 'I', 'N']

theorem wordless_of_all {t : Text} (h : (t.all fun c => decide (c ∉ ['"', 'I', 'N'])) = true) : Wordless t :=
  fun c hc => of_decide_eq_true (List.all_eq_true.mp h c hc)

theorem Wordless.shows {t : Text} (h : Wordless t) : Shows t [] := by
  simp only [Wordless, List.mem_cons, List.not_mem_nil, or_false, not_or] at h
  exact shows_of_not_mem (fun hmem => (h _ hmem).1 rfl) (fun _ c hc => (h c hc).2)
    fun x hx => absurd hx List.not_mem_nil

theorem shows_stringText (t : Text) : Shows (stringText t) [] := by
  have hself : outside false (stringText t) = [] := by
    have h := outside_stringText t []
    rwa [List.append_nil] at h
  refine ⟨fun rest => ?_, fun _ c hc => ?_, fun x hx => absurd hx List.not_mem_nil⟩
  · rw [outside_stringText, hself]
    rfl
  · rw [hself] at hc
    exact absurd hc List.not_mem_nil

/-! ## 3. The text of a value -/

/-- Neither the words nor a quote stand in a numeral. -/
theorem wordless_of_inNumeral {t : Text} (h : ∀ c ∈ t, Numeral.InNumeral c) : Wordless t := by
  intro c hc hmem
  simp only [List.mem_cons, List.not_mem_nil, or_false] at hmem
  rcases h c hc with hd | hd
  · rcases hmem with rfl | rfl | rfl <;> exact absurd hd (by decide)
  · rcases hmem with rfl | rfl | rfl <;> exact absurd hd (by decide)

theorem shows_numberText (x : Binary64) : Shows (numberText x) [x] := by
  cases x with
  | finite negative rank =>
    obtain ⟨w, hw, -⟩ := Binary64.text_spells (x := .finite negative rank) rfl
    have hwordless := wordless_of_inNumeral (Numeral.inNumeral_of_spells hw)
    obtain ⟨hbalanced, hfinite, -⟩ := hwordless.shows
    refine ⟨hbalanced, fun _ => hfinite fun x hx => absurd hx List.not_mem_nil, fun x hx hno => ?_⟩
    rw [List.mem_singleton.mp hx] at hno
    cases hno
  | infinite negative =>
    refine shows_of_not_mem (by cases negative <;> decide) (fun h => ?_) fun _ _ _ => .inl ?_
    · cases h _ List.mem_cons_self
    · exact (List.suffix_append _ _).isInfix
  | nan =>
    refine shows_of_not_mem (by decide) (fun h => ?_) fun _ _ _ => .inr (List.infix_refl _)
    cases h _ List.mem_cons_self

/-- Parts with the same text between them. -/
theorem shows_joined {separator : Text} (hs : Wordless separator) {ts : List Text} {xss : List (List Binary64)}
    (h : List.Forall₂ Shows ts xss) : Shows (Text.joined separator ts) xss.flatten := by
  induction h with
  | nil => exact Wordless.shows fun c hc => absurd hc List.not_mem_nil
  | @cons t xs ts xss ht hrest ih =>
    cases hrest with
    | nil => simpa [Text.joined] using ht
    | @cons u ys ts xss hu hrest =>
      have hjoined := (ht.append hs.shows).append ih
      rw [List.append_nil] at hjoined
      exact hjoined

/-- Parts between brackets. -/
theorem shows_enclosed {opening closing : Char} {inset outset : Text} (hopening : Wordless [opening])
    (hclosing : Wordless [closing]) (hinset : Wordless inset) (houtset : Wordless outset) {parts : List Text}
    {xss : List (List Binary64)} (h : List.Forall₂ Shows parts xss) :
    Shows (enclosed opening closing inset outset parts) xss.flatten := by
  cases h with
  | nil => exact (hopening.shows.append hclosing.shows)
  | @cons t xs ts xss ht hrest =>
    have hcomma : Wordless (',' :: inset) := List.forall_mem_cons.mpr ⟨by decide, hinset⟩
    have hjoined := shows_joined hcomma (.cons ht hrest)
    have hall := (((hopening.shows.append hinset.shows).append hjoined).append houtset.shows).append hclosing.shows
    simpa [enclosed] using hall

/-- The layout has no letters and no quotes. -/
structure Layout.IsWordless (l : Layout) : Prop where
  lineBreak : ∀ level, Wordless (l.lineBreak level)
  afterColon : Wordless l.afterColon

theorem floatsOfItems_eq (items : List Json) : floatsOfItems items = (items.map floats).flatten := by
  induction items with
  | nil => rfl
  | cons v rest ih => rw [floatsOfItems, ih, List.map_cons, List.flatten_cons]

theorem floatsOfMembers_eq (members : List (Text × Json)) :
    floatsOfMembers members = (members.map fun m => m.2.floats).flatten := by
  induction members with
  | nil => rfl
  | cons m rest ih =>
    obtain ⟨name, v⟩ := m
    rw [floatsOfMembers, ih, List.map_cons, List.flatten_cons]

mutual

/-- **The text of a value has the numbers of the value.** -/
theorem shows_render {l : Layout} (hl : l.IsWordless) (level : Nat) (v : Json) :
    Shows (render l level v) v.floats :=
  match v with
  | .null => Wordless.shows (t := "null".toList) (wordless_of_all (by decide))
  | .bool true => Wordless.shows (t := "true".toList) (wordless_of_all (by decide))
  | .bool false => Wordless.shows (t := "false".toList) (wordless_of_all (by decide))
  | .int n => (wordless_of_inNumeral (Numeral.inNumeral_signedText n)).shows
  | .float x => shows_numberText x
  | .text t => shows_stringText t
  | .list items => by
    rw [render, floats, floatsOfItems_eq]
    exact shows_enclosed (wordless_of_all (by decide)) (wordless_of_all (by decide)) (hl.lineBreak _)
      (hl.lineBreak _) (shows_renderItems hl (level + 1) items)
  | .object members => by
    rw [render, floats, floatsOfMembers_eq]
    exact shows_enclosed (wordless_of_all (by decide)) (wordless_of_all (by decide)) (hl.lineBreak _)
      (hl.lineBreak _) (shows_renderMembers hl (level + 1) members)

theorem shows_renderItems {l : Layout} (hl : l.IsWordless) (level : Nat) (items : List Json) :
    List.Forall₂ Shows (renderItems l level items) (items.map floats) :=
  match items with
  | [] => .nil
  | item :: rest => .cons (shows_render hl level item) (shows_renderItems hl level rest)

theorem shows_renderMembers {l : Layout} (hl : l.IsWordless) (level : Nat) (members : List (Text × Json)) :
    List.Forall₂ Shows (renderMembers l level members) (members.map fun m => m.2.floats) :=
  match members with
  | [] => .nil
  | (name, value) :: rest => by
    refine .cons ?_ (shows_renderMembers hl level rest)
    have hcolon : Wordless (':' :: l.afterColon) := List.forall_mem_cons.mpr ⟨by decide, hl.afterColon⟩
    have hmember := ((shows_stringText name).append hcolon.shows).append (shows_render hl level value)
    simpa using hmember

end

/-- **A value has one of the words in its text, outside strings, exactly if one of its numbers is not
finite.** -/
theorem hasWord_indented_iff (v : Json) : HasWord (outside false v.indented) ↔ v.isFinite = false := by
  have hlayout : Layout.IsWordless ⟨fun level => '\n' :: List.replicate (2 * level) ' ', [' ']⟩ := by
    refine ⟨fun level => List.forall_mem_cons.mpr ⟨by decide, fun c hc => ?_⟩, wordless_of_all (by decide)⟩
    rw [List.eq_of_mem_replicate hc]
    decide
  have hfinite : v.isFinite = false ↔ ∃ x ∈ v.floats, x.isFinite = false := by
    simp [isFinite]
  rw [hfinite]
  exact (shows_render hlayout 0 v).hasWord_iff

end Anonymization.Json
