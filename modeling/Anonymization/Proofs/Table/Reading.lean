import Mathlib
import Anonymization.Table.Reader
import Anonymization.Table.Writer
/-!
# Reading what was written

The reader is fed line by line; here it is followed character by character (`Reader.text?`) over a
text that the writer made, and what it knows at each place is said exactly.

* `text?_cons_end`, `text?_cons_inside` -- a character that ends a line and one that does not;
* `text?_cons` -- both at once, the line that ends behind the character being ended (`Reader.behind`);
* `text?_doubled`, `text?_plain`, `text?_fieldText` -- what becomes of a field, in quotes or as it stands;
* `text?_fields`, `text?_recordText`, `text?_recordsText` -- of the fields of a record, a record, all records;
* `records?_recordsText` -- **records are read as they were written**, if no field holds a carriage
  return that nothing in the field makes the writer quote.
-/

namespace Anonymization.Table

/-- A character that may stand between fields. -/
def IsSeparator (c : Char) : Prop :=
  c ≠ quote ∧ c ≠ '\r' ∧ c ≠ '\n'

/-- A carriage return in the field stands in quotes when the field is written. -/
def ShieldsReturns (separator : Char) (field : Text) : Prop :=
  '\r' ∈ field → wantsQuotes separator field = true

/-- The field is no longer than a field may be. -/
def KeepsFieldLimit (field : Text) : Prop :=
  field.length ≤ fieldLimit

/-! ## 1. A text, character by character -/

/-- What is known once the lines of a text are read. -/
def Reader.text? (separator : Char) (returns : Bool) (s : Reader) (t : Text) : Option Reader :=
  (Text.cutLines returns t).foldlM (Reader.line? separator) s

open Reader

variable {separator : Char} {returns : Bool}

theorem line?_cons (s : Reader) (c : Char) (line : Text) :
    line? separator s (c :: line) = (char? separator s c).bind fun s' => line? separator s' line := by
  unfold line?
  rw [List.foldlM_cons]
  cases char? separator s c with
  | none => rfl
  | some s' => rfl

/-- A character that ends its line. -/
theorem text?_cons_end {c : Char} {rest : Text} (h : Text.endsLine returns c rest = true)
    (s : Reader) :
    text? separator returns s (c :: rest) =
      (char? separator s c).bind fun s' => text? separator returns s'.lineEnd rest := by
  unfold text?
  rw [Text.cutLines, if_pos h, List.foldlM_cons, line?_cons]
  cases char? separator s c with
  | none => rfl
  | some s' => rfl

theorem cutLines_ne_nil {t : Text} (h : t ≠ []) : Text.cutLines returns t ≠ [] := by
  intro hnil
  have hflat := Text.cutLines_flatten returns t
  rw [hnil] at hflat
  exact h hflat.symm

/-- A character that does not end its line. The text has to go on, for its end is the end of a line. -/
theorem text?_cons_inside {c : Char} {rest : Text} (h : Text.endsLine returns c rest = false)
    (hrest : rest ≠ []) (s : Reader) :
    text? separator returns s (c :: rest) =
      (char? separator s c).bind fun s' => text? separator returns s' rest := by
  have hne : Text.cutLines returns rest ≠ [] := cutLines_ne_nil hrest
  obtain ⟨line, lines, hlines⟩ := List.exists_cons_of_ne_nil hne
  unfold text?
  rw [Text.cutLines, if_neg (by simp [h]), hlines]
  simp only [List.foldlM_cons, line?_cons]
  cases char? separator s c with
  | none => rfl
  | some s' => rfl

/-- What is known behind a character, if it is followed by this. -/
def Reader.behind (returns : Bool) (c : Char) (rest : Text) (s : Reader) : Reader :=
  if Text.endsLine returns c rest || rest.isEmpty then s.lineEnd else s

/-- **A character, and what follows it.** -/
theorem text?_cons (s : Reader) (c : Char) (rest : Text) :
    text? separator returns s (c :: rest) =
      (char? separator s c).bind fun s₁ => text? separator returns (s₁.behind returns c rest) rest := by
  cases he : Text.endsLine returns c rest with
  | true =>
    rw [text?_cons_end he]
    simp [Reader.behind, he]
  | false =>
    by_cases hrest : rest = []
    · subst hrest
      unfold text? Text.cutLines
      rw [if_neg (by simp [he]), Text.cutLines, List.foldlM_cons, line?_cons]
      cases char? separator s c with
      | none => rfl
      | some s₁ => simp [Reader.behind, he, line?]
    · rw [text?_cons_inside he hrest]
      simp [Reader.behind, he, hrest]

theorem endsLine_of_not_isLineEnd {c : Char} (h : isLineEnd c = false) (rest : Text) :
    Text.endsLine returns c rest = false := by
  simp only [isLineEnd, Bool.or_eq_false_iff] at h
  simp [Text.endsLine, h.1, h.2]

theorem endsLine_lineFeed (rest : Text) : Text.endsLine returns '\n' rest = true := by
  simp [Text.endsLine]

/-- A character that is no part of a line end. -/
theorem text?_cons_of_not_isLineEnd {c : Char} {rest : Text} (h : isLineEnd c = false)
    (hrest : rest ≠ []) (s : Reader) :
    text? separator returns s (c :: rest) =
      (char? separator s c).bind fun s' => text? separator returns s' rest :=
  text?_cons_inside (endsLine_of_not_isLineEnd h rest) hrest s

/-! ## 2. In quotes -/

/-- In quotes a line end is a character like any other. -/
theorem text?_inQuotes {c : Char} (hc : c ≠ quote) {rest : Text} (hrest : rest ≠ []) {f : Text}
    {n : Nat} (hn : n < fieldLimit) (record : List Text) (records : List (List Text)) :
    text? separator returns ⟨.inQuotes, f, n, record, records⟩ (c :: rest) =
      text? separator returns ⟨.inQuotes, c :: f, n + 1, record, records⟩ rest := by
  have hchar : char? separator ⟨.inQuotes, f, n, record, records⟩ c =
      some ⟨.inQuotes, c :: f, n + 1, record, records⟩ := by
    simp [char?, hc, add?, Nat.not_le.mpr hn]
  cases h : Text.endsLine returns c rest with
  | true =>
    rw [text?_cons_end h, hchar]
    rfl
  | false =>
    rw [text?_cons_inside h hrest, hchar]
    rfl

/-- A quote written twice in quotes is one. -/
theorem text?_twoQuotes {rest : Text} (hrest : rest ≠ []) {f : Text} {n : Nat}
    (hn : n < fieldLimit) (record : List Text) (records : List (List Text)) :
    text? separator returns ⟨.inQuotes, f, n, record, records⟩ (quote :: quote :: rest) =
      text? separator returns ⟨.inQuotes, quote :: f, n + 1, record, records⟩ rest := by
  rw [text?_cons_of_not_isLineEnd (by decide) (List.cons_ne_nil _ _)]
  show text? separator returns ⟨.afterQuote, f, n, record, records⟩ (quote :: rest) = _
  rw [text?_cons_of_not_isLineEnd (by decide) hrest]
  simp [char?, add?, Nat.not_le.mpr hn]

/-- **The reader gets a field out of its quotes.** -/
theorem text?_doubled {v rest : Text} (hrest : rest ≠ []) {f : Text} {n : Nat}
    (hn : n + v.length ≤ fieldLimit) (record : List Text) (records : List (List Text)) :
    text? separator returns ⟨.inQuotes, f, n, record, records⟩ (doubled v ++ rest) =
      text? separator returns ⟨.inQuotes, v.reverse ++ f, n + v.length, record, records⟩ rest := by
  induction v generalizing f n with
  | nil => rfl
  | cons c v ih =>
    rw [List.length_cons] at hn
    have hgo := ih (f := c :: f) (n := n + 1) (by omega)
    rw [show n + 1 + v.length = n + (c :: v).length by simp; omega] at hgo
    have hne : doubled v ++ rest ≠ [] := List.append_ne_nil_of_right_ne_nil _ hrest
    rw [List.reverse_cons, List.append_assoc, List.singleton_append, ← hgo]
    by_cases hc : c = quote
    · subst hc
      exact text?_twoQuotes hne (by omega) record records
    · have hd : doubled (c :: v) = c :: doubled v := by simp [doubled, hc]
      rw [hd]
      exact text?_inQuotes hc hne (by omega) record records

/-! ## 3. Without quotes -/

/-- A character that stands for itself without quotes. -/
def IsPlain (separator c : Char) : Prop :=
  c ≠ separator ∧ c ≠ quote ∧ isLineEnd c = false

theorem wantsQuotes_iff (field : Text) :
    wantsQuotes separator field = true ↔ separator ∈ field ∨ quote ∈ field ∨ '\n' ∈ field := by
  simp only [wantsQuotes, List.any_eq_true, Bool.or_eq_true, beq_iff_eq]
  constructor
  · rintro ⟨c, hc, (rfl | rfl) | rfl⟩
    · exact .inl hc
    · exact .inr (.inl hc)
    · exact .inr (.inr hc)
  · rintro (hc | hc | hc)
    · exact ⟨_, hc, .inl (.inl rfl)⟩
    · exact ⟨_, hc, .inl (.inr rfl)⟩
    · exact ⟨_, hc, .inr rfl⟩

theorem wantsQuotes_eq_false_iff (field : Text) :
    wantsQuotes separator field = false ↔ ∀ c ∈ field, c ≠ separator ∧ c ≠ quote ∧ c ≠ '\n' := by
  simp [wantsQuotes, and_assoc]

/-- A field that is written as it stands. -/
theorem isPlain_of_wantsQuotes {field : Text} (h : wantsQuotes separator field = false)
    (hr : '\r' ∉ field) : ∀ c ∈ field, IsPlain separator c := by
  intro c hc
  obtain ⟨hs, hq, hn⟩ := (wantsQuotes_eq_false_iff field).mp h c hc
  have hcr : c ≠ '\r' := fun e => hr (e ▸ hc)
  exact ⟨hs, hq, by simp [isLineEnd, hn, hcr]⟩

theorem text?_plain {v rest : Text} (hv : ∀ c ∈ v, IsPlain separator c) (hrest : rest ≠ []) {f : Text}
    {n : Nat} (hn : n + v.length ≤ fieldLimit) (record : List Text) (records : List (List Text)) :
    text? separator returns ⟨.inField, f, n, record, records⟩ (v ++ rest) =
      text? separator returns ⟨.inField, v.reverse ++ f, n + v.length, record, records⟩ rest := by
  induction v generalizing f n with
  | nil => rfl
  | cons c v ih =>
    rw [List.length_cons] at hn
    obtain ⟨hs, -, hl⟩ := hv c List.mem_cons_self
    have hgo := ih (fun x hx => hv x (List.mem_cons_of_mem _ hx)) (f := c :: f) (n := n + 1) (by omega)
    rw [show n + 1 + v.length = n + (c :: v).length by simp; omega] at hgo
    rw [List.reverse_cons, List.append_assoc, List.singleton_append, ← hgo, List.cons_append,
      text?_cons_of_not_isLineEnd hl (List.append_ne_nil_of_right_ne_nil _ hrest)]
    simp [char?, hl, hs, add?, show ¬fieldLimit ≤ n by omega]

/-! ## 4. A field -/

/-- A field begins here. -/
def Phase.opensField (p : Phase) : Prop :=
  p = .startOfRecord ∨ p = .startOfField

/-- Where the reader stands behind a field that is written as it stands. -/
def Phase.behindPlain (p : Phase) (field : Text) : Phase :=
  if field.isEmpty then p else .inField

/-- Where the reader stands behind a field. -/
def Phase.behind (separator : Char) (p : Phase) (field : Text) : Phase :=
  if wantsQuotes separator field then .afterQuote else p.behindPlain field

theorem char?_opensField {p : Phase} (hp : p.opensField) {c : Char} (hl : isLineEnd c = false)
    (f : Text) (n : Nat) (record : List Text) (records : List (List Text)) :
    char? separator ⟨p, f, n, record, records⟩ c =
      beginField? separator ⟨p, f, n, record, records⟩ c := by
  rcases hp with rfl | rfl
  · simp [char?, hl]
  · rfl

/-- A field without quotes, from its beginning. -/
theorem text?_behindPlain {p : Phase} (hp : p.opensField) {v rest : Text}
    (hv : ∀ c ∈ v, IsPlain separator c) (hrest : rest ≠ []) (hn : v.length ≤ fieldLimit)
    (record : List Text) (records : List (List Text)) :
    text? separator returns ⟨p, [], 0, record, records⟩ (v ++ rest) =
      text? separator returns ⟨p.behindPlain v, v.reverse, v.length, record, records⟩ rest := by
  cases v with
  | nil => rfl
  | cons c v =>
    obtain ⟨hs, hq, hl⟩ := hv c List.mem_cons_self
    have hgo : text? separator returns ⟨.inField, [c], 1, record, records⟩ (v ++ rest) =
        text? separator returns ⟨.inField, v.reverse ++ [c], 1 + v.length, record, records⟩ rest :=
      text?_plain (fun x hx => hv x (List.mem_cons_of_mem _ hx)) hrest
        (by rw [List.length_cons] at hn; omega) record records
    rw [List.cons_append,
      text?_cons_of_not_isLineEnd hl (List.append_ne_nil_of_right_ne_nil _ hrest),
      char?_opensField hp hl]
    simp only [beginField?, hl, hq, hs, add?, if_false, Bool.false_eq_true,
      show ¬fieldLimit ≤ 0 by decide, Option.bind_some]
    rw [hgo, List.reverse_cons, List.length_cons, Nat.add_comm 1]
    rfl

/-- **What the reader knows behind a field**, before it has seen what ends it. -/
theorem text?_fieldText {p : Phase} (hp : p.opensField) {v rest : Text}
    (hv : ShieldsReturns separator v) (hrest : rest ≠ []) (hn : KeepsFieldLimit v)
    (record : List Text) (records : List (List Text)) :
    text? separator returns ⟨p, [], 0, record, records⟩ (fieldText separator v ++ rest) =
      text? separator returns ⟨p.behind separator v, v.reverse, v.length, record, records⟩ rest := by
  unfold fieldText Phase.behind
  cases hw : wantsQuotes separator v with
  | false =>
    have hr : '\r' ∉ v := fun h => by simp [hv h] at hw
    exact text?_behindPlain hp (isPlain_of_wantsQuotes hw hr) hrest hn record records
  | true =>
    have hclose : quote :: rest ≠ [] := List.cons_ne_nil _ _
    simp only [if_true, List.append_assoc, List.cons_append, List.nil_append]
    rw [text?_cons_of_not_isLineEnd (by decide) (List.append_ne_nil_of_right_ne_nil _ hclose),
      char?_opensField hp (by decide)]
    show text? separator returns ⟨.inQuotes, [], 0, record, records⟩ (doubled v ++ quote :: rest) = _
    have hlength : 0 + v.length ≤ fieldLimit := (Nat.zero_add _).symm ▸ hn
    rw [text?_doubled hclose hlength, text?_cons_of_not_isLineEnd (by decide) hrest]
    simp [char?]

/-! ## 5. A record -/

/-- Behind a field that is complete but for what ends it. -/
def Phase.closesField (p : Phase) : Prop :=
  p = .startOfField ∨ p = .inField ∨ p = .afterQuote

theorem Phase.closesField_behind {p : Phase} {v : Text} (h : p = .startOfField ∨ v ≠ []) :
    (p.behind separator v).closesField := by
  unfold Phase.behind
  split
  · exact .inr (.inr rfl)
  · unfold Phase.behindPlain
    split
    · next hv => exact .inl (h.resolve_right (by simpa using hv))
    · exact .inr (.inl rfl)

/-- Only an empty field at the beginning of a record leaves the reader where no line end could close
it. -/
theorem Phase.behind_closes {p : Phase} (hp : p.opensField) (v : Text) :
    (p.behind separator v).closesField ∨ p.behind separator v = .startOfRecord := by
  rcases hp with rfl | rfl
  · by_cases he : v = []
    · subst he
      exact .inr rfl
    · exact .inl (Phase.closesField_behind (.inr he))
  · exact .inl (Phase.closesField_behind (.inl rfl))

/-- A separator ends a field and opens the next. -/
theorem text?_separator (hs : IsSeparator separator) {p : Phase}
    (hp : p.closesField ∨ p = .startOfRecord) {rest : Text} (hrest : rest ≠ []) (f : Text) (n : Nat)
    (record : List Text) (records : List (List Text)) :
    text? separator returns ⟨p, f, n, record, records⟩ (separator :: rest) =
      text? separator returns ⟨.startOfField, [], 0, f.reverse :: record, records⟩ rest := by
  obtain ⟨hq, hr, hn⟩ := hs
  have hl : isLineEnd separator = false := by simp [isLineEnd, hr, hn]
  rw [text?_cons_of_not_isLineEnd hl hrest]
  rcases hp with (rfl | rfl | rfl) | rfl <;> simp [char?, beginField?, hl, hq, saveField]

/-- **A field with the separator behind it.** -/
theorem text?_fieldText_separator (hs : IsSeparator separator) {p : Phase} (hp : p.opensField)
    {v rest : Text} (hv : ShieldsReturns separator v) (hn : KeepsFieldLimit v) (hrest : rest ≠ [])
    (record : List Text) (records : List (List Text)) :
    text? separator returns ⟨p, [], 0, record, records⟩ (fieldText separator v ++ separator :: rest) =
      text? separator returns ⟨.startOfField, [], 0, v :: record, records⟩ rest := by
  rw [text?_fieldText hp hv (List.cons_ne_nil _ _) hn,
    text?_separator hs (Phase.behind_closes hp v) hrest, List.reverse_reverse]

/-- A line feed ends a field and its record. -/
theorem text?_lineFeed (hs : IsSeparator separator) {p : Phase} (hp : p.closesField) (rest f : Text)
    (n : Nat) (record : List Text) (records : List (List Text)) :
    text? separator returns ⟨p, f, n, record, records⟩ ('\n' :: rest) =
      text? separator returns
        ⟨.startOfRecord, [], 0, [], (f.reverse :: record).reverse :: records⟩ rest := by
  obtain ⟨-, -, hn⟩ := hs
  rw [text?_cons_end (endsLine_lineFeed rest)]
  rcases hp with rfl | rfl | rfl
  · rfl
  · rfl
  · have hq : '\n' ≠ quote := by decide
    simp [char?, hq, hn.symm, saveField, saveRecord, lineEnd, isLineEnd]

/-- Nothing is begun, and these records are complete, the last one first. -/
def Reader.before (records : List (List Text)) : Reader :=
  ⟨.startOfRecord, [], 0, [], records⟩

/-- **The fields of a record are read one after the other**, from the beginning of any of them. A
single empty field is read only where it is known that a field begins. -/
theorem text?_fields (hs : IsSeparator separator) {p : Phase} (hp : p.opensField) {v : Text}
    {vs : List Text} (hv : ∀ x ∈ v :: vs, ShieldsReturns separator x ∧ KeepsFieldLimit x)
    (hne : p = .startOfField ∨ v :: vs ≠ [[]]) (rest : Text) (record : List Text)
    (records : List (List Text)) :
    text? separator returns ⟨p, [], 0, record, records⟩
        (Text.joined [separator] ((v :: vs).map (fieldText separator)) ++ '\n' :: rest) =
      text? separator returns (before ((record.reverse ++ v :: vs) :: records)) rest := by
  obtain ⟨hshield, hlimit⟩ := hv v List.mem_cons_self
  induction vs generalizing v p record with
  | nil =>
    have hclose : (p.behind separator v).closesField :=
      Phase.closesField_behind (hne.imp_right fun h e => h (e ▸ rfl))
    show text? _ _ _ (fieldText separator v ++ '\n' :: rest) = _
    rw [text?_fieldText hp hshield (List.cons_ne_nil _ _) hlimit, text?_lineFeed hs hclose]
    simp [before]
  | cons w vs ih =>
    have hw : ∀ x ∈ w :: vs, ShieldsReturns separator x ∧ KeepsFieldLimit x :=
      fun x hx => hv x (List.mem_cons_of_mem _ hx)
    obtain ⟨hshield', hlimit'⟩ := hw w List.mem_cons_self
    have hgo := ih (p := .startOfField) (.inr rfl) hw (.inl rfl) (v :: record) hshield' hlimit'
    show text? _ _ _ (fieldText separator v ++ [separator] ++
      Text.joined [separator] ((w :: vs).map (fieldText separator)) ++ '\n' :: rest) = _
    rw [List.append_assoc, List.append_assoc, List.singleton_append,
      text?_fieldText_separator hs hp hshield hlimit
        (List.append_ne_nil_of_right_ne_nil _ (List.cons_ne_nil _ _)), hgo]
    simp

/-! ## 6. Records -/

/-- Each field of a record is read as it was written. -/
def IsReadable (separator : Char) (record : List Text) : Prop :=
  ∀ v ∈ record, ShieldsReturns separator v ∧ KeepsFieldLimit v

/-- **A record is read as it was written.** -/
theorem text?_recordText (hs : IsSeparator separator) {record : List Text}
    (h : IsReadable separator record) (rest : Text) (records : List (List Text)) :
    text? separator returns (before records) (recordText separator record ++ '\n' :: rest) =
      text? separator returns (before (record :: records)) rest := by
  unfold recordText
  split
  · -- a single empty field is the one field that is quoted for its record's sake
    show text? _ _ ⟨.startOfRecord, [], 0, [], records⟩ (quote :: quote :: '\n' :: rest) = _
    rw [text?_cons_of_not_isLineEnd (by decide) (List.cons_ne_nil _ _)]
    show text? _ _ ⟨.inQuotes, [], 0, [], records⟩ (quote :: '\n' :: rest) = _
    rw [text?_cons_of_not_isLineEnd (by decide) (List.cons_ne_nil _ _)]
    show text? _ _ ⟨.afterQuote, [], 0, [], records⟩ ('\n' :: rest) = _
    rw [text?_lineFeed hs (.inr (.inr rfl))]
    rfl
  · next hsingle =>
    cases record with
    | nil =>
      show text? _ _ _ ('\n' :: rest) = _
      rw [text?_cons_end (endsLine_lineFeed rest)]
      rfl
    | cons v vs => exact text?_fields hs (.inl rfl) h (.inr hsingle) rest [] records

/-- **Records are read one after the other.** -/
theorem text?_recordsText (hs : IsSeparator separator) {rs : List (List Text)}
    (h : ∀ r ∈ rs, IsReadable separator r) (records : List (List Text)) :
    text? separator returns (before records) (recordsText separator rs) =
      some (before (rs.reverse ++ records)) := by
  induction rs generalizing records with
  | nil => rfl
  | cons r rs ih =>
    have hrest := ih (fun r' hr' => h r' (List.mem_cons_of_mem _ hr')) (r :: records)
    show text? _ _ _ (recordText separator r ++ ['\n'] ++ recordsText separator rs) = _
    rw [List.append_assoc, List.singleton_append,
      text?_recordText hs (h r List.mem_cons_self), hrest]
    simp

/-- **Records are read as they were written.** -/
theorem records?_recordsText (hs : IsSeparator separator) {rs : List (List Text)}
    (h : ∀ r ∈ rs, IsReadable separator r) :
    records? separator (Text.cutLines returns (recordsText separator rs)) = some rs := by
  have hread : text? separator returns start (recordsText separator rs) = _ :=
    text?_recordsText hs h []
  unfold records?
  rw [show (Text.cutLines returns (recordsText separator rs)).foldlM (line? separator) start = _
    from hread]
  simp [finish, before]

end Anonymization.Table
