import Anonymization.Proofs.Table.Reading
/-!
# What a text cannot be read as

Whatever the text is, no field gets longer than a field may be, and **no field gets a carriage return
that does not stand in quotes**. So carriage returns can be counted: those of the fields are those of
the text, unless one of them stands outside quotes.

* `moves_of_char?`, `lineEnd_cases` -- all that a character and the end of a line can do;
* `returnCount_text?_le`, `keepFieldLimit_of_records?` -- what follows for a whole text;
* `losesReturn_recordsText` -- where a field that holds a carriage return is written without quotes,
  **fewer are read than were written**.
-/

namespace Anonymization.Table

open Reader

/-! ## 1. Steps that may fail, one after the other -/

section Fold

variable {α σ : Type} {step : σ → α → Option σ}

/-- What each step keeps, all of them keep. -/
theorem foldlM_keeps {P : σ → Prop} (hstep : ∀ s a s', P s → step s a = some s' → P s') {as : List α}
    {s s' : σ} (hs : P s) (h : as.foldlM step s = some s') : P s' := by
  induction as generalizing s with
  | nil => exact Option.some.inj h ▸ hs
  | cons a as ih =>
    rw [List.foldlM_cons] at h
    obtain ⟨s₁, h₁, hrest⟩ := Option.bind_eq_some_iff.mp h
    exact ih (hstep s a s₁ hs h₁) hrest

/-- Where no step adds more than its weight, all of them add no more than their weights. -/
theorem foldlM_adds_le {size : σ → Nat} (weight : α → Nat)
    (hstep : ∀ s a s', step s a = some s' → size s' ≤ size s + weight a) {as : List α} {s s' : σ}
    (h : as.foldlM step s = some s') : size s' ≤ size s + (as.map weight).sum := by
  induction as generalizing s with
  | nil => exact Option.some.inj h ▸ Nat.le_add_right _ _
  | cons a as ih =>
    rw [List.foldlM_cons] at h
    obtain ⟨s₁, h₁, hrest⟩ := Option.bind_eq_some_iff.mp h
    have hfirst := hstep s a s₁ h₁
    have hothers := ih hrest
    rw [List.map_cons, List.sum_cons]
    omega

end Fold

/-! ## 2. All that a step can do -/

variable {separator : Char} {returns : Bool}

/-- What a character can do: it changes the phase only, completes the field, or goes on the field.
Nothing goes on a field that is full, and a carriage return goes on the field only in quotes. -/
inductive Reader.Moves (s : Reader) (c : Char) : Reader → Prop where
  | turns (p : Phase) : Moves s c { s with phase := p }
  | completes (p : Phase) : Moves s c (s.saveField p)
  | adds (p : Phase) : s.size < fieldLimit → (c = '\r' → s.phase = .inQuotes) →
      Moves s c { s with phase := p, field := c :: s.field, size := s.size + 1 }

theorem moves_of_add? {s s' : Reader} {p : Phase} {c : Char} (hc : c = '\r' → s.phase = .inQuotes)
    (h : s.add? p c = some s') : s.Moves c s' := by
  unfold add? at h
  split at h
  · cases h
  · next hn => exact Option.some.inj h ▸ .adds p (Nat.not_le.mp hn) hc

/-- What is no part of a line end is no carriage return. -/
theorem ne_return_of_not_isLineEnd {c : Char} (h : ¬isLineEnd c = true) : c ≠ '\r' :=
  fun hc => h (by rw [hc]; decide)

theorem moves_of_beginField? {s s' : Reader} {c : Char} (h : beginField? separator s c = some s') :
    s.Moves c s' := by
  unfold beginField? at h
  split at h
  · exact Option.some.inj h ▸ .completes _
  · next hl =>
    split at h
    · exact Option.some.inj h ▸ .turns _
    · split at h
      · exact Option.some.inj h ▸ .completes _
      · exact moves_of_add? (fun hc => absurd hc (ne_return_of_not_isLineEnd hl)) h

/-- **All that a character can do.** -/
theorem moves_of_char? {s s' : Reader} {c : Char} (h : char? separator s c = some s') :
    s.Moves c s' := by
  unfold char? at h
  split at h
  · split at h
    · exact Option.some.inj h ▸ .turns _
    · exact moves_of_beginField? h
  · exact moves_of_beginField? h
  · split at h
    · exact Option.some.inj h ▸ .completes _
    · next hl =>
      split at h
      · exact Option.some.inj h ▸ .completes _
      · exact moves_of_add? (fun hc => absurd hc (ne_return_of_not_isLineEnd hl)) h
  · next hphase =>
    split at h
    · exact Option.some.inj h ▸ .turns _
    · exact moves_of_add? (fun _ => hphase) h
  · split at h
    · next hq => exact moves_of_add? (fun hc => absurd (hc ▸ hq) (by decide)) h
    · split at h
      · exact Option.some.inj h ▸ .completes _
      · split at h
        · exact Option.some.inj h ▸ .completes _
        · next hl => exact moves_of_add? (fun hc => absurd hc (ne_return_of_not_isLineEnd hl)) h
  · split at h
    · exact Option.some.inj h ▸ .turns s.phase
    · cases h

/-- The end of a line completes the record, with or without the field, or changes nothing. -/
theorem lineEnd_cases (s : Reader) :
    s.lineEnd = s ∨ s.lineEnd = s.saveRecord ∨
      s.lineEnd = (s.saveField .startOfRecord).saveRecord := by
  unfold lineEnd
  split
  · exact .inr (.inl rfl)
  · exact .inr (.inl rfl)
  · exact .inr (.inr rfl)
  · exact .inr (.inr rfl)
  · exact .inr (.inr rfl)
  · exact .inl rfl

/-! ## 3. The length of a field -/

/-- No field of these records is longer than a field may be. -/
def KeepFieldLimit (rs : List (List Text)) : Prop :=
  ∀ r ∈ rs, ∀ v ∈ r, KeepsFieldLimit v

/-- No field is longer than a field may be, and the length of the field begun is known. -/
structure Bounded (s : Reader) : Prop where
  size : s.size = s.field.length
  field : KeepsFieldLimit s.field
  record : ∀ v ∈ s.record, KeepsFieldLimit v
  records : KeepFieldLimit s.records

theorem Bounded.saveField {s : Reader} (h : Bounded s) (p : Phase) : Bounded (s.saveField p) where
  size := rfl
  field := Nat.zero_le _
  record v hv := by
    rcases List.mem_cons.mp hv with rfl | hv
    · exact (@List.length_reverse _ s.field).trans_le h.field
    · exact h.record v hv
  records := h.records

theorem Bounded.saveRecord {s : Reader} (h : Bounded s) : Bounded s.saveRecord where
  size := h.size
  field := h.field
  record _ hv := absurd hv List.not_mem_nil
  records r hr := by
    rcases List.mem_cons.mp hr with rfl | hr
    · exact fun v hv => h.record v (List.mem_reverse.mp hv)
    · exact h.records r hr

theorem Bounded.char? {s s' : Reader} {c : Char} (h : Bounded s)
    (hc : char? separator s c = some s') : Bounded s' := by
  cases moves_of_char? hc with
  | turns p => exact ⟨h.size, h.field, h.record, h.records⟩
  | completes p => exact h.saveField p
  | adds p hn _ =>
    have hlt : s.field.length < fieldLimit := h.size ▸ hn
    exact ⟨congrArg (· + 1) h.size, hlt, h.record, h.records⟩

theorem Bounded.lineEnd {s : Reader} (h : Bounded s) : Bounded s.lineEnd := by
  rcases lineEnd_cases s with e | e | e
  · rw [e]
    exact h
  · rw [e]
    exact h.saveRecord
  · rw [e]
    exact (h.saveField _).saveRecord

theorem Bounded.line? {s s' : Reader} {line : Text} (h : Bounded s)
    (hl : line? separator s line = some s') : Bounded s' := by
  obtain ⟨s₁, h₁, rfl⟩ := Option.map_eq_some_iff.mp hl
  exact (foldlM_keeps (fun _ _ _ hs hc => hs.char? hc) h h₁).lineEnd

theorem bounded_start : Bounded start where
  size := rfl
  field := Nat.zero_le _
  record _ hv := absurd hv List.not_mem_nil
  records _ hr := absurd hr List.not_mem_nil

theorem Bounded.finish {s : Reader} (h : Bounded s) : KeepFieldLimit s.finish := by
  intro r hr
  unfold Reader.finish at hr
  split at hr
  · exact (h.saveField _).saveRecord.records r (List.mem_reverse.mp hr)
  · exact h.records r (List.mem_reverse.mp hr)

/-- **No field that was read is longer than a field may be.** -/
theorem keepFieldLimit_of_records? {lines : List Text} {rs : List (List Text)}
    (h : records? separator lines = some rs) : KeepFieldLimit rs := by
  obtain ⟨s, hs, rfl⟩ := Option.map_eq_some_iff.mp h
  exact (foldlM_keeps (fun _ _ _ hb hl => hb.line? hl) bounded_start hs).finish

/-! ## 4. Carriage returns are counted -/

/-- The number of carriage returns in the fields of some records. -/
def returnsIn (rs : List (List Text)) : Nat :=
  rs.flatten.flatten.count '\r'

@[simp] theorem returnsIn_cons (r : List Text) (rs : List (List Text)) :
    returnsIn (r :: rs) = r.flatten.count '\r' + returnsIn rs := by
  simp [returnsIn]

@[simp] theorem returnsIn_reverse (rs : List (List Text)) : returnsIn rs.reverse = returnsIn rs := by
  simp [returnsIn, List.count_flatten]

/-- The number of carriage returns in all that is known. -/
def Reader.returnCount (s : Reader) : Nat :=
  s.field.count '\r' + s.record.flatten.count '\r' + returnsIn s.records

theorem returnCount_saveField (s : Reader) (p : Phase) : (s.saveField p).returnCount = s.returnCount := by
  simp [Reader.returnCount, saveField]

theorem returnCount_saveRecord (s : Reader) : s.saveRecord.returnCount = s.returnCount := by
  simp [Reader.returnCount, saveRecord, List.count_flatten]
  omega

theorem returnCount_lineEnd (s : Reader) : s.lineEnd.returnCount = s.returnCount := by
  rcases lineEnd_cases s with e | e | e
  · rw [e]
  · rw [e, returnCount_saveRecord]
  · rw [e, returnCount_saveRecord, returnCount_saveField]

theorem returnCount_behind (returns : Bool) (c : Char) (rest : Text) (s : Reader) :
    (s.behind returns c rest).returnCount = s.returnCount := by
  unfold Reader.behind
  split
  · exact returnCount_lineEnd s
  · rfl

/-- No character adds a carriage return but a carriage return. -/
theorem returnCount_char?_le {s s' : Reader} {c : Char} (h : char? separator s c = some s') :
    s'.returnCount ≤ s.returnCount + [c].count '\r' := by
  cases moves_of_char? h with
  | turns p => exact Nat.le_add_right _ _
  | completes p =>
    rw [returnCount_saveField]
    exact Nat.le_add_right _ _
  | adds p _ _ =>
    have hcount : (c :: s.field).count '\r' = [c].count '\r' + s.field.count '\r' :=
      @List.count_append _ _ '\r' [c] s.field
    simp only [Reader.returnCount, hcount]
    omega

/-- **Outside quotes a carriage return adds none.** -/
theorem returnCount_char?_of_return {s s' : Reader} (hp : s.phase ≠ .inQuotes)
    (h : char? separator s '\r' = some s') : s'.returnCount = s.returnCount := by
  cases moves_of_char? h with
  | turns p => rfl
  | completes p => exact returnCount_saveField s p
  | adds p _ hq => exact absurd (hq rfl) hp

theorem returnCount_line?_le {s s' : Reader} {line : Text} (h : line? separator s line = some s') :
    s'.returnCount ≤ s.returnCount + line.count '\r' := by
  obtain ⟨s₁, h₁, rfl⟩ := Option.map_eq_some_iff.mp h
  have hsum := foldlM_adds_le (fun c => [c].count '\r')
    (fun _ _ _ hc => returnCount_char?_le hc) h₁
  have hweights : (line.map fun c => [c].count '\r').sum = line.count '\r' := by
    conv_rhs => rw [← List.flatMap_singleton' line]
    rw [List.count_flatMap]
    rfl
  rw [returnCount_lineEnd, ← hweights]
  exact hsum

/-- **No text adds more carriage returns than it holds.** -/
theorem returnCount_text?_le {s s' : Reader} {t : Text} (h : text? separator returns s t = some s') :
    s'.returnCount ≤ s.returnCount + t.count '\r' := by
  have hsum := foldlM_adds_le (fun line => line.count '\r')
    (fun _ _ _ hl => returnCount_line?_le hl) h
  rw [← List.count_flatten, Text.cutLines_flatten] at hsum
  exact hsum

theorem returnsIn_finish (s : Reader) : returnsIn s.finish ≤ s.returnCount := by
  unfold Reader.finish
  rw [returnsIn_reverse]
  split
  · rw [← returnCount_saveField s .startOfRecord, ← returnCount_saveRecord]
    exact Nat.le_add_left _ _
  · exact Nat.le_add_left _ _

/-! ## 5. Where one is lost -/

/-- Whatever becomes of the text, fewer carriage returns are read than it holds. -/
def LosesReturn (separator : Char) (returns : Bool) (s : Reader) (t : Text) : Prop :=
  ∀ s', text? separator returns s t = some s' → s'.returnCount < s.returnCount + t.count '\r'

/-- What is lost in the rest of a text is lost. -/
theorem LosesReturn.behind {s s₁ : Reader} {a b : Text}
    (hread : text? separator returns s (a ++ b) = text? separator returns s₁ b)
    (hcount : s₁.returnCount ≤ s.returnCount + a.count '\r') (h : LosesReturn separator returns s₁ b) :
    LosesReturn separator returns s (a ++ b) := by
  intro s' hs'
  have hlt := h s' (hread ▸ hs')
  rw [List.count_append]
  omega

/-- **A carriage return outside quotes is lost.** -/
theorem losesReturn_of_return {s : Reader} (hp : s.phase ≠ .inQuotes) (rest : Text) :
    LosesReturn separator returns s ('\r' :: rest) := by
  intro s' hs'
  rw [List.count_cons_self]
  rw [text?_cons] at hs'
  obtain ⟨s₁, h₁, htext⟩ := Option.bind_eq_some_iff.mp hs'
  have hfirst := returnCount_char?_of_return hp h₁
  have hothers := returnCount_text?_le htext
  rw [returnCount_behind] at hothers
  omega

/-- Behind a field that stands without quotes the reader is in none. -/
theorem Phase.behindPlain_ne_inQuotes {p : Phase} (hp : p.opensField) (v : Text) :
    p.behindPlain v ≠ .inQuotes := by
  unfold Phase.behindPlain
  split
  · rcases hp with rfl | rfl <;> decide
  · decide

/-- A field that is written as it stands, with a carriage return in it. -/
theorem losesReturn_field {p : Phase} (hp : p.opensField) {v rest : Text}
    (hv : ¬ShieldsReturns separator v) (hn : KeepsFieldLimit v)
    (record : List Text) (records : List (List Text)) :
    LosesReturn separator returns ⟨p, [], 0, record, records⟩ (fieldText separator v ++ rest) := by
  obtain ⟨hmem, hwants⟩ := Classical.not_imp.mp hv
  rw [Bool.not_eq_true] at hwants
  -- the part of the field in front of its first carriage return is read as it stands
  obtain ⟨u, w, rfl, hu⟩ := List.eq_append_cons_of_mem hmem
  have hplain : ∀ c ∈ u, IsPlain separator c := by
    refine isPlain_of_wantsQuotes ?_ hu
    rw [wantsQuotes_eq_false_iff] at hwants ⊢
    exact fun c hc => hwants c (List.mem_append_left _ hc)
  have hlen : u.length ≤ fieldLimit := by
    unfold KeepsFieldLimit at hn
    rw [List.length_append] at hn
    omega
  have htext : fieldText separator (u ++ '\r' :: w) ++ rest = u ++ '\r' :: (w ++ rest) := by
    simp [fieldText, hwants]
  rw [htext]
  refine LosesReturn.behind (text?_behindPlain hp hplain (List.cons_ne_nil _ _) hlen record records)
    ?_ (losesReturn_of_return (Phase.behindPlain_ne_inQuotes hp u) (w ++ rest))
  simp only [Reader.returnCount, List.count_reverse, List.count_nil]
  omega

theorem count_doubled (v : Text) : (doubled v).count '\r' = v.count '\r' := by
  induction v with
  | nil => rfl
  | cons c v ih =>
    have hcons : doubled (c :: v) = (if c = quote then [quote, quote] else [c]) ++ doubled v := rfl
    rw [hcons, List.count_append, ih]
    by_cases hc : c = quote
    · subst hc
      simp [quote]
    · simp [hc, List.count_cons, Nat.add_comm]

/-- Writing a field adds no carriage return and leaves none out. -/
theorem count_fieldText (v : Text) : (fieldText separator v).count '\r' = v.count '\r' := by
  unfold fieldText
  split
  · simp [count_doubled, quote]
  · rfl

theorem count_joined (hs : IsSeparator separator) (vs : List Text) :
    (Text.joined [separator] (vs.map (fieldText separator))).count '\r' = vs.flatten.count '\r' := by
  induction vs with
  | nil => rfl
  | cons v vs ih =>
    cases vs with
    | nil => simp [Text.joined, count_fieldText]
    | cons w vs =>
      have hcons : Text.joined [separator] ((v :: w :: vs).map (fieldText separator)) =
          fieldText separator v ++ [separator] ++
            Text.joined [separator] ((w :: vs).map (fieldText separator)) := rfl
      rw [hcons, List.count_append, ih, List.count_append, count_fieldText, List.flatten_cons,
        List.count_append]
      simp [hs.2.1]

theorem count_recordText (hs : IsSeparator separator) (record : List Text) :
    (recordText separator record).count '\r' = record.flatten.count '\r' := by
  unfold recordText
  split
  · rfl
  · exact count_joined hs record

/-- **Writing records adds no carriage return and leaves none out.** -/
theorem count_recordsText (hs : IsSeparator separator) (rs : List (List Text)) :
    (recordsText separator rs).count '\r' = returnsIn rs := by
  induction rs with
  | nil => rfl
  | cons r rs ih =>
    have hcons : recordsText separator (r :: rs) =
        recordText separator r ++ ['\n'] ++ recordsText separator rs := rfl
    rw [hcons, List.count_append, ih, List.count_append, count_recordText hs, returnsIn_cons]
    rfl

/-- Of the fields of a record one is written as it stands, with a carriage return in it. -/
theorem losesReturn_fields (hs : IsSeparator separator) {p : Phase} (hp : p.opensField) {v : Text}
    {vs : List Text} (hlimit : ∀ x ∈ v :: vs, KeepsFieldLimit x)
    (hbad : ∃ x ∈ v :: vs, ¬ShieldsReturns separator x) (rest : Text) (record : List Text)
    (records : List (List Text)) :
    LosesReturn separator returns ⟨p, [], 0, record, records⟩
      (Text.joined [separator] ((v :: vs).map (fieldText separator)) ++ '\n' :: rest) := by
  have hv := hlimit v List.mem_cons_self
  induction vs generalizing v p record with
  | nil =>
    obtain ⟨x, hx, hbad⟩ := hbad
    obtain rfl := List.mem_singleton.mp hx
    exact losesReturn_field hp hbad hv record records
  | cons w vs ih =>
    generalize hmore : Text.joined [separator] ((w :: vs).map (fieldText separator)) ++ '\n' :: rest = more
    have hne : more ≠ [] := hmore ▸ List.append_ne_nil_of_right_ne_nil _ (List.cons_ne_nil _ _)
    have htext : Text.joined [separator] ((v :: w :: vs).map (fieldText separator)) ++ '\n' :: rest =
        fieldText separator v ++ separator :: more := by
      simp [Text.joined, ← hmore]
    rw [htext]
    by_cases hshield : ShieldsReturns separator v
    · have hrest : ∃ x ∈ w :: vs, ¬ShieldsReturns separator x := by
        obtain ⟨x, hx, hbad⟩ := hbad
        rcases List.mem_cons.mp hx with rfl | hx
        · exact absurd hshield hbad
        · exact ⟨x, hx, hbad⟩
      have hlimit' := fun x hx => hlimit x (List.mem_cons_of_mem v hx)
      have hgo := ih (p := .startOfField) (.inr rfl) hlimit' hrest (v :: record)
        (hlimit' w List.mem_cons_self)
      rw [hmore] at hgo
      rw [← List.singleton_append, ← List.append_assoc]
      refine LosesReturn.behind ?_ ?_ hgo
      · rw [List.append_assoc, List.singleton_append]
        exact text?_fieldText_separator hs hp hshield hv hne record records
      · simp only [Reader.returnCount, List.count_nil, List.flatten_cons, List.count_append,
          count_fieldText]
        omega
    · exact losesReturn_field hp hshield hv record records

theorem losesReturn_recordText (hs : IsSeparator separator) {record : List Text}
    (hlimit : ∀ v ∈ record, KeepsFieldLimit v) (hbad : ∃ v ∈ record, ¬ShieldsReturns separator v)
    (rest : Text) (records : List (List Text)) :
    LosesReturn separator returns (before records) (recordText separator record ++ '\n' :: rest) := by
  unfold recordText
  split
  · obtain ⟨v, hv, hbad⟩ := hbad
    obtain rfl := List.mem_singleton.mp hv
    exact absurd (fun h => absurd h List.not_mem_nil) hbad
  · cases record with
    | nil =>
      obtain ⟨v, hv, -⟩ := hbad
      exact absurd hv List.not_mem_nil
    | cons v vs => exact losesReturn_fields hs (.inl rfl) hlimit hbad rest [] records

/-- **Where a field with a carriage return is written as it stands, one is lost.** -/
theorem losesReturn_recordsText (hs : IsSeparator separator) {rs : List (List Text)}
    (hlimit : KeepFieldLimit rs) (hbad : ∃ r ∈ rs, ∃ v ∈ r, ¬ShieldsReturns separator v)
    (records : List (List Text)) :
    LosesReturn separator returns (before records) (recordsText separator rs) := by
  induction rs generalizing records with
  | nil =>
    obtain ⟨r, hr, -⟩ := hbad
    exact absurd hr List.not_mem_nil
  | cons r rs ih =>
    have htext : recordsText separator (r :: rs) =
        recordText separator r ++ '\n' :: recordsText separator rs := by simp [recordsText]
    have hr := hlimit r List.mem_cons_self
    rw [htext]
    by_cases hfirst : ∃ v ∈ r, ¬ShieldsReturns separator v
    · exact losesReturn_recordText hs hr hfirst _ records
    · have hshields : ∀ v ∈ r, ShieldsReturns separator v :=
        fun v hv => Classical.byContradiction fun hno => hfirst ⟨v, hv, hno⟩
      have hothers : ∃ r' ∈ rs, ∃ v ∈ r', ¬ShieldsReturns separator v := by
        obtain ⟨r', hr', hno⟩ := hbad
        rcases List.mem_cons.mp hr' with rfl | hr'
        · exact absurd hno hfirst
        · exact ⟨r', hr', hno⟩
      have hgo := ih (fun r' hr' => hlimit r' (List.mem_cons_of_mem _ hr')) hothers (r :: records)
      rw [← List.singleton_append, ← List.append_assoc]
      refine LosesReturn.behind ?_ ?_ hgo
      · rw [List.append_assoc, List.singleton_append]
        exact text?_recordText hs (fun v hv => ⟨hshields v hv, hr v hv⟩) _ records
      · simp only [Reader.returnCount, before, List.flatten_nil, List.count_nil, List.count_append,
          count_recordText hs, returnsIn_cons]
        omega

/-- **Fewer carriage returns are read than were written.** -/
theorem returnsIn_lt (hs : IsSeparator separator) {rs rs' : List (List Text)} (hlimit : KeepFieldLimit rs)
    (hbad : ∃ r ∈ rs, ∃ v ∈ r, ¬ShieldsReturns separator v)
    (h : records? separator (Text.cutLines returns (recordsText separator rs)) = some rs') :
    returnsIn rs' < returnsIn rs := by
  obtain ⟨s', hs', rfl⟩ := Option.map_eq_some_iff.mp h
  have hlt : s'.returnCount < start.returnCount + (recordsText separator rs).count '\r' :=
    losesReturn_recordsText hs hlimit hbad [] s' hs'
  have hstart : start.returnCount = 0 := rfl
  have hle := returnsIn_finish s'
  rw [count_recordsText hs] at hlt
  omega

end Anonymization.Table
