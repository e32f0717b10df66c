import Anonymization.Proofs.Table.Refusal
import Anonymization.Proofs.Table.RoundTrip
import Anonymization.Proofs.Text.Lines
/-!
# A table on standard input and in a file

A file is cut into lines as it stands; on standard input every line end has become a line feed before
the text is cut. Outside quotes that makes no difference, in quotes it shows in the fields.

* `Overfills`, `records?_eq_none_iff` -- a text is refused **only for a field that is full**;
* `Mirrors` -- two readers that differ in the line ends of their fields;
* `Mirrors.char?`, `Mirrors.text?` -- **a character, and a text, keep them so**;
* `readTable_read_unified` -- **the table on standard input is the table of the file, the line ends in its
  values unified**.
-/

namespace Anonymization

namespace Table

open Reader

variable {separator : Char}

/-! ## 1. Refused for a full field -/

/-- Of steps that come to nothing one is the first to fail. -/
theorem exists_of_foldlM_none {α σ : Type} {step : σ → α → Option σ} {as : List α} {s : σ}
    (h : as.foldlM step s = none) : ∃ before a after s₁, as = before ++ a :: after ∧
      before.foldlM step s = some s₁ ∧ step s₁ a = none := by
  induction as generalizing s with
  | nil => cases h
  | cons a as ih =>
    rw [List.foldlM_cons] at h
    cases ha : step s a with
    | none => exact ⟨[], a, as, s, rfl, rfl, ha⟩
    | some s' =>
      rw [ha] at h
      obtain ⟨before, b, after, s₁, has, hs₁, hb⟩ := ih h
      refine ⟨a :: before, b, after, s₁, by rw [has]; rfl, ?_, hb⟩
      rw [List.foldlM_cons, ha]
      exact hs₁

/-- A character is to go on a field that has all the characters that a field may have, and is refused
for this reason only. -/
structure Reader.IsFullFor (separator : Char) (s : Reader) (c : Char) : Prop where
  full : s.field.length = fieldLimit
  refused : char? separator s c = none
  fits : ∃ s', char? separator { s with size := 0 } c = some s'

/-- Reading these lines comes to a field that is too long. -/
def Overfills (separator : Char) (lines : List Text) : Prop :=
  ∃ before done c rest after s s₁, lines = before ++ (done ++ c :: rest) :: after ∧
    before.foldlM (line? separator) start = some s ∧ done.foldlM (char? separator) s = some s₁ ∧
    s₁.IsFullFor separator c

theorem records?_of_overfills {lines : List Text} (h : Overfills separator lines) :
    records? separator lines = none := by
  obtain ⟨before, done, c, rest, after, s, s₁, rfl, hs, hs₁, hfull⟩ := h
  have hline : line? separator s (done ++ c :: rest) = none := by
    unfold line?
    rw [List.foldlM_append, hs₁]
    show ((c :: rest).foldlM (char? separator) s₁).map lineEnd = none
    rw [List.foldlM_cons, hfull.refused]
    rfl
  unfold records?
  rw [List.foldlM_append, hs]
  show ((((done ++ c :: rest) :: after).foldlM (line? separator) s)).map finish = none
  rw [List.foldlM_cons, hline]
  rfl

/-- Inside each of these lines a character of a line end is followed by another. -/
def EndsTogether (lines : List Text) : Prop :=
  ∀ line ∈ lines, ∀ a x c b, line = a ++ x :: c :: b → isLineEnd x = true → isLineEnd c = true

theorem endsTogether_kept (t : Text) : EndsTogether (Text.lines .kept t) := by
  intro line hline a x c b h hx
  have hend := Text.endsLine_inside hline h
  simp only [isLineEnd, Bool.or_eq_true, beq_iff_eq] at hx ⊢
  rcases hx with rfl | rfl
  · simp [Text.endsLine] at hend
  · left
    simpa [Text.endsLine] using hend

theorem endsTogether_unified (t : Text) : EndsTogether (Text.lines .unified t) := by
  intro line hline a x c b h hx
  have hend := Text.endsLine_inside hline h
  simp only [isLineEnd, Bool.or_eq_true, beq_iff_eq] at hx
  rcases hx with rfl | rfl
  · simp [Text.endsLine] at hend
  · have hmem : '\r' ∈ (Text.cutLines false (Text.unifyEnds t)).flatten :=
      List.mem_flatten.mpr ⟨line, hline, by simp [h]⟩
    rw [Text.cutLines_flatten] at hmem
    exact absurd hmem (Text.return_not_mem_unifyEnds t)

/-- No line begins behind a character of a line end. -/
theorem phase_between_lines {lines : List Text} {s : Reader}
    (h : lines.foldlM (line? separator) start = some s) : s.phase ≠ .atLineEnd := by
  refine foldlM_keeps (P := fun s => s.phase ≠ .atLineEnd) (fun s l s' _ hl => ?_) (by decide) h
  obtain ⟨s₁, -, rfl⟩ := Option.map_eq_some_iff.mp hl
  exact phase_lineEnd s₁

/-- Behind a character of a line end there is another, if the line goes on. -/
theorem isLineEnd_behind {lines : List Text} (h : EndsTogether lines) {done rest : Text} {c : Char}
    (hline : done ++ c :: rest ∈ lines) {s s₁ : Reader} (hs : s.phase ≠ .atLineEnd)
    (hdone : done.foldlM (char? separator) s = some s₁) (hp : s₁.phase = .atLineEnd) :
    isLineEnd c = true := by
  rcases List.eq_nil_or_concat' done with rfl | ⟨a, x, rfl⟩
  · exact absurd (Option.some.inj hdone ▸ hp) hs
  · rw [List.foldlM_append] at hdone
    obtain ⟨s₀, -, hlast⟩ := Option.bind_eq_some_iff.mp hdone
    rw [List.foldlM_cons] at hlast
    obtain ⟨s₁', hx, hnil⟩ := Option.bind_eq_some_iff.mp hlast
    obtain rfl : s₁' = s₁ := Option.some.inj hnil
    exact h _ hline a x c rest (by simp) (phase_of_char? hx hp)

/-- **Where line ends stand together a text is refused only for a field that is full.** -/
theorem records?_eq_none_iff {lines : List Text} (h : EndsTogether lines) :
    records? separator lines = none ↔ Overfills separator lines := by
  refine ⟨fun hnone => ?_, records?_of_overfills⟩
  obtain ⟨before, line, after, s, hlines, hs, hline⟩ :=
    exists_of_foldlM_none (Option.map_eq_none_iff.mp hnone)
  obtain ⟨done, c, rest, s₁, rfl, hs₁, hc⟩ := exists_of_foldlM_none (Option.map_eq_none_iff.mp hline)
  have hbounded : Bounded s₁ :=
    foldlM_keeps (fun _ _ _ hb hx => hb.char? hx)
      (foldlM_keeps (fun _ _ _ hb hl => hb.line? hl) bounded_start hs) hs₁
  have hphase : s₁.phase = .atLineEnd → isLineEnd c = true :=
    isLineEnd_behind h (show done ++ c :: rest ∈ lines by rw [hlines]; simp) (phase_between_lines hs) hs₁
  have hfull : fieldLimit ≤ s₁.size := by
    by_contra hroom
    obtain ⟨s₂, hs₂⟩ := char?_isSome separator (Nat.not_le.mp hroom) hphase
    rw [hc] at hs₂
    cases hs₂
  have hlength : s₁.field.length = fieldLimit :=
    Nat.le_antisymm hbounded.field (hbounded.size ▸ hfull)
  have hempty : 0 < fieldLimit := by decide
  exact ⟨before, done, c, rest, after, s, s₁, hlines, hs, hs₁, hlength, hc,
    char?_isSome separator (s := { s₁ with size := 0 }) hempty hphase⟩

/-! ## 2. What a character does -/

/-- What the reader does with a character: it changes the phase, completes the field, puts the character
on the field, or refuses it. -/
inductive Reader.Act where
  | turn (p : Phase)
  | complete (p : Phase)
  | add (p : Phase)
  | refuse

/-- The reader after it did this with a character. -/
def Reader.Act.apply (s : Reader) (c : Char) : Reader.Act → Option Reader
  | turn p => some { s with phase := p }
  | complete p => some (s.saveField p)
  | add p => s.add? p c
  | refuse => none

/-- What is done where a field may begin. -/
def Phase.openingAct (separator c : Char) : Reader.Act :=
  if isLineEnd c then .complete .atLineEnd
  else if c = quote then .turn .inQuotes
  else if c = separator then .complete .startOfField
  else .add .inField

/-- What is done depends on the phase and the character alone. -/
def Phase.act (separator c : Char) : Phase → Reader.Act
  | startOfRecord => if isLineEnd c then .turn .atLineEnd else openingAct separator c
  | startOfField => openingAct separator c
  | inField =>
    if isLineEnd c then .complete .atLineEnd
    else if c = separator then .complete .startOfField
    else .add .inField
  | inQuotes => if c = quote then .turn .afterQuote else .add .inQuotes
  | afterQuote =>
    if c = quote then .add .inQuotes
    else if c = separator then .complete .startOfField
    else if isLineEnd c then .complete .atLineEnd
    else .add .inField
  | atLineEnd => if isLineEnd c then .turn .atLineEnd else .refuse

/-- **The reader does with a character what its phase says.** -/
theorem char?_eq (s : Reader) (c : Char) : char? separator s c = (s.phase.act separator c).apply s c := by
  unfold char? beginField?
  cases hp : s.phase with
  | startOfRecord | startOfField =>
    simp only [Phase.act, Phase.openingAct]
    split_ifs <;> rfl
  | inField | inQuotes | afterQuote =>
    simp only [Phase.act]
    split_ifs <;> rfl
  | atLineEnd =>
    simp only [Phase.act]
    split_ifs
    · rw [Reader.Act.apply, ← hp]
    · rfl

/-- Only in quotes does a character of a line end go on the field. -/
theorem Phase.not_isLineEnd_of_add {p q : Phase} {c : Char} (h : p.act separator c = .add q)
    (hp : p ≠ .inQuotes) : ¬isLineEnd c = true := by
  have hquote : ∀ c, isLineEnd c = true → c ≠ quote := by
    rintro _ hl rfl
    exact absurd hl (by decide)
  cases p <;> grind [Phase.act, Phase.openingAct]

/-! ## 3. Two readers side by side -/

/-- The second reader knows what the first knows, the line ends in its fields unified. -/
structure Mirrors (s s' : Reader) : Prop where
  phase : s'.phase = s.phase
  field : s'.field.reverse = Text.unifyEnds s.field.reverse
  size : s'.size ≤ s.size
  record : s'.record = s.record.map Text.unifyEnds
  records : s'.records = s.records.map (List.map Text.unifyEnds)

namespace Mirrors

variable {s s' : Reader}

theorem saveField (h : Mirrors s s') (p : Phase) : Mirrors (s.saveField p) (s'.saveField p) where
  phase := rfl
  field := rfl
  size := Nat.le_refl _
  record := by
    show s'.field.reverse :: s'.record = _
    rw [h.field, h.record]
    rfl
  records := h.records

theorem saveRecord (h : Mirrors s s') : Mirrors s.saveRecord s'.saveRecord where
  phase := rfl
  field := h.field
  size := h.size
  record := rfl
  records := by
    show s'.record.reverse :: s'.records = _
    rw [h.record, h.records, ← List.map_reverse]
    rfl

theorem turn (h : Mirrors s s') (p : Phase) : Mirrors { s with phase := p } { s' with phase := p } :=
  ⟨rfl, h.field, h.size, h.record, h.records⟩

theorem lineEnd (h : Mirrors s s') : Mirrors s.lineEnd s'.lineEnd := by
  unfold Reader.lineEnd
  rw [h.phase]
  split
  · exact h.saveRecord
  · exact h.saveRecord
  · exact (h.saveField _).saveRecord
  · exact (h.saveField _).saveRecord
  · exact (h.saveField _).saveRecord
  · exact h

theorem finish (h : Mirrors s s') : s'.finish = s.finish.map (List.map Text.unifyEnds) := by
  unfold Reader.finish
  rw [h.phase, List.map_reverse]
  split
  · exact congrArg List.reverse (h.saveField .startOfRecord).saveRecord.records
  · exact congrArg List.reverse h.records

/-- A character goes on both fields, for the second perhaps as the line feed that it has become. -/
theorem add? (h : Mirrors s s') {p : Phase} {c c' : Char} (hc : Text.unifyEnds [c] = [c'])
    (hends : c = '\n' → s.field.head? ≠ some '\r') {s₁ : Reader} (hs : s.add? p c = some s₁) :
    ∃ s₁', s'.add? p c' = some s₁' ∧ Mirrors s₁ s₁' := by
  unfold Reader.add? at hs ⊢
  split at hs
  · cases hs
  · next hroom =>
    obtain rfl := Option.some.inj hs
    have hsize := h.size
    refine ⟨_, if_neg (by omega), rfl, ?_, Nat.succ_le_succ hsize, h.record, h.records⟩
    have hlast : s.field.reverse.getLast? = some '\r' → [c].head? ≠ some '\n' := by
      rw [List.getLast?_reverse]
      exact fun hr hn => hends (Option.some.inj hn) hr
    show (c' :: s'.field).reverse = Text.unifyEnds (c :: s.field).reverse
    rw [List.reverse_cons, List.reverse_cons, Text.unifyEnds_append hlast, h.field, hc]

end Mirrors

/-- The character means to the second reader what it meant to the first. -/
structure SameRole (separator c c' : Char) : Prop where
  lineEnd : isLineEnd c' = isLineEnd c
  quote : c' = quote ↔ c = quote
  separator : c' = separator ↔ c = separator
  unified : Text.unifyEnds [c] = [c']

/-- A line feed in the place of a carriage return means the same. -/
theorem sameRole_unified (hs : IsSeparator separator) (c : Char) :
    SameRole separator c (if c = '\r' then '\n' else c) := by
  obtain ⟨-, hr, hn⟩ := hs
  have hunified : Text.unifyEnds [c] = [if c = '\r' then '\n' else c] := Text.unifyEnds_cons (by simp)
  by_cases hc : c = '\r'
  · subst hc
    exact ⟨rfl, by decide, iff_of_false (Ne.symm hn) (Ne.symm hr), hunified⟩
  · rw [if_neg hc] at hunified ⊢
    exact ⟨rfl, Iff.rfl, Iff.rfl, hunified⟩

/-- What is done with a character does not change with its role. -/
theorem SameRole.act {c c' : Char} (h : SameRole separator c c') (p : Phase) :
    p.act separator c' = p.act separator c := by
  cases p <;> simp only [Phase.act, Phase.openingAct, h.lineEnd, h.quote, h.separator]

/-- **A character of the file and the character that it has become.** In quotes a line feed must not
follow a carriage return, with which it would be one line end. -/
theorem Mirrors.char? {s s' s₁ : Reader} {c c' : Char} (h : Mirrors s s')
    (hc : SameRole separator c c')
    (hends : s.phase = .inQuotes → c = '\n' → s.field.head? ≠ some '\r')
    (hs : char? separator s c = some s₁) :
    ∃ s₁', Reader.char? separator s' c' = some s₁' ∧ Mirrors s₁ s₁' := by
  rw [char?_eq] at hs
  rw [char?_eq, hc.act, h.phase]
  cases hact : s.phase.act separator c with
  | turn p =>
    rw [hact] at hs
    exact ⟨_, rfl, Option.some.inj hs ▸ h.turn p⟩
  | complete p =>
    rw [hact] at hs
    exact ⟨_, rfl, Option.some.inj hs ▸ h.saveField p⟩
  | add p =>
    rw [hact] at hs
    refine h.add? hc.unified (fun hn => ?_) hs
    by_cases hp : s.phase = .inQuotes
    · exact hends hp hn
    · exact absurd (hn ▸ rfl) (Phase.not_isLineEnd_of_add hact hp)
  | refuse =>
    rw [hact] at hs
    cases hs

/-! ## 4. What is begun -/

/-- No field is begun where none can be. -/
def Reader.IsTidy (s : Reader) : Prop :=
  s.phase = .startOfRecord ∨ s.phase = .startOfField ∨ s.phase = .atLineEnd → s.field = []

theorem isTidy_char? {s s₁ : Reader} {c : Char} (h : s.IsTidy) (hs : char? separator s c = some s₁) :
    s₁.IsTidy := by
  rw [char?_eq] at hs
  cases hp : s.phase <;> grind [Reader.IsTidy, Phase.act, Phase.openingAct, Reader.Act.apply, add?, Reader.saveField]

/-- In quotes the field ends with the last character, if there is any on it. -/
theorem eq_of_head?_field {s s₁ : Reader} {c x : Char} (h : s.IsTidy)
    (hs : char? separator s c = some s₁) (hp : s₁.phase = .inQuotes) (hx : s₁.field.head? = some x) :
    x = c := by
  rw [char?_eq] at hs
  cases hp : s.phase <;> grind [Reader.IsTidy, Phase.act, Phase.openingAct, Reader.Act.apply, add?, Reader.saveField]

theorem isTidy_lineEnd {s : Reader} (h : s.IsTidy) : s.lineEnd.IsTidy := by
  cases hp : s.phase <;> grind [Reader.IsTidy, Reader.lineEnd, Reader.saveField, Reader.saveRecord]

theorem lineEnd_inQuotes {s : Reader} (h : s.lineEnd.phase = .inQuotes) : s.lineEnd = s := by
  cases hp : s.phase <;> grind [Reader.lineEnd, Reader.saveField, Reader.saveRecord]

/-- A carriage return goes on the field or ends the line. -/
theorem behind_return (hs : IsSeparator separator) {s s₁ : Reader}
    (h : char? separator s '\r' = some s₁) :
    s₁.phase = .atLineEnd ∨ s₁.phase = .inQuotes ∧ s₁.field = '\r' :: s.field := by
  obtain ⟨hq, hr, hn⟩ := hs
  have hl : isLineEnd '\r' = true := rfl
  have hquote : '\r' ≠ quote := by decide
  rw [char?_eq] at h
  cases hp : s.phase <;> grind [Phase.act, Phase.openingAct, Reader.Act.apply, add?, Reader.saveField]

/-- A line feed behind a carriage return changes nothing for the second reader, who has read the two as
one line feed. -/
theorem Mirrors.lineFeed (hs : IsSeparator separator) {s s₁ s₂ s' : Reader} (h : Mirrors s₁ s')
    (h₁ : Reader.char? separator s '\r' = some s₁) (h₂ : Reader.char? separator s₁ '\n' = some s₂) :
    Mirrors s₂ s' := by
  rcases behind_return hs h₁ with hp | ⟨hp, hf⟩
  · rw [char?_eq, hp] at h₂
    obtain rfl := Option.some.inj h₂
    exact ⟨h.phase.trans hp, h.field, h.size, h.record, h.records⟩
  · have hadd : s₁.add? .inQuotes '\n' = some s₂ := by
      rw [char?_eq, hp] at h₂
      exact h₂
    unfold Reader.add? at hadd
    split at hadd
    · cases hadd
    · obtain rfl := Option.some.inj hadd
      refine ⟨h.phase.trans hp, ?_, Nat.le_succ_of_le h.size, h.record, h.records⟩
      have hends : Text.unifyEnds ['\r', '\n'] = Text.unifyEnds ['\r'] := rfl
      show s'.field.reverse = Text.unifyEnds ('\n' :: s₁.field).reverse
      rw [h.field, hf]
      simp only [List.reverse_cons, List.append_assoc, List.singleton_append]
      rw [Text.unifyEnds_append (by simp), Text.unifyEnds_append (by simp), hends]

/-! ## 5. A text side by side -/

theorem isTidy_behind {s : Reader} (h : s.IsTidy) (returns : Bool) (c : Char) (rest : Text) :
    (s.behind returns c rest).IsTidy := by
  unfold Reader.behind
  split
  · exact isTidy_lineEnd h
  · exact h

theorem behind_inQuotes {s : Reader} {returns : Bool} {c : Char} {rest : Text}
    (h : (s.behind returns c rest).phase = .inQuotes) : s.behind returns c rest = s := by
  unfold Reader.behind at h ⊢
  split at h
  · next he =>
    rw [if_pos he]
    exact lineEnd_inQuotes h
  · next he => exact if_neg he

/-- A character ends a line of the one text exactly if it ends a line of the other. -/
theorem Mirrors.behind {s s' : Reader} (h : Mirrors s s') {c : Char} {rest : Text}
    (hc : c = '\r' → rest.head? ≠ some '\n') :
    Mirrors (s.behind true c rest)
      (s'.behind false (if c = '\r' then '\n' else c) (Text.unifyEnds rest)) := by
  have hempty : (Text.unifyEnds rest).isEmpty = rest.isEmpty := by
    rw [Bool.eq_iff_iff, List.isEmpty_iff, List.isEmpty_iff, Text.unifyEnds_eq_nil_iff]
  have hline : Text.endsLine false (if c = '\r' then '\n' else c) (Text.unifyEnds rest) =
      Text.endsLine true c rest := by
    by_cases hr : c = '\r'
    · simp [Text.endsLine, hr, hc hr]
    · simp [Text.endsLine, hr]
  unfold Reader.behind
  rw [hempty, hline]
  split
  · exact h.lineEnd
  · exact h

/-- **A text, and the text with its line ends unified**: readers that mirror each other go on to do so. -/
theorem Mirrors.text? (hs : IsSeparator separator) {t : Text} {s s' r : Reader} (h : Mirrors s s')
    (htidy : s.IsTidy)
    (hends : s.phase = .inQuotes → t.head? = some '\n' → s.field.head? ≠ some '\r')
    (ht : Reader.text? separator true s t = some r) :
    ∃ r', Reader.text? separator false s' (Text.unifyEnds t) = some r' ∧ Mirrors r r' := by
  induction hn : t.length using Nat.strongRecOn generalizing t s s' with
  | _ n ih =>
  cases t with
  | nil => exact ⟨s', rfl, Option.some.inj ht ▸ h⟩
  | cons c rest =>
    rw [text?_cons] at ht
    obtain ⟨s₁, h₁, ht⟩ := Option.bind_eq_some_iff.mp ht
    have hcends : s.phase = .inQuotes → c = '\n' → s.field.head? ≠ some '\r' :=
      fun hp hc => hends hp (by rw [hc]; rfl)
    obtain ⟨s₁', h₁', hm⟩ := h.char? (sameRole_unified hs c) hcends h₁
    have htidy₁ := isTidy_char? htidy h₁
    by_cases hcr : c = '\r' ∧ rest.head? = some '\n'
    · -- the carriage return and the line feed behind it are one line end
      obtain ⟨rfl, hhead⟩ := hcr
      obtain ⟨rest, rfl⟩ : ∃ u, rest = '\n' :: u := by
        cases rest with
        | nil => cases hhead
        | cons d u => exact ⟨u, by rw [Option.some.inj hhead]⟩
      rw [show s₁.behind true '\r' ('\n' :: rest) = s₁ from rfl, text?_cons] at ht
      obtain ⟨s₂, h₂, ht⟩ := Option.bind_eq_some_iff.mp ht
      have hm₂ := hm.lineFeed hs h₁ h₂
      have htidy₂ := isTidy_char? htidy₁ h₂
      have hbehind : Mirrors (s₂.behind true '\n' rest) (s₁'.behind false '\n' (Text.unifyEnds rest)) :=
        hm₂.behind (c := '\n') fun hc => absurd hc (by decide)
      have hfeed : Text.unifyEnds ('\n' :: rest) = '\n' :: Text.unifyEnds rest :=
        Text.unifyEnds_cons fun hc => absurd hc (by decide)
      rw [Text.unifyEnds_twoEnds, hfeed, text?_cons, show Reader.char? separator s' '\n' = _ from h₁']
      refine ih rest.length (by rw [← hn]; simp) hbehind (isTidy_behind htidy₂ _ _ _) ?_ ht rfl
      intro hp _ hx
      have hsame := behind_inQuotes hp
      rw [hsame] at hp hx
      exact absurd (eq_of_head?_field htidy₁ h₂ hp hx) (by decide)
    · have hnext : c = '\r' → rest.head? ≠ some '\n' := fun hc hh => hcr ⟨hc, hh⟩
      rw [Text.unifyEnds_cons hnext, text?_cons, h₁']
      refine ih rest.length (by rw [← hn]; simp) (hm.behind hnext) (isTidy_behind htidy₁ _ _ _) ?_ ht rfl
      intro hp hhead hx
      have hsame := behind_inQuotes hp
      rw [hsame] at hp hx
      exact hnext (eq_of_head?_field htidy h₁ hp hx).symm hhead

/-! ## 6. The table of a text -/

/-- The table with a line feed for every line end in its values. -/
def unifyEnds (d : Table) : Table where
  header := d.header.map Text.unifyEnds
  rows := d.rows.map (List.map Text.unifyEnds)

theorem ofRecords_unifyEnds (rs : List (List Text)) :
    ofRecords (rs.map (List.map Text.unifyEnds)) = (ofRecords rs).unifyEnds := by
  cases rs with
  | nil => rfl
  | cons header rows =>
    simp only [List.map_cons, ofRecords, unifyEnds, List.filter_map]
    congr 2
    exact List.filter_congr fun row _ => by simp

theorem isTidy_start : start.IsTidy := fun _ => rfl

theorem mirrors_start : Mirrors start start := ⟨rfl, rfl, Nat.le_refl _, rfl, rfl⟩

/-- **The records on standard input are those of the file, the line ends in their values unified.** -/
theorem records?_unified (hs : IsSeparator separator) {t : Text} {rs : List (List Text)}
    (h : records? separator (Text.lines .kept t) = some rs) :
    records? separator (Text.lines .unified t) = some (rs.map (List.map Text.unifyEnds)) := by
  obtain ⟨r, hr, rfl⟩ := Option.map_eq_some_iff.mp h
  obtain ⟨r', hr', hm⟩ := mirrors_start.text? hs isTidy_start (fun hp => by cases hp) hr
  exact Option.map_eq_some_iff.mpr ⟨r', hr', hm.finish⟩

theorem exists_read_iff (ends : Text.LineEnds) (t : Text) :
    (∃ d, read [separator] ends t = .ok d) ↔ records? separator (Text.lines ends t) ≠ none := by
  simp only [read_ok_iff, ne_eq, ← Option.isSome_iff_ne_none, Option.isSome_iff_exists]
  constructor
  · rintro ⟨_, rs, hrs, -⟩
    exact ⟨rs, hrs⟩
  · rintro ⟨rs, hrs⟩
    exact ⟨_, rs, hrs, rfl⟩

/-- **Standard input and a file with the same text give the same table.** Each of them is read unless a
field is too long in it, and nothing else is refused. If the file is read, so is standard input, and its
table is that of the file with a line feed for every line end in a value: it has the same records with
the same fields. -/
theorem readTable_read_unified (hs : IsSeparator separator) (t : Text) {fs : FileSystem} {path : Text}
    (hfile : fs.read path = .ok (Text.encode t)) :
    ((∃ d, fs.readTable [separator] path = .ok d) ↔ ¬Overfills separator (Text.lines .kept t)) ∧
    ((∃ d, read [separator] .unified t = .ok d) ↔ ¬Overfills separator (Text.lines .unified t)) ∧
    ∀ d, fs.readTable [separator] path = .ok d → read [separator] .unified t = .ok d.unifyEnds := by
  simp only [FileSystem.readTable_encode_iff hfile, exists_read_iff]
  refine ⟨not_congr (records?_eq_none_iff (endsTogether_kept t)),
    not_congr (records?_eq_none_iff (endsTogether_unified t)), fun d hd => ?_⟩
  obtain ⟨rs, hrs, rfl⟩ := (read_ok_iff _ _ _).mp hd
  exact (read_ok_iff _ _ _).mpr ⟨_, records?_unified hs hrs, ofRecords_unifyEnds rs⟩

/-- A text with all line ends, between its records and in quotes. -/
def mixedEnds : Text := "name;note\r\n1;\"a\r\nb\"\r2;\"c\rd\"\n".toList

/-- A file that holds this text. -/
def mixedFile : FileSystem where
  files := [(["t.csv".toList], Text.encode mixedEnds)]
  directories := []
  here := []

/-- Line ends in quotes stay as they are in a file, and are line feeds on standard input. -/
theorem readTable_read_mixed :
    IsSeparator ';' ∧ mixedFile.read "t.csv".toList = .ok (Text.encode mixedEnds) ∧
      mixedFile.readTable [';'] "t.csv".toList = .ok ⟨["name".toList, "note".toList],
        [["1".toList, "a\r\nb".toList], ["2".toList, "c\rd".toList]]⟩ ∧
      read [';'] .unified mixedEnds = .ok ⟨["name".toList, "note".toList],
        [["1".toList, "a\nb".toList], ["2".toList, "c\nd".toList]]⟩ := by
  have hs : IsSeparator ';' := ⟨by decide, by decide, by decide⟩
  have hfile : mixedFile.read "t.csv".toList = .ok (Text.encode mixedEnds) := rfl
  have hread : mixedFile.readTable [';'] "t.csv".toList = .ok ⟨["name".toList, "note".toList],
      [["1".toList, "a\r\nb".toList], ["2".toList, "c\rd".toList]]⟩ :=
    (FileSystem.readTable_encode_iff hfile _).mpr (by rfl)
  exact ⟨hs, hfile, hread, (readTable_read_unified hs mixedEnds hfile).2.2 _ hread⟩

end Table

end Anonymization
