import Anonymization.Proofs.Table.LineEnds
/-!
# The shape of a table

How many fields a record has is seen without reading them: one more than there are separators outside
quotes, and none where there is nothing but the end of the line.

* `Outline`, `widthsFrom` -- a text gone over for its quotes, separators and line ends alone;
* `Outline.Traces` -- what the reader knows of the widths, kept by each character and line end;
* `widths_of_text?` -- **the records that are read have the widths of the text**;
* `HasShapeOf`, `hasShapeOf_of_read` -- so a table has one width exactly if its text has;
* `exists_read_of_widths` -- **no widths are refused**.
-/

namespace Anonymization.Table

/-! ## 1. The outline of a text -/

/-- Where one stands in a text as far as quotes go. -/
inductive Spot where
  /-- Where a field may begin, with a quote or without. -/
  | opening
  | bare
  | quoted
  /-- Behind a quote inside quotes. -/
  | closing
  deriving DecidableEq

/-- What is seen of the record begun. -/
structure Outline where
  spot : Spot
  /-- The separators outside quotes. -/
  separators : Nat
  /-- There is nothing in the record. -/
  blank : Bool

namespace Outline

/-- Nothing is seen. -/
def start : Outline := ⟨.opening, 0, true⟩

/-- A separator, behind which a field may begin. -/
def divide (o : Outline) : Outline := ⟨.opening, o.separators + 1, false⟩

/-- A character that is part of a field. -/
def fill (o : Outline) (spot : Spot) : Outline := ⟨spot, o.separators, false⟩

/-- A character of a line end, which is in no field. -/
def close (o : Outline) : Outline := { o with spot := .bare }

/-- The next character. -/
def char (separator : Char) (o : Outline) (c : Char) : Outline :=
  match o.spot with
  | .opening =>
    if Reader.isLineEnd c then o.close
    else if c = quote then o.fill .quoted
    else if c = separator then o.divide
    else o.fill .bare
  | .bare =>
    if Reader.isLineEnd c then o.close
    else if c = separator then o.divide
    else o.fill .bare
  | .quoted => o.fill (if c = quote then .closing else .quoted)
  | .closing =>
    if c = quote then o.fill .quoted
    else if c = separator then o.divide
    else if Reader.isLineEnd c then o.close
    else o.fill .bare

/-- The fields of the record. -/
def width (o : Outline) : Nat := if o.blank then 0 else o.separators + 1

end Outline

/-- The widths of the records from here on. A record ends with its line, unless that ends in quotes, or
with the text. -/
def widthsFrom (separator : Char) (returns : Bool) (o : Outline) : Text → List Nat
  | [] => if o.spot = .quoted then [o.width] else []
  | c :: rest =>
    let o := o.char separator c
    if o.spot ≠ .quoted ∧ (Text.endsLine returns c rest || rest.isEmpty) = true then
      o.width :: widthsFrom separator returns .start rest
    else widthsFrom separator returns o rest

/-- The widths of the records of a text. -/
def widths (separator : Char) : Text.LineEnds → Text → List Nat
  | .lineFeed, t => widthsFrom separator false .start t
  | .kept, t => widthsFrom separator true .start t
  | .unified, t => widthsFrom separator false .start (Text.unifyEnds t)

/-! ## 2. The reader and the outline -/

open Reader

variable {separator : Char} {returns : Bool}

/-- Where the reader stands as far as quotes go. -/
def Phase.spot : Phase → Spot
  | startOfRecord | startOfField => .opening
  | inField | atLineEnd => .bare
  | inQuotes => .quoted
  | afterQuote => .closing

/-- What is seen where the reader comes to a phase. -/
def Outline.follow (o : Outline) : Phase → Outline
  | .startOfField => o.divide
  | .atLineEnd => o.close
  | p => o.fill p.spot

/-- The phase to which the reader comes, if it goes on. -/
def Reader.Act.phase? : Reader.Act → Option Phase
  | turn p | complete p | add p => some p
  | refuse => none

/-- **The outline shows where the reader goes.** -/
theorem char_eq_follow {o : Outline} {p q : Phase} {c : Char} (hspot : o.spot = p.spot)
    (hq : (p.act separator c).phase? = some q) : o.char separator c = o.follow q := by
  unfold Outline.char
  rw [hspot]
  cases p <;> simp only [Phase.act, Phase.openingAct] at hq <;> simp only [Phase.spot] <;>
    split_ifs at hq ⊢ <;> cases hq <;> rfl

/-- The fields of the record of which `n` are complete, the one begun included. -/
def Phase.begun (n : Nat) : Phase → Nat
  | startOfRecord | atLineEnd => n
  | startOfField | inField | inQuotes | afterQuote => n + 1

/-- The fields of a record where the reader comes to a phase, `n` having been begun. -/
def Phase.count (n : Nat) : Phase → Nat
  | startOfField => max n 1 + 1
  | atLineEnd => n
  | _ => max n 1

theorem width_follow {o : Outline} (h : o.blank = true → o.separators = 0) (q : Phase) :
    (o.follow q).width = q.count o.width := by
  cases hblank : o.blank with
  | true => cases q <;> simp [Outline.follow, Outline.divide, Outline.fill, Outline.close, Outline.width, Phase.count,
      hblank, h hblank]
  | false => cases q <;> simp [Outline.follow, Outline.divide, Outline.fill, Outline.close, Outline.width, Phase.count,
      hblank]

/-- The fields that are complete with an act. -/
def Reader.Act.completed : Reader.Act → Nat
  | complete _ => 1
  | _ => 0

theorem Reader.Act.of_apply {s s' : Reader} {c : Char} {a : Act} (h : a.apply s c = some s') :
    a.phase? = some s'.phase ∧ s'.record.length = s.record.length + a.completed ∧
      s'.records = s.records := by
  cases a with
  | turn p =>
    cases h
    exact ⟨rfl, rfl, rfl⟩
  | complete p =>
    cases h
    exact ⟨rfl, rfl, rfl⟩
  | add p =>
    have hadd : s.add? p c = some s' := h
    unfold add? at hadd
    split at hadd
    · cases hadd
    · cases hadd
      exact ⟨rfl, rfl, rfl⟩
  | refuse => cases h

/-- The fields begun are counted with the phases. -/
theorem begun_act {p q : Phase} {c : Char} {n : Nat} (hstart : p = .startOfRecord → n = 0)
    (hq : (p.act separator c).phase? = some q) :
    q.begun (n + (p.act separator c).completed) = q.count (p.begun n) ∧ q ≠ .startOfRecord := by
  cases p with
  | startOfRecord =>
    obtain rfl := hstart rfl
    simp only [Phase.act, Phase.openingAct] at hq ⊢
    split_ifs at hq ⊢ <;> cases hq <;> exact ⟨rfl, by decide⟩
  | startOfField | inField | inQuotes | afterQuote | atLineEnd =>
    simp only [Phase.act, Phase.openingAct] at hq ⊢
    split_ifs at hq ⊢ <;> cases hq <;> simp [Act.completed, Phase.begun, Phase.count]

/-- The outline shows what the reader knows. -/
structure Outline.Traces (o : Outline) (s : Reader) : Prop where
  spot : o.spot = s.phase.spot
  width : o.width = s.phase.begun s.record.length
  /-- A blank record has no separators. -/
  blank : o.blank = true → o.separators = 0
  start : s.phase = .startOfRecord → o.blank = true

namespace Outline.Traces

variable {o : Outline} {s s' : Reader}

/-- **One character.** -/
theorem char? {c : Char} (h : o.Traces s) (hc : Reader.char? separator s c = some s') :
    (o.char separator c).Traces s' ∧ s'.records = s.records := by
  rw [char?_eq] at hc
  obtain ⟨hq, hrecord, hrecords⟩ := Act.of_apply hc
  have hempty : s.phase = .startOfRecord → s.record.length = 0 := by
    intro hp
    have hwidth := h.width
    rw [Outline.width, if_pos (h.start hp), hp] at hwidth
    exact hwidth.symm
  obtain ⟨hcount, hne⟩ := begun_act hempty hq
  rw [char_eq_follow h.spot hq]
  refine ⟨⟨?_, ?_, ?_, fun hp => absurd hp hne⟩, hrecords⟩
  · cases s'.phase <;> rfl
  · rw [width_follow h.blank, h.width, hrecord, hcount]
  · intro hblank
    -- only a line end leaves a record blank
    cases hp : s'.phase <;> rw [hp] at hblank <;> first | cases hblank | exact h.blank hblank

/-- The reader is in quotes exactly if the outline is. -/
theorem quoted_iff (h : o.Traces s) : o.spot = .quoted ↔ s.phase = .inQuotes := by
  rw [h.spot]
  cases s.phase <;> simp [Phase.spot]

/-- **The end of a line** outside quotes completes a record. -/
theorem lineEnd (h : o.Traces s) (hp : s.phase ≠ .inQuotes) :
    Outline.start.Traces s.lineEnd ∧ s.lineEnd.records.map List.length = o.width :: s.records.map List.length := by
  rw [h.width]
  unfold Reader.lineEnd
  cases hphase : s.phase with
  | inQuotes => exact absurd hphase hp
  | startOfRecord | atLineEnd =>
    refine ⟨⟨rfl, rfl, fun _ => rfl, fun _ => rfl⟩, ?_⟩
    simp [saveRecord, Phase.begun]
  | startOfField | inField | afterQuote =>
    refine ⟨⟨rfl, rfl, fun _ => rfl, fun _ => rfl⟩, ?_⟩
    simp [saveRecord, saveField, Phase.begun]

/-- The end of the text. -/
theorem finish (h : o.Traces s) : s.finish.map List.length =
    s.records.reverse.map List.length ++ if o.spot = .quoted then [o.width] else [] := by
  unfold Reader.finish
  rw [if_congr h.quoted_iff rfl rfl, h.width]
  split
  · next hp => simp [saveRecord, saveField, hp, Phase.begun]
  · simp

end Outline.Traces

/-- **The records that are read have the widths of the text.** -/
theorem widths_of_text? {o : Outline} {s s' : Reader} {t : Text} (h : o.Traces s)
    (ht : text? separator returns s t = some s') : s'.finish.map List.length =
      s.records.reverse.map List.length ++ widthsFrom separator returns o t := by
  induction t generalizing o s with
  | nil =>
    cases ht
    exact h.finish
  | cons c rest ih =>
    rw [text?_cons] at ht
    obtain ⟨s₁, h₁, ht⟩ := Option.bind_eq_some_iff.mp ht
    obtain ⟨htraces, hrecords⟩ := h.char? h₁
    rw [← hrecords]
    unfold widthsFrom
    dsimp only
    by_cases hend : (Text.endsLine returns c rest || rest.isEmpty) = true
    · have hbehind : s₁.behind returns c rest = s₁.lineEnd := if_pos hend
      rw [hbehind] at ht
      by_cases hp : s₁.phase = .inQuotes
      · have hsame : s₁.lineEnd = s₁ := by rw [Reader.lineEnd, hp]
        rw [if_neg (fun hboth => hboth.1 (htraces.quoted_iff.mpr hp))]
        exact ih htraces (hsame ▸ ht)
      · obtain ⟨hstart, hline⟩ := htraces.lineEnd hp
        rw [if_pos ⟨mt htraces.quoted_iff.mp hp, hend⟩, ih hstart ht, List.map_reverse, hline, List.map_reverse]
        simp
    · have hbehind : s₁.behind returns c rest = s₁ := if_neg hend
      rw [hbehind] at ht
      rw [if_neg (fun hboth => hend hboth.2)]
      exact ih htraces ht

theorem traces_start : Outline.start.Traces Reader.start := ⟨rfl, rfl, fun _ => rfl, fun _ => rfl⟩

/-- **The records of a text have its widths.** -/
theorem widths_of_records? {ends : Text.LineEnds} {t : Text} {rs : List (List Text)}
    (h : records? separator (Text.lines ends t) = some rs) : rs.map List.length = widths separator ends t := by
  obtain ⟨s, hs, rfl⟩ := Option.map_eq_some_iff.mp h
  cases ends with
  | lineFeed => exact widths_of_text? traces_start hs
  | kept => exact widths_of_text? traces_start hs
  | unified => exact widths_of_text? traces_start hs

/-! ## 3. Tables -/

/-- Every record has one value for each column. -/
def IsRectangular (d : Table) : Prop :=
  ∀ r ∈ d.rows, r.length = d.header.length

/-- The shape of a table is that of a text: its header is as wide as the first record, and its rows as the
others that are not blank. -/
structure HasShapeOf (separator : Char) (ends : Text.LineEnds) (t : Text) (d : Table) : Prop where
  header : d.header.length = (widths separator ends t).headD 0
  rows : d.rows.map List.length = (widths separator ends t).tail.filter (· ≠ 0)
  /-- It is rectangular exactly if all records of the text that are not blank are as wide as the first. -/
  rectangular : d.IsRectangular ↔
    ∀ w ∈ (widths separator ends t).tail, w ≠ 0 → w = (widths separator ends t).headD 0

theorem exists_char_of_read {separator : Text} {ends : Text.LineEnds} {t : Text} {d : Table}
    (h : read separator ends t = .ok d) : ∃ c, separator = [c] := by
  obtain ⟨rs, hrs, -⟩ := (Outcome.map_ok_iff _ _ _).mp h
  unfold readRecords at hrs
  split at hrs
  · exact ⟨_, rfl⟩
  · cases hrs

/-- **A table has the shape of its text.** -/
theorem hasShapeOf_of_read {ends : Text.LineEnds} {t : Text} {d : Table}
    (h : read [separator] ends t = .ok d) : HasShapeOf separator ends t d := by
  obtain ⟨rs, hrs, rfl⟩ := (read_ok_iff _ _ _).mp h
  have hwidths := widths_of_records? hrs
  have hheader : (ofRecords rs).header.length = (widths separator ends t).headD 0 := by
    rw [← hwidths]
    cases rs <;> rfl
  have hrows : (ofRecords rs).rows.map List.length = (widths separator ends t).tail.filter (· ≠ 0) := by
    rw [← hwidths]
    cases rs with
    | nil => rfl
    | cons r rs =>
      simp only [ofRecords, List.map_cons, List.tail_cons, List.filter_map]
      congr 2
      funext r
      cases r <;> rfl
  refine ⟨hheader, hrows, ?_⟩
  have hall : (ofRecords rs).IsRectangular ↔
      ∀ w ∈ (ofRecords rs).rows.map List.length, w = (ofRecords rs).header.length := by
    simp [IsRectangular]
  rw [hall, hrows, hheader]
  simp

/-- **No widths are refused.** There is a table of any widths, none but its header blank, that is read as it
is written. -/
theorem exists_read_of_widths (hs : IsSeparator separator) (w : Nat) {ws : List Nat} (hws : 0 ∉ ws) :
    ∃ (d : Table) (t : Text), d.header.length = w ∧ d.rows.map List.length = ws ∧
      d.write [separator] = .ok t ∧ ∀ ends, read [separator] ends t = .ok d := by
  let d : Table := ⟨List.replicate w [], ws.map fun n => List.replicate n []⟩
  have hempty : ∀ r ∈ d.records, ∀ v ∈ r, v = [] := by
    simp only [records, List.forall_mem_cons, d, List.forall_mem_map]
    exact ⟨fun v hv => List.eq_of_mem_replicate hv, fun n _ v hv => List.eq_of_mem_replicate hv⟩
  have hrows : d.HasNoBlankRow := by
    intro r hr
    obtain ⟨n, hn, rfl⟩ := List.mem_map.mp hr
    rw [Ne, List.replicate_eq_nil_iff]
    exact fun h => hws (h ▸ hn)
  have hfields : ∀ r ∈ d.records, ∀ v ∈ r, '\r' ∉ v ∧ v.length ≤ fieldLimit := by
    intro r hr v hv
    rw [hempty r hr v hv]
    exact ⟨List.not_mem_nil, Nat.zero_le _⟩
  obtain ⟨t, hwrite, hread, -⟩ := read_write hs d hrows hfields
  refine ⟨d, t, List.length_replicate, ?_, hwrite, hread⟩
  simp [d, Function.comp_def]

end Anonymization.Table
