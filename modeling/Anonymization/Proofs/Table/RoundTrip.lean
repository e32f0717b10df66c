import Anonymization.Files
import Anonymization.Proofs.Outcome
import Anonymization.Proofs.Table.Returns
import Anonymization.Proofs.Text.Lines
/-!
# A table, written and read again

* `read_ok_iff`, `readTable_ok_iff`, `readTable_encode_iff` -- which table a text holds, and which a file;
* `read_recordsText`, `shieldsReturns_of_read` -- a table whose carriage returns all stand in quotes
  is read again; one that is read again is such a table;
* `read_write` -- a table without carriage returns is read again, however line ends are treated.
-/

namespace Anonymization

namespace Table

variable {separator : Char}

/-! ## 1. Texts -/

/-- All records of a table, the header first. -/
def records (t : Table) : List (List Text) :=
  t.header :: t.rows

/-- No record after the header is blank. -/
def HasNoBlankRow (t : Table) : Prop :=
  ∀ r ∈ t.rows, r ≠ []

theorem write_eq (separator : Char) (t : Table) :
    t.write [separator] = .ok (recordsText separator t.records) := rfl

theorem read_ok_iff (ends : Text.LineEnds) (t : Text) (d : Table) :
    read [separator] ends t = .ok d ↔
      ∃ rs, records? separator (Text.lines ends t) = some rs ∧ ofRecords rs = d := by
  unfold read
  rw [Outcome.map_ok_iff]
  simp only [readRecords]
  cases records? separator (Text.lines ends t) with
  | none => simp
  | some rs => simp

theorem ofRecords_records {d : Table} (h : d.HasNoBlankRow) : ofRecords d.records = d := by
  have hkeep : d.rows.filter (fun row => !row.isEmpty) = d.rows :=
    List.filter_eq_self.mpr fun r hr => by simpa using h r hr
  show Table.mk d.header (d.rows.filter fun row => !row.isEmpty) = d
  rw [hkeep]

/-- A table of some records has no blank row, and holds nothing that the records do not hold. -/
theorem hasNoBlankRow_ofRecords (rs : List (List Text)) : (ofRecords rs).HasNoBlankRow := by
  intro r hr
  cases rs with
  | nil => exact absurd hr List.not_mem_nil
  | cons header rows => simpa using (List.mem_filter.mp hr).2

theorem keepFieldLimit_ofRecords {rs : List (List Text)} (h : KeepFieldLimit rs) :
    KeepFieldLimit (ofRecords rs).records := by
  cases rs with
  | nil =>
    intro r hr
    obtain rfl := List.mem_singleton.mp hr
    exact fun v hv => absurd hv List.not_mem_nil
  | cons header rows =>
    intro r hr
    rcases List.mem_cons.mp hr with rfl | hr
    · exact h _ List.mem_cons_self
    · exact h r (List.mem_cons_of_mem _ (List.mem_filter.mp hr).1)

/-- Blank records hold no carriage return. -/
theorem returnsIn_ofRecords (rs : List (List Text)) : returnsIn (ofRecords rs).records = returnsIn rs := by
  cases rs with
  | nil => rfl
  | cons header rows =>
    show returnsIn (header :: rows.filter fun row => !row.isEmpty) = _
    rw [returnsIn_cons, returnsIn_cons]
    congr 1
    induction rows with
    | nil => rfl
    | cons r rows ih =>
      cases r with
      | nil => simpa using ih
      | cons v vs => simpa using ih

/-- **A table whose carriage returns all stand in quotes is read again.** -/
theorem read_recordsText (hs : IsSeparator separator) {d : Table} (hrows : d.HasNoBlankRow)
    (hread : ∀ r ∈ d.records, IsReadable separator r) :
    read [separator] .kept (recordsText separator d.records) = .ok d ∧
      read [separator] .lineFeed (recordsText separator d.records) = .ok d :=
  ⟨(read_ok_iff _ _ _).mpr ⟨_, records?_recordsText hs hread, ofRecords_records hrows⟩,
    (read_ok_iff _ _ _).mpr ⟨_, records?_recordsText hs hread, ofRecords_records hrows⟩⟩

/-- **In a table that is read again all carriage returns stand in quotes.** -/
theorem shieldsReturns_of_read (hs : IsSeparator separator) {d : Table} (hlimit : KeepFieldLimit d.records)
    (h : read [separator] .kept (recordsText separator d.records) = .ok d) :
    ∀ r ∈ d.records, ∀ v ∈ r, ShieldsReturns separator v := by
  intro r hr v hv
  by_contra hbad
  obtain ⟨rs, hrs, hd⟩ := (read_ok_iff _ _ _).mp h
  have hlt := returnsIn_lt hs hlimit ⟨r, hr, v, hv, hbad⟩ hrs
  rw [← returnsIn_ofRecords rs, hd] at hlt
  exact absurd hlt (Nat.lt_irrefl _)

end Table

/-! ## 2. Files -/

/-- What was encoded is decoded again. -/
theorem Text.decode?_encode (t : Text) : Text.decode? (Text.encode t) = some t := by
  unfold Text.decode? Text.encode
  simp only [String.fromUTF8?, String.toUTF8_eq_toByteArray, dif_pos (String.ofList t).isValidUTF8]
  exact congrArg some String.toList_ofList

open Table

variable {separator : Char}

/-- The records of a file are those of its text. -/
theorem FileSystem.readRecords_of_read {fs : FileSystem} {path : Text} {bytes : ByteArray}
    (h : fs.read path = .ok bytes) :
    fs.readRecords [separator] path =
      match Text.decode? bytes with
      | some t => Table.readRecords [separator] .kept t
      | none => .error (.defect .undecodable) := by
  unfold FileSystem.readRecords
  rw [h]
  rfl

/-- The text of a file is that of its bytes. -/
theorem FileSystem.readText_of_read {fs : FileSystem} {path t : Text} {bytes : ByteArray}
    (h : fs.read path = .ok bytes) (ht : Text.decode? bytes = some t) : fs.readText path = .ok t :=
  (Outcome.bind_ok_iff _ _ _).mpr ⟨bytes, h, by rw [ht]; rfl⟩

/-- Only a separator of one character makes a file a table. -/
theorem FileSystem.exists_char_of_readTable {fs : FileSystem} {separator path : Text} {d : Table}
    (h : fs.readTable separator path = .ok d) : ∃ c, separator = [c] := by
  obtain ⟨rs, hrs, -⟩ := (Outcome.map_ok_iff _ _ _).mp h
  obtain ⟨bytes, -, hrs⟩ := (Outcome.bind_ok_iff _ _ _).mp hrs
  by_cases hlength : separator.length = 1
  · exact List.length_eq_one_iff.mp hlength
  · rw [if_pos hlength] at hrs
    cases hrs

/-- **Which table a file holds.** -/
theorem FileSystem.readTable_ok_iff (fs : FileSystem) (path : Text) (d : Table) :
    fs.readTable [separator] path = .ok d ↔ ∃ bytes t, fs.read path = .ok bytes ∧
      Text.decode? bytes = some t ∧ Table.read [separator] .kept t = .ok d := by
  unfold FileSystem.readTable
  cases hbytes : fs.read path with
  | error e =>
    have hfails : fs.readRecords [separator] path = .error e := by
      unfold FileSystem.readRecords
      rw [hbytes]
      rfl
    rw [hfails]
    constructor
    · intro h
      cases h
    · rintro ⟨bytes, t, h, -⟩
      cases h
  | ok bytes =>
    rw [FileSystem.readRecords_of_read hbytes]
    constructor
    · intro h
      cases ht : Text.decode? bytes with
      | none =>
        rw [ht] at h
        cases h
      | some t =>
        rw [ht] at h
        exact ⟨bytes, t, rfl, ht, h⟩
    · rintro ⟨bytes', t, hb, ht, h⟩
      rw [Except.ok.inj hb, ht]
      exact h

/-- The table of a file that holds a text. -/
theorem FileSystem.readTable_encode_iff {fs : FileSystem} {path t : Text}
    (h : fs.read path = .ok (Text.encode t)) (d : Table) :
    fs.readTable [separator] path = .ok d ↔ Table.read [separator] .kept t = .ok d := by
  rw [fs.readTable_ok_iff, h]
  constructor
  · rintro ⟨bytes, t', hb, ht, hread⟩
    rw [← Except.ok.inj hb, Text.decode?_encode, Option.some.injEq] at ht
    exact ht ▸ hread
  · intro hread
    exact ⟨_, t, rfl, Text.decode?_encode t, hread⟩

namespace Table

/-- **A table is read as it was written** if it has no blank row, no field too long and no carriage
return: from the text, however its line ends are treated, and from a file that holds the text. -/
theorem read_write (hs : IsSeparator separator) (d : Table) (hrows : d.HasNoBlankRow)
    (hfields : ∀ r ∈ d.records, ∀ v ∈ r, '\r' ∉ v ∧ v.length ≤ fieldLimit) :
    ∃ t, d.write [separator] = .ok t ∧ (∀ ends, read [separator] ends t = .ok d) ∧
      ∀ (fs : FileSystem) path, fs.read path = .ok (Text.encode t) →
        fs.readTable [separator] path = .ok d := by
  have hreadable : ∀ r ∈ d.records, IsReadable separator r :=
    fun r hr v hv => ⟨fun h => absurd h (hfields r hr v hv).1, (hfields r hr v hv).2⟩
  obtain ⟨hkept, hfeed⟩ := read_recordsText hs hrows hreadable
  have hnone : '\r' ∉ recordsText separator d.records := by
    rw [← List.count_eq_zero, count_recordsText hs, returnsIn, List.count_eq_zero]
    intro h
    obtain ⟨v, hv, hmem⟩ := List.mem_flatten.mp h
    obtain ⟨r, hr, hv⟩ := List.mem_flatten.mp hv
    exact (hfields r hr v hv).1 hmem
  refine ⟨_, write_eq separator d, fun ends => ?_,
    fun fs path hfile => (FileSystem.readTable_encode_iff hfile d).mpr hkept⟩
  cases ends with
  | lineFeed => exact hfeed
  | kept => exact hkept
  | unified =>
    rw [read_ok_iff, Text.lines, Text.unifyEnds_of_not_mem hnone]
    exact (read_ok_iff .lineFeed _ _).mp hfeed

/-- A header without fields, a field with a separator, quotes and a line feed, and one that is empty. -/
def awkward : Table where
  header := []
  rows := [["a;\"b\"\nc".toList, [], " d ".toList], [[]]]

/-- A file that holds this table. -/
def awkwardFile : FileSystem where
  files := [(["t.csv".toList], Text.encode (recordsText ';' awkward.records))]
  directories := []
  here := []

/-- An awkward table is read as it was written. -/
theorem read_write_awkward :
    IsSeparator ';' ∧ awkward.HasNoBlankRow ∧
      (∀ r ∈ awkward.records, ∀ v ∈ r, '\r' ∉ v ∧ v.length ≤ fieldLimit) ∧
      read [';'] .lineFeed "\n\"a;\"\"b\"\"\nc\";; d \n\"\"\n".toList = .ok awkward ∧
      awkwardFile.readTable [';'] "t.csv".toList = .ok awkward := by
  have hs : IsSeparator ';' := ⟨by decide, by decide, by decide⟩
  have hrows : awkward.HasNoBlankRow := by unfold HasNoBlankRow; decide
  have hfields : ∀ r ∈ awkward.records, ∀ v ∈ r, '\r' ∉ v ∧ v.length ≤ fieldLimit := by decide
  obtain ⟨t, hwrite, hread, hfile⟩ := read_write hs awkward hrows hfields
  obtain rfl : recordsText ';' awkward.records = t := Except.ok.inj hwrite
  exact ⟨hs, hrows, hfields, hread .lineFeed, hfile awkwardFile _ rfl⟩

end Table

end Anonymization
