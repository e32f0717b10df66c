import Anonymization.Engine.Runner
import Anonymization.Proofs.Table.RoundTrip
import Anonymization.Proofs.Table.Widths
/-!
# What the engine is handed

The engine finds its input table as a text in its working directory.

* `input_of_started` -- it is the table as it is written with the separator of the configuration;
* `readTable_facts` -- what a table that was read from a file is always like;
* `handed_over_iff` -- **the engine reads the table that was read from the file exactly if no value
  holds a carriage return with nothing beside it that puts the value in quotes**;
* `handed_over_broken` -- a table that does not survive;
* `shape_handed_over` -- **a table is as wide as its text, record by record, and is handed over with
  whatever widths it has**.
-/

namespace Anonymization

open Table

/-! ## 1. The input of the engine -/

/-- **What the engine is started with is the table, written.** -/
theorem Runner.input_of_started {r : Runner} {fs : FileSystem} {programs : Programs} {directory : Text}
    {d : Table} {config : Config} {invocation : Invocation}
    (h : .started invocation ∈ (r.anonymize fs programs directory d config).events) :
    d.write config.separator = .ok invocation.input := by
  unfold anonymize at h
  -- the program is started behind four steps that may each fail, and two lines of the log
  rcases (Traced.mem_events_bind _ _ _).mp h with h | ⟨_, -, h⟩
  · cases List.mem_singleton.mp h
  rcases (Traced.mem_events_bind _ _ _).mp h with h | ⟨runner, -, h⟩
  · cases h
  rcases (Traced.mem_events_bind _ _ _).mp h with h | ⟨⟨java, program⟩, -, h⟩
  · cases h
  rcases (Traced.mem_events_bind _ _ _).mp h with h | ⟨input, hwrite, h⟩
  · cases h
  rcases (Traced.mem_events_bind _ _ _).mp h with h | ⟨manifest, -, h⟩
  · cases h
  rcases (Traced.mem_events_bind _ _ _).mp h with h | ⟨_, -, h⟩
  · cases List.mem_singleton.mp h
  rcases (Traced.mem_events_bind _ _ _).mp h with h | ⟨_, -, h⟩
  · cases List.mem_singleton.mp h
  rcases (Traced.mem_events_bind _ _ _).mp h with h | ⟨_, -, h⟩
  · cases List.mem_singleton.mp h
    exact hwrite
  rcases (Traced.mem_events_bind _ _ _).mp h with h | ⟨_, -, h⟩
  · cases List.mem_singleton.mp h
  · cases h

/-! ## 2. A table that was read -/

variable {separator : Char}

/-- A table that was read from a file has no blank row and no field too long. -/
theorem readTable_facts {fs : FileSystem} {path : Text} {d : Table}
    (h : fs.readTable [separator] path = .ok d) : d.HasNoBlankRow ∧ KeepFieldLimit d.records := by
  obtain ⟨bytes, t, -, -, hread⟩ := (fs.readTable_ok_iff path d).mp h
  obtain ⟨rs, hrs, rfl⟩ := (read_ok_iff _ _ _).mp hread
  exact ⟨hasNoBlankRow_ofRecords rs, keepFieldLimit_ofRecords (keepFieldLimit_of_records? hrs)⟩

/-- **Exactly which tables survive the hand-over.** A table was read from a file. The engine is handed
the table as it is written, and reads the same table from it exactly if each value with a carriage
return also holds the separator, a quote or a line feed, and so is written in quotes. -/
theorem handed_over_iff (hs : IsSeparator separator) {fs : FileSystem} {path : Text} {d : Table}
    (hread : fs.readTable [separator] path = .ok d) :
    ∃ input, d.write [separator] = .ok input ∧
      (∀ (r : Runner) (fs' : FileSystem) programs directory (config : Config) invocation,
        config.separator = [separator] →
        .started invocation ∈ (r.anonymize fs' programs directory d config).events →
          invocation.input = input) ∧
      ∀ (fs' : FileSystem) path', fs'.read path' = .ok (Text.encode input) →
        (fs'.readTable [separator] path' = .ok d ↔
          ∀ r ∈ d.records, ∀ v ∈ r, '\r' ∈ v → separator ∈ v ∨ quote ∈ v ∨ '\n' ∈ v) := by
  obtain ⟨hrows, hlimit⟩ := readTable_facts hread
  refine ⟨recordsText separator d.records, write_eq separator d, ?_, ?_⟩
  · intro r fs' programs directory config invocation hseparator hstarted
    have hwrite := Runner.input_of_started hstarted
    rw [hseparator, write_eq] at hwrite
    exact (Except.ok.inj hwrite).symm
  · intro fs' path' hfile
    have hshields : ∀ v : Text, ShieldsReturns separator v ↔
        ('\r' ∈ v → separator ∈ v ∨ quote ∈ v ∨ '\n' ∈ v) := by
      intro v
      unfold ShieldsReturns
      rw [wantsQuotes_iff]
    rw [FileSystem.readTable_encode_iff hfile]
    simp only [← hshields]
    constructor
    · exact shieldsReturns_of_read hs hlimit
    · intro h
      exact (read_recordsText hs hrows fun r hr v hv => ⟨h r hr v hv, hlimit r hr v hv⟩).1

/-- A file with a carriage return in quotes. -/
def quotedReturn : Text := "name\n\"a\rb\"\n".toList

/-- A file system in which the first file holds a text and the second what is made of it. -/
def twoFiles (first second : Text) : FileSystem where
  files := [(["data.csv".toList], Text.encode first), (["input.csv".toList], Text.encode second)]
  directories := []
  here := []

/-- **A value with a carriage return is torn in two on its way to the engine.** -/
theorem handed_over_broken :
    (twoFiles quotedReturn "name\na\rb\n".toList).readTable [';'] "data.csv".toList =
        .ok ⟨["name".toList], [["a\rb".toList]]⟩ ∧
      Table.write [';'] ⟨["name".toList], [["a\rb".toList]]⟩ = .ok "name\na\rb\n".toList ∧
      (twoFiles quotedReturn "name\na\rb\n".toList).readTable [';'] "input.csv".toList =
        .ok ⟨["name".toList], [["a".toList], ["b".toList]]⟩ := by
  refine ⟨?_, by rfl, ?_⟩
  · exact (FileSystem.readTable_encode_iff (t := quotedReturn) rfl _).mpr (by rfl)
  · exact (FileSystem.readTable_encode_iff (t := "name\na\rb\n".toList) rfl _).mpr (by rfl)

/-- A file with a carriage return and a separator in quotes, as it is written again. -/
def shieldedReturn : Text := "name\n\"a\r;b\"\n".toList

/-- The table of this file. -/
def shieldedTable : Table := ⟨["name".toList], [["a\r;b".toList]]⟩

/-- A file system in which this file, what is made of it, and the engine lie. -/
def workplace : FileSystem where
  files := [(["data.csv".toList], Text.encode shieldedReturn),
    (["input.csv".toList], Text.encode shieldedReturn), (["runner.jar".toList], .empty),
    (["java".toList], .empty)]
  directories := []
  here := []

/-- A configuration that asks for nothing. -/
def idle : Config where
  attributes := ⟨[], [], [], []⟩
  criteria := []
  dataTypes := []
  subset := none
  metric := .entropy
  suppression := .zero
  practicalMonotonicity := false
  hierarchies := []
  separator := [';']

/-- An engine in the working directory. -/
def localEngine : Runner where
  path := .text "runner.jar".toList
  java := .text "./java".toList

/-- A program that ends without a word. -/
def silent : Programs := [(["java".toList], fun _ => ⟨0, [], none⟩)]

/-- A table with a carriage return survives the hand-over. -/
theorem handed_over_shielded :
    IsSeparator ';' ∧ workplace.readTable [';'] "data.csv".toList = .ok shieldedTable ∧
      (∃ invocation, .started invocation ∈
          (localEngine.anonymize workplace silent "work".toList shieldedTable idle).events ∧
        invocation.input = shieldedReturn) ∧
      workplace.readTable [';'] "input.csv".toList = .ok shieldedTable := by
  have hs : IsSeparator ';' := ⟨by decide, by decide, by decide⟩
  have hread : workplace.readTable [';'] "data.csv".toList = .ok shieldedTable :=
    (FileSystem.readTable_encode_iff (t := shieldedReturn) rfl _).mpr (by rfl)
  obtain ⟨input, hwrite, hinput, hback⟩ := handed_over_iff hs hread
  obtain rfl : shieldedReturn = input := Except.ok.inj hwrite
  have hstarted : ∃ invocation, .started invocation ∈
      (localEngine.anonymize workplace silent "work".toList shieldedTable idle).events :=
    ⟨_, .tail _ (.tail _ (.tail _ (.head _)))⟩
  obtain ⟨invocation, hstarted⟩ := hstarted
  exact ⟨hs, hread, ⟨invocation, hstarted, hinput _ _ _ _ _ _ rfl hstarted⟩,
    (hback workplace _ rfl).mpr (by decide)⟩

/-! ## 3. The shape of what is handed over -/

/-- A table is read from a text, or from a file that holds the text. -/
inductive IsReadFrom (separator : Text) (d : Table) : Text.LineEnds → Text → Prop where
  | text {ends : Text.LineEnds} {t : Text} (h : read separator ends t = .ok d) : IsReadFrom separator d ends t
  | file {fs : FileSystem} {path t : Text} {bytes : ByteArray} (hbytes : fs.read path = .ok bytes)
      (ht : Text.decode? bytes = some t) (h : fs.readTable separator path = .ok d) :
      IsReadFrom separator d .kept t

/-- What is read from a file is read from its text. -/
theorem IsReadFrom.read_ok {separator : Text} {d : Table} {ends : Text.LineEnds} {t : Text}
    (h : IsReadFrom separator d ends t) : read separator ends t = .ok d := by
  cases h with
  | text h => exact h
  | @file fs path _ _ hbytes ht h =>
    obtain ⟨c, rfl⟩ := FileSystem.exists_char_of_readTable h
    obtain ⟨bytes', t', hbytes', ht', hread⟩ := (fs.readTable_ok_iff path d).mp h
    obtain rfl := Except.ok.inj (hbytes.symm.trans hbytes')
    obtain rfl := Option.some.inj (ht.symm.trans ht')
    exact hread

/-- **A table has the shape of its text, and is handed over with whatever shape it has.** A table that is read
is as wide as the text, record by record, and so rectangular exactly if all records of the text that are not
blank have as many separators outside quotes as the first. No widths are refused: there are tables of any
widths that are read, and with which the engine is started. -/
theorem shape_handed_over (separator : Text) :
    (∀ d ends t, IsReadFrom separator d ends t → ∃ c, separator = [c] ∧ HasShapeOf c ends t d) ∧
    ∀ c, separator = [c] → IsSeparator c → ∀ w ws, 0 ∉ ws → ∃ (d : Table) (t : Text),
      d.header.length = w ∧ d.rows.map List.length = ws ∧ (∀ ends, IsReadFrom separator d ends t) ∧
      ∀ (r : Runner) (fs : FileSystem) programs directory (config : Config) invocation,
        config.separator = separator →
        .started invocation ∈ (r.anonymize fs programs directory d config).events → invocation.input = t := by
  constructor
  · intro d ends t h
    obtain ⟨c, rfl⟩ := exists_char_of_read h.read_ok
    exact ⟨c, rfl, hasShapeOf_of_read h.read_ok⟩
  · rintro c rfl hs w ws hws
    obtain ⟨d, t, hheader, hrows, hwrite, hread⟩ := exists_read_of_widths hs w hws
    refine ⟨d, t, hheader, hrows, fun ends => .text (hread ends), ?_⟩
    intro r fs programs directory config invocation hseparator hstarted
    have hinput := Runner.input_of_started hstarted
    rw [hseparator, hwrite] at hinput
    exact (Except.ok.inj hinput).symm

/-- A text with a record that is too short, a blank one, and one that is too wide for its quotes. -/
def raggedText : Text := "a;b\n1\n\n\"2;3\";4;5\n".toList

/-- Its table. -/
def raggedTable : Table :=
  ⟨["a".toList, "b".toList], [["1".toList], ["2;3".toList, "4".toList, "5".toList]]⟩

theorem read_raggedText : read [';'] .kept raggedText = .ok raggedTable := by rfl

/-- The widths of a ragged text, and of its table. -/
theorem shape_of_raggedText :
    IsReadFrom [';'] raggedTable .kept raggedText ∧ HasShapeOf ';' .kept raggedText raggedTable ∧
      widths ';' .kept raggedText = [2, 1, 0, 3] := by
  have hread : IsReadFrom [';'] raggedTable .kept raggedText := .text read_raggedText
  obtain ⟨c, hc, hshape⟩ := (shape_handed_over [';']).1 _ _ _ hread
  obtain rfl := List.singleton_inj.mp hc
  exact ⟨hread, hshape, by decide⟩

/-- **A table that is not rectangular is read, and handed to the engine.** -/
theorem ragged_handed_over : read [';'] .kept raggedText = .ok raggedTable ∧ ¬raggedTable.IsRectangular ∧
    ∃ invocation, .started invocation ∈
        (localEngine.anonymize workplace silent "work".toList raggedTable idle).events ∧
      invocation.input = "a;b\n1\n\"2;3\";4;5\n".toList := by
  refine ⟨read_raggedText, ?_, ?_⟩
  · intro h
    exact absurd (h ["1".toList] List.mem_cons_self) (by decide)
  · exact ⟨_, .tail _ (.tail _ (.tail _ (.head _))), by rfl⟩

end Anonymization
