import Anonymization.Database.Connection
import Anonymization.Engine.Runner
import Anonymization.Table.Separator
/-!
# A run of the anonymization

A run reads its configuration, then the input table (from a file, a database, or standard input),
has the engine anonymize it, and writes the outcome to a file or to standard output. What it reads
from and calls is given as a `Host`; what it does to the outside is the list of its events, the lines
of its log among them.

The steps come in this order so that a run fails before it does anything that would be in vain: the
criteria are bound to their hierarchies and subset before any data is read, and output is written
only when the engine is done.
-/

namespace Anonymization

/-- What surrounds a run. -/
structure Host where
  files : FileSystem
  /-- The text of standard input. -/
  input : Text
  environment : Assoc Text Text
  server : Server
  programs : Programs
  /-- The directory made for the hand-over to the engine. -/
  directory : Text

/-- What can be seen of a run. -/
inductive Event where
  /-- A format in the datatype option has no use. -/
  | warned (i : IgnoredFormat)
  | logged (l : LogLine)
  | database (e : DatabaseEvent)
  | progressed (p : Progress)
  | engine (e : Runner.EngineEvent)
  /-- Text on standard output. -/
  | printed (t : Text)
  /-- A file is written, at the place of these parts. -/
  | wrote (parts : List Text) (t : Text)

/-- What can be seen of a remark. -/
def Event.ofRemark : Remark → Event
  | .ignored i => .warned i
  | .logged l => .logged l

namespace Run

/-- A step of a run. -/
abbrev Step (α : Type) := Traced Event α

/-- The separator of the run. It is empty, so that no table can be read or written with it, where the
option has one element and is no text. -/
def separator (h : Host) (o : Options) : Except Failure Text := do
  let option := o.value "separator"
  if Options.isSingle option then return []
  match ← Separator.choose (← Options.separatorText option) (Options.present? (o.value "file")) with
  | .given s => return s
  | .detect file => return [← Separator.detectInFile h.files (← Options.path file)]

/-- The log of the separator, which has something to say where it is detected. -/
def separatorLog (h : Host) (o : Options) : List LogLine :=
  match Options.separatorText (o.value "separator") with
  | .error _ => []
  | .ok option =>
    match Separator.choose option (Options.present? (o.value "file")) with
    | .ok (.detect (.text path)) => Separator.detectionLog h.files path
    | _ => []

/-- The separator of the run, with its log. -/
def findSeparator (h : Host) (o : Options) : Step Text := do
  Traced.emitAll ((separatorLog h o).map .logged)
  Traced.ofExcept (separator h o)

/-- The configuration of the run. -/
def configure (h : Host) (o : Options) (separator : Text) : Step Config := do
  Traced.emitAll ((Config.remarks h.files o separator).map .ofRemark)
  Traced.ofExcept (Config.parse h.files o separator)

/-- The criteria of the run for the engine, which are bound before any data is read. -/
def bindCriteria (config : Config) : Step (List Json) := do
  let bound ← Traced.ofExcept config.boundCriteria
  Traced.emit (.logged config.boundLine)
  return bound

/-- Where the input table comes from. -/
inductive Source where
  | file (path : Text)
  | database (spec : DatabaseSpec)
  | standardInput
  deriving DecidableEq

/-- The source of the input table: the file, else the database, else standard input. -/
def source (o : Options) : Except Failure Source := do
  if !(o.value "file").isFalsy then return .file (← Options.path (o.value "file"))
  match ← DatabaseSpec.parseOption Field.listSeparator (← Options.worded (o.value "database")) with
  | some spec => return .database spec
  | none => return .standardInput

/-- What can be seen with an event of the database: a line of the log comes before a connection, the
progress bar is set up when the records can be asked for, and goes on with each batch that comes. -/
def accompanied (h : Host) (spec : DatabaseSpec) : DatabaseEvent → List Event
  | .connected credentials =>
    [.logged (Database.connectingLine spec), .database (.connected credentials)]
  | .statement sql =>
    .database (.statement sql) ::
      if sql = Database.selectStatement spec.table ∧ h.server.statementFault sql = none then
        [.progressed (.opened h.server.count)]
      else []
  | .fetched asked came =>
    .database (.fetched asked came) :: if came = 0 then [] else [.progressed (.advanced came)]
  | e => [.database e]

/-- The table that a specification names, with its log. The connection is closed however the reading
ends. -/
def databaseTable (h : Host) (spec : DatabaseSpec) : Step Table := do
  Traced.flatMapEvents (accompanied h spec) (Database.connect h.server h.environment spec)
  Traced.finallyDo
    (do
      let data ← Traced.flatMapEvents (accompanied h spec) (Database.fetch h.server spec.table)
      Traced.emit (.logged (Database.fetchedLine data.size h.server.count spec.table))
      return data)
    (Traced.flatMapEvents (accompanied h spec) (Database.close h.server))

/-- What is logged before standard input is read. -/
def standardInputLine : LogLine where
  level := .info
  origin := "main".toList
  message := "Reading input data from STDIN".toList

/-- The input table of a source. -/
def Source.table (h : Host) (separator : Text) : Source → Step Table
  | file path => Traced.ofExcept (h.files.readTable separator path)
  | database spec => databaseTable h spec
  | standardInput => do
    Traced.emit (.logged standardInputLine)
    Traced.ofExcept (Table.read separator .unified h.input)

/-- The input table. -/
def inputTable (h : Host) (o : Options) (separator : Text) : Step Table := do
  (← Traced.ofExcept (source o)).table h separator

/-- A line of the summary: what it is about, and what is said of it. -/
def summaryLine (subject : String) (t : Text) : Text :=
  "    - ".toList ++ subject.toList ++ ": ".toList ++ t ++ ['\n']

/-- What the input is called in the summary. -/
def inputName (o : Options) : Text :=
  if !(o.value "file").isFalsy then Options.shown (o.value "file")
  else if !(o.value "database").isFalsy then Options.shown (o.value "database")
  else "STDIN".toList

/-- The summary of a run before the engine is called. -/
def summary (o : Options) (config : Config) (records : Nat) : Text :=
  "Running anonymization\n".toList ++
    summaryLine "input"
      (inputName o ++ " (".toList ++ Numeral.decimalText records ++ " records)".toList) ++
    summaryLine "criteria" (Text.quotedList (config.criteria.map Criterion.text)) ++
    summaryLine "metric" config.metric.name ++
    summaryLine "suppression" config.suppression.text

/-- What is said after the outcome was written to a file. -/
def closingLine (records : Nat) (path : Text) : Text :=
  "Wrote ".toList ++ Numeral.decimalText records ++ " records to ".toList ++ path ++ ['\n']

/-- Writes the outcome to the output file if one is named, else to standard output. -/
def deliver (h : Host) (o : Options) (separator : Text) (outcome : Table) : Step Unit := do
  if (o.value "output").isFalsy then
    let t ← Traced.ofExcept (outcome.write separator)
    Traced.emit (.printed t)
  else
    let path ← Traced.ofExcept (Options.path (o.value "output"))
    let place ← Traced.ofExcept (h.files.writable path)
    let t ← Traced.ofExcept (outcome.write separator)
    Traced.emit (.wrote place t)
    Traced.emit (.printed (closingLine outcome.size path))

/-- The run with the given options. -/
def run (h : Host) (o : Options) : Step Config := do
  let separator ← findSeparator h o
  let config ← configure h o separator
  let _ ← bindCriteria config
  let data ← inputTable h o separator
  if !(o.value "output").isFalsy then Traced.emit (.printed (summary o config data.size))
  let outcome ← Traced.mapEvents .engine
    (Runner.anonymize ⟨o.value "runner", o.value "java"⟩ h.files h.programs h.directory data config)
  deliver h o separator outcome
  return config

end Run

end Anonymization
