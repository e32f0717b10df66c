import Anonymization.Criterion.Parser
import Anonymization.Files
import Anonymization.Settings.Attributes
import Anonymization.Settings.DataType
import Anonymization.Settings.Metric
import Anonymization.Settings.Options
import Anonymization.Settings.Subset
/-!
# The configuration of a run

All option texts are read before the first hierarchy file is opened: `Plan.parse` has no access to
files, `Plan.load` then reads the hierarchies. So a mistake in an option is found whatever the files
hold.
-/

namespace Anonymization

/-- What comes up while a configuration is made. -/
inductive Remark where
  /-- A format in the datatype option has no use. -/
  | ignored (i : IgnoredFormat)
  | logged (l : LogLine)

/-- What the options say, the hierarchies still being names of files. -/
structure Plan where
  attributes : Attributes.Named
  criteria : List Criterion
  dataTypes : Assoc Text DataType
  subset : Option Subset
  metric : Metric
  suppression : Binary64
  hierarchyFiles : Assoc Text Text
  practicalMonotonicity : Bool

/-- Everything the engine needs besides the data. -/
structure Config where
  attributes : Attributes.Named
  criteria : List Criterion
  dataTypes : Assoc Text DataType
  subset : Option Subset
  metric : Metric
  /-- The share of records that may be suppressed. -/
  suppression : Binary64
  practicalMonotonicity : Bool
  hierarchies : Assoc Text Hierarchy
  /-- The separator of the data and hierarchy files. -/
  separator : Text

namespace Plan

/-- The names that an option lists. -/
def names (o : Options) (option : String) : Except Failure (List Text) :=
  (Options.listed (o.value option)).map (Attributes.parseNames Field.listSeparator)

/-- The criteria, of which there has to be one. -/
def criteriaOf (o : Options) : Except Failure (List Criterion) := do
  match ← Criterion.parseOption (← Options.worded (o.value "criteria")) with
  | [] => throw .noCriterion
  | cs => return cs

/-- The pieces of the datatype option. -/
def dataTypePieces (o : Options) : Except Failure (List Text) :=
  Options.listed (o.value "datatype")

/-- Each of the names has a hierarchy file. -/
def checkHierarchies (files : Assoc Text Text) : List Text → Except Failure Unit
  | [] => .ok ()
  | name :: rest =>
    if files.has name then checkHierarchies files rest
    else .error (.missingHierarchy .quasiIdentifier name)

/-- What the options say. -/
def parse (o : Options) : Except Failure Plan := do
  let quasiIdentifying ← names o "quasiidentifying"
  let criteria ← criteriaOf o
  let dataTypes ← DataType.parseOption Field.listSeparator (← dataTypePieces o)
  let subset ← Subset.parseOption (← Options.worded (o.value "researchsubset"))
  let metric ← Metric.parseOption (← Options.worded (o.value "metric"))
  let suppression ← Options.suppressionLimit (o.value "suppression")
  let hierarchyFiles ←
    Attributes.parseHierarchies Field.listSeparator (← Options.listed (o.value "hierarchies"))
  checkHierarchies hierarchyFiles quasiIdentifying
  let sensitive ← names o "sensitive"
  let insensitive ← names o "insensitive"
  let identifying ← names o "identifying"
  return {
    attributes := ⟨quasiIdentifying, sensitive, insensitive, identifying⟩
    criteria, dataTypes, subset, metric, suppression, hierarchyFiles
    practicalMonotonicity := Options.flag (o.value "practicalmonotonicity") }

/-- The log of reading the criteria, which are read after the names of the quasi identifiers. -/
def criteriaLog (o : Options) : List LogLine :=
  match names o "quasiidentifying", Options.worded (o.value "criteria") with
  | .ok _, .ok t => Criterion.parsedLog t
  | _, _ => []

/-- The warnings that come up while the options are read; the data types are read after the names of
the quasi identifiers and the criteria. -/
def warnings (o : Options) : List IgnoredFormat :=
  match names o "quasiidentifying", criteriaOf o, dataTypePieces o with
  | .ok _, .ok _, .ok ps => DataType.warnings Field.listSeparator ps
  | _, _, _ => []

/-- The configuration, with the hierarchies read from their files. -/
def load (p : Plan) (fs : FileSystem) (separator : Text) : Except Failure Config := do
  let hierarchies ← fs.readHierarchies separator p.hierarchyFiles
  return {
    attributes := p.attributes
    criteria := p.criteria
    dataTypes := p.dataTypes
    subset := p.subset
    metric := p.metric
    suppression := p.suppression
    practicalMonotonicity := p.practicalMonotonicity
    hierarchies, separator }

end Plan

namespace Config

/-- The configuration that some options give. -/
def parse (fs : FileSystem) (o : Options) (separator : Text) : Except Failure Config := do
  (← Plan.parse o).load fs separator

/-- What is logged of a configuration when it is complete. -/
def parsedLine (c : Config) : LogLine where
  level := .debug
  origin := "utils.config_processor".toList
  message :=
    "Parsed configuration: ".toList ++ Numeral.decimalText c.criteria.length ++ " criteria, ".toList ++
      Numeral.decimalText c.hierarchies.length ++ " hierarchies, subset ".toList ++
      (match c.subset with
        | some s => s.text
        | none => "None".toList)

/-- The log of reading the hierarchies and completing the configuration. -/
def loadLog (fs : FileSystem) (o : Options) (separator : Text) : List LogLine :=
  match Plan.parse o with
  | .error _ => []
  | .ok p => fs.hierarchyLog separator p.hierarchyFiles ++
    match p.load fs separator with
    | .error _ => []
    | .ok c => [c.parsedLine]

/-- What comes up while a configuration is made, in order. -/
def remarks (fs : FileSystem) (o : Options) (separator : Text) : List Remark :=
  (Plan.criteriaLog o).map .logged ++ (Plan.warnings o).map .ignored ++
    (loadLog fs o separator).map .logged

end Config

end Anonymization
