import Anonymization.Criterion.Basic
/-!
# What can go wrong

A failure says what went wrong and with which part of the input; the wording is in one place,
`Failure.message`. There are three groups:

* failures that the program reports to its user, with the usage of the command line;
* failures of the file system, which it reports in the same way (`FileFault`);
* defects, which it does not expect and which end the run (`Defect`).

`Failure.isReported` tells the first two from the last.
-/

namespace Anonymization

/-- Why a file could not be opened. -/
inductive FileFault where
  | missing
  | notDirectory
  | isDirectory
  | nameTooLong
  deriving DecidableEq

/-- The number of the fault and its wording. -/
def FileFault.describe : FileFault → Nat × String
  | .missing => (2, "No such file or directory")
  | .notDirectory => (20, "Not a directory")
  | .isDirectory => (21, "Is a directory")
  | .nameTooLong => (36, "File name too long")

/-- A failure that no check provides for. -/
inductive Defect where
  /-- The bytes of a file are no text. -/
  | undecodable
  /-- A table is not separated text: a line end inside a line, or a field beyond the limit. -/
  | brokenTable
  /-- A numeral that is no number, or has too many digits; a name that no file can have. -/
  | unreadableValue
  /-- A value of a type that the option does not take. -/
  | wrongType
  /-- A value that lacks the operation asked of it. -/
  | wrongOperation
  /-- An integer too large for what it is used for. -/
  | numberTooLarge
  /-- Things inside one another beyond all measure: lists and objects, or the levels of a hierarchy. -/
  | nestedTooDeeply
  /-- The database refused what was asked of it. -/
  | refused (reason : Text)
  /-- A table of names lacks an entry that is asked for. -/
  | missingEntry
  deriving DecidableEq

/-- The defect in words, for whoever looks into it. -/
def Defect.describe : Defect → String
  | .undecodable => "a file is not UTF-8"
  | .brokenTable => "a table is not separated text"
  | .unreadableValue => "a numeral or a name cannot be used"
  | .wrongType => "an option has a value of the wrong type"
  | .wrongOperation => "an option has a value that cannot be used"
  | .numberTooLarge => "an integer is too large"
  | .nestedTooDeeply => "something is nested too deeply"
  | .refused reason => "the database refused: " ++ String.ofList reason
  | .missingEntry => "a name has no entry"

/-- Why a hierarchy file cannot be read. -/
inductive HierarchyFault where
  | empty
  /-- The line with this number (from one) has `found` values instead of `expected`. -/
  | ragged (line found expected : Nat)
  deriving DecidableEq

/-- What is wrong with a token of the database option. -/
inductive DatabaseFault where
  | notKeyValue
  | unknownKey (key : Text)
  | missingKey (key : Text)
  | unknownType (name : Text)
  | portNotNumber (port : Text)
  deriving DecidableEq

/-- What asks for a hierarchy. -/
inductive HierarchyUse where
  | quasiIdentifier
  | hierarchicalCloseness
  deriving DecidableEq

/-- The database systems that the database option knows. -/
inductive DatabaseType where
  | mysql
  | postgresql
  | sqllite
  deriving DecidableEq

/-- The name of a database system. -/
def DatabaseType.name : DatabaseType → Text
  | mysql => "MYSQL".toList
  | postgresql => "POSTGRESQL".toList
  | sqllite => "SQLLITE".toList

/-- What went wrong. -/
inductive Failure where
  | unparseableCriterion (index : Int) (token : Text)
  | ambiguousCriterion (index : Int) (token : Text) (readings : List Criterion)
  | noCriterion
  | malformedHierarchySpec (token : Text)
  | malformedHierarchyFile (path : Text) (fault : HierarchyFault)
  | malformedDataTypeSpec (token : Text)
  | unknownDataType (name : Text)
  | malformedSubsetSpec (spec : Text)
  | unknownSubsetKind (tag : Text)
  | malformedDatabaseSpec (token : Text) (fault : DatabaseFault)
  | unknownMetric (name : Text)
  /-- The suppression limit is no number. -/
  | unreadableSuppression (value : Text)
  /-- The suppression limit lies outside zero to one. -/
  | suppressionOutOfRange (value : Binary64)
  | invalidSeparator (option : Text)
  /-- Detection is asked for where no input file is named. -/
  | nothingToDetectFrom (option : Text)
  | missingHierarchy (use : HierarchyUse) (name : Text)
  | missingSubset (criterion : Text)
  | unsupportedDatabase (type : DatabaseType)
  | connectionFailed (database reason : Text)
  | tableUnreadable (table reason : Text)
  | runnerNotFound (path : Text)
  | javaNotFound (command : Text)
  | runnerFailed (status : Nat) (output : Text)
  | runnerWithoutOutput
  | configNotJson (path : Text)
  | configNotObject (path : Text)
  | file (fault : FileFault) (path : Text)
  /-- A file is named by a number, and no file is open under it. -/
  | noOpenFile
  | defect (d : Defect)
  deriving DecidableEq

namespace Failure

/-- What is wrong with a token of the database option, in words. -/
def databaseReason : DatabaseFault → Text
  | .notKeyValue => "expected KEY=value".toList
  | .unknownKey key => "unknown key ".toList ++ key
  | .missingKey key => key ++ " is missing".toList
  | .unknownType name => "unknown database type ".toList ++ name
  | .portNotNumber port => "port ".toList ++ port ++ " is not a number".toList

/-- Why a hierarchy file cannot be read, in words. -/
def hierarchyReason : HierarchyFault → Text
  | .empty => "the file is empty".toList
  | .ragged line found expected =>
    "line ".toList ++ Numeral.decimalText line ++ " has ".toList ++ Numeral.decimalText found ++
      " levels, expected ".toList ++ Numeral.decimalText expected

/-- What asks for a hierarchy, in words. -/
def useReason : HierarchyUse → Text
  | .quasiIdentifier => "quasi identifiers must have a hierarchy specified".toList
  | .hierarchicalCloseness => "for hierarchical t-closeness a hierarchy has to be defined".toList

/-- A text between square brackets. -/
def bracketed (t : Text) : Text :=
  '[' :: t ++ [']']

/-- The start of every message about a suppression limit. -/
def suppressionReason : Text :=
  "Suppression limit must be between 0 and 1, got ".toList

/-- The failure in words, as it is shown to the user. A defect has no words of its own. -/
def message : Failure → Text
  | unparseableCriterion index token =>
    "Criterion number ".toList ++ Numeral.signedText (index + 1) ++
      " could not be parsed: ".toList ++ bracketed token
  | ambiguousCriterion index token readings =>
    "Criterion number ".toList ++ Numeral.signedText (index + 1) ++
      " matched more than one grammar: ".toList ++ bracketed token ++ " -> ".toList ++
      Criterion.displayList readings
  | noCriterion => "At least one privacy criterion has to be specified".toList
  | malformedHierarchySpec token =>
    "Hierarchy specification is malformed, expected attribute=filename: ".toList ++ bracketed token
  | malformedHierarchyFile path fault =>
    "Hierarchy file ".toList ++ path ++ " is malformed: ".toList ++ hierarchyReason fault
  | malformedDataTypeSpec token =>
    "Datatype specification is malformed, expected attribute=TYPE[(format)]: ".toList ++
      bracketed token
  | unknownDataType name => "Datatype not recognized: ".toList ++ name
  | malformedSubsetSpec spec =>
    "Subset specification is malformed, expected FILE=filename or QUERY=query: ".toList ++
      bracketed spec
  | unknownSubsetKind tag => "Subset specification not recognized: ".toList ++ tag
  | malformedDatabaseSpec token fault =>
    "Database specification is malformed (".toList ++ databaseReason fault ++ "): ".toList ++
      bracketed token
  | unknownMetric name => "Metric unknown: ".toList ++ name
  | unreadableSuppression value => suppressionReason ++ value
  | suppressionOutOfRange value => suppressionReason ++ value.text
  | invalidSeparator option =>
    "Invalid separator ".toList ++ bracketed option ++
      ": only a single character or the keyword 'DETECT' is allowed".toList
  | nothingToDetectFrom option =>
    "Invalid separator ".toList ++ bracketed option ++
      ": separator detection requires an input file".toList
  | missingHierarchy use name => useReason use ++ ": ".toList ++ name
  | missingSubset criterion =>
    "For ".toList ++ criterion ++ " a research subset has to be defined".toList
  | unsupportedDatabase type =>
    "Import from database type ".toList ++ type.name ++ " is currently not supported".toList
  | connectionFailed database reason =>
    "Could not connect to ".toList ++ database ++ ": ".toList ++ reason
  | tableUnreadable table reason =>
    "Could not read table ".toList ++ table ++ ": ".toList ++ reason
  | runnerNotFound path => "Anonymization runner not found: ".toList ++ path
  | javaNotFound command => "Java executable not found: ".toList ++ command
  | runnerFailed status output =>
    "Anonymization runner failed with exit code ".toList ++ Numeral.decimalText status ++
      ":\n".toList ++ output
  | runnerWithoutOutput => "Anonymization runner did not produce an output table".toList
  | configNotJson path => "Invalid JSON in config file ".toList ++ path
  | configNotObject path => "Config file ".toList ++ path ++ " must contain a JSON object".toList
  | file fault path =>
    "[Errno ".toList ++ Numeral.decimalText fault.describe.1 ++ "] ".toList ++
      fault.describe.2.toList ++ ": ".toList ++ Text.quoted path
  | noOpenFile => "[Errno 9] Bad file descriptor".toList
  | defect _ => []

/-- The program reports the failure to its user instead of breaking off. -/
def isReported : Failure → Bool
  | defect _ => false
  | _ => true

end Failure

end Anonymization
