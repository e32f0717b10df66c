import Anonymization.Assoc
import Anonymization.Failure
import Anonymization.Log
import Anonymization.Text.Capital
import Anonymization.Text.Word
/-!
# Data types

An attribute is of one of four types; a decimal or a date may have a format. The datatype option maps
attributes to types: `age=INTEGER,born=DATE(dd.MM.yyyy)`. A format given for one of the other two
types is ignored with a warning.
-/

namespace Anonymization

/-- The names of the data types. -/
inductive DataTypeName where
  | string
  | integer
  | decimal
  | date
  deriving DecidableEq

namespace DataTypeName

/-- All names. -/
def all : List DataTypeName := [string, integer, decimal, date]

/-- The text of a name. -/
def text : DataTypeName → Text
  | string => "STRING".toList
  | integer => "INTEGER".toList
  | decimal => "DECIMAL".toList
  | date => "DATE".toList

/-- The name that a word gives, in any case of its letters. -/
def ofWord? (word : Text) : Option DataTypeName :=
  all.find? fun n => n.text == Text.capitals word

/-- Values of this type may have a format. -/
def hasFormat : DataTypeName → Bool
  | string | integer => false
  | decimal | date => true

end DataTypeName

/-- The data type of an attribute; without a format the engine has its own. -/
structure DataType where
  name : DataTypeName
  format : Option Text
  deriving DecidableEq

/-- The format in a data type option that the type has no use for. -/
structure IgnoredFormat where
  format : Text
  name : DataTypeName
  deriving DecidableEq

/-- The warning about an ignored format. -/
def IgnoredFormat.message (i : IgnoredFormat) : Text :=
  "Ignoring format (".toList ++ i.format ++ ") given for datatype ".toList ++ i.name.text

/-- The warning as a line of the log. -/
def IgnoredFormat.line (i : IgnoredFormat) : LogLine where
  level := .warning
  origin := "utils.config_processor".toList
  message := i.message

namespace DataType

/-- The canonical text of a data type. -/
def text (d : DataType) : Text :=
  match d.format with
  | none => d.name.text
  | some f => d.name.text ++ '(' :: f ++ [')']

/-- The word in front of a specification, and what stands in parentheses behind it; blanks may stand
around both. -/
def split? (spec : Text) : Option (Text × Option Text) :=
  let t := Text.trimStart spec
  let word := t.takeWhile Text.isWord
  let rest := Text.trim (t.dropWhile Text.isWord)
  if word.isEmpty then none
  else match rest with
    | [] => some (word, none)
    | '(' :: inner => if inner.getLast? = some ')' then some (word, some inner.dropLast) else none
    | _ => none

/-- The data type of a specification, and the format that it ignores. -/
def parse (spec : Text) : Except Failure (DataType × Option IgnoredFormat) :=
  match split? spec with
  | none => .error (.malformedDataTypeSpec spec)
  | some (word, format) =>
    match DataTypeName.ofWord? word with
    | none => .error (.unknownDataType word)
    | some name =>
      match format with
      | none => .ok (⟨name, none⟩, none)
      | some f =>
        if name.hasFormat then .ok (⟨name, if f.isEmpty then none else some f⟩, none)
        else .ok (⟨name, none⟩, some ⟨f, name⟩)

/-- The attribute and the data type of a token. -/
def parseToken (token : Text) : Except Failure (Text × DataType × Option IgnoredFormat) :=
  match Field.pair? token with
  | none => .error (.malformedDataTypeSpec token)
  | some (name, spec) =>
    if Text.allBlank name then .error (.malformedDataTypeSpec token)
    else (parse spec).map fun d => (Field.unescapeParentheses (Text.trim name), d)

/-- What the tokens say up to the first that cannot be read, and why that one cannot. -/
def readTokens : List Text → List (Text × DataType × Option IgnoredFormat) × Option Failure
  | [] => ([], none)
  | token :: rest =>
    match parseToken token with
    | .error e => ([], some e)
    | .ok entry =>
      let (entries, e) := readTokens rest
      (entry :: entries, e)

/-- The tokens of the datatype option, given its pieces. -/
def tokens (separator : Text) (ps : List Text) : List Text :=
  Field.splitPieces separator true ps

/-- The data types of the datatype option. -/
def parseOption (separator : Text) (ps : List Text) : Except Failure (Assoc Text DataType) :=
  match readTokens (tokens separator ps) with
  | (_, some e) => .error e
  | (entries, none) => .ok (Assoc.ofList (entries.map fun (name, d, _) => (name, d)))

/-- The datatype option for some attributes with their types. The list is a grouped one, so the
parentheses of a name are escaped like those of a name in front of a criterion. -/
def optionText (separator : Text) (entries : List (Text × DataType)) : Text :=
  Field.joined separator
    (entries.map fun (name, d) => Field.pairText (Field.escapeParentheses name) d.text)

/-- The warnings that come up while the datatype option is read. -/
def warnings (separator : Text) (ps : List Text) : List IgnoredFormat :=
  (readTokens (tokens separator ps)).1.filterMap fun (_, _, ignored) => ignored

end DataType

end Anonymization
