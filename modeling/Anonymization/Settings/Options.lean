import Anonymization.Assoc
import Anonymization.Failure
import Anonymization.Json.Basic
import Anonymization.Numeral.Reading
import Anonymization.Text.Capital
/-!
# Option values

The options of a run are named values. A value comes from the command line as a text or from a
configuration file as any JSON value, so each use of an option says which values it takes:

* `listed` -- a list, in one text or in pieces; whatever is empty lists nothing;
* `worded` -- a text or nothing;
* `path` -- a file that is to be opened;
* `suppressionLimit` -- a number from zero to one, in any form;
* `flag` -- yes or no, in any form.
-/

namespace Anonymization

/-- The options of a run. -/
abbrev Options := Assoc Text Json

namespace Options

/-- The value of an option, `null` if it is absent. -/
def value (o : Options) (name : String) : Json :=
  (o.get? name.toList).getD .null

/-- A text among the items of a list. -/
def itemText (v : Json) : Except Failure Text :=
  match v with
  | .text t => .ok t
  | _ => .error (.defect .wrongType)

/-- The pieces of an option that lists something: the characters of a text, the texts of a list, or
the names of an object. -/
def listed (v : Json) : Except Failure (List Text) :=
  if v.isFalsy then .ok []
  else match v with
    | .text t => .ok (Field.pieces t)
    | .list items => items.mapM itemText
    | .object members => .ok (members.map (·.1))
    | _ => .error (.defect .wrongType)

/-- The text of an option; nothing if it is absent. -/
def worded (v : Json) : Except Failure (Option Text) :=
  match v with
  | .null => .ok none
  | .text t => .ok (some t)
  | _ => .error (.defect .wrongOperation)

/-- A list or an object with one element. As a separator it is taken for a single character by its
size, but no table can be separated by it. -/
def isSingle : Json → Bool
  | .list [_] | .object [_] => true
  | _ => false

/-- The text of the separator option; nothing if it is absent. -/
def separatorText (v : Json) : Except Failure (Option Text) :=
  match v with
  | .null => .ok none
  | .text t => .ok (some t)
  | .list _ | .object _ => .error (.defect .wrongOperation)
  | .bool _ | .int _ | .float _ => .error (.defect .wrongType)

/-- The value of an option unless it is absent. -/
def present? (v : Json) : Option Json :=
  match v with
  | .null => none
  | v => some v

/-- Why no file can be opened by a number. Numbers count the files that are open already, and a run
has none. -/
def numberedFile (n : Int) : Failure :=
  if !Numeral.isWord n then .defect .wrongType
  else if n < 0 then .defect .unreadableValue
  else .noOpenFile

/-- The path of the file that a value names. -/
def path (v : Json) : Except Failure Text :=
  match v with
  | .text t => .ok t
  | .bool b => .error (numberedFile (if b then 1 else 0))
  | .int n => .error (numberedFile n)
  | .null | .float _ | .list _ | .object _ => .error (.defect .wrongType)

/-- The number that a value stands for. -/
def number (v : Json) : Except Failure Binary64 :=
  match v with
  | .null => .ok Binary64.zero
  | .bool b => .ok (if b then Binary64.one else Binary64.zero)
  | .int n => match Binary64.ofInt? n with
    | some x => .ok x
    | none => .error (.defect .numberTooLarge)
  | .float x => .ok x
  | .text t => match Numeral.readNumber? t with
    | some x => .ok x
    | none => .error (.unreadableSuppression t)
  | .list _ | .object _ => .error (.defect .wrongType)

/-- The share of records that may be suppressed. -/
def suppressionLimit (v : Json) : Except Failure Binary64 := do
  let x ← number v
  if x.inUnitInterval then return x else throw (.suppressionOutOfRange x)

/-- The words for yes. -/
def yesWords : List Text := ["TRUE".toList, "YES".toList, "1".toList]

/-- The words for no. -/
def noWords : List Text := ["FALSE".toList, "NO".toList, "0".toList]

/-- Yes or no: a text is one of the words for yes, any other value counts by whether it is empty. -/
def flag (v : Json) : Bool :=
  match v with
  | .text t => yesWords.contains (Text.capitals (Text.trim t))
  | v => !v.isFalsy

/-- What a word for yes or no says, blanks not allowed; `none` for any other word. -/
def flagWord? (t : Text) : Option Bool :=
  if yesWords.contains (Text.capitals t) then some true
  else if noWords.contains (Text.capitals t) then some false
  else none

/-- A value inside a message. -/
def shown : Json → Text
  | .null => "None".toList
  | .bool true => "True".toList
  | .bool false => "False".toList
  | .int n => Numeral.signedText n
  | .float x => x.text
  | .text t => t
  | .list _ => "[]".toList
  | .object _ => "\x7b\x7d".toList

end Options

end Anonymization
