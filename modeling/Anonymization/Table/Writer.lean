import Anonymization.Failure
import Anonymization.Table.Basic
import Anonymization.Text.Replace
/-!
# Writing separated text

Each record is a line that ends with a line feed. A field is put into quotes only if it holds the
separator, a quote or a line feed, or if it is empty and the only field of its record; a quote inside
a field is written twice.

These are the rules of the writer in the 3.11 releases of the standard library that the program uses.
Later patch releases of it also put a field with a carriage return into quotes.
-/

namespace Anonymization.Table

/-- The field holds a character for which it is put into quotes. By the rules that are modelled (those of
release 3.11) a carriage return is none. -/
def wantsQuotes (separator : Char) (field : Text) : Bool :=
  field.any fun c => c == separator || c == quote || c == '\n'

/-- The characters of a field with each quote twice. -/
def doubled (field : Text) : Text :=
  field.flatMap fun c => if c = quote then [quote, quote] else [c]

/-- A field as it is written. -/
def fieldText (separator : Char) (field : Text) : Text :=
  if wantsQuotes separator field then [quote] ++ doubled field ++ [quote] else field

/-- A record as it is written, without its line end. -/
def recordText (separator : Char) : List Text → Text
  | [[]] => [quote, quote]
  | fields => Text.joined [separator] (fields.map (fieldText separator))

/-- The records as they are written. -/
def recordsText (separator : Char) (rs : List (List Text)) : Text :=
  rs.flatMap fun r => recordText separator r ++ ['\n']

/-- The table as it is written. The separator has to be a single character. -/
def write (separator : Text) (t : Table) : Except Failure Text :=
  match separator with
  | [c] => .ok (recordsText c (t.header :: t.rows))
  | _ => .error (.defect .wrongType)

end Anonymization.Table
