import Anonymization.Failure
import Anonymization.Table.Basic
import Anonymization.Text.Lines
/-!
# Reading separated text

The reader goes over the characters of each line and a mark for its end. A field that begins with a
quote goes on to the next quote, separators and line ends included; two quotes there are one, and
whatever follows the closing quote is added to the field as it stands. A blank line is a record
without fields. Text that ends inside quotes is taken as far as it goes.

Two things are refused: a carriage return inside a line, outside quotes, with more of the line after
it, and a field of more than `Table.fieldLimit` characters.
-/

namespace Anonymization.Table

/-- Where the reader stands. -/
inductive Phase where
  | startOfRecord
  | startOfField
  | inField
  | inQuotes
  /-- Behind a quote inside quotes. -/
  | afterQuote
  /-- Behind a character of a line end. -/
  | atLineEnd
  deriving DecidableEq

/-- What the reader knows: its phase, the field begun with its length, the fields of the record begun
and the records that are complete, each with the last one first. -/
structure Reader where
  phase : Phase
  field : Text
  size : Nat
  record : List Text
  records : List (List Text)

namespace Reader

/-- Nothing is read. -/
def start : Reader := ⟨.startOfRecord, [], 0, [], []⟩

/-- The field begun is complete. -/
def saveField (s : Reader) (phase : Phase) : Reader :=
  { s with phase, field := [], size := 0, record := s.field.reverse :: s.record }

/-- The record begun is complete. -/
def saveRecord (s : Reader) : Reader :=
  { s with phase := .startOfRecord, record := [], records := s.record.reverse :: s.records }

/-- The character goes on the field begun, unless that is full. -/
def add? (s : Reader) (phase : Phase) (c : Char) : Option Reader :=
  if fieldLimit ≤ s.size then none
  else some { s with phase, field := c :: s.field, size := s.size + 1 }

/-- The character is part of a line end. -/
def isLineEnd (c : Char) : Bool :=
  c == '\n' || c == '\r'

/-- A character where a field may begin. -/
def beginField? (separator : Char) (s : Reader) (c : Char) : Option Reader :=
  if isLineEnd c then some (s.saveField .atLineEnd)
  else if c = quote then some { s with phase := .inQuotes }
  else if c = separator then some (s.saveField .startOfField)
  else s.add? .inField c

/-- The next character. -/
def char? (separator : Char) (s : Reader) (c : Char) : Option Reader :=
  match s.phase with
  | .startOfRecord =>
    if isLineEnd c then some { s with phase := .atLineEnd } else beginField? separator s c
  | .startOfField => beginField? separator s c
  | .inField =>
    if isLineEnd c then some (s.saveField .atLineEnd)
    else if c = separator then some (s.saveField .startOfField)
    else s.add? .inField c
  | .inQuotes => if c = quote then some { s with phase := .afterQuote } else s.add? .inQuotes c
  | .afterQuote =>
    if c = quote then s.add? .inQuotes c
    else if c = separator then some (s.saveField .startOfField)
    else if isLineEnd c then some (s.saveField .atLineEnd)
    else s.add? .inField c
  | .atLineEnd => if isLineEnd c then some s else none

/-- The end of a line. Only inside quotes does the record go on. -/
def lineEnd (s : Reader) : Reader :=
  match s.phase with
  | .startOfRecord | .atLineEnd => s.saveRecord
  | .startOfField | .inField | .afterQuote => (s.saveField .startOfRecord).saveRecord
  | .inQuotes => s

/-- A line. -/
def line? (separator : Char) (s : Reader) (line : Text) : Option Reader :=
  (line.foldlM (char? separator) s).map lineEnd

/-- The end of the text. -/
def finish (s : Reader) : List (List Text) :=
  (if s.phase = .inQuotes then (s.saveField .startOfRecord).saveRecord else s).records.reverse

end Reader

/-- The records that some lines hold; `none` where the lines are refused. -/
def records? (separator : Char) (lines : List Text) : Option (List (List Text)) :=
  (lines.foldlM (Reader.line? separator) Reader.start).map Reader.finish

/-- The records of a text. The separator has to be a single character. -/
def readRecords (separator : Text) (ends : Text.LineEnds) (t : Text) :
    Except Failure (List (List Text)) :=
  match separator with
  | [c] =>
    match records? c (Text.lines ends t) with
    | some rs => .ok rs
    | none => .error (.defect .brokenTable)
  | _ => .error (.defect .wrongType)

/-- The table of some records: the first is the header, and blank records after it do not count. -/
def ofRecords : List (List Text) → Table
  | [] => ⟨[], []⟩
  | header :: rows => ⟨header, rows.filter fun row => !row.isEmpty⟩

/-- The table that a text holds. -/
def read (separator : Text) (ends : Text.LineEnds) (t : Text) : Except Failure Table :=
  (readRecords separator ends t).map ofRecords

end Anonymization.Table
