import Anonymization.Text.Blank
/-!
# Tables

A table of texts with a header, the unit that is read, handed to the runner and written.
-/

namespace Anonymization

/-- A table: the names of its columns and its records. -/
structure Table where
  header : List Text
  rows : List (List Text)
  deriving DecidableEq

/-- The number of records. -/
def Table.size (t : Table) : Nat :=
  t.rows.length

/-- The quote of separated text. -/
def Table.quote : Char := '"'

/-- The most characters that a field may have. -/
def Table.fieldLimit : Nat := 131072

end Anonymization
