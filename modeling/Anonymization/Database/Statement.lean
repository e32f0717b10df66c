import Anonymization.Text.Blank
/-!
# Statements

Two statements are sent to a server: one that counts the records of a table and one that selects
them. Both end with the name of the table between backticks. A server takes a name between backticks
as `nameBetween?` says: it goes on to the first backtick that is not doubled.
-/

namespace Anonymization.Database

/-- What stands around a name. -/
def backtick : Char := '\x60'

/-- A name between backticks. -/
def quotedName (name : Text) : Text :=
  [backtick] ++ name ++ [backtick]

/-- What the statement that counts begins with. -/
def countLead : Text := "SELECT COUNT(*) FROM ".toList

/-- What the statement that selects begins with. -/
def selectLead : Text := "SELECT * FROM ".toList

/-- The statement that counts the records of a table. -/
def countStatement (table : Text) : Text :=
  countLead ++ quotedName table

/-- The statement that selects all records of a table. -/
def selectStatement (table : Text) : Text :=
  selectLead ++ quotedName table

/-- Behind an opening backtick: the name up to the backtick that closes it, and the rest. -/
def untilBacktick? : Text → Option (Text × Text)
  | [] => none
  | [c] => if c = backtick then some ([], []) else none
  | c :: d :: rest =>
    if c = backtick then
      if d = backtick then (untilBacktick? rest).map fun (name, rest) => (backtick :: name, rest)
      else some ([], d :: rest)
    else (untilBacktick? (d :: rest)).map fun (name, rest) => (c :: name, rest)

/-- The name between backticks at the start of a text as a server takes it, and the rest. -/
def nameBetween? : Text → Option (Text × Text)
  | [] => none
  | c :: rest => if c = backtick then untilBacktick? rest else none

end Anonymization.Database
