import Anonymization.Numeral.Shortest
/-!
# JSON values

The values of JSON, with integers and binary64 numbers kept apart. The members of an object stand in
the order in which their names first came.
-/

namespace Anonymization

/-- A JSON value. -/
inductive Json where
  | null
  | bool (b : Bool)
  | int (n : Int)
  | float (x : Binary64)
  | text (t : Text)
  | list (items : List Json)
  | object (members : List (Text × Json))

namespace Json

/-- A text given as a string. -/
def string (s : String) : Json := .text s.toList

/-- A natural number. -/
def nat (n : Nat) : Json := .int n

/-- A list of texts. -/
def texts (ts : List Text) : Json := .list (ts.map .text)

/-- An object whose names are given as strings. -/
def record (members : List (String × Json)) : Json :=
  .object (members.map fun (name, value) => (name.toList, value))

/-- The value of a member of an object. -/
def member? (name : String) : Json → Option Json
  | .object members => (members.find? fun m => m.1 == name.toList).map (·.2)
  | _ => none

mutual

/-- The binary64 numbers of a value. -/
def floats : Json → List Binary64
  | .float x => [x]
  | .list items => floatsOfItems items
  | .object members => floatsOfMembers members
  | _ => []

/-- The binary64 numbers of the items of a list. -/
def floatsOfItems : List Json → List Binary64
  | [] => []
  | v :: rest => floats v ++ floatsOfItems rest

/-- The binary64 numbers of the members of an object. -/
def floatsOfMembers : List (Text × Json) → List Binary64
  | [] => []
  | (_, v) :: rest => floats v ++ floatsOfMembers rest

end

/-- All numbers are finite, so that JSON has a form for them. -/
def isFinite (v : Json) : Bool :=
  v.floats.all Binary64.isFinite

/-- A value that counts as false: nothing, zero, or empty. -/
def isFalsy : Json → Bool
  | .null => true
  | .bool b => !b
  | .int n => n == 0
  | .float x => x.sameNumber Binary64.zero
  | .text t => t.isEmpty
  | .list items => items.isEmpty
  | .object members => members.isEmpty

end Json

end Anonymization
