import Anonymization.Failure
import Anonymization.Hierarchy.Forest
import Anonymization.Log
/-!
# From the rows of a file to a tree

Each row of a hierarchy file is a value followed by its generalizations. The tree has one path for
each row, read from the end; rows share the part of their path that they have in common. When all
rows end in one value this is the root, otherwise a root without a value is put above them.
-/

namespace Anonymization

/-- A hierarchy: a forest and the place of its root. -/
structure Hierarchy where
  forest : Forest
  root : Nat

namespace Hierarchy

/-- The rows of the hierarchy, as its file lists them. -/
def table (h : Hierarchy) : List (List (Option Text)) :=
  h.forest.table h.root

/-- The number of generalization levels. -/
def height (h : Hierarchy) : Nat :=
  h.forest.height h.root

/-- The leaves of the hierarchy. -/
def leaves (h : Hierarchy) : List Nat :=
  h.forest.leaves h.root

/-- The number of leaves below the root. -/
def size (h : Hierarchy) : Nat :=
  h.forest.leafCount h.root

/-- Follows a path downwards from a node and creates what is missing; the end of the path is a
leaf. -/
def grow (f : Forest) (place : Nat) : List Text → Forest
  | [] => f
  | v :: rest =>
    match f.child? place (some v) with
    | some c => grow f c rest
    | none => grow (f.plant (some v) rest.isEmpty (some place)) f.size rest

/-- The value that all rows end in, if there is one. -/
def commonTop? (rows : List (List Text)) : Option Text :=
  match rows with
  | [] => none
  | row :: rest => if rest.all fun r => r.getLast? == row.getLast? then row.getLast? else none

/-- The path of a row below a root that has the value of the row's end. -/
def pathBelowTop (row : List Text) : List Text :=
  row.reverse.drop 1

/-- The tree of some rows. -/
def ofRows (rows : List (List Text)) : Hierarchy :=
  match commonTop? rows with
  | some top =>
    ⟨rows.foldl (fun f row => grow f 0 (pathBelowTop row)) (Forest.empty.plant (some top) false none), 0⟩
  | none =>
    ⟨rows.foldl (fun f row => grow f 0 row.reverse) (Forest.empty.plant none false none), 0⟩

/-- The first row that has not the given width, with its number. -/
def raggedRow? (width : Nat) (rows : List (List Text)) : Option (Nat × Nat) :=
  (rows.zipIdx.find? fun (row, _) => row.length != width).map fun (row, i) => (i + 1, row.length)

/-- The tree of the records of a hierarchy file. Blank records do not count; there has to be a row,
and all have to have one width. -/
def ofRecords (path : Text) (records : List (List Text)) : Except Failure Hierarchy :=
  match records.filter fun row => !row.isEmpty with
  | [] => .error (.malformedHierarchyFile path .empty)
  | row :: rest =>
    match raggedRow? row.length (row :: rest) with
    | some (line, found) => .error (.malformedHierarchyFile path (.ragged line found row.length))
    | none => .ok (ofRows (row :: rest))

/-! ## Measuring -/

/-- How many levels can be counted below a root. The levels are gone down one inside the other, and in a
run from the command line there is room for so many. -/
def depthLimit : Nat := 331

/-- The hierarchy, once its leaves and levels are counted, which is done for the log. The levels take
more room than the leaves, so they decide whether it can be done. -/
def measured (h : Hierarchy) : Except Failure Hierarchy :=
  if h.height ≤ depthLimit then .ok h else .error (.defect .nestedTooDeeply)

/-- The number of nodes right below the root. -/
def topCount (h : Hierarchy) : Nat :=
  ((h.forest.node? h.root).map fun n => n.children.length).getD 0

/-- The part of the program that reads hierarchies, as the log names it. -/
def logOrigin : Text := "utils.read_gen_hierarchies".toList

/-- What is logged where several top values hang below a root without a value. -/
def topLog (path : Text) (h : Hierarchy) : List LogLine :=
  match h.forest.value? h.root with
  | some _ => []
  | none => [⟨.debug, logOrigin, "Hierarchy ".toList ++ path ++ " has ".toList ++
      Numeral.decimalText h.topCount ++ " top values".toList⟩]

/-- What is logged of the hierarchy of an attribute when it is measured. -/
def measuredLine (name path : Text) (h : Hierarchy) : LogLine where
  level := .info
  origin := logOrigin
  message :=
    "Loaded hierarchy for ".toList ++ name ++ " from ".toList ++ path ++ ": ".toList ++
      Numeral.decimalText h.leaves.length ++ " values, ".toList ++ Numeral.decimalText h.height ++
      " levels".toList

end Hierarchy

end Anonymization
