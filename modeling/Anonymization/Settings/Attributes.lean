import Anonymization.Assoc
import Anonymization.Failure
/-!
# Attributes, their hierarchies and their roles

Four options list names of attributes, one maps names to hierarchy files. An attribute named under
several roles has the strongest: quasi-identifying before sensitive before insensitive before
identifying.
-/

namespace Anonymization.Attributes

/-- The names that an option lists, given its pieces. -/
def parseNames (separator : Text) (ps : List Text) : List Text :=
  (Field.splitPieces separator false ps).map Text.trim

/-- The attribute and the file of a token. -/
def parseHierarchyToken (token : Text) : Except Failure (Text × Text) :=
  match Field.pair? token with
  | none => .error (.malformedHierarchySpec token)
  | some (name, path) =>
    if Text.allBlank name then .error (.malformedHierarchySpec token)
    else .ok (Text.trim name, Text.trim path)

/-- The hierarchy file of each attribute that the option names, given its pieces; of several files
for one attribute the last counts. -/
def parseHierarchies (separator : Text) (ps : List Text) : Except Failure (Assoc Text Text) :=
  ((Field.splitPieces separator false ps).mapM parseHierarchyToken).map Assoc.ofList

/-- The hierarchies option for some attributes with their files. -/
def hierarchiesText (separator : Text) (entries : List (Text × Text)) : Text :=
  Field.joined separator (entries.map fun (name, path) => Field.pairText name path)

/-- What an attribute is to the anonymization. -/
inductive Role where
  | identifying
  | insensitive
  | sensitive
  | quasiIdentifying
  deriving DecidableEq

/-- The name of a role. -/
def Role.name : Role → Text
  | .identifying => "IDENTIFYING".toList
  | .insensitive => "INSENSITIVE".toList
  | .sensitive => "SENSITIVE".toList
  | .quasiIdentifying => "QUASI_IDENTIFYING".toList

/-- The names listed under each role. -/
structure Named where
  quasiIdentifying : List Text
  sensitive : List Text
  insensitive : List Text
  identifying : List Text
  deriving DecidableEq

/-- The strongest role under which a name is listed. -/
def Named.role? (n : Named) (name : Text) : Option Role :=
  if n.quasiIdentifying.contains name then some .quasiIdentifying
  else if n.sensitive.contains name then some .sensitive
  else if n.insensitive.contains name then some .insensitive
  else if n.identifying.contains name then some .identifying
  else none

/-- The role of every attribute that is named. The weaker roles are given first, so that a stronger
one takes their place. -/
def Named.roles (n : Named) : Assoc Text Role :=
  Assoc.ofList (n.identifying.map (·, .identifying) ++ n.insensitive.map (·, .insensitive) ++
    n.sensitive.map (·, .sensitive) ++ n.quasiIdentifying.map (·, .quasiIdentifying))

end Anonymization.Attributes
