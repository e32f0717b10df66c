import Anonymization.Run
/-!
# What a run reaches for

The files that a run may open and the variables that it looks at are known from its options alone. So
the outer layer fetches them first, and the run itself is a function of them.
-/

namespace Anonymization.CommandLine

/-- The path that an option names. -/
def namedPath? (o : Options) (option : String) : Option Text :=
  match o.value option with
  | .text (c :: rest) => some (c :: rest)
  | _ => none

/-- The hierarchy files that the options name. -/
def hierarchyPaths (o : Options) : List Text :=
  match Options.listed (o.value "hierarchies") with
  | .error _ => []
  | .ok ps =>
    match Attributes.parseHierarchies Field.listSeparator ps with
    | .error _ => []
    | .ok files => files.map (·.2)

/-- The paths that a run with these options may follow. -/
def paths (o : Options) : List Text :=
  ["config", "file", "output", "runner"].filterMap (namedPath? o) ++ hierarchyPaths o

/-- The variables that a run may look at. -/
def consulted : List Text :=
  ["ARX_RUNNER".toList, "ARX_JAVA".toList, "MYSQL_USER".toList, "MYSQL_PASSWORD".toList]

/-- The run reads standard input. -/
def readsInput (o : Options) : Bool :=
  match Run.source o with
  | .ok .standardInput => true
  | _ => false

end Anonymization.CommandLine
