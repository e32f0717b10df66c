import Anonymization.CommandLine.Arguments
import Anonymization.Files
import Anonymization.Json.Reader
/-!
# Where option values come from

An option has the value of the strongest source that gives it one: the command line, then the
configuration file that the command line names, then the environment for two options, then a built-in
value. A variable of the environment that is empty gives nothing; a configuration file gives whatever
its object holds, `null` included. The switch `verbose` always has a value.
-/

namespace Anonymization.CommandLine

/-- The values of options that no other source gives. -/
def builtIn : Options := [
  ("metric".toList, .string "ENTROPY"),
  ("suppression".toList, .float Binary64.zero),
  ("separator".toList, .string ";"),
  ("practicalmonotonicity".toList, .bool false),
  ("java".toList, .string "java")]

/-- The options that the environment gives, with the names of their variables. -/
def variableNames : List (Text × Text) := [
  ("runner".toList, "ARX_RUNNER".toList),
  ("java".toList, "ARX_JAVA".toList)]

/-- What the environment gives. -/
def fromEnvironment (environment : Assoc Text Text) : Options :=
  variableNames.filterMap fun (option, source) =>
    match environment.get? source with
    | some (c :: rest) => some (option, .text (c :: rest))
    | _ => none

/-- What a configuration file gives. -/
def fromFile (fs : FileSystem) (path : Text) : Except Failure Options := do
  match Json.read (← fs.readText path) with
  | .ok (.object members) => return members
  | .ok _ => throw (.configNotObject path)
  | .error .malformed => throw (.configNotJson path)
  | .error .tooManyDigits => throw (.defect .unreadableValue)
  | .error .nestedTooDeeply => throw (.defect .nestedTooDeeply)

/-- What the configuration file gives that the command line names, nothing if it names none. -/
def fromNamedFile (fs : FileSystem) (given : Options) : Except Failure Options :=
  match given.get? "config".toList with
  | some (.text (c :: rest)) => fromFile fs (c :: rest)
  | _ => .ok []

/-- What the command line gives: all its options but the name of the configuration file. -/
def fromCommandLine (given : Options) : Options :=
  (given.setIfNew "verbose".toList (.bool false)).filter fun (name, _) => name != "config".toList

/-- The options of a run from all sources, `given` being those on the command line. -/
def gather (environment : Assoc Text Text) (fs : FileSystem) (given : Options) :
    Except Failure Options := do
  let file ← fromNamedFile fs given
  return ((builtIn.update (fromEnvironment environment)).update file).update (fromCommandLine given)

end Anonymization.CommandLine
