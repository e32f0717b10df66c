import Anonymization.CommandLine.Program
import Anonymization.CommandLine.Reach
/-!
# The outer layer

Fetches what a run reaches for, lets it run, and carries out what it did: texts are printed and files
written in the order of the events. From here neither a database nor another program can be reached,
so a run that gets as far as that ends with the failure it has when there is none.
-/

namespace Anonymization.Main

/-- The server where there is none. -/
def noServer : Server where
  refusal := some "no server can be reached".toList
  statementFault := fun _ => none
  count := 0
  columns := []
  batches := []
  closingFault := none

/-- The text of a path. -/
def pathText (parts : List Text) : String :=
  String.ofList ('/' :: Text.joined ['/'] parts)

/-- The file system with the place of these parts, if there is anything. -/
def lookAt (fs : FileSystem) (parts : List Text) : IO FileSystem := do
  let place := (← IO.currentDir) / pathText parts
  if ← place.isDir then return { fs with directories := parts :: fs.directories }
  try
    let bytes ← IO.FS.readBinFile place
    return { fs with files := fs.files.set parts bytes }
  catch _ => return fs

/-- The file system with everything on the way that a path goes. -/
def follow (fs : FileSystem) (path : Text) : IO FileSystem :=
  let here := if path.head? = some '/' then [] else fs.here
  let way := FileSystem.pathParts path
  ((List.range (way.length + 1)).map fun n => (way.take n).foldl FileSystem.step here).foldlM
    lookAt fs

/-- The file system as far as the options reach. -/
def fetch (fs : FileSystem) (o : Options) : IO FileSystem :=
  (CommandLine.paths o).foldlM follow fs

/-- Everything on standard input. -/
partial def readAll (input : IO.FS.Stream) (read : ByteArray) : IO ByteArray := do
  let more ← input.read 65536
  if more.isEmpty then return read
  readAll input (read ++ more)

/-- The variables that a run may look at, as far as they are set. -/
def fetchEnvironment : IO (Assoc Text Text) :=
  CommandLine.consulted.filterMapM fun name => do
    return (← IO.getEnv (String.ofList name)).map fun value => (name, value.toList)

/-- What surrounds a run with these words. -/
def surroundings (words : List Text) : IO Host := do
  let here := FileSystem.partsFrom [] (← IO.currentDir).toString.toList
  let environment ← fetchEnvironment
  let mut files : FileSystem := ⟨[], [], here⟩
  let mut input : Text := []
  if let .ok given := CommandLine.parse words then
    files ← fetch files given
    if let .ok o := CommandLine.gather environment files given then
      files ← fetch files o
      if CommandLine.readsInput o then
        input := Text.decodeLossy (← readAll (← IO.getStdin) .empty)
  return { files, input, environment, server := noServer, programs := [], directory := [] }

/-- Carries out what a run did. The lines of the log are put out without a time, and there is no progress
bar, since no database can be reached. -/
def carryOut (verbose : Bool) : Event → IO Unit
  | .printed t => do (← IO.getStdout).putStr (String.ofList t)
  | .wrote parts t => do IO.FS.writeBinFile ((← IO.currentDir) / pathText parts) (Text.encode t)
  | e => do (← IO.getStderr).putStr (String.ofList (CommandLine.errorOutputOf verbose e))

/-- Tells how the program ended, and its exit status. -/
def tell (ending : CommandLine.Ending) : IO UInt32 := do
  (← IO.getStderr).putStr (String.ofList ending.errorText)
  return ending.status.toUInt32

/-- Runs the program with the words of its command line. -/
def run (words : List Text) : IO UInt32 := do
  let execution := CommandLine.execute (← surroundings words) words
  execution.events.forM (carryOut execution.verbose)
  tell execution.ending

end Anonymization.Main

/-- Anonymizes a table as the words of the command line say. -/
def main (args : List String) : IO UInt32 :=
  Anonymization.Main.run (args.map String.toList)
