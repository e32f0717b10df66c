import Anonymization.Engine.Manifest
import Anonymization.Json.Printer
import Anonymization.Table.Writer
import Anonymization.Trace
/-!
# Running the engine

The engine is a program of its own. It finds the input table and the manifest in a working directory
made for it, and leaves the output table there. What programs there are and what they do is given
(`Programs`); what is asked of them can be seen (`Invocation`).
-/

namespace Anonymization

/-- What a program is started with, and what it finds in its working directory. -/
structure Invocation where
  command : List Text
  manifest : Json
  input : Text

/-- The manifest as it is written into the working directory. -/
def Invocation.manifestText (i : Invocation) : Text :=
  i.manifest.indented

/-- What a program leaves behind: its exit status, what it printed, and the output table if it wrote
one. -/
structure ProgramResult where
  status : Nat
  output : Text
  table : Option ByteArray

/-- The programs that can be started, by the parts of their paths. -/
abbrev Programs := List (List Text × (Invocation → ProgramResult))

/-- How to start the engine. -/
structure Runner where
  /-- The option that names the runner. -/
  path : Json
  /-- The option that names the Java executable. -/
  java : Json

namespace Runner

/-- What can be seen of the engine. -/
inductive EngineEvent where
  /-- The engine is asked to anonymize a table. -/
  | called
  /-- The program is started. -/
  | started (invocation : Invocation)
  | logged (l : LogLine)

/-- The Java executable unless the option names one. -/
def defaultJava : Text := "java".toList

/-- The command line of the engine. -/
def command (java runner manifest : Text) : List Text :=
  [java, "-jar".toList, runner, manifest]

/-- The runner, which has to be a file. A number, a truth value included, names no file. -/
def findRunner (fs : FileSystem) (path : Json) : Except Failure Text :=
  if path.isFalsy then .error (.runnerNotFound (Options.shown path))
  else match path with
    | .text t => if fs.isFile t then .ok t else .error (.runnerNotFound t)
    | .int n =>
      if Numeral.isWord n then .error (.runnerNotFound (Numeral.signedText n))
      else .error (.defect .numberTooLarge)
    | .bool b => .error (.runnerNotFound (Options.shown (.bool b)))
    | .null | .float _ | .list _ | .object _ => .error (.defect .wrongType)

/-- The program that a command names. A name without a slash is looked for in the search path, where
there is none. -/
def findProgram? (fs : FileSystem) (programs : Programs) (command : Text) :
    Option (Invocation → ProgramResult) :=
  if command.contains '/' then
    match fs.locate command with
    | .ok (.file parts) => (programs.find? fun p => p.1 == parts).map (·.2)
    | _ => none
  else none

/-- The Java executable with what it does. -/
def findJava (fs : FileSystem) (programs : Programs) (java : Json) :
    Except Failure (Text × (Invocation → ProgramResult)) := do
  let name ← match java with
    | .text t => pure (if t.isEmpty then defaultJava else t)
    | v => if v.isFalsy then pure defaultJava else throw (.defect .wrongType)
  match findProgram? fs programs name with
  | some p => return (name, p)
  | none => throw (.javaNotFound name)

/-- The table that the program left behind. -/
def outcome (separator : Text) (r : ProgramResult) : Except Failure Table :=
  if r.status ≠ 0 then .error (.runnerFailed r.status (Text.unifyEnds r.output))
  else match r.table with
    | none => .error .runnerWithoutOutput
    | some bytes =>
      match Text.decode? bytes with
      | some t => Table.read separator .kept t
      | none => .error (.defect .undecodable)

/-- A path in a directory. -/
def inDirectory (directory : Text) (name : String) : Text :=
  directory ++ '/' :: name.toList

/-- The part of the program that runs the engine, as the log names it. -/
def logOrigin : Text := "engines.arx_runner".toList

/-- What is logged before the program is started. -/
def startingLine (command : List Text) : LogLine where
  level := .info
  origin := logOrigin
  message := "Running ".toList ++ Text.joined [' '] command

/-- What is logged of the program when it has ended. -/
def endedLine (r : ProgramResult) : LogLine where
  level := .debug
  origin := logOrigin
  message := "Runner output:\n".toList ++ Text.unifyEnds r.output

/-- The anonymized table. `directory` is the working directory made for the program. -/
def anonymize (r : Runner) (fs : FileSystem) (programs : Programs) (directory : Text) (data : Table)
    (config : Config) : Traced EngineEvent Table := do
  Traced.emit .called
  let runner ← Traced.ofExcept (findRunner fs r.path)
  let (java, program) ← Traced.ofExcept (findJava fs programs r.java)
  let input ← Traced.ofExcept (data.write config.separator)
  let manifest ← Traced.ofExcept
    (config.manifest (inDirectory directory "input.csv") (inDirectory directory "output.csv"))
  Traced.emit (.logged config.boundLine)
  let invocation : Invocation :=
    ⟨command java runner (inDirectory directory "manifest.json"), manifest, input⟩
  Traced.emit (.logged (startingLine invocation.command))
  Traced.emit (.started invocation)
  let result := program invocation
  Traced.emit (.logged (endedLine result))
  Traced.ofExcept (outcome config.separator result)

end Runner

end Anonymization
