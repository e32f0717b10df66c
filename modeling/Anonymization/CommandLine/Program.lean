import Anonymization.CommandLine.Help
import Anonymization.CommandLine.Sources
import Anonymization.Run
/-!
# The program

From the words of a command line to an exit status: 0 after a run or the help, 1 when a run failed,
2 when the command line is wrong. A failed run tells its failure and the usage, a wrong command line
the usage and its mistake.

What is told outside (`Told`) is the exit status, standard output, standard error and what the progress
bar is handed. Three things that reach standard error are left out, since no run decides them alone: the
times in front of the lines of the log, the looks of the progress bar, and what the parts that are not
modelled here (the database client among them) may write there. For a program that is broken off by a
defect the description of the defect stands in the place of a report of where it happened, and where a
configuration file is no JSON, the message names the file and not the place in it.
-/

namespace Anonymization.CommandLine

/-- What the program has to complain about. -/
inductive Complaint where
  | none
  /-- The run failed. -/
  | failed (message : Text)
  /-- The command line is wrong. -/
  | misused (message : Text)

namespace Complaint

/-- The exit status. -/
def status : Complaint → Nat
  | none => 0
  | failed _ => 1
  | misused _ => 2

/-- The complaint itself, with its line feed. -/
def text : Complaint → Text
  | none => []
  | failed message => message ++ ['\n']
  | misused message => programName ++ ": error: ".toList ++ message ++ ['\n']

/-- The usage is shown with it. -/
def showsUsage : Complaint → Bool
  | none => false
  | _ => true

/-- What the complaint puts on standard error. -/
def errorText : Complaint → Text
  | none => []
  | failed message => text (failed message) ++ usage
  | misused message => usage ++ text (misused message)

end Complaint

/-- How the program ended: with a complaint or without, or broken off by a defect. -/
inductive Ending where
  | finished (complaint : Complaint)
  | brokenOff (d : Defect)

namespace Ending

/-- The exit status. -/
def status : Ending → Nat
  | finished complaint => complaint.status
  | brokenOff _ => 1

/-- What the ending puts on standard error. -/
def errorText : Ending → Text
  | finished complaint => complaint.errorText
  | brokenOff d => "broken off: ".toList ++ d.describe.toList ++ ['\n']

end Ending

/-- What is told outside. -/
structure Told where
  /-- The exit status. -/
  status : Nat
  output : Text
  /-- Standard error without the times of the log and without the progress bar. -/
  errorOutput : Text
  /-- What the progress bar is handed. -/
  progress : List Progress
  deriving DecidableEq

/-- How the program ended and what was seen of it. -/
structure Execution where
  /-- The lines of the log that are for debugging are shown. -/
  verbose : Bool
  events : List Event
  ending : Ending

/-- What an event puts on standard output. -/
def outputOf : Event → Text
  | .printed t => t
  | _ => []

/-- What an event puts on standard error, the progress bar apart. -/
def errorOutputOf (verbose : Bool) : Event → Text
  | .warned i => i.line.shown verbose
  | .logged l => l.shown verbose
  | .engine (.logged l) => l.shown verbose
  | _ => []

/-- What an event hands to the progress bar. -/
def progressOf : Event → List Progress
  | .progressed p => [p]
  | _ => []

namespace Execution

/-- Everything on standard output. -/
def output (x : Execution) : Text := x.events.flatMap outputOf

/-- Standard error without times and progress bar: the log as its lines come up, then the ending. -/
def errorOutput (x : Execution) : Text :=
  x.events.flatMap (errorOutputOf x.verbose) ++ x.ending.errorText

/-- What the progress bar is handed. -/
def progress (x : Execution) : List Progress := x.events.flatMap progressOf

/-- What is told of it. -/
def told (x : Execution) : Told := ⟨x.ending.status, x.output, x.errorOutput, x.progress⟩

end Execution

/-- The ending of a program whose run failed. -/
def endingOf (e : Failure) : Ending :=
  match e with
  | .defect d => .brokenOff d
  | e => .finished (.failed e.message)

/-- The ending of a program whose run came to this. -/
def endingAfter (r : Except Failure Config) : Ending :=
  match r with
  | .ok _ => .finished .none
  | .error e => endingOf e

/-- The program that stops before a run. -/
def stopped : Stop → Execution
  | .help => ⟨false, [.printed help], .finished .none⟩
  | .mistake message => ⟨false, [], .finished (.misused message)⟩

/-- The program whose run ended like this. -/
def ended (verbose : Bool) (r : Run.Step Config) : Execution :=
  ⟨verbose, r.events, endingAfter r.outcome⟩

/-- The switch for debugging is given on the command line; a configuration file does not count here. -/
def isVerbose (given : Options) : Bool :=
  !(given.value "verbose").isFalsy

/-- The run with the options given on the command line. -/
def start (h : Host) (given : Options) : Execution :=
  match gather h.environment h.files given with
  | .error e => ended (isVerbose given) (Traced.fail e)
  | .ok o => ended (isVerbose given) (Run.run h o)

/-- The program with the words of its command line. -/
def execute (h : Host) (words : List Text) : Execution :=
  match parse words with
  | .error s => stopped s
  | .ok given => start h given

end Anonymization.CommandLine
