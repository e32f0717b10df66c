import Anonymization.Text.Blank
/-!
# The log

While it runs the program writes lines to its log, on standard error. A line says how much it matters,
which part of the program it comes from, and its message. The time that stands in front of each line
is no part of it here, so that lines can be compared.
-/

namespace Anonymization

/-- How much a line of the log matters. -/
inductive LogLevel where
  | debug
  | info
  | warning
  deriving DecidableEq

namespace LogLevel

/-- The name of a level. -/
def name : LogLevel → Text
  | debug => "DEBUG".toList
  | info => "INFO".toList
  | warning => "WARNING".toList

/-- Lines of this level are shown; those for debugging only if the program is `verbose`. -/
def isShown (verbose : Bool) : LogLevel → Bool
  | debug => verbose
  | info | warning => true

end LogLevel

/-- A line of the log. -/
structure LogLine where
  level : LogLevel
  /-- The part of the program that it comes from. -/
  origin : Text
  message : Text
  deriving DecidableEq

namespace LogLine

/-- The text of a line behind its time. -/
def text (l : LogLine) : Text :=
  l.level.name ++ " - ".toList ++ l.origin ++ " - ".toList ++ l.message ++ ['\n']

/-- What is shown of a line. -/
def shown (verbose : Bool) (l : LogLine) : Text :=
  if l.level.isShown verbose then l.text else []

end LogLine

end Anonymization
