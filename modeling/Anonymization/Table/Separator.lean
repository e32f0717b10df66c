import Anonymization.Files
import Anonymization.Log
import Anonymization.Text.Capital
/-!
# The separator of a table

The separator is one of four candidates, the one that occurs most often in the first `sampleLines`
lines; of several that occur equally often it is the one listed first, so it is the semicolon where
none occurs.
-/

namespace Anonymization.Separator

/-- The separators that can be detected, in order of priority. -/
def candidates : List Char := [';', ',', '|', '\t']

/-- The number of lines that are looked at. -/
def sampleLines : Nat := 100

/-- How often a character occurs in the sample of a text. -/
def occurrences (t : Text) (c : Char) : Nat :=
  ((Text.lines .unified t).take sampleLines).foldl (fun n line => n + line.count c) 0

/-- Of some characters the first that no other beats, `best` being the best so far. -/
def firstBest (score : Char → Nat) (best : Char) : List Char → Char
  | [] => best
  | c :: rest => firstBest score (if score best < score c then c else best) rest

/-- The separator of a text. -/
def detect (t : Text) : Char :=
  firstBest (occurrences t) ';' candidates

/-- The separator of a file. Bytes that are no text are passed over. -/
def detectInFile (fs : FileSystem) (path : Text) : Except Failure Char :=
  (fs.read path).map fun bytes => detect (Text.decodeLossy bytes)

/-- The candidates with how often they occur, as the log shows them. -/
def countsText (t : Text) : Text :=
  '\x7b' :: Text.joined ", ".toList (candidates.map fun c =>
    Text.quoted [c] ++ ": ".toList ++ Numeral.decimalText (occurrences t c)) ++ ['\x7d']

/-- What is logged of the detection in a file that holds this text. -/
def detectionLine (path t : Text) : LogLine where
  level := .info
  origin := "utils.separator_detector".toList
  message :=
    if candidates.all fun c => occurrences t c == 0 then
      "No separator found in ".toList ++ path ++ ", falling back to ".toList ++ Text.quoted [';']
    else
      "Detected separator ".toList ++ Text.quoted [detect t] ++ " in ".toList ++ path ++
        " (counts: ".toList ++ countsText t ++ [')']

/-- The log of the detection in a file; there is none where the file cannot be opened. -/
def detectionLog (fs : FileSystem) (path : Text) : List LogLine :=
  match fs.read path with
  | .ok bytes => [detectionLine path (Text.decodeLossy bytes)]
  | .error _ => []

/-- The keyword that asks for detection. -/
def keyword : Text := "DETECT".toList

/-- What the separator option asks for, when the input file is named by an `α`. -/
inductive Choice (α : Type) where
  | given (separator : Text)
  | detect (input : α)
  deriving DecidableEq

/-- What the separator option asks for. Detection needs an input file. -/
def choose {α : Type} (option : Option Text) (input : Option α) : Except Failure (Choice α) :=
  match option with
  | none => .ok (.given [';'])
  | some t =>
    if t.length = 1 then .ok (.given t)
    else if Text.capitals t = keyword then
      match input with
      | none => .error (.nothingToDetectFrom t)
      | some file => .ok (.detect file)
    else .error (.invalidSeparator t)

/-- The separator that the separator option asks for. -/
def resolve (fs : FileSystem) (option input : Option Text) : Except Failure Text := do
  match ← choose option input with
  | .given separator => return separator
  | .detect path => return [← detectInFile fs path]

end Anonymization.Separator
