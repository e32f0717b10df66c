import Anonymization.Criterion.Grammar
import Anonymization.Log
/-!
# Reading criteria

A token is a criterion if exactly one grammar recognises it. The criteria option is a grouped list
of tokens, which one pair of brackets may enclose.
-/

namespace Anonymization.Criterion

/-- The criteria that a token writes, one for each grammar that recognises it. -/
def readings (grammars : List Grammar) (token : Text) : Except Failure (List Criterion) :=
  match grammars with
  | [] => .ok []
  | g :: rest => do
    let first? ← g.recognise token
    let others ← readings rest token
    return first?.toList ++ others

/-- The criterion that a token writes; `index` is its place in a list, for the failure. -/
def parse (grammars : List Grammar) (index : Int) (token : Text) : Except Failure Criterion := do
  let token := Text.trim token
  match ← readings grammars token with
  | [] => throw (.unparseableCriterion index token)
  | [c] => return c
  | several => throw (.ambiguousCriterion index token several)

/-- The criterion that a token writes, when its place may be any integer. A mistake is told with the
number of the token, which has to keep the limit of digits. -/
def parseAt (grammars : List Grammar) (index : Int) (token : Text) : Except Failure Criterion :=
  match parse grammars index token with
  | .ok c => .ok c
  | .error e =>
    .error (if e.isReported && !Numeral.keepsLimit (index + 1) then .defect .unreadableValue else e)

/-- A text without blanks at its ends and without one pair of brackets, either of which may be
absent. -/
def unbracketed (t : Text) : Text :=
  let t := Text.trim t
  let t := match t with
    | '[' :: rest => rest
    | t => t
  let t := if t.getLast? = some ']' then t.dropLast else t
  Text.trim t

/-- The criteria of the tokens, in order; the first has the place `index`. -/
def parseTokens (grammars : List Grammar) : Int → List Text → Except Failure (List Criterion)
  | _, [] => .ok []
  | index, token :: rest => do
    let c ← parse grammars index token
    let cs ← parseTokens grammars (index + 1) rest
    return c :: cs

/-- The criteria that a text lists. -/
def parseList (grammars : List Grammar) (separator t : Text) : Except Failure (List Criterion) :=
  parseTokens grammars 0 (Field.split separator true (unbracketed t))

/-- The criteria of the criteria option, none if it is absent. -/
def parseOption : Option Text → Except Failure (List Criterion)
  | none => .ok []
  | some t => parseList Grammar.all Field.listSeparator t

/-- What is logged of the criteria that an option gives. -/
def parsedLine (option : Text) (cs : List Criterion) : LogLine where
  level := .debug
  origin := "utils.criteria_parser".toList
  message :=
    "Parsed ".toList ++ Numeral.decimalText cs.length ++ " criteria from [".toList ++ option ++
      "]: ".toList ++ Text.quotedList (cs.map text)

/-- The log of reading the criteria option. -/
def parsedLog (option : Option Text) : List LogLine :=
  match option, parseOption option with
  | some t, .ok cs => [parsedLine t cs]
  | _, _ => []

end Anonymization.Criterion
