import Anonymization.Failure
import Anonymization.Numeral.Reading
import Anonymization.Text.Capital
/-!
# The grammar of criteria

Each kind of criterion has one form: keywords, whose letters may be small or capital, and numbers,
which blanks may surround. Five forms are about an attribute and have its name and an equal sign in
front. `Grammar.pieces` gives the form, `matchPieces?` matches a whole text against it, and
`Grammar.recognise` makes the criterion out of what the numbers were.
-/

namespace Anonymization

/-- The grammars, one for each kind of criterion. -/
inductive Grammar where
  | kAnonymity
  | dPresence
  | inclusion
  | distinctLDiversity
  | entropyLDiversity
  | recursiveLDiversity
  | hierarchicalTCloseness
  | equalTCloseness
  deriving DecidableEq

namespace Grammar

/-- All grammars, in the order in which they are tried. -/
def all : List Grammar :=
  [kAnonymity, dPresence, inclusion, distinctLDiversity, entropyLDiversity, recursiveLDiversity,
    hierarchicalTCloseness, equalTCloseness]

/-- The name of a grammar. -/
def name : Grammar → Text
  | kAnonymity => "k-anonymity".toList
  | dPresence => "d-presence".toList
  | inclusion => "inclusion".toList
  | distinctLDiversity => "distinct-l-diversity".toList
  | entropyLDiversity => "entropy-l-diversity".toList
  | recursiveLDiversity => "recursive-c-l-diversity".toList
  | hierarchicalTCloseness => "hierarchical-t-closeness".toList
  | equalTCloseness => "equal-distance-t-closeness".toList

/-! ## 1. The forms -/

/-- A part of a form. -/
inductive Piece where
  /-- A keyword with its punctuation. -/
  | literal (t : Text)
  /-- A whole number: one or more digits, with blanks around them. -/
  | whole
  /-- A number with blanks around it. -/
  | number

/-- What stands for a part of a form that is no keyword. -/
inductive Captured where
  | whole (digits : Text)
  | number (w : Numeral.Written)

/-- The form of the body of a criterion. -/
def pieces : Grammar → List Piece
  | kAnonymity => [.whole, .literal "-ANONYMITY".toList]
  | dPresence =>
    [.literal "(".toList, .number, .literal ",".toList, .number, .literal ")-PRESENCE".toList]
  | inclusion => [.literal "INCLUSION".toList]
  | distinctLDiversity =>
    [.literal "DISTINCT-(".toList, .whole, .literal ")-DIVERSITY".toList]
  | entropyLDiversity =>
    [.literal "ENTROPY-(".toList, .number, .literal ")-DIVERSITY".toList]
  | recursiveLDiversity =>
    [.literal "RECURSIVE-(".toList, .number, .literal ",".toList, .whole,
      .literal ")-DIVERSITY".toList]
  | hierarchicalTCloseness =>
    [.literal "HIERARCHICAL-(".toList, .number, .literal ")-CLOSENESS".toList]
  | equalTCloseness =>
    [.literal "EQUALDISTANCE-(".toList, .number, .literal ")-CLOSENESS".toList]

/-- The form has the name of an attribute in front. -/
def keyed : Grammar → Bool
  | kAnonymity | dPresence | inclusion => false
  | _ => true

/-! ## 2. Matching -/

/-- One or more digits with blanks around them, and the rest. -/
def takeWhole? (t : Text) : Option (Text × Text) :=
  match Numeral.Written.takeDigits (Text.trimStart t) with
  | ([], _) => none
  | (digits, rest) => some (digits, Text.trimStart rest)

/-- A number with blanks around it, and the rest. -/
def takeNumber? (t : Text) : Option (Numeral.Written × Text) :=
  (Numeral.Written.take? (Text.trimStart t)).map fun (w, rest) => (w, Text.trimStart rest)

/-- What the numbers of a form are when the whole text has that form. -/
def matchPieces? : List Piece → Text → Option (List Captured)
  | [], [] => some []
  | [], _ :: _ => none
  | .literal k :: ps, t => (Text.afterKeyword? k t).bind (matchPieces? ps)
  | .whole :: ps, t =>
    (takeWhole? t).bind fun (digits, rest) => (matchPieces? ps rest).map (.whole digits :: ·)
  | .number :: ps, t =>
    (takeNumber? t).bind fun (w, rest) => (matchPieces? ps rest).map (.number w :: ·)

/-! ## 3. From a token to a criterion -/

/-- A whole number, refused when it has too many digits. -/
def wholeNumber (digits : Text) : Except Failure Int :=
  match Numeral.digitsNumber? digits with
  | some n => .ok n
  | none => .error (.defect .unreadableValue)

/-- The criterion with the given attribute and numbers. -/
def build : Grammar → Text → List Captured → Except Failure (Option Criterion)
  | kAnonymity, _, [.whole k] => do return some (.kAnonymity (← wholeNumber k))
  | dPresence, _, [.number dMin, .number dMax] => return some (.dPresence dMin.value dMax.value)
  | inclusion, _, [] => return some .inclusion
  | distinctLDiversity, a, [.whole l] => do return some (.distinctLDiversity a (← wholeNumber l))
  | entropyLDiversity, a, [.number l] => return some (.entropyLDiversity a l.value)
  | recursiveLDiversity, a, [.number c, .whole l] => do
    return some (.recursiveLDiversity a c.value (← wholeNumber l))
  | hierarchicalTCloseness, a, [.number t] => return some (.hierarchicalTCloseness a t.value)
  | equalTCloseness, a, [.number t] => return some (.equalTCloseness a t.value)
  | _, _, _ => return none

/-- The attribute that a keyed token is about and the body after it. -/
def keyedParts? (token : Text) : Option (Text × Text) :=
  match Field.pair? token with
  | some (name, body) =>
    if Text.allBlank name then none
    else some (Field.unescapeParentheses (Text.trim name), Text.trim body)
  | none => none

/-- The attribute (empty where the grammar is about none) and the body of a token. -/
def parts? (g : Grammar) (token : Text) : Option (Text × Text) :=
  if g.keyed then keyedParts? token else some ([], token)

/-- The criterion that a token writes in this grammar, if it does. -/
def recognise (g : Grammar) (token : Text) : Except Failure (Option Criterion) :=
  match g.parts? token with
  | none => .ok none
  | some (a, body) =>
    match matchPieces? g.pieces body with
    | none => .ok none
    | some captured => g.build a captured

end Grammar

end Anonymization
