import Anonymization.Failure
import Anonymization.Text.Capital
import Anonymization.Text.Word
/-!
# The research subset

The records that presence and inclusion refer to: a file of their own, or those of the input that a
query selects. The option reads `FILE=path` or `QUERY=expression`.
-/

namespace Anonymization

/-- Where the research subset comes from. -/
inductive SubsetKind where
  | file
  | query
  deriving DecidableEq

/-- The text of a kind. -/
def SubsetKind.text : SubsetKind → Text
  | .file => "FILE".toList
  | .query => "QUERY".toList

/-- The kind that a word gives, in any case of its letters. -/
def SubsetKind.ofWord? (word : Text) : Option SubsetKind :=
  [.file, .query].find? fun k => k.text == Text.capitals word

/-- The research subset: the path of a file or a query. -/
structure Subset where
  kind : SubsetKind
  content : Text
  deriving DecidableEq

namespace Subset

/-- The canonical text of a subset. -/
def text (s : Subset) : Text :=
  s.kind.text ++ '=' :: s.content

/-- The word in front of the equal sign and everything behind it. -/
def split? (spec : Text) : Option (Text × Text) :=
  let t := Text.trimStart spec
  let word := t.takeWhile Text.isWord
  match Text.trimStart (t.dropWhile Text.isWord) with
  | '=' :: content => if word.isEmpty then none else some (word, content)
  | _ => none

/-- The subset of a specification. -/
def parse (spec : Text) : Except Failure Subset :=
  match split? spec with
  | none => .error (.malformedSubsetSpec spec)
  | some (word, content) =>
    if Text.allBlank content then .error (.malformedSubsetSpec spec)
    else match SubsetKind.ofWord? word with
      | none => .error (.unknownSubsetKind word)
      | some kind => .ok ⟨kind, Text.trim content⟩

/-- The subset of the option, none if it is absent or blank. -/
def parseOption : Option Text → Except Failure (Option Subset)
  | none => .ok none
  | some spec => if Text.allBlank spec then .ok none else (parse spec).map some

end Subset

end Anonymization
