import Anonymization.Json.Basic
import Anonymization.Text.Quoted
import Anonymization.Text.Replace
/-!
# JSON texts

`compact` puts a value on one line without blanks, `indented` gives every member and item a line of
its own, two spaces further in for each level. Characters outside ASCII stand for themselves. A
number that is not finite has no JSON text; it is written `NaN`, `Infinity` or `-Infinity`, which is
no JSON.
-/

namespace Anonymization.Json

/-- A character inside a JSON string. -/
def stringChar (c : Char) : Text :=
  if c = '"' ∨ c = '\\' then ['\\', c]
  else if c = '\n' then ['\\', 'n']
  else if c = '\r' then ['\\', 'r']
  else if c = '\t' then ['\\', 't']
  else if c.toNat = 0x08 then ['\\', 'b']
  else if c.toNat = 0x0C then ['\\', 'f']
  else if c.toNat < 0x20 then '\\' :: 'u' :: Text.hexDigits 4 c.toNat
  else [c]

/-- A text as a JSON string. -/
def stringText (t : Text) : Text :=
  '"' :: t.flatMap stringChar ++ ['"']

/-- A number. -/
def numberText : Binary64 → Text
  | .finite negative rank => Binary64.text (.finite negative rank)
  | .infinite negative => (if negative then ['-'] else []) ++ "Infinity".toList
  | .nan => "NaN".toList

/-- The texts of some items or members between their brackets. `inset` comes in front of each and
`outset` in front of the closing bracket. -/
def enclosed (opening closing : Char) (inset outset : Text) (parts : List Text) : Text :=
  match parts with
  | [] => [opening, closing]
  | parts => opening :: inset ++ Text.joined (',' :: inset) parts ++ outset ++ [closing]

/-- How a text is laid out over lines: the line break in front of an item at some level, and the
blank after the colon of a member. -/
structure Layout where
  lineBreak : Nat → Text
  afterColon : Text

mutual

/-- A value at some level. -/
def render (l : Layout) (level : Nat) : Json → Text
  | .null => "null".toList
  | .bool true => "true".toList
  | .bool false => "false".toList
  | .int n => Numeral.signedText n
  | .float x => numberText x
  | .text t => stringText t
  | .list items =>
    enclosed '[' ']' (l.lineBreak (level + 1)) (l.lineBreak level) (renderItems l (level + 1) items)
  | .object members =>
    enclosed '\x7b' '\x7d' (l.lineBreak (level + 1)) (l.lineBreak level)
      (renderMembers l (level + 1) members)

/-- The items of a list. -/
def renderItems (l : Layout) (level : Nat) : List Json → List Text
  | [] => []
  | item :: rest => render l level item :: renderItems l level rest

/-- The members of an object. -/
def renderMembers (l : Layout) (level : Nat) : List (Text × Json) → List Text
  | [] => []
  | (name, value) :: rest =>
    (stringText name ++ ':' :: l.afterColon ++ render l level value) :: renderMembers l level rest

end

/-- The value on one line. -/
def compact (v : Json) : Text :=
  render ⟨fun _ => [], []⟩ 0 v

/-- The value with a line for each item and member. -/
def indented (v : Json) : Text :=
  render ⟨fun level => '\n' :: List.replicate (2 * level) ' ', [' ']⟩ 0 v

end Anonymization.Json
