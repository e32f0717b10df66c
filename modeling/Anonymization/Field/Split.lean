import Anonymization.Text.Replace
/-!
# Lists of fields

The fields of an option stand one after the other with a separator between each two. A backslash in
front of a separator makes it part of the field; any other backslash stands for itself. In a grouped
list no separator inside parentheses counts, so `(0.1,0.9)-PRESENCE` is one field; a parenthesis
after a backslash neither opens nor closes a group, and keeps its backslash.

An option is read piece by piece. The pieces of a text are its characters; an option may also be
given in longer pieces, and then separators, backslashes and parentheses count only where they are a
piece of their own: the pieces `a,b` and `,` and `c` list the fields `a,b` and `c`.

* `splitPieces` cuts a list of pieces into its fields and drops the empty ones at the end, `split`
  does so with a text;
* `joined` writes fields as one text, `pairText` a name and its value;
* `escapeParentheses`, `unescapeParentheses` put a backslash in front of each parenthesis and take it away.
-/

namespace Anonymization.Field

/-- Takes the separator or the parenthesis after it for what it is. -/
def escapeChar : Char := '\\'

/-- Between the fields of an option. -/
def listSeparator : Text := [',']

/-- Between a name and its value. -/
def pairSeparator : Text := ['=']

/-- Opens a group. -/
def opening : Text := ['(']

/-- Closes a group. -/
def closing : Text := [')']

/-! ## 1. Cutting -/

/-- What is known after some pieces: the fields that are complete and the characters of the field
begun, both with the last one first; whether a backslash waits for the next piece; and how many
groups are open. -/
structure Cutter where
  done : List Text
  begun : Text
  pending : Bool
  depth : Nat

namespace Cutter

/-- Nothing is read. -/
def start : Cutter := ⟨[], [], false, 0⟩

/-- The piece goes on the field begun. -/
def keep (s : Cutter) (piece : Text) : Cutter :=
  { s with begun := piece.reverse ++ s.begun }

/-- A piece after which no backslash waits. -/
def plain (separator : Text) (grouped : Bool) (s : Cutter) (piece : Text) : Cutter :=
  if piece = [escapeChar] then { s with pending := true }
  else if piece = separator ∧ s.depth = 0 then { s with done := s.begun.reverse :: s.done, begun := [] }
  else if grouped ∧ piece = opening then { s.keep piece with depth := s.depth + 1 }
  else if grouped ∧ piece = closing then { s.keep piece with depth := s.depth - 1 }
  else s.keep piece

/-- The next piece. A backslash that waits is dropped in front of a separator and kept in front of
anything else. -/
def step (separator : Text) (grouped : Bool) (s : Cutter) (piece : Text) : Cutter :=
  if s.pending then
    if piece = separator then { s.keep piece with pending := false }
    else if grouped ∧ (piece = opening ∨ piece = closing) then
      { (s.keep [escapeChar]).keep piece with pending := false }
    else if piece = [escapeChar] then s.keep [escapeChar]
    else plain separator grouped { s.keep [escapeChar] with pending := false } piece
  else plain separator grouped s piece

/-- All fields once nothing more comes, the last one first. -/
def fields (s : Cutter) : List Text :=
  (if s.pending then s.keep [escapeChar] else s).begun.reverse :: s.done

end Cutter

/-- The pieces of a text are its characters. So a separator that is not a single character cuts no
text. -/
def pieces (t : Text) : List Text :=
  t.map fun c => [c]

/-- What is known after all pieces. -/
def scan (separator : Text) (grouped : Bool) (ps : List Text) : Cutter :=
  ps.foldl (Cutter.step separator grouped) Cutter.start

/-- The fields that the pieces make up; those at the end that are empty do not count. -/
def splitPieces (separator : Text) (grouped : Bool) (ps : List Text) : List Text :=
  ((scan separator grouped ps).fields.dropWhile List.isEmpty).reverse

/-- The fields of a text. -/
def split (separator : Text) (grouped : Bool) (t : Text) : List Text :=
  splitPieces separator grouped (pieces t)

/-- The two sides of a token `name=value`; `none` if the token has not exactly two fields. -/
def pair? (token : Text) : Option (Text × Text) :=
  match split pairSeparator false token with
  | [name, value] => some (name, value)
  | _ => none

/-! ## 2. Writing -/

/-- The text with a backslash in front of every separator. An empty text has none. -/
def escape (separator t : Text) : Text :=
  if t.isEmpty then [] else Text.replace separator (escapeChar :: separator) t

/-- The text with every backslash in front of a separator taken away. -/
def unescape (separator t : Text) : Text :=
  if t.isEmpty then [] else Text.replace (escapeChar :: separator) separator t

/-- The fields as one text. -/
def joined (separator : Text) (fields : List Text) : Text :=
  Text.joined separator (fields.map (escape separator))

/-- A name and its value as one token. -/
def pairText (name value : Text) : Text :=
  escape pairSeparator name ++ pairSeparator ++ escape pairSeparator value

/-- A text that keeps its form when it is written as a name or a value and read again: it is not
empty, no blanks stand at its ends and no backslash at its end. -/
def keepsForm (t : Text) : Bool :=
  !t.isEmpty && Text.trim t == t && t.getLast? != some escapeChar

/-! ## 3. Parentheses -/

/-- The text with a backslash in front of each parenthesis. -/
def escapeParentheses (t : Text) : Text :=
  Text.replace [')'] [escapeChar, ')'] (Text.replace ['('] [escapeChar, '('] t)

/-- The text with each backslash in front of a parenthesis taken away. -/
def unescapeParentheses (t : Text) : Text :=
  Text.replace [escapeChar, ')'] [')'] (Text.replace [escapeChar, '('] ['('] t)

end Anonymization.Field
