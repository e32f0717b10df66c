import Anonymization.Text.Blank
/-!
# Words that are known whatever the case of their letters

Names of kinds and metrics are compared with their capital form (`capitals`), keywords of the
criteria letter by letter (`keyLetter`). The two differ: `ß` has the capital form SS, but matches
no single letter of a keyword.
-/

namespace Anonymization.Text

/-- The capital form of a character, if that is written in ASCII; any other character stands for
itself, as no name of this library holds a letter from outside ASCII. -/
def capital (c : Char) : Text :=
  match c with
  | 'ß' => ['S', 'S']
  | 'ı' => ['I']
  | 'ſ' => ['S']
  | 'ﬀ' => ['F', 'F']
  | 'ﬁ' => ['F', 'I']
  | 'ﬂ' => ['F', 'L']
  | 'ﬃ' => ['F', 'F', 'I']
  | 'ﬄ' => ['F', 'F', 'L']
  | 'ﬅ' => ['S', 'T']
  | 'ﬆ' => ['S', 'T']
  | c => [c.toUpper]

/-- The text in capital letters. -/
def capitals (t : Text) : Text :=
  t.flatMap capital

/-- The capital letter that a character of a keyword may be written for. -/
def keyLetter (c : Char) : Char :=
  match c with
  | 'ſ' => 'S'
  | 'ı' => 'I'
  | 'İ' => 'I'
  | '\u212A' => 'K'
  | c => c.toUpper

/-- The text after the keyword, if it begins with the keyword in any case of its letters. -/
def afterKeyword? : Text → Text → Option Text
  | [], t => some t
  | _ :: _, [] => none
  | k :: keyword, c :: t => if keyLetter c = keyLetter k then afterKeyword? keyword t else none

end Anonymization.Text
