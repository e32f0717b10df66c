import Anonymization.Criterion.Grammar
import Anonymization.Field.Position
/-!
# What the grammars derive

The texts of a grammar, said without a matcher: a body is its parts one after the other
(`Grammar.Spells`), each number with any blanks around it, and a token of a grammar with an attribute
is what its only bare equal sign divides (`Grammar.Divides`).

* `Written.Spells` -- the texts of a number;
* `Grammar.Spells` -- the texts of a form with what stands for its numbers;
* `Grammar.Reads` -- the tokens of a grammar with their attribute and numbers;
* `Grammar.Makes`, `Grammar.Derives` -- the criterion of these, and the criteria of a token.
-/

namespace Anonymization

/-- A text of blanks, which may be empty. -/
def Text.Blanks (t : Text) : Prop :=
  ∀ c ∈ t, Text.isBlank c = true

/-- One or more decimal digits. -/
def Text.Digits (t : Text) : Prop :=
  t ≠ [] ∧ ∀ c ∈ t, Text.isDecimal c = true

/-- The text is the keyword, whatever the case of its letters. -/
def Text.SameLetters (keyword t : Text) : Prop :=
  t.map Text.keyLetter = keyword.map Text.keyLetter

namespace Numeral

/-- The texts of a sign; whether it is a minus sign. -/
inductive SignSpells : Bool → Text → Prop where
  | absent : SignSpells false []
  | plus : SignSpells false ['+']
  | minus : SignSpells true ['-']

/-- The texts of the digits before and after a point. -/
inductive DigitsSpell : Text → Text → Text → Prop where
  | whole {whole} : Text.Digits whole → DigitsSpell whole [] whole
  | point {whole} : Text.Digits whole → DigitsSpell whole [] (whole ++ ['.'])
  | both {whole fraction} : Text.Digits whole → Text.Digits fraction →
      DigitsSpell whole fraction (whole ++ '.' :: fraction)
  | fraction {fraction} : Text.Digits fraction → DigitsSpell [] fraction ('.' :: fraction)

/-- The texts of an exponent: whether it is negative, and its digits. -/
inductive ExponentSpells : Bool → Text → Text → Prop where
  | absent : ExponentSpells false [] []
  | present {mark negative sign digits} : mark = 'e' ∨ mark = 'E' → SignSpells negative sign →
      Text.Digits digits → ExponentSpells negative digits (mark :: sign ++ digits)

/-- The texts of a number. -/
inductive Written.Spells : Written → Text → Prop where
  | mk {negative whole fraction exponentNegative exponent sign digits scale} :
      SignSpells negative sign → DigitsSpell whole fraction digits →
      ExponentSpells exponentNegative exponent scale →
      Written.Spells ⟨negative, whole, fraction, exponentNegative, exponent⟩ (sign ++ digits ++ scale)

end Numeral

namespace Grammar

/-- The texts of a form, with what stands for its numbers. -/
inductive Spells : List Piece → List Captured → Text → Prop where
  | nil : Spells [] [] []
  | literal {keyword t ps cs rest} : Text.SameLetters keyword t → Spells ps cs rest →
      Spells (.literal keyword :: ps) cs (t ++ rest)
  | whole {before digits after ps cs rest} : Text.Blanks before → Text.Digits digits →
      Text.Blanks after → Spells ps cs rest →
      Spells (.whole :: ps) (.whole digits :: cs) (before ++ digits ++ after ++ rest)
  | number {before w t after ps cs rest} : Text.Blanks before → Numeral.Written.Spells w t →
      Text.Blanks after → Spells ps cs rest →
      Spells (.number :: ps) (.number w :: cs) (before ++ t ++ after ++ rest)

/-- A token has one bare equal sign, and these are the texts to its left and to its right. -/
def Divides (token left right : Text) : Prop :=
  ∃ i, Field.cuts '=' false token = [i] ∧ left = Field.between '=' token 0 i ∧
    right = Field.between '=' token (i + 1) token.length

/-- The tokens of a grammar with the attribute (empty where the grammar is about none) and what stands
for the numbers. -/
inductive Reads (g : Grammar) : Text → Text → List Captured → Prop where
  | plain {body cs} : g.keyed = false → Spells g.pieces cs body → Reads g body [] cs
  | keyed {token left right cs} : g.keyed = true → Divides token left right →
      Text.allBlank left = false → Spells g.pieces cs (Text.trim right) →
      Reads g token (Field.unescapeParentheses (Text.trim left)) cs

/-- The criterion of a grammar with an attribute and numbers: a whole number is what its digits
denote, any other the nearest to what is written. -/
inductive Makes : Grammar → Text → List Captured → Criterion → Prop where
  | kAnonymity {a k} : Makes .kAnonymity a [.whole k] (.kAnonymity (Text.digitsValue k))
  | dPresence {a x y} : Makes .dPresence a [.number x, .number y] (.dPresence x.value y.value)
  | inclusion {a} : Makes .inclusion a [] .inclusion
  | distinctLDiversity {a l} : Makes .distinctLDiversity a [.whole l] (.distinctLDiversity a (Text.digitsValue l))
  | entropyLDiversity {a l} : Makes .entropyLDiversity a [.number l] (.entropyLDiversity a l.value)
  | recursiveLDiversity {a c l} : Makes .recursiveLDiversity a [.number c, .whole l]
      (.recursiveLDiversity a c.value (Text.digitsValue l))
  | hierarchicalTCloseness {a t} : Makes .hierarchicalTCloseness a [.number t] (.hierarchicalTCloseness a t.value)
  | equalTCloseness {a t} : Makes .equalTCloseness a [.number t] (.equalTCloseness a t.value)

/-- The tokens of a grammar with their criteria. -/
def Derives (g : Grammar) (token : Text) (c : Criterion) : Prop :=
  ∃ a cs, Reads g token a cs ∧ Makes g a cs c

/-- The whole numbers keep the limit of digits. -/
def KeepsLimit (cs : List Captured) : Prop :=
  ∀ digits, Captured.whole digits ∈ cs → digits.length ≤ Numeral.digitLimit

end Grammar

end Anonymization
