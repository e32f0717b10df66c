import Anonymization.Text.Printable
import Anonymization.Text.Replace
/-!
# Texts in quotes

How a text is shown inside a message: in single quotes, unless it holds single quotes and no double
ones. A backslash and the quote in use are escaped, as is every character that does not print.
-/

namespace Anonymization.Text

/-- A digit of base sixteen. -/
def hexDigit (n : Nat) : Char :=
  Char.ofNat (if n < 10 then 0x30 + n else 0x57 + n)

/-- The last `width` digits of `n` in base sixteen. -/
def hexDigits : Nat → Nat → Text
  | 0, _ => []
  | width + 1, n => hexDigits width (n / 16) ++ [hexDigit (n % 16)]

/-- How a character stands between the quotes `quote`. -/
def quotedChar (quote c : Char) : Text :=
  if c = quote ∨ c = '\\' then ['\\', c]
  else if c = '\t' then ['\\', 't']
  else if c = '\n' then ['\\', 'n']
  else if c = '\r' then ['\\', 'r']
  else if isPrintable c then [c]
  else if c.toNat < 0x100 then '\\' :: 'x' :: hexDigits 2 c.toNat
  else if c.toNat < 0x10000 then '\\' :: 'u' :: hexDigits 4 c.toNat
  else '\\' :: 'U' :: hexDigits 8 c.toNat

/-- The quote that a text is put into. -/
def quoteMark (t : Text) : Char :=
  if t.contains '\'' && !t.contains '"' then '"' else '\''

/-- The text in quotes. -/
def quoted (t : Text) : Text :=
  [quoteMark t] ++ t.flatMap (quotedChar (quoteMark t)) ++ [quoteMark t]

/-- A list of texts, each in quotes. -/
def quotedList (ts : List Text) : Text :=
  '[' :: joined ", ".toList (ts.map quoted) ++ [']']

end Anonymization.Text
