/-!
# Text, and the blanks around it

A text is the list of its characters (code points). This module fixes

* `Text` -- the one text type of the library;
* `isBlank` -- the white space of the Unicode standard together with the four separators
  U+001C to U+001F; the zero width space U+200B and the byte order mark U+FEFF are none;
* `trimStart`, `trimEnd`, `trim` -- a text without the blanks at its ends.
-/

namespace Anonymization

/-- A text is the list of its characters. -/
abbrev Text := List Char

namespace Text

/-- A character that counts as white space. -/
def isBlank (c : Char) : Bool :=
  let n := c.toNat
  (0x09 ≤ n && n ≤ 0x0D) || (0x1C ≤ n && n ≤ 0x20) || n == 0x85 || n == 0xA0 || n == 0x1680 ||
    (0x2000 ≤ n && n ≤ 0x200A) || n == 0x2028 || n == 0x2029 || n == 0x202F || n == 0x205F ||
    n == 0x3000

/-- The text after its leading blanks. -/
def trimStart (t : Text) : Text :=
  t.dropWhile isBlank

/-- The text before its trailing blanks. -/
def trimEnd (t : Text) : Text :=
  (t.reverse.dropWhile isBlank).reverse

/-- The text between the blanks at its two ends. -/
def trim (t : Text) : Text :=
  trimEnd (trimStart t)

/-- Every character is a blank, as in the empty text. -/
def allBlank (t : Text) : Bool :=
  t.all isBlank

end Text

end Anonymization
