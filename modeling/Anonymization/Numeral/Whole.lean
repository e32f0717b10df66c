import Anonymization.Text.Digit
/-!
# Whole numbers

A whole number is written with the decimal digits of any script. A numeral of more than
`digitLimit` digits is refused, leading zeros counted, so that reading stays cheap.

* `decimalText` -- the digits of a natural number in ASCII, `signedText` with a minus sign in front
  of a negative one;
* `digitsNumber?` -- the number of a row of digits that keeps the limit;
* `readInteger?` -- a sign, then digits, which single underscores may separate, between blanks.
-/

namespace Anonymization.Numeral

/-- The most digits that a whole number may be written with. -/
def digitLimit : Nat := 4300

/-- The integer fits a signed word of 32 bits. -/
def isWord (n : Int) : Bool :=
  decide (-2147483648 ≤ n) && decide (n < 2147483648)

/-- The ASCII digit of a value below ten. -/
def digitChar (n : Nat) : Char :=
  Char.ofNat (0x30 + n)

/-- The digits of a natural number, most significant first. -/
def decimalText (n : Nat) : Text :=
  Nat.toDigits 10 n

/-- The digits of an integer, after a minus sign if it is negative. -/
def signedText : Int → Text
  | .ofNat n => decimalText n
  | .negSucc n => '-' :: decimalText (n + 1)

/-- The digits of an integer are no more than the limit. -/
def keepsLimit (n : Int) : Bool :=
  decide ((decimalText n.natAbs).length ≤ digitLimit)

/-- The number of a row of decimal digits, if they are no more than the limit. -/
def digitsNumber? (digits : Text) : Option Nat :=
  if digits.length ≤ digitLimit then some (Text.digitsValue digits) else none

/-- A blank of ASCII. -/
def isAsciiBlank (c : Char) : Bool :=
  (0x09 ≤ c.toNat && c.toNat ≤ 0x0D) || c == ' '

/-- A numeral in ASCII: decimal digits of any script become ASCII digits and blanks from outside
ASCII become spaces; any other character from outside ASCII cannot be part of a numeral. -/
def asciiForm? : Text → Option Text
  | [] => some []
  | c :: rest =>
    if c.toNat < 0x7F then (asciiForm? rest).map (c :: ·)
    else if Text.isBlank c then (asciiForm? rest).map (' ' :: ·)
    else match Text.digitValue? c with
      | some n => (asciiForm? rest).map (digitChar n :: ·)
      | none => none

/-- The numeral between the ASCII blanks around it. -/
def trimAscii (t : Text) : Text :=
  ((t.dropWhile isAsciiBlank).reverse.dropWhile isAsciiBlank).reverse

/-- The text without its underscores, if each stands between two digits. `digitBefore` says whether
a digit came last. -/
def dropUnderscores? : Bool → Text → Option Text
  | _, [] => some []
  | digitBefore, '_' :: rest =>
    match rest with
    | d :: _ => if digitBefore && d.isDigit then dropUnderscores? false rest else none
    | [] => none
  | _, c :: rest => (dropUnderscores? c.isDigit rest).map (c :: ·)

/-- What a sign in front says, and the rest: negative or not. -/
def splitSign : Text → Bool × Text
  | '-' :: rest => (true, rest)
  | '+' :: rest => (false, rest)
  | t => (false, t)

/-- The integer that a text writes, `none` if it writes none or has too many digits. -/
def readInteger? (t : Text) : Option Int := do
  let plain ← dropUnderscores? false (trimAscii (← asciiForm? t))
  let (negative, digits) := splitSign plain
  if digits.isEmpty || !digits.all Char.isDigit then none
  else
    let n ← digitsNumber? digits
    return if negative then -(n : Int) else n

end Anonymization.Numeral
