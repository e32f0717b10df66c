import Anonymization.Numeral.Binary64
/-!
# Reading a number

The written form of a number: an optional sign; digits, which a fraction may follow, or a fraction
alone; an optional exponent. The digits may be of any script. `Written.take?` reads the longest such
form at the start of a text and is what the criteria use; `readNumber?` reads a whole text, where
blanks around it, underscores between digits, and the words for infinity and no number are allowed.
-/

namespace Anonymization.Numeral

/-- A number as it is written. -/
structure Written where
  negative : Bool
  /-- The digits before the point. -/
  whole : Text
  /-- The digits after the point. -/
  fraction : Text
  exponentNegative : Bool
  /-- The digits of the exponent, none if there is no exponent. -/
  exponent : Text
  deriving DecidableEq

namespace Written

/-- The number nearest to what is written. -/
def value (w : Written) : Binary64 :=
  let e : Int := Text.digitsValue w.exponent
  Binary64.ofDecimal w.negative (Text.digitsValue (w.whole ++ w.fraction))
    ((if w.exponentNegative then -e else e) - w.fraction.length)

/-- The digits at the start of a text, and the rest. -/
def takeDigits (t : Text) : Text × Text :=
  (t.takeWhile Text.isDecimal, t.dropWhile Text.isDecimal)

/-- The exponent at the start of a text, if a complete one stands there: negative or not, its
digits, and the rest. -/
def takeExponent? : Text → Option (Bool × Text × Text)
  | [] => none
  | mark :: rest =>
    if mark = 'e' ∨ mark = 'E' then
      let (negative, unsigned) := splitSign rest
      match takeDigits unsigned with
      | ([], _) => none
      | (digits, rest) => some (negative, digits, rest)
    else none

/-- Adds the exponent, if one follows. -/
def withExponent (negative : Bool) (whole fraction rest : Text) : Written × Text :=
  match takeExponent? rest with
  | some (exponentNegative, digits, rest) =>
    (⟨negative, whole, fraction, exponentNegative, digits⟩, rest)
  | none => (⟨negative, whole, fraction, false, []⟩, rest)

/-- The number at the start of a text, with as many characters as belong to it, and the rest. -/
def take? (t : Text) : Option (Written × Text) :=
  let (negative, unsigned) := splitSign t
  match takeDigits unsigned with
  | ([], '.' :: rest) =>
    match takeDigits rest with
    | ([], _) => none
    | (fraction, rest) => some (withExponent negative [] fraction rest)
  | ([], _) => none
  | (whole, '.' :: rest) =>
    let (fraction, rest) := takeDigits rest
    some (withExponent negative whole fraction rest)
  | (whole, rest) => some (withExponent negative whole [] rest)

end Written

/-- The words for numbers that are not finite, in small letters. -/
def namedNumber? (negative : Bool) (t : Text) : Option Binary64 :=
  let word := t.map Char.toLower
  if word = "inf".toList ∨ word = "infinity".toList then some (.infinite negative)
  else if word = "nan".toList then some .nan
  else none

/-- The number that a whole text writes. -/
def readNumber? (t : Text) : Option Binary64 := do
  let plain ← dropUnderscores? false (trimAscii (← asciiForm? t))
  match Written.take? plain with
  | some (w, []) => return w.value
  | some (_, _ :: _) => none
  | none =>
    let (negative, word) := splitSign plain
    namedNumber? negative word

end Anonymization.Numeral
