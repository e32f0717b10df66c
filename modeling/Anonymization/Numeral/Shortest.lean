import Anonymization.Numeral.Binary64
/-!
# The shortest decimal of a number

A finite number is written with the fewest digits that read back as the same number, and of the
decimals with that many digits with the nearest one (an even last digit on a tie). `layout` says how
the digits are set: without an exponent when the first digit has a place from `10 ^ -4` up to
`10 ^ 15`, and always so that a fraction is seen; an exponent has a sign and at least two digits.
-/

namespace Anonymization.Binary64

/-- A decimal without sign: its digits times a power of ten. -/
structure Decimal where
  digits : Nat
  exponent : Int

/-- How many digits the whole part of `10 ^ 340` times the magnitude has, less 340: the magnitude is
below ten to this power and at least a tenth of that. -/
def places (rank : Nat) : Int :=
  ((Numeral.decimalText (units rank * Nat.pow 10 340 / stepsInOne)).length : Int) - 340

/-- The two decimals around the magnitude on the grid of `10 ^ exponent`, each with its distance in
some unit they share. -/
def neighbours (rank : Nat) (exponent : Int) : (Decimal × Nat) × (Decimal × Nat) :=
  let num := units rank * Nat.pow 10 (-exponent).toNat
  let den := stepsInOne * Nat.pow 10 exponent.toNat
  let below := num / den
  let excess := num % den
  ((⟨below, exponent⟩, excess), (⟨below + 1, exponent⟩, den - excess))

/-- The decimal reads back as the magnitude of this rank. -/
def readsBack (rank : Nat) (d : Decimal) : Bool :=
  match ofDecimal false d.digits d.exponent with
  | .finite _ r => r.val == rank
  | _ => false

/-- Of two decimals with their distances the nearer one that reads back (of two at the same distance
the one with an even last digit), if one does. -/
def nearest? (rank : Nat) (n : (Decimal × Nat) × (Decimal × Nat)) : Option Decimal :=
  match readsBack rank n.1.1, readsBack rank n.2.1 with
  | true, true =>
    if n.1.2 < n.2.2 ∨ (n.1.2 = n.2.2 ∧ n.1.1.digits % 2 = 0) then some n.1.1 else some n.2.1
  | true, false => some n.1.1
  | false, true => some n.2.1
  | false, false => none

/-- The nearest decimal on the grid of `10 ^ exponent` that reads back, if one does. -/
def onGrid? (rank : Nat) (exponent : Int) : Option Decimal :=
  nearest? rank (neighbours rank exponent)

/-- The decimal that is exactly the magnitude. -/
def exactDecimal (rank : Nat) : Decimal :=
  ⟨units rank * Nat.pow 5 1074, -1074⟩

/-- The first decimal that reads back when the grid gets finer step by step, the exact one if `fuel`
steps do not reach any. -/
def shortestFrom (rank : Nat) : Nat → Int → Decimal
  | 0, _ => exactDecimal rank
  | fuel + 1, exponent => (onGrid? rank exponent).getD (shortestFrom rank fuel (exponent - 1))

/-- The decimal with the fewest digits that reads back as the magnitude of this rank. Seventeen
digits always do. -/
def shortest (rank : Nat) : Decimal :=
  shortestFrom rank 17 (places rank - 1)

/-- How the digits of a number are set out. -/
structure Layout where
  /-- The first digit is set without an exponent from this power of ten on. -/
  leastPlain : Int
  /-- The first power of ten that is set with an exponent again. -/
  leastScaled : Int
  /-- The fewest digits of an exponent. -/
  exponentWidth : Nat

/-- The layout of every number this library prints. -/
def layout : Layout := ⟨-4, 16, 2⟩

/-- The digits with zeros in front up to a width. -/
def padded (width : Nat) (t : Text) : Text :=
  List.replicate (width - t.length) '0' ++ t

/-- The exponent after the mark `e`. -/
def exponentText (l : Layout) (e : Int) : Text :=
  'e' :: (if e < 0 then '-' else '+') :: padded l.exponentWidth (Numeral.decimalText e.natAbs)

/-- The digits `t` (the first not zero, none trailing), of which the first has the place `10 ^ e`. -/
def setOut (l : Layout) (t : Text) (e : Int) : Text :=
  if e < l.leastPlain ∨ l.leastScaled ≤ e then
    match t with
    | [] => []
    | [d] => d :: exponentText l e
    | d :: rest => d :: '.' :: rest ++ exponentText l e
  else if e < 0 then
    '0' :: '.' :: List.replicate (-e - 1).toNat '0' ++ t
  else
    let whole := e.toNat + 1
    if t.length ≤ whole then t ++ List.replicate (whole - t.length) '0' ++ ['.', '0']
    else t.take whole ++ '.' :: t.drop whole

/-- A magnitude in decimal. -/
def magnitudeText (rank : Nat) : Text :=
  if rank = 0 then ['0', '.', '0']
  else
    let d := shortest rank
    let t := Numeral.decimalText d.digits
    setOut layout ((t.reverse.dropWhile (· == '0')).reverse) (d.exponent + t.length - 1)

/-- The text of a number. -/
def text : Binary64 → Text
  | .finite negative rank => (if negative then ['-'] else []) ++ magnitudeText rank
  | .infinite negative => (if negative then ['-'] else []) ++ "inf".toList
  | .nan => "nan".toList

end Anonymization.Binary64
