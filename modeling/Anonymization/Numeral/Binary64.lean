import Anonymization.Numeral.Whole
/-!
# Binary64 numbers, exactly

The finite magnitudes of the binary64 format are counted upwards from zero: the one of rank `r` is
`units r` times `2 ^ -1074`. Rank and value grow together, the step from a rank to the next is the
gap between neighbours, and an even rank has an even significand. So a number is a sign and a rank,
and there is no second way to write one.

* `units`, `nearestRank` -- from rank to value, and from a quotient to the rank nearest to it;
* `ofRatio` -- the number nearest to a quotient, a tie going to the even neighbour;
* `ofDecimal` -- the number nearest to a decimal.
-/

namespace Anonymization

/-- The number of magnitudes in a row, within which the gap to the next is the same. -/
def Binary64.row : Nat := Nat.pow 2 52

/-- The number of finite magnitudes. The first two rows have the same gap, from there on it doubles
from row to row. -/
def Binary64.ranks : Nat := 2047 * row

/-- The number of steps of `2 ^ -1074` in one. -/
def Binary64.stepsInOne : Nat := Nat.pow 2 1074

/-- A binary64 number. -/
inductive Binary64 where
  /-- The finite magnitude of the given rank, with a sign. -/
  | finite (negative : Bool) (rank : Fin Binary64.ranks)
  /-- An infinity. -/
  | infinite (negative : Bool)
  /-- No number. -/
  | nan
  deriving DecidableEq

namespace Binary64

/-- Zero without a sign. -/
def zero : Binary64 := .finite false ⟨0, by decide⟩

/-- One. -/
def one : Binary64 := .finite false ⟨1023 * row, by decide⟩

/-- The magnitude of a rank, counted in steps of `2 ^ -1074`. -/
def units (rank : Nat) : Nat :=
  let scale := rank / row - 1
  (rank - scale * row) * Nat.pow 2 scale

/-- For the quotient `num / den`, counted in steps of `2 ^ -1074`: the power of two of the gap
around it. -/
def gap (num den : Nat) : Nat :=
  Nat.log2 (num / den) - 52

/-- The rank nearest to the quotient `num / den` of steps, an even rank on a tie. -/
def nearestRank (num den : Nat) : Nat :=
  let scale := gap num den
  let unit := den * Nat.pow 2 scale
  let below := scale * row + num / unit
  let excess := num % unit
  if unit < 2 * excess ∨ (unit = 2 * excess ∧ below % 2 = 1) then below + 1 else below

/-- The number of the given sign and rank, infinite above the greatest finite rank. -/
def ofRank (negative : Bool) (rank : Nat) : Binary64 :=
  if h : rank < ranks then .finite negative ⟨rank, h⟩ else .infinite negative

/-- The number nearest to `num / den`, with the given sign. -/
def ofRatio (negative : Bool) (num den : Nat) : Binary64 :=
  ofRank negative (nearestRank (num * stepsInOne) den)

/-- The number nearest to `digits * 10 ^ exponent`. A decimal of more than 310 places is infinite and
one that begins after 330 zeros is nearest to zero; they are told by their length alone. -/
def ofDecimal (negative : Bool) (digits : Nat) (exponent : Int) : Binary64 :=
  let places := ((Numeral.decimalText digits).length : Int) + exponent
  if digits = 0 ∨ places < -330 then ofRank negative 0
  else if 310 < places then .infinite negative
  else if 0 ≤ exponent then ofRatio negative (digits * Nat.pow 10 exponent.toNat) 1
  else ofRatio negative digits (Nat.pow 10 (-exponent).toNat)

/-- The number nearest to an integer, `none` if it lies beyond the finite ones. -/
def ofInt? (n : Int) : Option Binary64 :=
  match ofRatio (decide (n < 0)) n.natAbs 1 with
  | .finite negative rank => some (.finite negative rank)
  | _ => none

/-- A number that is neither infinite nor no number. -/
def isFinite : Binary64 → Bool
  | .finite _ _ => true
  | _ => false

/-- The position of a number on the line, in steps; both zeros are at the same. -/
def position? : Binary64 → Option Int
  | .finite negative rank => some (if negative then -(units rank : Int) else units rank)
  | _ => none

/-- Equal as numbers: the two zeros are, and what is no number equals nothing. -/
def sameNumber : Binary64 → Binary64 → Bool
  | .finite n r, .finite n' r' => r == r' && (n == n' || r.val == 0)
  | .infinite n, .infinite n' => n == n'
  | _, _ => false

/-- The number lies between zero and one, ends included. -/
def inUnitInterval (x : Binary64) : Bool :=
  match x with
  | .finite negative rank => rank.val == 0 || (!negative && rank.val ≤ 1023 * row)
  | _ => false

end Binary64

end Anonymization
