import Anonymization.Field.Split
/-!
# Cuts by position

Where a text is cut can be said of each position by itself: there stands a separator, no backslash
right in front of it and, in a grouped list, no group is open. The fields are what lies between the
cuts, less each backslash that stands right in front of a separator. `Field.split` finds the same in
one pass over the text.
-/

namespace Anonymization.Field

/-! ## 1. Where a text is cut -/

/-- The character at a position has a backslash right in front of it. -/
def isEscaped (t : Text) (i : Nat) : Bool :=
  0 < i && t[i - 1]? == some escapeChar

/-- The character stands at a position without a backslash right in front of it. -/
def isBare (c : Char) (t : Text) (i : Nat) : Bool :=
  t[i]? == some c && !isEscaped t i

/-- The number of groups that are open in front of a position. Where none is open, none is closed. -/
def depthAt (t : Text) : Nat → Nat
  | 0 => 0
  | i + 1 =>
    if isBare '(' t i then depthAt t i + 1
    else if isBare ')' t i then depthAt t i - 1
    else depthAt t i

/-- The text is cut at a position. -/
def isCut (separator : Char) (grouped : Bool) (t : Text) (i : Nat) : Bool :=
  isBare separator t i && (!grouped || depthAt t i == 0)

/-- All positions at which the text is cut. -/
def cuts (separator : Char) (grouped : Bool) (t : Text) : List Nat :=
  (List.range t.length).filter (isCut separator grouped t)

/-! ## 2. What lies between the cuts -/

/-- At a position stands a backslash right in front of a separator. -/
def isTakenAway (separator : Char) (t : Text) (i : Nat) : Bool :=
  t[i]? == some escapeChar && t[i + 1]? == some separator

/-- The text from one position to another, less the backslashes right in front of a separator. -/
def between (separator : Char) (t : Text) (start stop : Nat) : Text :=
  ((List.range' start (stop - start)).filter fun i => !isTakenAway separator t i).filterMap
    fun i => t[i]?

/-- The texts from a position to the first cut, from each cut to the next, and from the last to the
end. -/
def segments (separator : Char) (t : Text) (start : Nat) : List Nat → List Text
  | [] => [between separator t start t.length]
  | cut :: rest => between separator t start cut :: segments separator t (cut + 1) rest

/-- The list without the empty texts at its end. -/
def dropEmptyEnd (fields : List Text) : List Text :=
  (fields.reverse.dropWhile List.isEmpty).reverse

/-- The fields of a text, by the positions of its cuts. -/
def fieldsByPosition (separator : Char) (grouped : Bool) (t : Text) : List Text :=
  dropEmptyEnd (segments separator t 0 (cuts separator grouped t))

end Anonymization.Field
