import Anonymization.Text.Blank
/-!
# Lines

A line ends with a line feed, a carriage return, or the two in this order. Three ways to cut a text
into its lines differ in what they take for an end and in what they leave of it (`LineEnds`). Each
line keeps its end, so the lines of a text put together are the text, or the text with its ends unified.
-/

namespace Anonymization.Text

/-- How line ends are treated. -/
inductive LineEnds where
  /-- A line feed ends a line; a carriage return is a character like any other. -/
  | lineFeed
  /-- Every line end counts and stays as it is. -/
  | kept
  /-- Every line end counts and becomes a line feed. -/
  | unified
  deriving DecidableEq

/-- The text with a line feed for every line end. -/
def unifyEnds : Text → Text
  | [] => []
  | c :: rest =>
    if c = '\r' then
      if rest.head? = some '\n' then unifyEnds rest else '\n' :: unifyEnds rest
    else c :: unifyEnds rest

/-- The line ends behind this character, `rest` being the text after it. -/
def endsLine (returns : Bool) (c : Char) (rest : Text) : Bool :=
  c == '\n' || (returns && c == '\r' && rest.head? != some '\n')

/-- The lines of a text, each with its end; `returns` says that a carriage return ends a line too. -/
def cutLines (returns : Bool) : Text → List Text
  | [] => []
  | c :: rest =>
    if endsLine returns c rest then [c] :: cutLines returns rest
    else match cutLines returns rest with
      | [] => [[c]]
      | line :: lines => (c :: line) :: lines

/-- The lines of a text. -/
def lines : LineEnds → Text → List Text
  | .lineFeed, t => cutLines false t
  | .kept, t => cutLines true t
  | .unified, t => cutLines false (unifyEnds t)

/-- Put together, the lines are the text. -/
theorem cutLines_flatten (returns : Bool) (t : Text) : (cutLines returns t).flatten = t := by
  induction t with
  | nil => rfl
  | cons c rest ih =>
    unfold cutLines
    split
    · simp [ih]
    · split
      · next h => rw [h] at ih; simp at ih; simp [← ih]
      · next h => rw [h] at ih; simp at ih; simp [ih]

end Anonymization.Text
