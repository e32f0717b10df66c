import Anonymization.Text.Blank
/-!
# Replacing one text inside another

`replace` goes from left to right and takes occurrences that do not overlap. The empty text occurs
in front of every character and at the end, and is replaced at all these places. `joined` is the
texts of a list with one text between each two.
-/

namespace Anonymization.Text

/-- Copies the text with `new` for each occurrence of `old`; the first `skip` characters belong to
an occurrence already replaced. -/
def replaceFrom (old new : Text) : Nat → Text → Text
  | _, [] => []
  | skip + 1, _ :: rest => replaceFrom old new skip rest
  | 0, c :: rest =>
    if old.isPrefixOf (c :: rest) then new ++ replaceFrom old new (old.length - 1) rest
    else c :: replaceFrom old new 0 rest

/-- The text with `new` for every occurrence of `old`. -/
def replace (old new t : Text) : Text :=
  match old with
  | [] => t.flatMap (fun c => new ++ [c]) ++ new
  | _ :: _ => replaceFrom old new 0 t

/-- The texts one after the other, with `separator` between each two. -/
def joined (separator : Text) : List Text → Text
  | [] => []
  | [t] => t
  | t :: u :: rest => t ++ separator ++ joined separator (u :: rest)

end Anonymization.Text
