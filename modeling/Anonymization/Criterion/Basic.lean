import Anonymization.Field.Split
import Anonymization.Numeral.Shortest
import Anonymization.Text.Quoted
/-!
# Privacy criteria

What an anonymized table has to satisfy. A criterion is a plain value; five of the eight kinds are
about one sensitive attribute.

* `text` -- the canonical text, from which a criterion that `isCanonical` can be read again;
* `display` -- kind and fields, as a message shows them;
* `same` -- equality of criteria as values, numbers compared as numbers.
-/

namespace Anonymization

/-- A privacy criterion. -/
inductive Criterion where
  | kAnonymity (k : Int)
  /-- Presence with respect to the research subset. -/
  | dPresence (dMin dMax : Binary64)
  | inclusion
  | distinctLDiversity (name : Text) (l : Int)
  | entropyLDiversity (name : Text) (l : Binary64)
  /-- Recursive (c,l)-diversity. -/
  | recursiveLDiversity (name : Text) (c : Binary64) (l : Int)
  /-- Closeness measured along the hierarchy of the attribute. -/
  | hierarchicalTCloseness (name : Text) (t : Binary64)
  /-- Closeness with the same distance between any two values. -/
  | equalTCloseness (name : Text) (t : Binary64)
  deriving DecidableEq

namespace Criterion

/-- The sensitive attribute that the criterion is about. -/
def attribute? : Criterion → Option Text
  | kAnonymity _ | dPresence _ _ | inclusion => none
  | distinctLDiversity a _ | entropyLDiversity a _ | recursiveLDiversity a _ _
  | hierarchicalTCloseness a _ | equalTCloseness a _ => some a

/-- A whole number that is not negative and keeps the limit of digits. -/
def isPlainWhole (n : Int) : Bool :=
  0 ≤ n && (Numeral.signedText n).length ≤ Numeral.digitLimit

/-- What the criterion demands, without the attribute. -/
def body : Criterion → Text
  | kAnonymity k => Numeral.signedText k ++ "-ANONYMITY".toList
  | dPresence dMin dMax => '(' :: dMin.text ++ ',' :: dMax.text ++ ")-PRESENCE".toList
  | inclusion => "INCLUSION".toList
  | distinctLDiversity _ l => "DISTINCT-(".toList ++ Numeral.signedText l ++ ")-DIVERSITY".toList
  | entropyLDiversity _ l => "ENTROPY-(".toList ++ l.text ++ ")-DIVERSITY".toList
  | recursiveLDiversity _ c l =>
    "RECURSIVE-(".toList ++ c.text ++ ',' :: Numeral.signedText l ++ ")-DIVERSITY".toList
  | hierarchicalTCloseness _ t => "HIERARCHICAL-(".toList ++ t.text ++ ")-CLOSENESS".toList
  | equalTCloseness _ t => "EQUALDISTANCE-(".toList ++ t.text ++ ")-CLOSENESS".toList

/-- The attribute as it stands in front of the body: first its parentheses are escaped, then its
equal signs. -/
def attributeText (name : Text) : Text :=
  Field.escape Field.pairSeparator (Field.escapeParentheses name) ++ Field.pairSeparator

/-- Every number of the criterion can be written and read again: whole numbers are not negative and
keep the limit of digits, all others are finite. -/
def hasPlainNumbers : Criterion → Bool
  | kAnonymity n | distinctLDiversity _ n => isPlainWhole n
  | dPresence x y => x.isFinite && y.isFinite
  | inclusion => true
  | entropyLDiversity _ x | hierarchicalTCloseness _ x | equalTCloseness _ x => x.isFinite
  | recursiveLDiversity _ x n => x.isFinite && isPlainWhole n

/-- The criterion can be written and read again. -/
def isCanonical (c : Criterion) : Bool :=
  c.hasPlainNumbers && c.attribute?.all Field.keepsForm

/-- The canonical text of a criterion. -/
def text (c : Criterion) : Text :=
  match c.attribute? with
  | some a => attributeText a ++ c.body
  | none => c.body

/-- The criteria of a list as one text. -/
def listText (separator : Text) (cs : List Criterion) : Text :=
  Field.joined separator (cs.map text)

/-- Equality of the criteria as values. -/
def same : Criterion → Criterion → Bool
  | kAnonymity k, kAnonymity k' => k == k'
  | dPresence a b, dPresence a' b' => a.sameNumber a' && b.sameNumber b'
  | inclusion, inclusion => true
  | distinctLDiversity a l, distinctLDiversity a' l' => a == a' && l == l'
  | entropyLDiversity a l, entropyLDiversity a' l' => a == a' && l.sameNumber l'
  | recursiveLDiversity a c l, recursiveLDiversity a' c' l' => a == a' && c.sameNumber c' && l == l'
  | hierarchicalTCloseness a t, hierarchicalTCloseness a' t' => a == a' && t.sameNumber t'
  | equalTCloseness a t, equalTCloseness a' t' => a == a' && t.sameNumber t'
  | _, _ => false

/-- For each two places of a list whether the criteria there are equal; a place is equal to itself. -/
def equalities (cs : List Criterion) : List (List Bool) :=
  cs.zipIdx.map fun (c, i) => cs.zipIdx.map fun (c', j) => i == j || same c c'

/-- A field of a displayed criterion: its name, an equal sign, its value. -/
def displayField (name : String) (value : Text) : Text :=
  name.toList ++ '=' :: value

/-- The name of the kind of a criterion, as it is displayed. -/
def kindName : Criterion → String
  | kAnonymity _ => "KAnonymity"
  | dPresence _ _ => "DPresence"
  | inclusion => "Inclusion"
  | distinctLDiversity _ _ => "DistinctLDiversity"
  | entropyLDiversity _ _ => "EntropyLDiversity"
  | recursiveLDiversity _ _ _ => "RecursiveLDiversity"
  | hierarchicalTCloseness _ _ => "HierarchicalTCloseness"
  | equalTCloseness _ _ => "EqualTCloseness"

/-- The fields of a criterion, as they are displayed. -/
def displayFields : Criterion → List Text
  | kAnonymity k => [displayField "k" (Numeral.signedText k)]
  | dPresence dMin dMax => [displayField "d_min" dMin.text, displayField "d_max" dMax.text]
  | inclusion => []
  | distinctLDiversity a l =>
    [displayField "attribute" (Text.quoted a), displayField "l" (Numeral.signedText l)]
  | entropyLDiversity a l => [displayField "attribute" (Text.quoted a), displayField "l" l.text]
  | recursiveLDiversity a c l =>
    [displayField "attribute" (Text.quoted a), displayField "c" c.text,
      displayField "l" (Numeral.signedText l)]
  | hierarchicalTCloseness a t => [displayField "attribute" (Text.quoted a), displayField "t" t.text]
  | equalTCloseness a t => [displayField "attribute" (Text.quoted a), displayField "t" t.text]

/-- Kind and fields of a criterion. -/
def display (c : Criterion) : Text :=
  c.kindName.toList ++ '(' :: Text.joined ", ".toList c.displayFields ++ [')']

/-- The criteria of a list, displayed between brackets. -/
def displayList (cs : List Criterion) : Text :=
  '[' :: Text.joined ", ".toList (cs.map display) ++ [']']

end Criterion

end Anonymization
