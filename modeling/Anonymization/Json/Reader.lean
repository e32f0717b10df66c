import Anonymization.Json.Basic
import Anonymization.Numeral.Reading
/-!
# Reading JSON

The reader takes what RFC 8259 allows, and the words `NaN`, `Infinity` and `-Infinity`. Numerals
with a fraction or an exponent are binary64 numbers, the others integers. Of two members with one
name the later value counts, at the place of the first. Half of a surrogate pair is replaced by
U+FFFD, since no text here can hold it; the program keeps such a half as a character of its own.
-/

namespace Anonymization.Json

/-- Why a text could not be read. -/
inductive Fault where
  /-- It is no JSON text. -/
  | malformed
  /-- An integer has too many digits. -/
  | tooManyDigits
  /-- Too many lists and objects stand inside one another. -/
  | nestedTooDeeply
  deriving DecidableEq

/-- How many lists and objects may stand inside one another. -/
def nestingLimit : Nat := 985

/-- The text after leading JSON blanks. -/
def skipBlanks (t : Text) : Text :=
  t.dropWhile fun c => c == ' ' || c == '\n' || c == '\r' || c == '\t'

/-! ## 1. Strings -/

/-- The value of a digit of base sixteen. -/
def hexValue? (c : Char) : Option Nat :=
  if c.isDigit then some (c.toNat - 0x30)
  else if 'a' ≤ c ∧ c ≤ 'f' then some (c.toNat - 0x57)
  else if 'A' ≤ c ∧ c ≤ 'F' then some (c.toNat - 0x37)
  else none

/-- The value of four digits of base sixteen. -/
def hexValue4? (a b c d : Char) : Option Nat := do
  return (← hexValue? a) * 0x1000 + (← hexValue? b) * 0x100 + (← hexValue? c) * 0x10 + (← hexValue? d)

/-- What a single letter after a backslash stands for. -/
def escaped? : Char → Option Char
  | '"' => some '"'
  | '\\' => some '\\'
  | '/' => some '/'
  | 'b' => some '\x08'
  | 'f' => some '\x0c'
  | 'n' => some '\n'
  | 'r' => some '\r'
  | 't' => some '\t'
  | _ => none

/-- What stands for half of a surrogate pair. The program keeps the half itself, so a document that has
one is read differently there; a document of whole characters is not. -/
def lostHalf : Char := '\uFFFD'

/-- The characters read so far (last one first), with the first half of a surrogate pair that found
no second half. -/
def settle (high : Option Nat) (done : Text) : Text :=
  match high with
  | some _ => lostHalf :: done
  | none => done

/-- Reads the rest of a string up to its closing quote. `done` is what was read, last character
first; `high` is the first half of a surrogate pair that waits for the second. -/
def readString? (high : Option Nat) (done : Text) : Text → Option (Text × Text)
  | [] => none
  | '"' :: rest => some ((settle high done).reverse, rest)
  | '\\' :: 'u' :: a :: b :: c :: d :: rest =>
    match hexValue4? a b c d with
    | none => none
    | some n =>
      if 0xD800 ≤ n ∧ n ≤ 0xDBFF then readString? (some n) (settle high done) rest
      else if 0xDC00 ≤ n ∧ n ≤ 0xDFFF then
        match high with
        | some h =>
          readString? none (Char.ofNat (0x10000 + (h - 0xD800) * 0x400 + (n - 0xDC00)) :: done) rest
        | none => readString? none (lostHalf :: done) rest
      else readString? none (Char.ofNat n :: settle high done) rest
  | '\\' :: c :: rest =>
    match escaped? c with
    | some x => readString? none (x :: settle high done) rest
    | none => none
  | c :: rest =>
    if c.toNat < 0x20 ∨ c = '\\' then none else readString? none (c :: settle high done) rest

/-! ## 2. Numbers and words -/

/-- The ASCII digits at the start of a text, and the rest. -/
def takeDigits (t : Text) : Text × Text :=
  (t.takeWhile Char.isDigit, t.dropWhile Char.isDigit)

/-- The fraction at the start of a text, empty if there is no complete one, and the rest. -/
def takeFraction (t : Text) : Text × Text :=
  match t with
  | '.' :: rest =>
    match takeDigits rest with
    | ([], _) => ([], t)
    | (digits, rest) => (digits, rest)
  | _ => ([], t)

/-- Reads a number. A zero in front is a numeral of its own. -/
def readNumber (t : Text) : Except Fault (Json × Text) :=
  let (negative, unsigned) := match t with
    | '-' :: rest => (true, rest)
    | _ => (false, t)
  let (whole, rest) := match unsigned with
    | '0' :: rest => (['0'], rest)
    | _ => takeDigits unsigned
  if whole.isEmpty then .error .malformed
  else
    let (fraction, rest) := takeFraction rest
    match Numeral.Written.takeExponent? rest with
    | some (exponentNegative, digits, rest') =>
      if digits.all Char.isDigit then
        .ok (.float (Numeral.Written.value ⟨negative, whole, fraction, exponentNegative, digits⟩),
          rest')
      else .error .malformed
    | none =>
      if fraction.isEmpty then
        match Numeral.digitsNumber? whole with
        | some n => .ok (.int (if negative then -n else n), rest)
        | none => .error .tooManyDigits
      else .ok (.float (Numeral.Written.value ⟨negative, whole, fraction, false, []⟩), rest)

/-- The words that are values. -/
def words : List (Text × Json) :=
  [("null".toList, .null), ("true".toList, .bool true), ("false".toList, .bool false),
    ("NaN".toList, .float .nan), ("Infinity".toList, .float (.infinite false)),
    ("-Infinity".toList, .float (.infinite true))]

/-- Reads a word that is a value. -/
def readWord? (t : Text) : Option (Json × Text) :=
  (words.find? fun w => w.1.isPrefixOf t).map fun w => (w.2, t.drop w.1.length)

/-! ## 3. Values -/

/-- The members with one more; a name that is there already gets the new value. -/
def setMember (name : Text) (value : Json) : List (Text × Json) → List (Text × Json)
  | [] => [(name, value)]
  | m :: rest => if m.1 == name then (name, value) :: rest else m :: setMember name value rest

mutual

/-- Reads a value at the start of a text without leading blanks, inside of which `depth` more lists and
objects may stand inside one another. Every call takes a character, so the length of the text is fuel
enough. -/
def readValue (fuel depth : Nat) (t : Text) : Except Fault (Json × Text) :=
  match fuel with
  | 0 => .error .malformed
  | fuel + 1 =>
    match t with
    | '"' :: rest =>
      match readString? none [] rest with
      | some (s, rest) => .ok (.text s, rest)
      | none => .error .malformed
    | '[' :: rest =>
      match depth with
      | 0 => .error .nestedTooDeeply
      | depth + 1 =>
        match skipBlanks rest with
        | ']' :: rest => .ok (.list [], rest)
        | rest => readItems fuel depth [] rest
    | '\x7b' :: rest =>
      match depth with
      | 0 => .error .nestedTooDeeply
      | depth + 1 =>
        match skipBlanks rest with
        | '\x7d' :: rest => .ok (.object [], rest)
        | rest => readMembers fuel depth [] rest
    | t =>
      match readWord? t with
      | some found => .ok found
      | none => readNumber t

/-- Reads the items of a list, of which `done` are read already, last one first. -/
def readItems (fuel depth : Nat) (done : List Json) (t : Text) : Except Fault (Json × Text) :=
  match fuel with
  | 0 => .error .malformed
  | fuel + 1 =>
    match readValue fuel depth t with
    | .error e => .error e
    | .ok (v, rest) =>
      match skipBlanks rest with
      | ',' :: rest => readItems fuel depth (v :: done) (skipBlanks rest)
      | ']' :: rest => .ok (.list (v :: done).reverse, rest)
      | _ => .error .malformed

/-- Reads the members of an object, of which `done` are read already. -/
def readMembers (fuel depth : Nat) (done : List (Text × Json)) (t : Text) :
    Except Fault (Json × Text) :=
  match fuel with
  | 0 => .error .malformed
  | fuel + 1 =>
    match t with
    | '"' :: rest =>
      match readString? none [] rest with
      | none => .error .malformed
      | some (name, rest) =>
        match skipBlanks rest with
        | ':' :: rest =>
          match readValue fuel depth (skipBlanks rest) with
          | .error e => .error e
          | .ok (v, rest) =>
            match skipBlanks rest with
            | ',' :: rest => readMembers fuel depth (setMember name v done) (skipBlanks rest)
            | '\x7d' :: rest => .ok (.object (setMember name v done), rest)
            | _ => .error .malformed
        | _ => .error .malformed
    | _ => .error .malformed

end

/-- The value that a whole text writes, between blanks. -/
def read (t : Text) : Except Fault Json :=
  match readValue (t.length + 1) nestingLimit (skipBlanks t) with
  | .error e => .error e
  | .ok (v, rest) => if (skipBlanks rest).isEmpty then .ok v else .error .malformed

end Anonymization.Json
