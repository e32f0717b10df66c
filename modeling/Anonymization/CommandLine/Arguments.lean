import Anonymization.Settings.Options
import Anonymization.Text.Quoted
/-!
# Arguments

The words of a command line are options, their arguments, or neither. An option is known by its
names; a long name may be cut short and have its argument behind an equal sign, the argument of a
short one may stand right behind the name, and switches with names of one letter may be written
together. Words after `--` are no options.

* `classify` -- whether a word is meant for an option, and for which;
* `consume` -- what the options say, in order of the command line, later ones counting more.

The first mistake ends the reading, words that are no options come last.

These are the rules of the 3.11 releases of the standard library that the program uses. Later patch
releases of it differ in corners: there the argument of `-o=--` is `--`, and that of `-r` in `-vr=x` is
`x`; here `-o=--` has none, and the other is `=x`.
-/

namespace Anonymization.CommandLine

/-! ## 1. Options -/

/-- What an option does with its argument. -/
inductive Kind where
  /-- Shows the help; no argument. -/
  | help
  /-- Is switched on; no argument. -/
  | switch
  /-- Takes a text. -/
  | text
  /-- Takes a number. -/
  | number
  /-- Takes a word for yes or no, or no argument, which means yes. -/
  | flag
  deriving DecidableEq

/-- An option of the command line. -/
structure Declared where
  /-- The short name first. -/
  names : List Text
  /-- The name of its value. -/
  key : Text
  kind : Kind
  deriving DecidableEq

/-- An option with a short and a long name. -/
def declare (short long : String) (kind : Kind) : Declared :=
  ⟨['-' :: short.toList, "--".toList ++ long.toList], long.toList, kind⟩

/-- An option with a long name only. -/
def declareLong (long : String) : Declared :=
  ⟨["--".toList ++ long.toList], long.toList, .text⟩

/-- The options of the command line. -/
def declared : List Declared := [
  declare "h" "help" .help,
  declare "qi" "quasiidentifying" .text,
  declare "se" "sensitive" .text,
  declare "is" "insensitive" .text,
  declare "id" "identifying" .text,
  declare "hi" "hierarchies" .text,
  declare "d" "datatype" .text,
  declare "c" "criteria" .text,
  declare "m" "metric" .text,
  declare "s" "suppression" .number,
  declare "pm" "practicalmonotonicity" .flag,
  declare "f" "file" .text,
  declare "db" "database" .text,
  declare "o" "output" .text,
  declare "r" "researchsubset" .text,
  declare "sp" "separator" .text,
  declareLong "runner",
  declareLong "java",
  declareLong "config",
  declare "v" "verbose" .switch]

/-- All names with their options, in order. -/
def named : List (Text × Declared) :=
  declared.flatMap fun d => d.names.map (·, d)

/-- The option of exactly this name. -/
def ofName? (name : Text) : Option Declared :=
  (named.find? fun n => n.1 == name).map (·.2)

/-- An option with all its names, as mistakes are told. -/
def Declared.title (d : Declared) : Text :=
  Text.joined ['/'] d.names

/-! ## 2. Words -/

/-- An option that a word is meant for, the name that was meant, and the argument inside the word. -/
structure Meant where
  option : Declared
  name : Text
  argument : Option Text

/-- What a word of the command line is. -/
inductive Word where
  | argument
  /-- The word after which there are no options. -/
  | terminator
  /-- An option, `none` if no option has such a name. -/
  | option (meant : Option Meant)

/-- Why the reading of the command line ends early. -/
inductive Stop where
  | help
  | mistake (message : Text)
  deriving DecidableEq

/-- The text up to the first equal sign and the text behind it, if there is one. -/
def splitEqual (t : Text) : Text × Option Text :=
  match t.dropWhile (· != '=') with
  | [] => (t, none)
  | _ :: rest => (t.takeWhile (· != '='), some rest)

/-- The options that a word may be short for, when it is the name of none. -/
def candidates (word : Text) : List Meant :=
  match word with
  | '-' :: '-' :: _ =>
    let (start, argument) := splitEqual word
    (named.filter fun n => start.isPrefixOf n.1).map fun n => ⟨n.2, n.1, argument⟩
  | '-' :: c :: rest =>
    named.filterMap fun n =>
      if n.1 == ['-', c] then some ⟨n.2, n.1, some rest⟩
      else if word.isPrefixOf n.1 then some ⟨n.2, n.1, none⟩
      else none
  | _ => []

/-- A minus sign and digits, with at most one point, which digits follow; a line feed may end it. -/
def isNegativeNumber (word : Text) : Bool :=
  match word with
  | '-' :: rest =>
    let rest := if rest.getLast? = some '\n' then rest.dropLast else rest
    let whole := rest.takeWhile Text.isDecimal
    match rest.dropWhile Text.isDecimal with
    | [] => !whole.isEmpty
    | '.' :: fraction => !fraction.isEmpty && fraction.all Text.isDecimal
    | _ => false
  | _ => false

/-- The mistake of a word that may be short for several options. -/
def ambiguous (word : Text) (meant : List Meant) : Stop :=
  .mistake ("ambiguous option: ".toList ++ word ++ " could match ".toList ++
    Text.joined ", ".toList (meant.map Meant.name))

/-- What a word is meant for that begins with a minus sign and is the name of no option. -/
def classifyUnknown (word : Text) : Except Stop Word :=
  match candidates word with
  | [m] => .ok (.option (some m))
  | [] =>
    if isNegativeNumber word || word.contains ' ' then .ok .argument else .ok (.option none)
  | several => .error (ambiguous word several)

/-- What a word is meant for. -/
def classify (word : Text) : Except Stop Word :=
  match word with
  | '-' :: _ :: _ =>
    match ofName? word with
    | some d => .ok (.option (some ⟨d, word, none⟩))
    | none =>
      match splitEqual word with
      | (name, some argument) =>
        match ofName? name with
        | some d => .ok (.option (some ⟨d, name, some argument⟩))
        | none => classifyUnknown word
      | (_, none) => classifyUnknown word
  | _ => .ok .argument

/-- The word after which there are no options. -/
def terminator : Text := "--".toList

/-- The words of a command line, each with what it is. -/
def classifyAll : List Text → Except Stop (List (Text × Word))
  | [] => .ok []
  | word :: rest =>
    if word = terminator then .ok ((word, .terminator) :: rest.map (·, .argument))
    else do
      let w ← classify word
      let ws ← classifyAll rest
      return (word, w) :: ws

/-! ## 3. Values -/

/-- The mistake in the use of an option. -/
def misuse (d : Declared) (message : Text) : Stop :=
  .mistake ("argument ".toList ++ d.title ++ ": ".toList ++ message)

/-- The mistake of an argument that an option does not take. -/
def needless (d : Declared) (argument : Text) : Stop :=
  misuse d ("ignored explicit argument ".toList ++ Text.quoted argument)

/-- What is wrong with a word that says neither yes nor no. -/
def flagMessage (word : Text) : Text :=
  "expected TRUE or FALSE, got ".toList ++ word

/-- The value of an option whose argument is the word that ends the options: the word is dropped, and
nothing is left to take. -/
def valueOfNothing : Kind → Except Stop Json
  | .help => .error .help
  | .switch | .flag => .ok (.bool true)
  | .text | .number => .ok (.list [])

/-- The value that an option gets by its argument. -/
def valueOf (d : Declared) (argument : Option Text) : Except Stop Json :=
  if argument = some terminator then valueOfNothing d.kind
  else match d.kind, argument with
    | .help, _ => .error .help
    | .switch, _ => .ok (.bool true)
    | .text, some t => .ok (.text t)
    | .number, some t =>
      match Numeral.readNumber? t with
      | some x => .ok (.float x)
      | none => .error (misuse d ("invalid float value: ".toList ++ Text.quoted t))
    | .flag, some t =>
      match Options.flagWord? t with
      | some b => .ok (.bool b)
      | none => .error (misuse d (flagMessage t))
    | .flag, none => .ok (.bool true)
    | .text, none | .number, none => .error (misuse d "expected one argument".toList)

/-- The option takes no argument. -/
def Kind.isBare : Kind → Bool
  | .help | .switch => true
  | .text | .number | .flag => false

/-- The name has one minus sign. -/
def isShort (name : Text) : Bool :=
  match name with
  | '-' :: '-' :: _ => false
  | _ => true

/-- The switches written together in one word, and the last option of the word with the argument
that is left of the word. -/
def bundle (d : Declared) (name : Text) : Text → Except Stop (List Declared × Declared × Option Text)
  | [] => if d.kind.isBare then .error (needless d []) else .ok ([], d, some [])
  | c :: rest =>
    if !d.kind.isBare then .ok ([], d, some (c :: rest))
    else if !isShort name then .error (needless d (c :: rest))
    else match ofName? ['-', c] with
      | none => .error (needless d (c :: rest))
      | some next =>
        if rest.isEmpty then .ok ([d], next, none)
        else (bundle next ['-', c] rest).map fun (switches, last) => (d :: switches, last)

/-- The options that a word stands for: switches, and the last one with its argument if the word has
one. -/
def unfoldWord (m : Meant) : Except Stop (List Declared × Declared × Option Text) :=
  match m.argument with
  | none => .ok ([], m.option, none)
  | some argument => bundle m.option m.name argument

/-- The values set so far, and the words that were of no use, last one first. -/
structure Taken where
  values : Options
  unused : List Text

/-- The option gets its value. -/
def Taken.take (t : Taken) (d : Declared) (argument : Option Text) : Except Stop Taken :=
  (valueOf d argument).map fun v => { t with values := t.values.set d.key v }

/-- The switches are switched on. -/
def Taken.takeSwitches (t : Taken) (ds : List Declared) : Except Stop Taken :=
  ds.foldlM (fun t d => t.take d none) t

/-- What the words say, from left to right. An option without an argument in its own word takes the
next word, if that is no option. -/
def consume (t : Taken) : List (Text × Word) → Except Stop Taken
  | [] => .ok t
  | (_, .option (some m)) :: rest => do
    let (switches, last, argument) ← unfoldWord m
    if argument.isSome || last.kind.isBare then
      consume (← (← t.takeSwitches switches).take last argument) rest
    else match rest with
      | (next, .argument) :: rest =>
        consume (← (← t.takeSwitches switches).take last (some next)) rest
      | rest =>
        if last.kind = .flag then consume (← (← t.takeSwitches switches).take last none) rest
        else throw (misuse last "expected one argument".toList)
  | (word, _) :: rest => consume { t with unused := word :: t.unused } rest

/-- What a command line says: the values of the options on it. -/
def parse (words : List Text) : Except Stop Options := do
  let t ← consume ⟨[], []⟩ (← classifyAll words)
  if t.unused.isEmpty then return t.values
  else throw (.mistake ("unrecognized arguments: ".toList ++ Text.joined [' '] t.unused.reverse))

end Anonymization.CommandLine
