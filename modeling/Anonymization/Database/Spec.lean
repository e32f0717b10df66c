import Anonymization.Assoc
import Anonymization.Failure
import Anonymization.Text.Capital
/-!
# The database option

Where the input table lies in a database: `TYPE=MYSQL,URL=host,PORT=3306,USER=name,PASSWORD=secret,
DATABASE=db,TABLE=table`, which one pair of brackets may enclose. The keys come in any order and any
case; three of them have to be there. The password is never part of the text of the specification.
-/

namespace Anonymization

/-- What is needed to read a table of a database. -/
structure DatabaseSpec where
  type : DatabaseType
  database : Text
  table : Text
  host : Text
  /-- The port, if it is not the usual one of the system. -/
  port : Option Nat
  user : Option Text
  password : Option Text
  deriving DecidableEq

namespace DatabaseSpec

/-- The keys of the option. -/
inductive Key where
  | type
  | url
  | port
  | user
  | password
  | database
  | table
  deriving DecidableEq

namespace Key

/-- All keys. -/
def all : List Key := [type, url, port, user, password, database, table]

/-- The name of a key. -/
def name : Key → Text
  | type => "TYPE".toList
  | url => "URL".toList
  | port => "PORT".toList
  | user => "USER".toList
  | password => "PASSWORD".toList
  | database => "DATABASE".toList
  | table => "TABLE".toList

/-- The key that a word gives, in any case of its letters. -/
def ofWord? (word : Text) : Option Key :=
  all.find? fun k => k.name == Text.capitals word

end Key

/-- The system that a word names. -/
def typeOfWord? (word : Text) : Option DatabaseType :=
  [.mysql, .postgresql, .sqllite].find? fun t => t.name == Text.capitals word

/-- The host unless one is given. -/
def defaultHost : Text := "localhost".toList

/-- The specification as messages show it. -/
def text (s : DatabaseSpec) : Text :=
  s.type.name ++ "://".toList ++ s.user.getD [] ++ '@' :: s.host ++
    (match s.port with
      | none | some 0 => []
      | some p => ':' :: Numeral.decimalText p) ++
    '/' :: s.database ++ '.' :: s.table

/-- A text without one pair of brackets, either of which may be absent. -/
def dropBrackets (t : Text) : Text :=
  let t := match t with
    | '[' :: rest => rest
    | t => t
  if t.getLast? = some ']' then t.dropLast else t

/-- The key and the value of a token. -/
def parseToken (token : Text) : Except Failure (Key × Text) :=
  match Field.pair? token with
  | none => .error (.malformedDatabaseSpec token .notKeyValue)
  | some (word, value) =>
    match Key.ofWord? (Text.trim word) with
    | none => .error (.malformedDatabaseSpec token (.unknownKey (Text.trim word)))
    | some key => .ok (key, Text.trim value)

/-- The values of the keys; of several values for one key the last counts. -/
def parseValues (separator option : Text) : Except Failure (Assoc Key Text) :=
  ((Field.split separator false (dropBrackets (Text.trim option))).mapM parseToken).map Assoc.ofList

/-- The value of a key that has to be there. -/
def required (option : Text) (values : Assoc Key Text) (key : Key) : Except Failure Text :=
  match values.get? key with
  | some v => .ok v
  | none => .error (.malformedDatabaseSpec option (.missingKey key.name))

/-- The port. Digits that no numeral is written with pass for digits here and then are no number. -/
def parsePort (option : Text) : Option Text → Except Failure (Option Nat)
  | none => .ok none
  | some t =>
    if t.isEmpty || !t.all Text.isDigit then .error (.malformedDatabaseSpec option (.portNotNumber t))
    else if !t.all Text.isDecimal then .error (.defect .unreadableValue)
    else match Numeral.digitsNumber? t with
      | some n => .ok (some n)
      | none => .error (.defect .unreadableValue)

/-- The specification that some values give. -/
def ofValues (option : Text) (values : Assoc Key Text) : Except Failure DatabaseSpec := do
  let type ← required option values .type
  let database ← required option values .database
  let table ← required option values .table
  match typeOfWord? type with
  | none => throw (.malformedDatabaseSpec option (.unknownType type))
  | some system =>
    let port ← parsePort option (values.get? .port)
    return {
      type := system
      database
      table
      host := (values.get? .url).getD defaultHost
      port
      user := values.get? .user
      password := values.get? .password }

/-- The specification of the database option, none if it is absent or blank. -/
def parseOption (separator : Text) : Option Text → Except Failure (Option DatabaseSpec)
  | none => .ok none
  | some option =>
    if Text.allBlank option then .ok none
    else do
      let values ← parseValues separator option
      return some (← ofValues option values)

/-- The keys of a specification with their values. -/
def entries (s : DatabaseSpec) : List (Key × Text) :=
  [(.type, s.type.name), (.database, s.database), (.table, s.table), (.url, s.host)] ++
    (s.port.map fun p => (.port, Numeral.decimalText p)).toList ++
    (s.user.map fun u => (.user, u)).toList ++ (s.password.map fun p => (.password, p)).toList

/-- The database option for some keys with their values. -/
def optionText (separator : Text) (entries : List (Key × Text)) : Text :=
  '[' :: Field.joined separator (entries.map fun (k, v) => Field.pairText k.name v) ++ [']']

end DatabaseSpec

end Anonymization
