import Anonymization.Database.Spec
import Anonymization.Database.Statement
import Anonymization.Log
import Anonymization.Table.Basic
import Anonymization.Trace
/-!
# Reading a table from a database

A connection is opened, asked, and closed. What the server does is given: it may refuse to connect,
refuse a statement, or fail in the middle of the records, which it hands out in batches of its own
making. What is asked of it can be seen (`DatabaseEvent`): every statement runs with a cursor that is
closed again, however the statement ends.
-/

namespace Anonymization

/-- A value in a record of a database. A value of another kind, such as a date, is given as its text. -/
inductive Cell where
  | null
  | text (t : Text)
  | int (n : Int)
  | float (x : Binary64)
  | bool (b : Bool)

/-- The text of a value, empty for no value. -/
def Cell.toText : Cell → Text
  | .null => []
  | .text t => t
  | .int n => Numeral.signedText n
  | .float x => x.text
  | .bool true => "True".toList
  | .bool false => "False".toList

/-- What a connection is opened with. -/
structure Credentials where
  host : Text
  user : Option Text
  password : Option Text
  database : Text
  port : Option Nat
  deriving DecidableEq

/-- Some records of a table, or the reason why they cannot be had. -/
abbrev Batch := Except Text (List (List Cell))

/-- What a database server does. -/
structure Server where
  /-- Why it refuses to connect, if it does. -/
  refusal : Option Text
  /-- Why it refuses a statement, or the single record that answers it, if it does. -/
  statementFault : Text → Option Text
  /-- What it answers when asked for the number of records. -/
  count : Int
  /-- The names of the columns of the table. -/
  columns : List Text
  /-- What it hands out each time it is asked for more records. -/
  batches : List Batch
  /-- Why the connection cannot be closed, if it cannot. -/
  closingFault : Option Text

/-- What can be seen of a connection. -/
inductive DatabaseEvent where
  | connected (credentials : Credentials)
  | cursorOpened
  | statement (sql : Text)
  /-- So many records were asked for and so many came. -/
  | fetched (asked came : Nat)
  | cursorClosed
  | disconnected
  deriving DecidableEq

/-- What the progress bar of the fetching is handed. It draws itself from this and from the time that has
passed. -/
inductive Progress where
  /-- The bar is set up for so many records. -/
  | opened (total : Int)
  | advanced (records : Nat)
  deriving DecidableEq

namespace Server

/-- Lists of at most `size` elements that make up the list; `fuel` bounds how many. -/
def pieces {α : Type} (size : Nat) : Nat → List α → List (List α)
  | 0, _ => []
  | _, [] => []
  | fuel + 1, x :: xs => (x :: xs).take size :: pieces size fuel ((x :: xs).drop size)

/-- The batches in which some records come, each as large as asked for but for the last. -/
def inBatches (size : Nat) (records : List (List Cell)) : List Batch :=
  (pieces size records.length records).map .ok

end Server

namespace Database

/-- A step of reading from a database. -/
abbrev Step (α : Type) := Traced DatabaseEvent α

/-- The number of records asked for at a time. -/
def batchSize : Nat := 1000

/-- A text that is not empty. -/
def nonEmpty (t : Option Text) : Option Text :=
  t.filter fun t => !t.isEmpty

/-- What to connect with: user and password come from the environment where the specification has
none. -/
def credentials (environment : Assoc Text Text) (spec : DatabaseSpec) : Credentials where
  host := spec.host
  user := nonEmpty spec.user <|> environment.get? "MYSQL_USER".toList
  password := nonEmpty spec.password <|> environment.get? "MYSQL_PASSWORD".toList
  database := spec.database
  port := spec.port

/-- Opens the connection. Only one system can be reached. -/
def connect (server : Server) (environment : Assoc Text Text) (spec : DatabaseSpec) : Step Unit := do
  if spec.type ≠ .mysql then Traced.fail (.unsupportedDatabase spec.type)
  Traced.emit (.connected (credentials environment spec))
  match server.refusal with
  | some reason => Traced.fail (.connectionFailed spec.text reason)
  | none => pure ()

/-- Runs a statement with a cursor of its own and goes on with its result. -/
def withCursor {α : Type} (server : Server) (sql : Text) (result : Step α) : Step α := do
  Traced.emit .cursorOpened
  Traced.finallyDo
    (do
      Traced.emit (.statement sql)
      match server.statementFault sql with
      | some reason => Traced.fail (.defect (.refused reason))
      | none => result)
    (Traced.emit .cursorClosed)

/-- The number of records that the server says there are. -/
def count (server : Server) (table : Text) : Step Int :=
  withCursor server (countStatement table) (pure server.count)

/-- The records of the batches up to the first empty one. -/
def fetchBatches : List Batch → Step (List (List Cell))
  | [] => do
    Traced.emit (.fetched batchSize 0)
    return []
  | .error reason :: _ => Traced.fail (.defect (.refused reason))
  | .ok [] :: _ => do
    Traced.emit (.fetched batchSize 0)
    return []
  | .ok (r :: rs) :: rest => do
    Traced.emit (.fetched batchSize (rs.length + 1))
    let more ← fetchBatches rest
    return r :: rs ++ more

/-- A failure while a table is read: what the database refused is told with the name of the table. -/
def whileReading (table : Text) : Failure → Failure
  | .defect (.refused reason) => .tableUnreadable table reason
  | e => e

/-- The whole table, values as texts. The number of records is asked for first and plays no part. -/
def fetch (server : Server) (table : Text) : Step Table :=
  Traced.mapFailure (whileReading table) do
    let _ ← count server table
    withCursor server (selectStatement table) do
      let records ← fetchBatches server.batches
      return ⟨server.columns, records.map fun record => record.map Cell.toText⟩

/-- Closes the connection. -/
def close (server : Server) : Step Unit := do
  Traced.emit .disconnected
  match server.closingFault with
  | some reason => Traced.fail (.defect (.refused reason))
  | none => pure ()

/-- The part of the program that reads databases, as the log names it. -/
def logOrigin : Text := "db_connectors.mysql_connector".toList

/-- What is logged before a connection is opened. -/
def connectingLine (spec : DatabaseSpec) : LogLine where
  level := .info
  origin := logOrigin
  message := "Connecting to ".toList ++ spec.text

/-- What is logged when so many records were fetched from a table that was said to have `total`. -/
def fetchedLine (records : Nat) (total : Int) (table : Text) : LogLine where
  level := .info
  origin := logOrigin
  message :=
    "Fetched ".toList ++ Numeral.decimalText records ++ '/' :: Numeral.signedText total ++
      " records from ".toList ++ table

/-- The table that a specification names: the connection is closed however the reading ends. -/
def readTable (server : Server) (environment : Assoc Text Text) (spec : DatabaseSpec) : Step Table := do
  connect server environment spec
  Traced.finallyDo (fetch server spec.table) (close server)

end Database

end Anonymization
