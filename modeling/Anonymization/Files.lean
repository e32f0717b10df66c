import Anonymization.Failure
import Anonymization.Table.Reader
import Anonymization.Text.Encoding
import Anonymization.Hierarchy.Loader
/-!
# Files

A file system is what can be read: files with their bytes, directories, and the working directory
from which paths start. A path is followed part by part; `.` stays, `..` goes up, and above the root
there is the root. A directory on the way to a file exists with the file.

* `locate` -- what a path leads to; its parts are those that the path means (`parts_locate`);
* `read` -- the bytes of a file, `writable` -- the place where a file can be written;
* `readText`, `readRecords`, `readTable`, `readHierarchy` -- what the bytes are good for;
* `loadHierarchy` -- the hierarchy of a file as a run takes it, which has to be measured.
-/

namespace Anonymization

/-- The files and directories, by the parts of their paths from the root. -/
structure FileSystem where
  files : Assoc (List Text) ByteArray
  directories : List (List Text)
  /-- The working directory. -/
  here : List Text

namespace FileSystem

/-! ## 1. Paths -/

/-- The parts of a path between its slashes. -/
def pathParts : Text → List Text
  | [] => [[]]
  | c :: rest =>
    if c = '/' then [] :: pathParts rest
    else match pathParts rest with
      | [] => [[c]]
      | part :: parts => (c :: part) :: parts

/-- A part that stays in the same directory. -/
def isHere (part : Text) : Bool :=
  part.isEmpty || part == ['.']

/-- A part that goes up. -/
def isUp (part : Text) : Bool :=
  part == ['.', '.']

/-- What a path leads to. -/
inductive Place where
  | file (parts : List Text)
  | directory (parts : List Text)
  /-- Nothing, in a directory where a file of this name could be. -/
  | vacant (parts : List Text)
  deriving DecidableEq

/-- The parts of a place from the root. -/
def Place.parts : Place → List Text
  | file parts | directory parts | vacant parts => parts

/-- The parts after one more part of a path. -/
def step (parts : List Text) (part : Text) : List Text :=
  if isHere part then parts else if isUp part then parts.dropLast else parts ++ [part]

/-- The parts that a path means, starting from a working directory. -/
def partsFrom (here : List Text) (path : Text) : List Text :=
  (pathParts path).foldl step (if path.head? = some '/' then [] else here)

/-- The parts lead to something below them. -/
def isAbove (parts below : List Text) : Bool :=
  parts.isPrefixOf below && parts.length < below.length

/-- The parts name a directory. -/
def isDirectory (fs : FileSystem) (parts : List Text) : Bool :=
  parts.isPrefixOf fs.here || fs.directories.any parts.isPrefixOf ||
    fs.files.any fun (p, _) => isAbove parts p

/-- The longest name that a part of a path may have, in bytes. -/
def nameLimit : Nat := 255

/-- The longest path, in bytes. -/
def pathLimit : Nat := 4095

/-- A name that is too long. -/
def tooLong (limit : Nat) (t : Text) : Bool :=
  limit < (Text.encode t).size

/-- What one more part leads to. -/
def enter (fs : FileSystem) (place : Place) (part : Text) : Except FileFault Place :=
  match place with
  | .file _ => .error .notDirectory
  | .vacant _ => .error .missing
  | .directory parts =>
    let next := step parts part
    if tooLong nameLimit part then .error .nameTooLong
    else if isHere part || isUp part || fs.isDirectory next then .ok (.directory next)
    else if fs.files.has next then .ok (.file next)
    else .ok (.vacant next)

/-- What some parts of a path lead to. -/
def follow (fs : FileSystem) (path : Text) (parts : List Text) : Except FileFault Place :=
  if path.isEmpty then .error .missing
  else if tooLong pathLimit path then .error .nameTooLong
  else parts.foldlM fs.enter (.directory (if path.head? = some '/' then [] else fs.here))

/-- What a path leads to. -/
def locate (fs : FileSystem) (path : Text) : Except FileFault Place :=
  fs.follow path (pathParts path)

/-- One more part leads where the path says. -/
theorem parts_enter (fs : FileSystem) (place next : Place) (part : Text)
    (h : fs.enter place part = .ok next) : next.parts = step place.parts part := by
  cases place <;> simp only [enter] at h
  · cases h
  · split at h
    · cases h
    · split at h
      · cases h; rfl
      · split at h <;> (cases h; rfl)
  · cases h

/-- Several parts lead where the path says. -/
theorem parts_foldlM_enter (fs : FileSystem) (parts : List Text) (place next : Place)
    (h : parts.foldlM fs.enter place = .ok next) :
    next.parts = parts.foldl step place.parts := by
  induction parts generalizing place with
  | nil => cases h; rfl
  | cons part rest ih =>
    rw [List.foldlM_cons] at h
    cases e : fs.enter place part with
    | error f => rw [e] at h; cases h
    | ok middle =>
      rw [e] at h
      rw [ih middle h, fs.parts_enter place middle part e, List.foldl_cons]

/-- What a path leads to has the parts that the path means. -/
theorem parts_locate (fs : FileSystem) (path : Text) (place : Place)
    (h : fs.locate path = .ok place) : place.parts = partsFrom fs.here path := by
  simp only [locate, follow] at h
  split at h
  · cases h
  · split at h
    · cases h
    · exact fs.parts_foldlM_enter _ _ _ h

/-- A path that can be handed to the file system at all. -/
def isPath (path : Text) : Bool :=
  !path.contains '\x00'

/-! ## 2. Opening -/

/-- The bytes of a file. -/
def read (fs : FileSystem) (path : Text) : Except Failure ByteArray :=
  if !isPath path then .error (.defect .unreadableValue)
  else match fs.locate path with
    | .error f => .error (.file f path)
    | .ok (.directory _) => .error (.file .isDirectory path)
    | .ok (.vacant _) => .error (.file .missing path)
    | .ok (.file parts) =>
      match fs.files.get? parts with
      | some bytes => .ok bytes
      | none => .error (.file .missing path)

/-- A file, and no directory, lies there. -/
def isFile (fs : FileSystem) (path : Text) : Bool :=
  isPath path && match fs.locate path with
    | .ok (.file _) => true
    | _ => false

/-- The parts that a file to be written is looked for by. A slash at the end says that the last name is
that of a directory; then it does not matter what is there, and only the way to it is followed. -/
def partsToWrite (path : Text) : List Text :=
  let parts := pathParts path
  if parts.getLast? = some [] then
    (parts.reverse.dropWhile List.isEmpty).reverse.dropLast ++ [['.']]
  else parts

/-- The place where a file can be written under this path. -/
def writable (fs : FileSystem) (path : Text) : Except Failure (List Text) :=
  if !isPath path then .error (.defect .unreadableValue)
  else match fs.follow path (partsToWrite path) with
    | .ok (.file parts) | .ok (.vacant parts) => .ok parts
    | .ok (.directory _) => .error (.file .isDirectory path)
    | .error f => .error (.file f path)

/-! ## 3. Reading what files hold -/

/-- The text of a file. -/
def readText (fs : FileSystem) (path : Text) : Except Failure Text := do
  match Text.decode? (← fs.read path) with
  | some t => return t
  | none => throw (.defect .undecodable)

/-- The records of a file. The file is opened before anything else is looked at. -/
def readRecords (fs : FileSystem) (separator path : Text) : Except Failure (List (List Text)) := do
  let bytes ← fs.read path
  if separator.length ≠ 1 then throw (.defect .wrongType)
  match Text.decode? bytes with
  | some t => Table.readRecords separator .kept t
  | none => throw (.defect .undecodable)

/-- The table of a file. -/
def readTable (fs : FileSystem) (separator path : Text) : Except Failure Table :=
  (fs.readRecords separator path).map Table.ofRecords

/-- The hierarchy of a file. -/
def readHierarchy (fs : FileSystem) (separator path : Text) : Except Failure Hierarchy := do
  Hierarchy.ofRecords path (← fs.readRecords separator path)

/-- The hierarchy of a file, measured. -/
def loadHierarchy (fs : FileSystem) (separator path : Text) : Except Failure Hierarchy := do
  (← fs.readHierarchy separator path).measured

/-- The hierarchies of some files, in order. -/
def readHierarchies (fs : FileSystem) (separator : Text) :
    Assoc Text Text → Except Failure (Assoc Text Hierarchy)
  | [] => .ok []
  | (name, path) :: rest => do
    let h ← fs.loadHierarchy separator path
    let hs ← readHierarchies fs separator rest
    return (name, h) :: hs

/-- The log of reading the hierarchies of some files, up to the first that gives none. -/
def hierarchyLog (fs : FileSystem) (separator : Text) : Assoc Text Text → List LogLine
  | [] => []
  | (name, path) :: rest =>
    match fs.readHierarchy separator path with
    | .error _ => []
    | .ok h => h.topLog path ++
      match h.measured with
      | .error _ => []
      | .ok _ => h.measuredLine name path :: hierarchyLog fs separator rest

end FileSystem

end Anonymization
