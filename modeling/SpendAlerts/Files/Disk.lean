import SpendAlerts.Text.Blank

/-!
A disk of text files. Paths are read as their components, where the empty one and the
dot stay and two dots go up. The failures are those of a file system: a missing file, a
file where a directory is needed, and the other way round.
-/

namespace SpendAlerts

inductive FileFault where
  | missing
  | taken
  | notDirectory
  | isDirectory
  | other (reason : String)
  deriving DecidableEq, Repr

namespace FileFault

def message : FileFault → String
  | missing => "No such file or directory (os error 2)"
  | taken => "File exists (os error 17)"
  | notDirectory => "Not a directory (os error 20)"
  | isDirectory => "Is a directory (os error 21)"
  | other reason => reason

end FileFault

/-- Files with their text, and directories without one, by path. -/
structure Disk where
  entries : List (List String × Option String)

namespace Disk

def empty : Disk := ⟨[]⟩

def component (parts : List String) (s : String) : List String :=
  if s = "" ∨ s = "." then parts
  else if s = ".." then parts.dropLast
  else parts ++ [s]

def components (path : String) : List String :=
  ((Text.pieces '/' path.toList).map String.ofList).foldl component []

/-- What stands at a path: a text, or nothing for a directory. -/
def entry? (d : Disk) (parts : List String) : Option (Option String) :=
  if parts = [] then some none else d.entries.lookup parts

def isFile (d : Disk) (parts : List String) : Bool :=
  match d.entry? parts with
  | some (some _) => true
  | _ => false

/-- A component before the last one is a file. -/
def isBlocked (d : Disk) (parts : List String) : Bool :=
  (List.range parts.length).any fun n => d.isFile (parts.take n)

def endsInSlash (path : String) : Bool :=
  path.toList.getLast? = some '/'

def find? (d : Disk) (path : String) : Except FileFault (Option String) :=
  let parts := components path
  if d.isBlocked parts then .error .notDirectory
  else match d.entry? parts with
    | none => .error .missing
    | some (some text) => if endsInSlash path then .error .notDirectory else .ok (some text)
    | some none => .ok none

def exists? (d : Disk) (path : String) : Bool := (d.find? path).isOk

def read (d : Disk) (path : String) : Except FileFault String :=
  match d.find? path with
  | .ok (some text) => .ok text
  | .ok none => .error .isDirectory
  | .error e => .error e

def put (d : Disk) (parts : List String) (content : Option String) : Disk :=
  ⟨(parts, content) :: d.entries.filter (·.1 ≠ parts)⟩

/-- Makes directories of all prefixes that are not there yet. -/
def addDirs (d : Disk) (parts : List String) : Disk :=
  (List.range (parts.length + 1)).foldl
    (fun d n => if (d.entry? (parts.take n)).isSome then d else d.put (parts.take n) none) d

def createDirs (d : Disk) (path : String) : Except FileFault Disk :=
  let parts := components path
  if d.isBlocked parts then .error .notDirectory
  else if d.isFile parts then .error .taken
  else .ok (d.addDirs parts)

def write (d : Disk) (path text : String) : Except FileFault Disk :=
  let parts := components path
  if d.isBlocked parts then .error .notDirectory
  else match d.entry? parts with
    | some none => .error .isDirectory
    | _ =>
        if (d.entry? parts.dropLast).isNone then .error .missing
        else .ok (d.put parts (some text))

/-- Adds a file with the directories above it. -/
def withFile (d : Disk) (path text : String) : Disk :=
  let parts := components path
  (d.addDirs parts.dropLast).put parts (some text)

end Disk

end SpendAlerts
