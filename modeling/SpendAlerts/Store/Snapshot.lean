import SpendAlerts.Files.Disk
import SpendAlerts.Store.Documents

/-!
Snapshots of documents in files. Loading a file that is not there gives no documents,
and a file that cannot be read or does not hold a snapshot is an error. The file system
is given by what it answers, so that the same code runs on a disk in memory and on a
real one.
-/

namespace SpendAlerts

/-- A file system, as far as programs use it here. -/
structure FileSystem (m : Type → Type) where
  exists? : String → m Bool
  read : String → m (Except FileFault String)
  write : String → String → m (Except FileFault Unit)
  createDirs : String → m (Except FileFault Unit)

namespace Disk

def updated (result : Except FileFault Disk) (d : Disk) : Except FileFault Unit × Disk :=
  match result with
  | .ok d => (.ok (), d)
  | .error e => (.error e, d)

/-- The file system of a disk in memory. -/
def fileSystem : FileSystem (StateM Disk) where
  exists? path := fun d => (d.exists? path, d)
  read path := fun d => (d.read path, d)
  write path text := fun d => updated (d.write path text) d
  createDirs path := fun d => updated (d.createDirs path) d

end Disk

namespace Documents

variable {m : Type → Type} [Monad m]

def load (fs : FileSystem m) (path : String) : ExceptT Fault m Documents := do
  if !(← fs.exists? path) then return .empty
  match ← fs.read path with
  | .error e => throw (.store ("failed to read " ++ path ++ ": " ++ e.message))
  | .ok text => match ofText? text with
    | some d => return d
    | none => throw .malformedText

def save (fs : FileSystem m) (d : Documents) (path : String) : ExceptT Fault m Unit := do
  match ← fs.write path d.text with
  | .error e => throw (.store ("failed to write " ++ path ++ ": " ++ e.message))
  | .ok () => return ()

end Documents

end SpendAlerts
