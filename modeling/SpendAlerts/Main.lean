import SpendAlerts.Command.Execute
import Std.Time

/-!
The command line program. It gives commands the files of the current directory, the time
of the system clock and random ids, prints what they report, and ends with their exit
code.
-/

namespace SpendAlerts

namespace Program

def fault : IO.Error → FileFault
  | .noFileOrDirectory .. => .missing
  | .alreadyExists .. => .taken
  | .inappropriateType _ 21 _ => .isDirectory
  | .inappropriateType _ 20 _ => .notDirectory
  | .otherError 21 _ => .isDirectory
  | .otherError 20 _ => .notDirectory
  | e => .other (toString e)

def guarding {α : Type} (action : IO α) : IO (Except FileFault α) := do
  try
    return .ok (← action)
  catch e => return .error (fault e)

def files : FileSystem IO where
  exists? path := do
    match ← guarding (IO.FS.Handle.mk path .read) with
    | .ok _ => return true
    | .error .isDirectory => return true
    | .error _ => return false
  read path := guarding (IO.FS.readFile path)
  write path text := guarding (IO.FS.writeFile path text)
  createDirs path := guarding (IO.FS.createDirAll path)

def now : IO Instant := do
  let t ← Std.Time.Timestamp.now
  let seconds := t.toSecondsSinceUnixEpoch.val
  let nanos := t.toNanosecondsSinceUnixEpoch.val % 1000000000
  let instant? := (Date.ofDayNumber? (719162 + seconds / 86400)).bind fun d =>
    Instant.ofParts? d (seconds % 86400).toNat nanos.toNat
  match instant? with
  | some t => return t
  | none => throw (IO.userError "the clock is out of range")

def randomHex (bytes : Nat) : IO (List Char) := do
  let bytes ← IO.getRandomBytes (USize.ofNat bytes)
  return bytes.toList.flatMap fun b => [Decimal.digit (b.toNat / 16), Decimal.digit (b.toNat % 16)]

/-- A random id with the version and variant of the random kind. -/
def randomId : IO (List Char × List Char) := do
  let a ← randomHex 8
  let b ← randomHex 8
  let variant := Decimal.digit (8 + ((b.head?.bind Tree.Reader.hexValue?).getD 0) % 4)
  return (a.take 12 ++ '4' :: a.drop 13, variant :: b.drop 1)

def freshId : IO String := do
  let (a, b) ← randomId
  return String.ofList (a.take 8 ++ '-' :: (a.drop 8).take 4 ++ '-' :: a.drop 12 ++
    '-' :: b.take 4 ++ '-' :: b.drop 4)

def freshEtag : IO String := do
  let (a, b) ← randomId
  return String.ofList (a ++ b)

def host : Command.Host IO := ⟨files, now, freshId, freshEtag⟩

end Program

end SpendAlerts

def main (args : List String) : IO UInt32 := do
  let state ← IO.getEnv "COSTWATCH_STATE"
  let config ← IO.getEnv "COSTWATCH_CONFIG"
  let env (name : String) :=
    if name = "COSTWATCH_STATE" then state
    else if name = "COSTWATCH_CONFIG" then config
    else none
  let report ← SpendAlerts.Command.run SpendAlerts.Program.host env args
  IO.print report.output
  IO.eprint report.errors
  return UInt32.ofNat report.exitCode
