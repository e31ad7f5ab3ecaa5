import SpendAlerts.Command.Arguments
import SpendAlerts.Command.Inputs
import SpendAlerts.Store.Snapshot

/-!
Execution of commands. Alerts and notifications live in two snapshots in the state
directory, which every command but the listing of pending notifications writes back. A
failure is reported with the step that it happened in and leaves the snapshots as they
were. What a command needs from outside is its host: files, the time, and fresh ids.
-/

namespace SpendAlerts

namespace Command

structure Host (m : Type → Type) where
  files : FileSystem m
  now : m Instant
  freshId : m String
  freshEtag : m String

/-- What a command leaves behind for its caller. -/
structure Report where
  exitCode : Nat
  output : String
  errors : String
  deriving DecidableEq, Repr

/-- A failed command: with a message, or without one, where the range of dates is left or the
worker cannot begin. -/
inductive Failure where
  | message (text : String)
  | crash
  deriving DecidableEq, Repr

namespace Failure

def ofFault : Fault → Failure
  | .dateOutOfRange => crash
  | e => message e.message

/-- Puts a step in front of a message. -/
def during (step : String) : Failure → Failure
  | message text => message (step ++ ": " ++ text)
  | crash => crash

end Failure

variable {m : Type → Type} [Monad m]

abbrev CommandM (m : Type → Type) := ExceptT Failure m

def lift {α : Type} (x : m α) : CommandM m α := ExceptT.lift x

def orFail {α : Type} : Except Fault α → CommandM m α
  | .ok x => return x
  | .error e => throw (.ofFault e)

/-- Work on snapshots whose failure belongs to a step. -/
def withStep {α : Type} (step : String) (x : ExceptT Fault m α) : CommandM m α := do
  match ← lift x.run with
  | .ok y => return y
  | .error e => throw ((Failure.ofFault e).during step)

def readInput {α : Type} (h : Host m) (parse : String → Option α) (path : String) :
    CommandM m α := do
  match ← lift (h.files.read path) with
  | .error e => throw (.message ("reading " ++ path ++ ": " ++ e.message))
  | .ok text => match parse text with
    | some x => return x
    | none => throw (.message ("parsing " ++ path))

def alertsFile (dir : String) : String :=
  if Disk.endsInSlash dir then dir ++ "alerts.json" else dir ++ "/alerts.json"

def notificationsFile (dir : String) : String :=
  if Disk.endsInSlash dir then dir ++ "notifications.json" else dir ++ "/notifications.json"

def loadState (h : Host m) (dir : String) : CommandM m Engine.State := do
  let alerts ← withStep ("loading alerts from " ++ dir) (Documents.load h.files (alertsFile dir))
  let notifications ← withStep ("loading notifications from " ++ dir)
    (Documents.load h.files (notificationsFile dir))
  return { Engine.State.empty with alerts, notifications }

def saveState (h : Host m) (dir : String) (s : Engine.State) : CommandM m Unit := do
  match ← lift (h.files.createDirs dir) with
  | .error e => throw (.message ("creating " ++ dir ++ ": " ++ e.message))
  | .ok () => pure ()
  orFail (← lift (s.alerts.save h.files (alertsFile dir)).run)
  orFail (← lift (s.notifications.save h.files (notificationsFile dir)).run)

/-- An alert with an id and an etag, fresh ones where it has none. -/
def identified (h : Host m) (a : Alert) : m Alert := do
  let id ← if a.id = "" then h.freshId else pure a.id
  let etag ← if a.etag = "" then h.freshEtag else pure a.etag
  return { a with id, etag }

def importAll (h : Host m) :
    List Alert → Engine.State → CommandM m (List String × Engine.State)
  | [], s => return ([], s)
  | a :: rest, s => do
      let a ← lift (identified h a)
      let (result, s) := (Engine.Run.onAlerts (AlertStore.put a)).run s
      orFail result
      let (ids, s) ← importAll h rest s
      return (a.id :: ids, s)

def lines (ss : List String) : String :=
  ss.foldr (fun s text => s ++ "\n" ++ text) ""

def count (n : Nat) : String := Decimal.natText n

def refreshLine (s : Worker.Summary) : String :=
  "refreshed " ++ count s.completed ++ " alerts, " ++ count s.notificationsAdded ++
    " notifications added, " ++ count s.dropped.length ++ " dropped\n"

def digestLine (s : Worker.Summary) : String :=
  "sent " ++ count s.emailsSent ++ " digest emails for " ++ count s.completed ++
    " customers, " ++ count s.dropped.length ++ " dropped\n"

/-- The pending notifications of customers by alert, as a document. -/
def pendingOf (customers : List String) : Engine.Run (Table (Table (List Notification))) := do
  match customers with
  | [] => return ∅
  | customerId :: rest =>
      let here ← Engine.Run.onNotifications (NotificationStore.pendingFor customerId)
      return (← pendingOf rest).insert customerId here

def pendingText (t : Table (Table (List Notification))) : String :=
  (Value.ofTable (Value.ofTable fun ns => .list (ns.map Notification.display)) t).indentedText

def customersFor (customerId : Option String) : Engine.Run (List String) :=
  match customerId with
  | some id => return [id]
  | none => Engine.Run.onNotifications NotificationStore.customersWithPending

def scheduleFor (c : Engine.Collaborators) (customerId : Option String) : Engine.Run Unit := do
  match customerId with
  | some id => c.enqueue (.digest id)
  | none =>
      let _ ← Engine.scheduleDigests c
      return ()

/-- Works off the queue and gives a line about it. -/
def workOff (c : Engine.Collaborators) (options : Worker.Options) (line : Worker.Summary → String)
    (s : Engine.State) : CommandM m (String × Option Engine.State) :=
  match Worker.drainEngine c options s with
  | (.error _, _) => throw .crash
  | (.ok summary, s) => return (line summary, some s)

/-- Performs an action; gives its output, and the state if that is to be saved. -/
def perform (h : Host m) (settings : Settings) (s : Engine.State) (a : Action) :
    CommandM m (String × Option Engine.State) := do
  let now ← lift h.now
  match a with
  | .importAlerts path =>
      let alerts ← readInput h alerts? path
      let (ids, s) ← importAll h alerts s
      return (lines ids, some s)
  | .refresh path options =>
      let results ← readInput h results? path
      let c := Engine.Collaborators.quiet settings now results
      let (result, s) := (Engine.refreshAll c).run s
      match result with
      | .error e => throw ((Failure.ofFault e).during "listing alerts")
      | .ok _ => workOff c options refreshLine s
  | .digest customerId options =>
      let c := Engine.Collaborators.quiet settings now ∅
      let (result, s) := (scheduleFor c customerId).run s
      orFail result
      workOff c options digestLine s
  | .pending customerId =>
      let (result, _) := (do pendingOf (← customersFor customerId)).run s
      return (pendingText (← orFail result) ++ "\n", none)

def loadSettings (h : Host m) : Option String → CommandM m Settings
  | none => return .standard
  | some path => readInput h settings? path

/-- The output of an invocation, and the failure if there is one. -/
def execute (h : Host m) (i : Invocation) : m (String × Option Failure) := do
  let before : CommandM m (String × Option Engine.State) := do
    let settings ← loadSettings h i.settingsPath
    let s ← loadState h i.stateDir
    perform h settings s i.action
  match ← before.run with
  | .error e => return ("", some e)
  | .ok (output, none) => return (output, none)
  | .ok (output, some s) => match ← (saveState h i.stateDir s).run with
    | .ok () => return (output, none)
    | .error e => return (output, some e)

def versionText : String := "costwatch 0.1.0\n"

/-- Runs a command line. -/
def run (h : Host m) (env : String → Option String) (args : List String) : m Report := do
  match readInvocation env args with
  | .error .usage => return ⟨2, "", ""⟩
  | .error .help => return ⟨0, "", ""⟩
  | .error .version => return ⟨0, versionText, ""⟩
  | .ok i => match ← execute h i with
    | (output, none) => return ⟨0, output, ""⟩
    | (output, some (.message text)) => return ⟨1, output, "Error: " ++ text ++ "\n"⟩
    | (output, some .crash) => return ⟨101, output, ""⟩

end Command

end SpendAlerts
