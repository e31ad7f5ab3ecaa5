import SpendAlerts.Alert.Basic
import SpendAlerts.Store.Documents

/-!
The store of alerts. The key of a document is the id of its alert, whatever the document
says. The names in the configuration are read before the rest, so that a bad one is
reported as such and not as a document that does not decode. Listing leaves out what
does not decode and deletes dangling alerts.
-/

namespace SpendAlerts

namespace AlertStore

def collectionName : String := "alerts"

/-- The text in a field of the configuration, if it is one. -/
def configText? (doc : Value) (name : String) : Option String :=
  (doc.field? "config").bind fun config => (config.field? name).bind Value.text?

def checkName {α : Type} (read : String → Except Fault α) : Option String → Except Fault Unit
  | none => .ok ()
  | some s => match read s with
    | .ok _ => .ok ()
    | .error e => .error e

/-- Reads the names in the configuration of a document. -/
def checkNames (doc : Value) : Except Fault Unit := do
  checkName Condition.ofName? (configText? doc "condition")
  checkName Comparison.ofSymbol? (configText? doc "operator")
  checkName Interval.ofName? (configText? doc "timeInterval")
  checkName Metric.ofName? (configText? doc "metric")

/-- The alert that is stored under a key. -/
def ofDocument (key : String) (doc : Value) : Except Fault Alert :=
  match checkNames doc with
  | .error e => .error e
  | .ok () => match Alert.decode doc with
    | .ok a => .ok { a with id := key }
    | .error m => .error (.invalidAlert key m.message)

def get (id : String) : StoreM Alert := do
  match ← Documents.getDoc collectionName id with
  | none => throw (.notFound collectionName id)
  | some doc => StoreM.ofExcept (ofDocument id doc)

/-- The alerts among some documents; dangling ones are deleted. -/
def keepAlive (now : Instant) (grace : Int) : List (String × Value) → StoreM (List Alert)
  | [] => return []
  | (key, doc) :: rest => match ofDocument key doc with
    | .error _ => keepAlive now grace rest
    | .ok a => match a.isDangling now grace with
      | .error e => throw e
      | .ok true => do
          let _ ← Documents.deleteDoc collectionName key
          keepAlive now grace rest
      | .ok false => return a :: (← keepAlive now grace rest)

/-- All alerts in the order of their ids. -/
def list (now : Instant) (grace : Int) : StoreM (List Alert) := do
  keepAlive now grace (← Documents.query collectionName [])

/-- What becomes of the document of an alert that a digest has included. -/
def notifiedBody (id : String) (time : Instant) : Option Value → Except Fault Write
  | none => .error (.notFound collectionName id)
  | some doc => match Alert.decode doc with
    | .ok a => .ok (.put { a with lastAlerted := some time }.encode)
    | .error m => .error (.serialization m.message)

/-- Remembers when a digest included an alert. -/
def updateNotified (id : String) (time : Instant) : StoreM Unit := do
  let _ ← Documents.transaction collectionName id fun doc =>
    Guarded.ofExcept (notifiedBody id time doc)

def put (a : Alert) : StoreM Unit :=
  Documents.putDoc collectionName a.id a.encode

end AlertStore

end SpendAlerts
