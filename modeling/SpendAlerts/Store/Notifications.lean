import SpendAlerts.Notification
import SpendAlerts.Store.Documents

/-!
The store of notifications. A detection is written under its key unless the document
there carries the same etag and has been sent; anything else there is superseded.
Pending are the notifications without a time of sending. A stored document that does
not decode makes every query that meets it fail.
-/

namespace SpendAlerts

/-- The breakdown values that are recorded for an alert, an etag and a period. -/
structure DetectedBreakdowns where
  values : List String
  unsent : Nat
  deriving DecidableEq

namespace NotificationStore

def collectionName : String := "notifications"

def decode (doc : Value) : Except Fault Notification :=
  match Notification.decode doc with
  | .ok n => .ok n
  | .error m => .error (.serialization m.message)

/-- What becomes of the document under the key of a detection. -/
def recordBody (n : Notification) (etag : String) : Option Value → Except Fault Write
  | none => .ok (.put n.encode)
  | some doc => match decode doc with
    | .ok old => if old.etag = etag ∧ old.isSent then .ok .keep else .ok (.put n.encode)
    | .error e => .error e

/-- Records a detection and tells whether it was written. -/
def addDetected (n : Notification) (etag : String) : StoreM Bool :=
  Documents.transaction collectionName n.key fun doc => Guarded.ofExcept (recordBody n etag doc)

def decodeAll : List (String × Value) → Except Fault (List Notification)
  | [] => .ok []
  | (_, doc) :: rest => do
      let n ← decode doc
      let ns ← decodeAll rest
      .ok (n :: ns)

def select (filters : List FieldFilter) : StoreM (List Notification) := do
  let docs ← Documents.query collectionName filters
  StoreM.ofExcept (decodeAll docs)

def breakdownsOf (ns : List Notification) : DetectedBreakdowns :=
  ⟨ns.filterMap (·.breakdown), (ns.filter fun n => !n.isSent).length⟩

/-- The breakdown values recorded for an etag, an alert and a period. -/
def detectedBreakdowns (etag alertId period : String) : StoreM DetectedBreakdowns := do
  return breakdownsOf (← select [.textEquals "etag" etag, .textEquals "alertId" alertId,
    .textEquals "period" period])

def byAlert (ns : List Notification) : Table (List Notification) :=
  ns.foldl (fun t n => t.push n.alertId n) ∅

/-- The pending notifications of a customer by alert. -/
def pendingFor (customerId : String) : StoreM (Table (List Notification)) := do
  return byAlert (← select [.textEquals "customerId" customerId, .isNull "timeSent"])

/-- The customers with pending notifications, in order and each once. -/
def customersWithPending : StoreM (List String) := do
  let ns ← select [.isNull "timeSent"]
  return (Table.ofList (ns.map fun n => (n.customerId, ()))).keys

/-- What becomes of the document of a notification that is sent. -/
def sentBody (key : String) (time : Instant) : Option Value → Except Fault Write
  | none => .error (.notFound collectionName key)
  | some doc => match decode doc with
    | .ok n => .ok (.put { n with sent := some time }.encode)
    | .error e => .error e

/-- Stamps the notification under a key with the time of sending. -/
def markSent (key : String) (time : Instant) : StoreM Unit := do
  let _ ← Documents.transaction collectionName key fun doc =>
    Guarded.ofExcept (sentBody key time doc)

end NotificationStore

end SpendAlerts
