import SpendAlerts.Alert.Config
import SpendAlerts.Calendar.Timestamp

/-!
Alerts: definitions that customers own and that are stored as documents. The etag names
the version of the configuration, and detections remember the etag they were made under.
An alert that is still being set up is not valid, and is garbage once nobody has
touched it for the grace period.
-/

namespace SpendAlerts

structure Alert where
  id : String
  name : String
  customerId : String
  config : AlertConfig
  recipients : List String
  etag : String
  organization : Option String
  created : Instant
  modified : Instant
  lastAlerted : Option Instant
  isValid : Bool
  deriving DecidableEq

namespace Alert

def reading : Reading Alert :=
  Alert.mk <$> .fieldOr "id" Decode.text (some "")
    <*> .field "name" Decode.text
    <*> .field "customerId" Decode.text
    <*> .field "config" AlertConfig.decode
    <*> .field "recipients" (Decode.list Decode.text)
    <*> .field "etag" Decode.text
    <*> .optional "organization" Decode.text
    <*> .field "timeCreated" Decode.instant
    <*> .field "timeModified" Decode.instant
    <*> .optional "timeLastAlerted" Decode.instant
    <*> .fieldOr "isValid" Decode.bool (some true)

def decode : Decoder Alert := reading.decode "Alert"

/-- The fields of the document of an alert. -/
def fields (a : Alert) : List (String × Value) :=
  [("config", a.config.encode), ("customerId", .string a.customerId), ("etag", .string a.etag),
      ("id", .string a.id), ("isValid", .bool a.isValid), ("name", .string a.name)] ++
    Value.present "organization" Value.string a.organization ++
    [("recipients", .strings a.recipients), ("timeCreated", .string a.created.text),
      ("timeLastAlerted", .orNull (fun t => .string t.text) a.lastAlerted),
      ("timeModified", .string a.modified.text)]

def encode (a : Alert) : Value := .record a.fields

/-- Not valid and untouched for longer than the grace in seconds. -/
def isDangling (a : Alert) (now : Instant) (grace : Int) : Except Fault Bool :=
  if a.isValid then .ok false
  else match now.plusSeconds? (-grace) with
    | some limit => .ok (a.modified < limit)
    | none => .error .dateOutOfRange

def onlyNotifies (a : Alert) (recipient : String) : Bool :=
  a.recipients = [recipient]

/-- The breakdown dimension is one of those that cannot be broken down by. -/
def hasClusterBreakdown (a : Alert) : Bool :=
  match a.config.breakdown? with
  | none => false
  | some id =>
      match DimensionType.ofName? (String.ofList (id.toList.takeWhile (· ≠ ':'))) with
      | .ok .gke | .ok .gkeLabel => true
      | _ => false

/-- The first reason why the alert cannot be evaluated. -/
def problem? (a : Alert) : Option String :=
  if a.config.thresholds = [] then some "alert config values is empty"
  else if a.config.scope = [] ∧ a.config.filters = [] then
    some "alert config scope and filters are empty"
  else if a.hasClusterBreakdown then
    some "alert config rows contains gke dimension, which isn't supported"
  else if a.name = "" then some "alert name is empty"
  else if a.recipients = [] then some "alert recipients is empty"
  else if a.etag = "" then some "etag is empty"
  else if a.customerId = "" then some "customer is empty"
  else none

def validate (a : Alert) : Except Fault Unit :=
  match a.problem? with
  | some reason => .error (.invalidAlert a.id reason)
  | none => .ok ()

/-- A definition with whatever its author left open filled in. -/
def define (id name customerId : String) (config : AlertConfig) (recipients : List String)
    (etag : String) (isValid : Bool) (modified : Option Instant) (now : Instant) : Alert where
  id := id
  name := name
  customerId := customerId
  config := config
  recipients := recipients
  etag := etag
  organization := none
  created := now
  modified := modified.getD now
  lastAlerted := none
  isValid := isValid

end Alert

end SpendAlerts
