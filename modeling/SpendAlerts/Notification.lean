import SpendAlerts.Calendar.Timestamp
import SpendAlerts.Document.Decode
import SpendAlerts.Text.Base64

/-!
Notifications: single detections of the condition of an alert. A detection is identified
by the alert, the period and the breakdown value, and it stays pending until a digest
has stamped it with the time of sending. The identity is also the key under which the
detection is stored, so its breakdown value is encoded without a slash.
-/

namespace SpendAlerts

structure Notification where
  alertId : String
  /-- The name that the alert had when it fired. -/
  alertName : String
  /-- The condition in words, as it was when the alert fired. -/
  sentence : String
  customerId : String
  recipients : List String
  value : Float
  period : String
  breakdown : Option String
  breakdownLabel : Option String
  etag : String
  detected : Instant
  sent : Option Instant
  expiry : Instant
  deriving DecidableEq

namespace Notification

def reading : Reading Notification :=
  Notification.mk <$> .field "alertId" Decode.text
    <*> .fieldOr "alertName" Decode.text (some "")
    <*> .fieldOr "conditionString" Decode.text (some "")
    <*> .field "customerId" Decode.text
    <*> .fieldOr "recipients" (Decode.list Decode.text) (some [])
    <*> .field "value" Decode.float
    <*> .field "period" Decode.text
    <*> .optional "breakdown" Decode.text
    <*> .optional "breakdownLabel" Decode.text
    <*> .field "etag" Decode.text
    <*> .field "timeDetected" Decode.instant
    <*> .optional "timeSent" Decode.instant
    <*> .field "expireBy" Decode.instant

def decode : Decoder Notification := reading.decode "Notification"

/-- The fields of the document of a notification. -/
def fields (n : Notification) : List (String × Value) :=
  [("alertId", .string n.alertId), ("alertName", .string n.alertName)] ++
    Value.present "breakdown" Value.string n.breakdown ++
    Value.present "breakdownLabel" Value.string n.breakdownLabel ++
    [("conditionString", .string n.sentence), ("customerId", .string n.customerId),
      ("etag", .string n.etag), ("expireBy", .string n.expiry.text),
      ("period", .string n.period), ("recipients", .strings n.recipients),
      ("timeDetected", .string n.detected.text),
      ("timeSent", .orNull (fun t => .string t.text) n.sent), ("value", .ofFloat n.value)]

def encode (n : Notification) : Value := .record n.fields

/-- The same fields as the encoding, in the order in which they are declared. -/
def display (n : Notification) : Value :=
  .record (reading.checks.filterMap fun c => (n.encode.field? c.name).map (c.name, ·))

/-- What tells detections apart: the alert, the period and the breakdown value. -/
def key (n : Notification) : String :=
  n.alertId ++ "_" ++ n.period ++ match n.breakdown with
    | some b => "_" ++ Text.Base64.encodeString .urlSafe b
    | none => ""

def isSent (n : Notification) : Bool := n.sent.isSome

end Notification

end SpendAlerts
