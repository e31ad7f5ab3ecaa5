import SpendAlerts.Alert.Wording
import SpendAlerts.Notification
import SpendAlerts.Period

/-!
The section of a digest about one alert. Detections of daily alerts are put into a
bucket per day, and those of other alerts with a breakdown into one bucket. Inside a
bucket the values that exceed the condition most come first; buckets come in the order
of their earliest detection. Without breakdown and days there is a single value, that
of the last detection.
-/

namespace SpendAlerts

namespace Digest

/-- The value of one breakdown value. -/
structure Item where
  label : String
  value : String
  weight : Float
  deriving DecidableEq

structure Bucket where
  /-- The day, or nothing for alerts that are not daily. -/
  timestamp : String
  items : List Item
  value : Option String
  earliest : Instant
  deriving DecidableEq

structure Body where
  breakdownLabel : Option String
  sentence : String
  buckets : List Bucket
  isLast : Bool
  name : String
  topHits : Option String
  value : Option String
  deriving DecidableEq

/-- What has been collected of a body so far. -/
structure Draft where
  buckets : Table Bucket
  value : Option String

namespace Draft

def empty : Draft := ⟨∅, none⟩

def bucketName (interval : Interval) (n : Notification) : String :=
  if interval = .day then dayLabel n.detected else ""

def bucketFor (d : Draft) (name : String) (n : Notification) : Bucket :=
  match d.buckets.find? name with
  | some b => { b with earliest := b.earliest.earlier n.detected }
  | none => ⟨name, [], none, n.detected⟩

def itemFor (formatted : String) (n : Notification) : Item :=
  ⟨n.breakdown.getD "N/A", formatted, n.value⟩

/-- Adds a detection to an alert that has a breakdown or not. -/
def add (config : AlertConfig) (hasBreakdown : Bool) (d : Draft) (n : Notification) : Draft :=
  let formatted := config.valueText n.value
  if !hasBreakdown && config.interval ≠ .day then { d with value := some formatted }
  else
    let name := bucketName config.interval n
    let b := d.bucketFor name n
    let b := if hasBreakdown then { b with items := b.items ++ [itemFor formatted n] }
      else { b with value := some formatted }
    { d with buckets := d.buckets.insert name b }

end Draft

namespace Bucket

/-- The most striking values first; equal ones keep their order. -/
def sortItems (c : Comparison) (b : Bucket) : Bucket :=
  { b with items := b.items.mergeSort fun x y => match c with
      | .greater => Decimal.totalLE y.weight x.weight
      | .less => Decimal.totalLE x.weight y.weight }

end Bucket

/-- From this many items on a bucket is announced as a list of top hits. -/
def topHitsSize : Nat := 10

def topHitsText : Comparison → String
  | .greater => "(below are the top 10 hits)"
  | .less => "(below are the bottom 10 hits)"

def sortBuckets (bs : List Bucket) : List Bucket :=
  bs.mergeSort fun x y => x.earliest ≤ y.earliest

namespace Body

/-- The body of an alert for the detections that a digest has stamped. -/
def ofNotifications (a : Alert) (label : Option String) (sentence : String)
    (ns : List Notification) : Body :=
  let draft := ns.foldl (Draft.add a.config label.isSome) .empty
  let buckets := draft.buckets.values
  { breakdownLabel := label
    sentence
    buckets := sortBuckets (buckets.map (·.sortItems a.config.comparison))
    isLast := false
    name := a.name
    topHits :=
      if buckets.any (topHitsSize ≤ ·.items.length) then some (topHitsText a.config.comparison)
      else none
    value := draft.value }

def isEmpty (b : Body) : Bool := b.value.isNone && b.buckets.isEmpty

def encodeItem (i : Item) : Value :=
  .record [("label", .string i.label), ("value", .string i.value)]

def encodeBucket (b : Bucket) : Value :=
  .record [("items", .list (b.items.map encodeItem)), ("timestamp", .string b.timestamp),
    ("value", .orNull Value.string b.value)]

def encode (b : Body) : Value :=
  .record [("breakdownLabel", .orNull Value.string b.breakdownLabel),
    ("condition", .string b.sentence), ("lastAlertInEmail", .bool b.isLast),
    ("name", .string b.name), ("notificationsData", .list (b.buckets.map encodeBucket)),
    ("topHits", .orNull Value.string b.topHits), ("value", .orNull Value.string b.value)]

end Body

/-- The message that one recipient gets about the alerts of one customer. -/
structure Email where
  recipient : String
  customerId : String
  bodies : List Body
  deriving DecidableEq

namespace Email

def encode (e : Email) : Value :=
  .record [("customerId", .string e.customerId),
    ("notifications", .list (e.bodies.map Body.encode)), ("recipient", .string e.recipient)]

end Email

end Digest

end SpendAlerts
