import SpendAlerts.Alert.Config
import SpendAlerts.Calendar.Timestamp

/-!
Time windows of queries. Daily alerts look at single days back from today, the others at
calendar units that include the current one; percentages need the unit before as well,
and forecasts need the months that they are extrapolated from.
-/

namespace SpendAlerts

inductive TimeUnit where
  | day
  | week
  | month
  | quarter
  | year
  deriving DecidableEq, Repr

namespace TimeUnit

def name : TimeUnit → String
  | day => "day"
  | week => "week"
  | month => "month"
  | quarter => "quarter"
  | year => "year"

def choices : List (String × TimeUnit) :=
  [day, week, month, quarter, year].map fun u => (u.name, u)

end TimeUnit

inductive TimeWindow where
  | last (unit : TimeUnit) (amount : Nat) (includeCurrent : Bool)
  | current (unit : TimeUnit)
  | custom (start stop : Instant)
  deriving DecidableEq

namespace TimeWindow

/-- Days before today that a daily value alert looks at. -/
def valueDays : Nat := 4

/-- Days before today that a daily percentage alert looks at; the first is a baseline. -/
def percentageDays : Nat := 5

def unit : Decoder TimeUnit
  | .record [(s, .record [])] => Decode.choice TimeUnit.choices (.string s)
  | v => Decode.choice TimeUnit.choices v

def variants : List (Reading.Variant TimeWindow) :=
  [⟨"last", "Last", last <$> .field "unit" unit
      <*> .field "amount" (Decode.natBelow UInt32.size "u32")
      <*> .field "includeCurrent" Decode.bool⟩,
    ⟨"current", "Current", current <$> .field "unit" unit⟩,
    ⟨"custom", "Custom", custom <$> .field "from" Decode.instant
      <*> .field "to" Decode.instant⟩]

def decode : Decoder TimeWindow := Reading.decodeTagged "TimeSettings" "mode" variants

def encode : TimeWindow → Value
  | last unit amount includeCurrent =>
      .record [("amount", .int amount), ("includeCurrent", .bool includeCurrent),
        ("mode", .string "last"), ("unit", .string unit.name)]
  | current unit => .record [("mode", .string "current"), ("unit", .string unit.name)]
  | custom start stop =>
      .record [("from", .string start.text), ("mode", .string "custom"), ("to", .string stop.text)]

/-- The window from some days ago up to today. -/
def daysBack (days : Nat) (today : Instant) : Except Fault TimeWindow :=
  match today.minusDays? days with
  | some start => .ok (custom start today)
  | none => .error .dateOutOfRange

/-- The window that an alert needs to be evaluated today. -/
def forConfig (c : AlertConfig) (today : Instant) : Except Fault TimeWindow :=
  match c.condition, c.interval with
  | _, .hour => .error c.interval.unsupported
  | .value, .day => daysBack valueDays today
  | .value, .week => .ok (last .day 7 true)
  | .value, .month => .ok (current .month)
  | .value, .quarter => .ok (current .quarter)
  | .value, .year => .ok (current .year)
  | .percentage, .day => daysBack percentageDays today
  | .percentage, .week => .ok (last .week 2 true)
  | .percentage, .month => .ok (last .month 2 true)
  | .percentage, .quarter => .ok (last .quarter 2 true)
  | .percentage, .year => match today.plusMonths? (-12) with
    | some start => .ok (custom start today)
    | none => .error c.interval.unsupported
  | .forecast, .year => .ok (last .month 12 true)
  | .forecast, _ => .ok (last .month 3 true)

end TimeWindow

end SpendAlerts
