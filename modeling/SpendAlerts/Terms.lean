import SpendAlerts.Document.Decode
import SpendAlerts.Fault

/-!
The closed vocabularies of alerts: kind of condition, comparison, reporting interval,
metric and order of a limited result. Each has a stored name, and reading a name that
is not in the vocabulary fails with a cause of its own.
-/

namespace SpendAlerts

namespace Decode

/-- Decodes a text and reads it as a name of a vocabulary. -/
def named {α : Type} (read : String → Except Fault α) : Decoder α
  | .string s => match read s with
    | .ok x => .ok x
    | .error e => .error (.refused e.message)
  | v => .error (.wrongType v "a string")

end Decode

inductive Condition where
  | value
  /-- The change against the period before, in percent. -/
  | percentage
  /-- The total that is forecast for the current period. -/
  | forecast
  deriving DecidableEq, Repr

namespace Condition

def name : Condition → String
  | value => "value"
  | percentage => "percentage"
  | forecast => "forecast"

def ofName? : String → Except Fault Condition
  | "value" => .ok value
  | "percentage" => .ok percentage
  | "forecast" => .ok forecast
  | other => .error (.invalidCondition other)

def label : Condition → String
  | value => "value"
  | percentage => "percentage change"
  | forecast => "forecast"

end Condition

/-- The order of a result that is cut to its first rows. -/
inductive LimitOrder where
  | desc
  | asc
  deriving DecidableEq, Repr

namespace LimitOrder

def name : LimitOrder → String
  | desc => "desc"
  | asc => "asc"

def choices : List (String × LimitOrder) := [("desc", desc), ("asc", asc)]

end LimitOrder

inductive Comparison where
  | greater
  | less
  deriving DecidableEq, Repr

namespace Comparison

def holds (c : Comparison) (value threshold : Float) : Bool :=
  match c with
  | greater => value > threshold
  | less => value < threshold

def symbol : Comparison → String
  | greater => ">"
  | less => "<"

def ofSymbol? : String → Except Fault Comparison
  | ">" => .ok greater
  | "<" => .ok less
  | other => .error (.invalidOperator other)

def words : Comparison → String
  | greater => "greater than"
  | less => "less than"

/-- The order that puts the most striking values first. -/
def limitOrder : Comparison → LimitOrder
  | greater => .desc
  | less => .asc

end Comparison

/-- Hours occur on stored reports only; nothing that depends on an interval takes them. -/
inductive Interval where
  | hour
  | day
  | week
  | month
  | quarter
  | year
  deriving DecidableEq, Repr

namespace Interval

def name : Interval → String
  | hour => "hour"
  | day => "day"
  | week => "week"
  | month => "month"
  | quarter => "quarter"
  | year => "year"

def ofName? : String → Except Fault Interval
  | "hour" => .ok hour
  | "day" => .ok day
  | "week" => .ok week
  | "month" => .ok month
  | "quarter" => .ok quarter
  | "year" => .ok year
  | other => .error (.invalidInterval other)

def label : Interval → String
  | hour => "Hourly"
  | day => "Daily"
  | week => "Weekly"
  | month => "Monthly"
  | quarter => "Quarterly"
  | year => "Yearly"

def unsupported (i : Interval) : Fault := .unsupportedInterval i.name

end Interval

inductive Metric where
  | cost
  | usage
  | savings
  | margin
  /-- Calculated by a formula of the customer. -/
  | custom
  /-- Defined by a provider, under a key of its own. -/
  | extended
  deriving DecidableEq, Repr

namespace Metric

def name : Metric → String
  | cost => "cost"
  | usage => "usage"
  | savings => "savings"
  | margin => "margin"
  | custom => "custom"
  | extended => "extended"

def ofName? : String → Except Fault Metric
  | "cost" => .ok cost
  | "usage" => .ok usage
  | "savings" => .ok savings
  | "margin" => .ok margin
  | "custom" => .ok custom
  | "extended" => .ok extended
  | other => .error (.invalidMetric other)

end Metric

end SpendAlerts
