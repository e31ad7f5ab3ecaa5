import SpendAlerts.Dimension

/-!
What an alert monitors and when it fires: the kind of condition, the comparison with
the first threshold, the metric, the reporting interval, and the part of the bill that
is looked at. Only the first breakdown dimension counts, and a scope of attributions
takes the place of all other filters.
-/

namespace SpendAlerts

structure IgnoredRange where
  lower : Float
  upper : Float
  deriving DecidableEq

structure CalculatedMetric where
  id : String
  name : String
  deriving DecidableEq

structure AlertConfig where
  condition : Condition
  comparison : Comparison
  thresholds : List Float
  metric : Metric
  extendedMetric : Option String
  calculatedMetric : Option CalculatedMetric
  interval : Interval
  breakdowns : List String
  filters : List DimensionFilter
  scope : List String
  currency : String
  ignoredRange : Option IgnoredRange
  dataSource : String
  deriving DecidableEq

namespace IgnoredRange

def decode : Decoder IgnoredRange :=
  Reading.decode "IgnoreValuesRange" <|
    IgnoredRange.mk <$> .field "lowerBound" Decode.float <*> .field "upperBound" Decode.float

def encode (r : IgnoredRange) : Value :=
  .record [("lowerBound", .ofFloat r.lower), ("upperBound", .ofFloat r.upper)]

end IgnoredRange

namespace CalculatedMetric

def decode : Decoder CalculatedMetric :=
  Reading.decode "CalculatedMetricRef" <|
    CalculatedMetric.mk <$> .field "id" Decode.text <*> .field "name" Decode.text

def encode (m : CalculatedMetric) : Value :=
  .record [("id", .string m.id), ("name", .string m.name)]

end CalculatedMetric

namespace AlertConfig

def defaultDataSource : String := "billing"

def reading : Reading AlertConfig :=
  AlertConfig.mk <$> .field "condition" (Decode.named Condition.ofName?)
    <*> .field "operator" (Decode.named Comparison.ofSymbol?)
    <*> .field "values" (Decode.list Decode.float)
    <*> .field "metric" (Decode.named Metric.ofName?)
    <*> .optional "extendedMetric" Decode.text
    <*> .optional "calculatedMetric" CalculatedMetric.decode
    <*> .field "timeInterval" (Decode.named Interval.ofName?)
    <*> .fieldOr "rows" (Decode.list Decode.text) (some [])
    <*> .fieldOr "filters" (Decode.list DimensionFilter.decode) (some [])
    <*> .fieldOr "scope" (Decode.list Decode.text) (some [])
    <*> .field "currency" Decode.text
    <*> .optional "ignoreValuesRange" IgnoredRange.decode
    <*> .fieldOr "dataSource" Decode.text (some defaultDataSource)

def decode : Decoder AlertConfig := reading.decode "Config"

def encode (c : AlertConfig) : Value :=
  .record (Value.present "calculatedMetric" CalculatedMetric.encode c.calculatedMetric ++
    [("condition", .string c.condition.name), ("currency", .string c.currency),
      ("dataSource", .string c.dataSource)] ++
    Value.present "extendedMetric" Value.string c.extendedMetric ++
    [("filters", .list (c.filters.map DimensionFilter.encode))] ++
    Value.present "ignoreValuesRange" IgnoredRange.encode c.ignoredRange ++
    [("metric", .string c.metric.name), ("operator", .string c.comparison.symbol),
      ("rows", .strings c.breakdowns), ("scope", .strings c.scope),
      ("timeInterval", .string c.interval.name),
      ("values", .list (c.thresholds.map Value.ofFloat))])

/-- One threshold on a metric, over the whole bill in dollars. -/
def ofThreshold (condition : Condition) (comparison : Comparison) (threshold : Float)
    (metric : Metric) (interval : Interval) : AlertConfig where
  condition := condition
  comparison := comparison
  thresholds := [threshold]
  metric := metric
  extendedMetric := none
  calculatedMetric := none
  interval := interval
  breakdowns := []
  filters := []
  scope := []
  currency := "USD"
  ignoredRange := none
  dataSource := defaultDataSource

def withBreakdown (c : AlertConfig) (dimension : String) : AlertConfig :=
  { c with breakdowns := [dimension] }

def withFilter (c : AlertConfig) (f : DimensionFilter) : AlertConfig :=
  { c with filters := c.filters ++ [f] }

def withScope (c : AlertConfig) (scope : List String) : AlertConfig := { c with scope }

def withCurrency (c : AlertConfig) (currency : String) : AlertConfig := { c with currency }

def withIgnoredRange (c : AlertConfig) (lower upper : Float) : AlertConfig :=
  { c with ignoredRange := some ⟨lower, upper⟩ }

/-- The threshold that decides. -/
def threshold? (c : AlertConfig) : Option Float := c.thresholds.head?

/-- The dimension that results are broken down by. -/
def breakdown? (c : AlertConfig) : Option String := c.breakdowns.head?

/-- A value satisfies the condition; without a threshold none does. -/
def satisfiedBy (c : AlertConfig) (value : Float) : Bool :=
  match c.threshold? with
  | some threshold => c.comparison.holds value threshold
  | none => false

end AlertConfig

end SpendAlerts
