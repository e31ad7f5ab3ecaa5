import SpendAlerts.Query.Window

/-!
Query requests and the layout of the rows that answer them. A row holds one cell per
breakdown dimension, one per time column, one per metric, and one comparison per metric
if comparisons are asked for. A row of a forecast has one more cell before its time
columns and the forecast in its last cell.
-/

namespace SpendAlerts

/-- Keeps values outside a range. -/
structure MetricFilter where
  values : List Float
  metric : Metric
  deriving DecidableEq

structure QueryRequest where
  alertId : String
  customerId : String
  organization : Option String
  metric : Metric
  metrics : List Metric
  extendedMetric : Option String
  calculatedMetric : Option CalculatedMetric
  currency : String
  dataSource : String
  breakdowns : List String
  timeColumns : List String
  granularity : Interval
  filters : List DimensionFilter
  metricFilters : List MetricFilter
  window : TimeWindow
  /-- Percentage changes are asked for beside the values. -/
  comparative : Bool
  forecast : Bool
  deriving DecidableEq

namespace MetricFilter

def decode : Decoder MetricFilter :=
  Reading.decode "MetricFilter" <|
    (fun _ values metric => MetricFilter.mk values metric) <$>
      .field "operator" (Decode.choice [("not_between", ())])
      <*> .field "values" (Decode.list Decode.float)
      <*> .field "metric" (Decode.named Metric.ofName?)

def encode (f : MetricFilter) : Value :=
  .record [("metric", .string f.metric.name), ("operator", .string "not_between"),
    ("values", .list (f.values.map Value.ofFloat))]

end MetricFilter

namespace QueryRequest

def reading : Reading QueryRequest :=
  QueryRequest.mk <$> .field "alertId" Decode.text
    <*> .field "customerId" Decode.text
    <*> .optional "organization" Decode.text
    <*> .field "metric" (Decode.named Metric.ofName?)
    <*> .field "metrics" (Decode.list (Decode.named Metric.ofName?))
    <*> .optional "extendedMetric" Decode.text
    <*> .optional "calculatedMetric" CalculatedMetric.decode
    <*> .field "currency" Decode.text
    <*> .field "dataSource" Decode.text
    <*> .field "rows" (Decode.list Decode.text)
    <*> .field "cols" (Decode.list Decode.text)
    <*> .field "granularity" (Decode.named Interval.ofName?)
    <*> .field "filters" (Decode.list DimensionFilter.decode)
    <*> .fieldOr "metricFilters" (Decode.list MetricFilter.decode) (some [])
    <*> .field "timeSettings" TimeWindow.decode
    <*> (Option.isSome <$> .optional "comparative" (Decode.choice [("percentage", ())]))
    <*> .fieldOr "forecast" Decode.bool (some false)

def decode : Decoder QueryRequest := reading.decode "QueryRequest"

def encode (r : QueryRequest) : Value :=
  .record ([("alertId", .string r.alertId)] ++
    Value.present "calculatedMetric" CalculatedMetric.encode r.calculatedMetric ++
    [("cols", .strings r.timeColumns)] ++
    (if r.comparative then [("comparative", .string "percentage")] else []) ++
    [("currency", .string r.currency), ("customerId", .string r.customerId),
      ("dataSource", .string r.dataSource)] ++
    Value.present "extendedMetric" Value.string r.extendedMetric ++
    [("filters", .list (r.filters.map DimensionFilter.encode)), ("forecast", .bool r.forecast),
      ("granularity", .string r.granularity.name), ("metric", .string r.metric.name),
      ("metricFilters", .list (r.metricFilters.map MetricFilter.encode)),
      ("metrics", .strings (r.metrics.map Metric.name))] ++
    Value.present "organization" Value.string r.organization ++
    [("rows", .strings r.breakdowns), ("timeSettings", r.window.encode)])

/-- The time columns of rows by interval. -/
def timeColumnsFor (i : Interval) : Except Fault (List String) :=
  match i with
  | .day => .ok ["year", "month", "day"]
  | .week => .ok ["year", "week"]
  | .month => .ok ["year", "month"]
  | .quarter => .ok ["year", "quarter"]
  | .year => .ok ["year"]
  | .hour => .error i.unsupported

/-- Where the value of the alert's metric stands in a row. -/
def metricIndex (r : QueryRequest) : Nat :=
  r.breakdowns.length + r.timeColumns.length

/-- Where the comparison of the alert's metric stands in a row. -/
def comparativeIndex (r : QueryRequest) : Nat :=
  r.metricIndex + r.metrics.length

/-- Where the first time column stands in a row. -/
def timeOffset (r : QueryRequest) (forecastRow : Bool) : Nat :=
  r.breakdowns.length + if forecastRow then 1 else 0

end QueryRequest

end SpendAlerts
