import SpendAlerts.Notification
import SpendAlerts.Period
import SpendAlerts.Alert.Basic
import SpendAlerts.Query.Cell
import SpendAlerts.Query.Request

/-!
Evaluation of query results. Values and percentages are tested row by row, and forecasts
are added up over the rows of the period in effect and tested once. Daily alerts detect
at the date of the row, all others at the time of the evaluation. A row that does not
fit the layout of the request makes the whole evaluation fail.
-/

namespace SpendAlerts

namespace Evaluation

/-- A row of a result. -/
abbrev Row := List Cell

/-- A part of a date, read from the time column with the given name. -/
def datePart (column : String) (cell : Cell) : Except Fault Int :=
  match cell.int? with
  | none => .error (.invalidRow (column ++ " column is not an integer"))
  | some word =>
      let n := word.toInt
      let checked (valid : Bool) : Except Fault Int :=
        if valid then .ok n
        else .error (.invalidRow ("invalid " ++ column ++ " value " ++ Decimal.intText n))
      match column with
      | "year" => checked (1 ≤ n)
      | "month" => checked (1 ≤ n && n ≤ 12)
      | "day" => checked (1 ≤ n && n ≤ 31)
      | other => .error (.invalidRow ("unsupported date column " ++ other))

/-- Year, month and day; parts that have no column are one. -/
structure DateParts where
  year : Int
  month : Int
  day : Int

/-- Reads time columns from left to right; a later column of one name replaces an
earlier one. -/
def dateParts (parts : DateParts) : List String → Row → Except Fault DateParts
  | column :: columns, cell :: cells => do
      let n ← datePart column cell
      dateParts
        (match column with
          | "year" => { parts with year := n }
          | "month" => { parts with month := n }
          | _ => { parts with day := n })
        columns cells
  | _, _ => .ok parts

/-- The date that the time columns of a row give. -/
def rowDate (request : QueryRequest) (row : Row) (forecastRow : Bool) : Except Fault Instant :=
  let offset := request.timeOffset forecastRow
  let least := offset + request.timeColumns.length
  if row.length < least then
    .error (.invalidRow ("expected at least " ++ Decimal.natText least ++ " cells, got " ++
      Decimal.natText row.length))
  else do
    let p ← dateParts ⟨1, 1, 1⟩ request.timeColumns (row.drop offset)
    match Date.ofParts? p.year p.month.toNat p.day.toNat with
    | some d => .ok (.midnight d)
    | none => .error (.invalidRow (Decimal.intText p.year ++ "-" ++ Decimal.intText p.month ++
        "-" ++ Decimal.intText p.day ++ " is not a date"))

/-- The date of a row of a daily alert; rows of other alerts are not looked at. -/
def rowTime (i : Interval) (request : QueryRequest) (row : Row) :
    Except Fault (Option Instant) :=
  if i = .day then (rowDate request row false).map some else .ok none

/-- Hours before today's midnight up to which a daily percentage is evaluated; the slack
of five hours leaves the first requested day out and the second one in. -/
def baselineHours : Nat := 24 * (TimeWindow.percentageDays - 1) + 5

/-- The row serves only as the baseline of the day after it. -/
def isBaseline (row today : Instant) : Bool :=
  today.nanosSince row > baselineHours * 3600 * Instant.billion

def number (row : Row) (index : Nat) : Except Fault Float :=
  match row[index]?.bind Cell.float? with
  | some x => .ok x
  | none => .error (.invalidCell index "expected a numeric metric value")

def change (row : Row) (index : Nat) : Except Fault Float :=
  match row[index]? with
  | some (.comparison pct _) => match pct.float? with
    | some x => .ok x
    | none => .error (.invalidCell index "percentage change is not numeric")
  | _ => .error (.invalidCell index "expected a comparative value")

/-- The breakdown value and its label, for alerts that have a breakdown. -/
def breakdown? (a : Alert) (row : Option Row) : Except Fault (Option (String × String)) :=
  match a.config.breakdown?, row with
  | some dimension, some cells =>
      if a.config.condition = .forecast then .ok none
      else match cells with
        | [] => .error (.invalidCell 0 "missing breakdown value")
        | cell :: _ => do
            let value ← cell.breakdownAt 0
            let label ← Dimension.label? dimension
            .ok (some (value, label))
  | _, _ => .ok none

def detectionTime (i : Interval) (row : Option Instant) (now : Instant) : Instant :=
  match i, row with
  | .day, some t => t
  | _, _ => now

/-- The notification of a value, or none if it does not satisfy the condition. -/
def detect (a : Alert) (row : Option Row) (value : Float) (rowTime : Option Instant)
    (now : Instant) : Except Fault (Option Notification) :=
  if a.config.satisfiedBy value then do
    let expiry ← Period.expiry? a.config.interval now
    let detected := detectionTime a.config.interval rowTime now
    let breakdown ← breakdown? a row
    let period ← Period.name? a.config.interval detected
    .ok <| some
      { alertId := a.id
        alertName := ""
        sentence := ""
        customerId := a.customerId
        recipients := a.recipients
        value
        period
        breakdown := breakdown.map (·.1)
        breakdownLabel := breakdown.map (·.2)
        etag := a.etag
        detected
        sent := none
        expiry }
  else .ok none

def valueRow (a : Alert) (request : QueryRequest) (now : Instant) (row : Row) :
    Except Fault (Option Notification) := do
  let time ← rowTime a.config.interval request row
  let value ← number row request.metricIndex
  detect a (some row) value time now

/-- A change of costs counts as noise if the usage changed by no more than a threshold. -/
def isNoise (a : Alert) (request : QueryRequest) (noise : Float) (row : Row) (pct : Float) :
    Except Fault Bool :=
  if a.config.metric = .cost ∧ a.config.satisfiedBy pct then do
    let usage ← change row (request.comparativeIndex + 1)
    .ok (usage.abs <= noise)
  else .ok false

def percentageRow (a : Alert) (request : QueryRequest) (noise : Float) (now : Instant)
    (row : Row) : Except Fault (Option Notification) := do
  let time ← rowTime a.config.interval request row
  if time.any (isBaseline · now.startOfDay) then .ok none
  else
    let pct ← change row request.comparativeIndex
    if ← isNoise a request noise row pct then .ok none
    else detect a (some row) pct time now

/-- Evaluates rows in order and stops at the first that fails. -/
def eachRow (f : Row → Except Fault (Option Notification)) :
    List Row → Except Fault (List Notification)
  | [] => .ok []
  | row :: rows => do
      let n ← f row
      let ns ← eachRow f rows
      .ok (n.toList ++ ns)

/-- Adds the forecast in the last cell of a row to a total. -/
def addForecast (total : Float) (row : Row) : Except Fault Float :=
  match row.getLast? with
  | none | some .null => .ok total
  | some cell => match cell.float? with
    | some x => .ok (total + x)
    | none => .error (.invalidCell (row.length - 1) "forecast value is not numeric")

def forecastTotal (i : Interval) (request : QueryRequest) (now : Instant) (total : Float) :
    List Row → Except Fault Float
  | [] => .ok total
  | row :: rows => do
      let date ← rowDate request row true
      if ← Period.inForecastWindow? i date now then
        forecastTotal i request now (← addForecast total row) rows
      else forecastTotal i request now total rows

def forecast (a : Alert) (request : QueryRequest) (rows : List Row) (now : Instant) :
    Except Fault (Option Notification) :=
  if rows = [] then .error .noForecastRows
  else do
    let total ← forecastTotal a.config.interval request now 0.0 rows
    detect a none total none now

end Evaluation

open Evaluation in
/-- The notifications of an alert for a result, in the order of its rows. -/
def evaluate (noise : Float) (a : Alert) (request : QueryRequest) (result : QueryResult)
    (now : Instant) : Except Fault (List Notification) :=
  match a.config.condition with
  | .value => eachRow (valueRow a request now) result.rows
  | .percentage => eachRow (percentageRow a request noise now) result.rows
  | .forecast => (forecast a request result.forecastRows now).map Option.toList

end SpendAlerts
