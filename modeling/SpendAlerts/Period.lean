import SpendAlerts.Calendar.Timestamp
import SpendAlerts.Terms

/-!
Reporting periods. A period is named by text: the day, the week of the year that holds
its Thursday, the month, the quarter or the year of an instant. The name is part of the
identity of a detection, so an alert reports each value once per period. Beside the
names stand the retention of detections and the window in which forecasts are added up.
-/

namespace SpendAlerts

namespace Period

/-- The name of the period that an instant falls into. -/
def name? (i : Interval) (t : Instant) : Except Fault String :=
  match i with
  | .day => .ok (String.ofList t.date.text)
  | .week =>
      .ok (String.ofList
        (Decimal.signed t.date.weekYear ++ '-' :: 'W' :: Decimal.padded 2 t.date.week))
  | .month =>
      .ok (String.ofList (Date.yearText t.date.year ++ '-' :: Decimal.padded 2 t.date.month))
  | .quarter =>
      .ok (String.ofList
        (Decimal.signed t.date.year ++ '-' :: 'Q' :: Decimal.digits t.date.quarter))
  | .year => .ok (String.ofList (Date.yearText t.date.year))
  | .hour => .error i.unsupported

/-- For how many months a detection is kept. -/
def retention? : Interval → Option Nat
  | .hour => none
  | .day => some 2
  | .week => some 3
  | .month => some 6
  | .quarter => some 12
  | .year => some 36

/-- The midnight at which a detection made now may be deleted. -/
def expiry? (i : Interval) (now : Instant) : Except Fault Instant :=
  match (retention? i).bind fun months => now.startOfDay.plusMonths? months with
  | some t => .ok t
  | none => .error i.unsupported

/-- A forecast for one date counts towards the period in effect. Forecasts come by day
for whole months, so daily and weekly alerts take the month. -/
def inForecastWindow? (i : Interval) (row today : Instant) : Except Fault Bool :=
  let sameYear : Bool := row.date.year = today.date.year
  match i with
  | .year => .ok sameYear
  | .quarter => .ok (sameYear && row.date.quarter = today.date.quarter)
  | .month | .week | .day => .ok (sameYear && row.date.month = today.date.month)
  | .hour => .error i.unsupported

end Period

def ordinalSuffix (day : Nat) : String :=
  if 11 ≤ day % 100 ∧ day % 100 ≤ 13 then "th"
  else match day % 10 with
    | 1 => "st"
    | 2 => "nd"
    | 3 => "rd"
    | _ => "th"

def monthName : Nat → String
  | 1 => "Jan"
  | 2 => "Feb"
  | 3 => "Mar"
  | 4 => "Apr"
  | 5 => "May"
  | 6 => "Jun"
  | 7 => "Jul"
  | 8 => "Aug"
  | 9 => "Sep"
  | 10 => "Oct"
  | 11 => "Nov"
  | _ => "Dec"

/-- A day as readers of a digest see it, such as `Jan 2nd 2006`. -/
def dayLabel (t : Instant) : String :=
  monthName t.date.month ++ " " ++ Decimal.natText t.date.day ++ ordinalSuffix t.date.day ++ " " ++
    Decimal.intText t.date.year

end SpendAlerts
