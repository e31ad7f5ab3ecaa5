/-!
Dates of the proleptic Gregorian calendar between the years -262143 and 262142. A date
is a year, a month and a day that exists in that month; its day number counts from
the first of January of the year 1, a Monday, and orders dates. Moving by months keeps
the day where it exists and otherwise takes the last day of the month.
-/

namespace SpendAlerts

def isLeapYear (y : Int) : Bool :=
  y % 4 = 0 && (y % 100 ≠ 0 || y % 400 = 0)

def daysInMonth (y : Int) (m : Nat) : Nat :=
  match m with
  | 2 => if isLeapYear y then 29 else 28
  | 4 | 6 | 9 | 11 => 30
  | _ => 31

namespace Date

def minYear : Int := -262143

def maxYear : Int := 262142

def Valid (y : Int) (m d : Nat) : Prop :=
  minYear ≤ y ∧ y ≤ maxYear ∧ 1 ≤ m ∧ m ≤ 12 ∧ 1 ≤ d ∧ d ≤ daysInMonth y m

instance (y : Int) (m d : Nat) : Decidable (Valid y m d) := by
  unfold Valid
  infer_instance

end Date

structure Date where
  year : Int
  month : Nat
  day : Nat
  valid : Date.Valid year month day
  deriving DecidableEq

namespace Date

def ofParts? (y : Int) (m d : Nat) : Option Date :=
  if h : Valid y m d then some ⟨y, m, d, h⟩ else none

/-- Days from the first of January of the year 1 to that of the given year. -/
def yearStart (y : Int) : Int :=
  365 * (y - 1) + (y - 1) / 4 - (y - 1) / 100 + (y - 1) / 400

/-- Days of a year before the given month. -/
def monthStart (y : Int) (m : Nat) : Nat :=
  (match m with
    | 2 => 31 | 3 => 59 | 4 => 90 | 5 => 120 | 6 => 151 | 7 => 181
    | 8 => 212 | 9 => 243 | 10 => 273 | 11 => 304 | 12 => 334 | _ => 0) +
    if 2 < m ∧ isLeapYear y then 1 else 0

def dayNumber (d : Date) : Int :=
  yearStart d.year + monthStart d.year d.month + (d.day - 1)

/-- The year that a day number falls into. -/
def yearOf (n : Int) : Int :=
  let y := n * 400 / 146097 + 1
  if n < yearStart y then y - 1
  else if yearStart (y + 1) ≤ n then y + 1
  else y

/-- The month that holds the given day of the year, counted from zero. -/
def monthOf (y : Int) (dayOfYear : Nat) : Nat :=
  ([12, 11, 10, 9, 8, 7, 6, 5, 4, 3, 2].find? fun m => monthStart y m ≤ dayOfYear).getD 1

def ofDayNumber? (n : Int) : Option Date :=
  let y := yearOf n
  let dayOfYear := (n - yearStart y).toNat
  let m := monthOf y dayOfYear
  ofParts? y m (dayOfYear - monthStart y m + 1)

def plusDays? (d : Date) (k : Int) : Option Date :=
  ofDayNumber? (d.dayNumber + k)

/-- Moves by whole months, to the last day of the month where the day does not exist. -/
def plusMonths? (d : Date) (k : Int) : Option Date :=
  let months := d.year * 12 + (d.month - 1) + k
  let y := months / 12
  let m := (months % 12).toNat + 1
  ofParts? y m (min d.day (daysInMonth y m))

def quarter (d : Date) : Nat := (d.month - 1) / 3 + 1

/-- The Thursday of the week, which runs from Monday to Sunday and counts for the year
that holds its Thursday. -/
def thursday (d : Date) : Int :=
  d.dayNumber - d.dayNumber % 7 + 3

def weekYear (d : Date) : Int := yearOf d.thursday

def week (d : Date) : Nat :=
  ((d.thursday - yearStart d.weekYear) / 7).toNat + 1

end Date

end SpendAlerts
