import SpendAlerts.Calendar.Date

/-!
Instants in coordinated universal time, to the nanosecond. A leap second is the second
before a full minute with a nanosecond count from a thousand million on; it comes
after every other instant of that second. Differences and shifts count a leap second
only where an instant inside one is left or reached.
-/

namespace SpendAlerts

namespace Instant

def billion : Nat := 1000000000

def Valid (second nano : Nat) : Prop :=
  second < 86400 ∧ nano < 2 * billion ∧ (billion ≤ nano → second % 60 = 59)

instance (second nano : Nat) : Decidable (Valid second nano) := by
  unfold Valid
  infer_instance

end Instant

structure Instant where
  date : Date
  second : Nat
  nano : Nat
  valid : Instant.Valid second nano
  deriving DecidableEq

namespace Instant

def midnight (d : Date) : Instant :=
  ⟨d, 0, 0, by decide⟩

def ofParts? (date : Date) (second nano : Nat) : Option Instant :=
  if h : Valid second nano then some ⟨date, second, nano, h⟩ else none

def startOfDay (t : Instant) : Instant := midnight t.date

/-- A count that orders instants: seconds since the year 1 and nanoseconds in them. -/
def ticks (t : Instant) : Int :=
  (t.date.dayNumber * 86400 + t.second) * (2 * billion) + t.nano

instance : LT Instant := ⟨fun a b => a.ticks < b.ticks⟩
instance : LE Instant := ⟨fun a b => a.ticks ≤ b.ticks⟩
instance (a b : Instant) : Decidable (a < b) := inferInstanceAs (Decidable (a.ticks < b.ticks))
instance (a b : Instant) : Decidable (a ≤ b) := inferInstanceAs (Decidable (a.ticks ≤ b.ticks))

def earlier (a b : Instant) : Instant :=
  if b < a then b else a

/-- Seconds since the first of January 1970; a leap second counts as the one before it. -/
def epochSeconds (t : Instant) : Int :=
  (t.date.dayNumber - 719162) * 86400 + t.second

/-- Nanoseconds from `b` to `a`. -/
def nanosSince (a b : Instant) : Int :=
  let adjust : Int :=
    if b.second < a.second ∧ billion ≤ b.nano then 1
    else if a.second < b.second ∧ billion ≤ a.nano then -1
    else 0
  ((a.date.dayNumber - b.date.dayNumber) * 86400 + (a.second - b.second) + adjust) * billion +
    (a.nano - b.nano)

/-- Moves by whole seconds. A leap second is left backwards from the second after it and
forwards from the second before it. -/
def plusSeconds? (t : Instant) (s : Int) : Option Instant :=
  if s = 0 then some t
  else
    let leap := billion ≤ t.nano
    let total := t.date.dayNumber * 86400 + t.second + (if leap ∧ s < 0 then 1 else 0) + s
    (Date.ofDayNumber? (total / 86400)).bind fun date =>
      ofParts? date (total % 86400).toNat (if leap then t.nano - billion else t.nano)

def minusDays? (t : Instant) (days : Nat) : Option Instant :=
  t.plusSeconds? (-(days * 86400 : Nat))

/-- Moves the date by months and keeps the time of day. -/
def plusMonths? (t : Instant) (k : Int) : Option Instant :=
  (t.date.plusMonths? k).map fun date => { t with date }

end Instant

end SpendAlerts
