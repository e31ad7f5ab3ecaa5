import SpendAlerts.Decimal.Binary64
import SpendAlerts.Decimal.Digits

/-!
Shortest decimals of doubles. Around a double lies the interval of reals that round
to it; with one digit, two digits and so on up to seventeen, the two decimals of that
length next to the double are tried, and the first length that has one inside the
interval wins. Of two candidates the nearer one is taken, and how an exact tie goes is
the caller's choice.
-/

namespace SpendAlerts.Decimal

/-- A decimal `digits * 10 ^ exponent`. -/
structure Scaled where
  digits : Nat
  exponent : Int
  deriving DecidableEq

/-- How an exact tie between two neighbouring decimals is decided. -/
inductive Tie where
  | even
  | up
  deriving DecidableEq

namespace Shortest

/-- Compares `a * 2 ^ p` with `b * 10 ^ q`, all in natural numbers. -/
def below (a : Nat) (p : Int) (b : Nat) (q : Int) : Ordering :=
  compare (a * Nat.pow 2 p.toNat * Nat.pow 10 (-q).toNat)
    (b * Nat.pow 10 q.toNat * Nat.pow 2 (-p).toNat)

/-- The reals that round to a double, in quarters of its last place. -/
structure Interval where
  low : Nat
  middle : Nat
  high : Nat
  exponent : Int
  closed : Bool

/-- The lower half of the interval is half as wide at a power of two. -/
def interval (m : Magnitude) : Interval :=
  let narrow := m.significand = Nat.pow 2 52 ∧ m.exponent ≠ -1074
  { low := 4 * m.significand - if narrow then 1 else 2
    middle := 4 * m.significand
    high := 4 * m.significand + 2
    exponent := m.exponent - 2
    closed := m.significand % 2 = 0 }

def Interval.contains (i : Interval) (d : Nat) (q : Int) : Bool :=
  match below i.low i.exponent d q, below i.high i.exponent d q with
  | .lt, .gt => true
  | .eq, .gt | .lt, .eq => i.closed
  | _, _ => false

/-- The largest `d` with `d * 10 ^ q` at most the magnitude. -/
def floorAt (m : Magnitude) (q : Int) : Nat :=
  m.significand * Nat.pow 2 m.exponent.toNat * Nat.pow 10 (-q).toNat /
    (Nat.pow 10 q.toNat * Nat.pow 2 (-m.exponent).toNat)

/-- Of the two neighbours on one grid, the one inside the interval and nearest. -/
def nearest? (tie : Tie) (m : Magnitude) (q : Int) : Option Scaled :=
  let i := interval m
  let d := floorAt m q
  let lower := 0 < d && i.contains d q
  let upper := i.contains (d + 1) q
  if lower && upper then
    match below (2 * i.middle) i.exponent (2 * d + 1) q, tie with
    | .lt, _ => some ⟨d, q⟩
    | .gt, _ => some ⟨d + 1, q⟩
    | .eq, .up => some ⟨d + 1, q⟩
    | .eq, .even => some ⟨if d % 2 = 0 then d else d + 1, q⟩
  else if lower then some ⟨d, q⟩
  else if upper then some ⟨d + 1, q⟩
  else none

/-- The exponent of the leading decimal digit of a positive magnitude. -/
def leading (m : Magnitude) : Int :=
  if m.denominator ≤ m.numerator then
    ((digits (m.numerator / m.denominator)).length : Int) - 1
  else
    -((digits ((m.denominator - 1) / m.numerator)).length : Int)

def search (tie : Tie) (m : Magnitude) (top : Int) : Nat → Nat → Scaled
  | _, 0 => ⟨floorAt m (top - 16), top - 16⟩
  | length, more + 1 =>
      match nearest? tie m (top - length) with
      | some s => s
      | none => search tie m top (length + 1) more

/-- Drops zeros at the end of the digits. -/
def strip (s : Scaled) : Scaled :=
  if s.digits ≠ 0 ∧ s.digits % 10 = 0 then strip ⟨s.digits / 10, s.exponent + 1⟩ else s
termination_by s.digits
decreasing_by omega

end Shortest

/-- The shortest decimal that rounds to the double with the given magnitude. -/
def shortest (tie : Tie) (m : Magnitude) : Scaled :=
  if m.significand = 0 then ⟨0, 0⟩
  else Shortest.strip (Shortest.search tie m (Shortest.leading m) 0 17)

end SpendAlerts.Decimal
