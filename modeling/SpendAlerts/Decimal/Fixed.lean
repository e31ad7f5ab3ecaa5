import SpendAlerts.Decimal.Binary64
import SpendAlerts.Decimal.Digits

/-!
Doubles with a fixed number of decimals. The exact value is scaled to an integer and
rounded once, ties going to the even neighbour, so no intermediate double is rounded.
-/

namespace SpendAlerts.Decimal

/-- The quotient rounded to the nearest integer, ties to the even one. -/
def roundDiv (a b : Nat) : Nat :=
  let q := a / b
  let r := 2 * (a % b)
  if r < b then q else if b < r then q + 1 else if q % 2 = 0 then q else q + 1

/-- A magnitude in units of the last decimal place, rounded. -/
def units (places : Nat) (m : Magnitude) : Nat :=
  roundDiv (m.numerator * Nat.pow 10 places) m.denominator

/-- The integer part and the decimals of a magnitude, as digits. -/
def fixedParts (places : Nat) (m : Magnitude) : List Char × List Char :=
  let n := units places m
  let unit := Nat.pow 10 places
  (digits (n / unit), if places = 0 then [] else padded places (n % unit))

end SpendAlerts.Decimal
