/-!
The exact value behind a finite double: a natural significand times a power of two,
and a sign. Everything that prints a double starts from this decomposition, so that
printing is integer arithmetic. Integers become doubles by one rounding. The order at
the end is the total order on doubles that sorts negative zero below zero and the
not-a-numbers at the two ends.
-/

namespace SpendAlerts.Decimal

/-- The magnitude `significand * 2 ^ exponent` of a finite double. -/
structure Magnitude where
  significand : Nat
  exponent : Int
  deriving DecidableEq

namespace Magnitude

/-- The magnitude as a fraction with a power of two below. -/
def numerator (m : Magnitude) : Nat := m.significand * Nat.pow 2 m.exponent.toNat

def denominator (m : Magnitude) : Nat := Nat.pow 2 (-m.exponent).toNat

end Magnitude

def isNegative (x : Float) : Bool :=
  Nat.pow 2 63 ≤ x.toBits.toNat

def exponentBits (x : Float) : Nat :=
  x.toBits.toNat / Nat.pow 2 52 % Nat.pow 2 11

def fractionBits (x : Float) : Nat :=
  x.toBits.toNat % Nat.pow 2 52

def isFinite (x : Float) : Bool :=
  exponentBits x < 2047

def isNotANumber (x : Float) : Bool :=
  exponentBits x = 2047 && fractionBits x ≠ 0

/-- The magnitude of a finite double; subnormal doubles have no hidden bit. -/
def magnitude (x : Float) : Magnitude :=
  if exponentBits x = 0 then ⟨fractionBits x, -1074⟩
  else ⟨Nat.pow 2 52 + fractionBits x, (exponentBits x : Int) - 1075⟩

/-- The double nearest to an integer, ties going to the even neighbour. -/
def ofInt (n : Int) : Float :=
  .ofModel (.ofInt n)

/-- The rank of a double in the total order. -/
def rank (x : Float) : Int :=
  if isNegative x then -((x.toBits.toNat - Nat.pow 2 63 : Nat) : Int) - 1 else x.toBits.toNat

def totalLE (a b : Float) : Bool :=
  rank a ≤ rank b

end SpendAlerts.Decimal
