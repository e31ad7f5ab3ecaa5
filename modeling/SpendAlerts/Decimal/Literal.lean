import SpendAlerts.Decimal.Binary64
import SpendAlerts.Decimal.Digits

/-!
Number literals of documents and the numbers they stand for. A literal without point
and exponent is an integer as long as it fits into a word of 64 bits, signed or not.
Any other literal is a double: its digits are collected into a word as far as they
fit, the word is rounded to a double, and that is scaled by a power of ten, so there
are two roundings. A literal whose double is infinite stands for no number.
-/

namespace SpendAlerts.Decimal

/-- A literal in parts; the whole digits have no leading zero unless they are one zero. -/
structure Literal where
  negative : Bool
  whole : List Char
  fraction : Option (List Char)
  exponent : Option (Bool × List Char)
  deriving DecidableEq

inductive Number where
  | int (n : Int)
  | float (x : Float)
  deriving DecidableEq

namespace Literal

def wordLimit : Nat := UInt64.size

/-- Appends digits to a word as long as they fit; also tells how many were appended. -/
def collect (word : Nat) : List Char → Nat × Nat
  | [] => (word, 0)
  | c :: cs =>
      let next := 10 * word + (c.toNat - 48)
      if next < wordLimit then
        let (w, n) := collect next cs
        (w, n + 1)
      else (word, 0)

/-- Scales by a power of ten; powers below 1e-308 are applied in steps. -/
def scale (x : Float) (exponent : Int) : Option Float :=
  if exponent.natAbs ≤ 308 then
    let power := Float.ofScientific 1 false exponent.natAbs
    if 0 ≤ exponent then
      let y := x * power
      if isFinite y then some y else none
    else some (x / power)
  else if x == 0.0 then some x
  else if 0 ≤ exponent then none
  else scale (x / 1e308) (exponent + 308)
termination_by exponent.natAbs
decreasing_by omega

/-- The exponent that is written, or nothing if it has more than ten digits or so. -/
def writtenExponent? : Option (Bool × List Char) → Option Int
  | none => some 0
  | some (negative, ds) =>
      let n := valueOf ds
      if n ≤ Int32.maxValue.toInt then some (if negative then -(n : Int) else n) else none

def double? (l : Literal) : Option Float :=
  let (head, taken) := collect 0 l.whole
  let dropped := l.whole.length - taken
  let (word, places) := match l.fraction with
    | none => (head, 0)
    | some ds => collect head ds
  let magnitude? : Option Float := match l.exponent, writtenExponent? l.exponent with
    | some (negative, _), none => if word = 0 ∨ negative then some 0.0 else none
    | _, written =>
        let e := max Int32.minValue.toInt
          (min Int32.maxValue.toInt ((dropped : Int) - places + written.getD 0))
        scale (UInt64.ofNat word).toFloat e
  magnitude?.map fun x => if l.negative then -x else x

def number? (l : Literal) : Option Number :=
  let n := valueOf l.whole
  if l.fraction = none ∧ l.exponent = none then
    if l.negative then
      if 0 < n ∧ Int64.minValue.toInt ≤ -(n : Int) then some (.int (-n)) else (double? l).map .float
    else if n < wordLimit then some (.int n)
    else (double? l).map .float
  else (double? l).map .float

end Literal

end SpendAlerts.Decimal
