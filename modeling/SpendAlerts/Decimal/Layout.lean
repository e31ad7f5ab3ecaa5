import SpendAlerts.Decimal.Shortest

/-!
Texts of doubles. Documents keep a point or an exponent in every double, so that a
reader can tell it from an integer; labels write the plain shortest decimal and never
an exponent.
-/

namespace SpendAlerts.Decimal

/-- The shortest decimal without an exponent: digits, and a point if there is a fraction. -/
def plainText (s : Scaled) : List Char :=
  let ds := digits s.digits
  if 0 ≤ s.exponent then ds ++ List.replicate s.exponent.toNat '0'
  else
    let places := (-s.exponent).toNat
    if ds.length ≤ places then
      ['0', '.'] ++ List.replicate (places - ds.length) '0' ++ ds
    else ds.take (ds.length - places) ++ '.' :: ds.drop (ds.length - places)

/-- One digit before the point and a signed exponent. -/
def scientificText (s : Scaled) : List Char :=
  let ds := digits s.digits
  let top := s.exponent + ds.length - 1
  let mantissa := match ds with
    | d :: rest@(_ :: _) => d :: '.' :: rest
    | short => short
  mantissa ++ 'e' :: (if 0 ≤ top then ['+'] else ['-']) ++ digits top.natAbs

def sign (x : Float) : List Char :=
  if isNegative x then ['-'] else []

/-- The text of a finite double in a document: plain from 1e-5 up to 1e16 exclusive. -/
def documentText (x : Float) : String :=
  let s := shortest .even (magnitude x)
  let top := s.exponent + (digits s.digits).length - 1
  let body :=
    if s.digits = 0 then ['0', '.', '0']
    else if -5 ≤ top ∧ top < 16 then
      if 0 ≤ s.exponent then plainText s ++ ['.', '0'] else plainText s
    else scientificText s
  String.ofList (sign x ++ body)

/-- The text of a double in a label. -/
def labelText (x : Float) : String :=
  if isNotANumber x then "NaN"
  else if !isFinite x then String.ofList (sign x ++ ['i', 'n', 'f'])
  else String.ofList (sign x ++ plainText (shortest .up (magnitude x)))

end SpendAlerts.Decimal
