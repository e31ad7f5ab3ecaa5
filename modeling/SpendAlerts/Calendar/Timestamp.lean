import SpendAlerts.Calendar.Instant
import SpendAlerts.Decimal.Digits
import SpendAlerts.Text.Blank

/-!
Written instants. They are printed in universal time as date, `T`, time and `Z`, with
no, three, six or nine decimals of the second, whichever is least. The reader is wider:
one or two digits for each part, a letter of either case or a blank between date and
time, blanks around the parts, any number of decimals, and an offset from universal
time or a `Z`. Years outside 0 to 9999 carry a sign.
-/

namespace SpendAlerts

namespace Date

/-- Four digits for the years 0 to 9999, else a sign and at least four. -/
def yearText (y : Int) : List Char :=
  if 0 ≤ y ∧ y ≤ 9999 then Decimal.padded 4 y.toNat
  else (if y < 0 then '-' else '+') :: Decimal.padded 4 y.natAbs

def text (d : Date) : List Char :=
  yearText d.year ++ '-' :: Decimal.padded 2 d.month ++ '-' :: Decimal.padded 2 d.day

end Date

namespace Instant

def fractionText (nano : Nat) : List Char :=
  if nano = 0 then []
  else if nano % 1000000 = 0 then '.' :: Decimal.padded 3 (nano / 1000000)
  else if nano % 1000 = 0 then '.' :: Decimal.padded 6 (nano / 1000)
  else '.' :: Decimal.padded 9 nano

/-- A leap second is printed as the second number sixty. -/
def text (t : Instant) : String :=
  let leap := billion ≤ t.nano
  let second := t.second % 60 + if leap then 1 else 0
  String.ofList <|
    t.date.text ++ 'T' :: Decimal.padded 2 (t.second / 3600) ++
      ':' :: Decimal.padded 2 (t.second / 60 % 60) ++ ':' :: Decimal.padded 2 second ++
      fractionText (if leap then t.nano - billion else t.nano) ++ ['Z']

namespace Reader

abbrev Rest := List Char

/-- At least one and at most `width` digits, after blanks. -/
def number? (width : Nat) (s : List Char) : Option (Nat × Rest) :=
  let s := Text.trimStart s
  let ds := (s.take width).takeWhile Decimal.isDigit
  if ds = [] then none else some (Decimal.valueOf ds, s.drop ds.length)

/-- A value in a range. -/
def ranged? (low high : Nat) (s : List Char) : Option (Nat × Rest) :=
  (number? 2 s).filter fun (n, _) => low ≤ n && n ≤ high

/-- All digits after a sign, or up to four without one. -/
def year? (s : List Char) : Option (Int × Rest) :=
  match Text.trimStart s with
  | sign :: rest =>
      if sign = '-' ∨ sign = '+' then
        let ds := rest.takeWhile Decimal.isDigit
        if ds = [] then none
        else
          let n : Int := Decimal.valueOf ds
          some (if sign = '-' then -n else n, rest.drop ds.length)
      else (number? 4 s).map fun (n, rest) => (n, rest)
  | [] => none

def expect? (mark : Char) (s : List Char) : Option Rest :=
  match Text.trimStart s with
  | c :: rest => if c = mark then some rest else none
  | [] => none

/-- Nanoseconds from the digits after a point; digits after the ninth do not count. -/
def fraction? : List Char → Option (Nat × Rest)
  | '.' :: rest =>
      let ds := rest.takeWhile Decimal.isDigit
      if ds = [] then none
      else
        let kept := ds.take 9
        some (Decimal.valueOf kept * Nat.pow 10 (9 - kept.length), rest.drop ds.length)
  | s => some (0, s)

/-- The characters between the hours and the minutes of an offset. -/
def skipSeparators (s : List Char) : Rest :=
  s.dropWhile fun c => c = ':' || Text.isBlank c

def twoDigits? : List Char → Option (Nat × Rest)
  | a :: b :: rest => do
      some (10 * (← Decimal.digitValue? a) + (← Decimal.digitValue? b), rest)
  | _ => none

/-- Seconds ahead of universal time. -/
def offset? (s : List Char) : Option (Int × Rest) :=
  if (s.take 3).map Text.asciiLower = ['u', 't', 'c'] then some (0, s.drop 3)
  else match s with
    | [] => none
    | c :: rest =>
        if c = 'Z' ∨ c = 'z' then some (0, rest)
        else if c = '+' ∨ c = '-' ∨ c = '\u2212' then do
          let (hours, rest) ← twoDigits? rest
          let (minutes, rest) ← twoDigits? (skipSeparators rest)
          let seconds : Int := hours * 3600 + minutes * 60
          if minutes < 60 ∧ seconds < 86400 then
            some (if c = '+' then seconds else -seconds, rest)
          else none
        else none

/-- What stands in front of the offset: a date and a time of day that no calendar or
clock has checked yet. -/
structure Fields where
  year : Int
  month : Nat
  day : Nat
  hour : Nat
  minute : Nat
  second : Nat
  nano : Nat
  deriving DecidableEq

def date? (s : Rest) : Option ((Int × Nat × Nat) × Rest) := do
  let (year, s) ← year? s
  let s ← expect? '-' s
  let (month, s) ← ranged? 1 12 s
  let s ← expect? '-' s
  let (day, s) ← ranged? 1 31 s
  some ((year, month, day), s)

/-- The character between date and time. -/
def separator? : Rest → Option Rest
  | c :: rest => if c = 'T' ∨ c = 't' ∨ c = ' ' then some rest else none
  | [] => none

def clock? (s : Rest) : Option ((Nat × Nat × Nat × Nat) × Rest) := do
  let (hour, s) ← ranged? 0 23 s
  let s ← expect? ':' s
  let (minute, s) ← ranged? 0 59 s
  let s ← expect? ':' s
  let (second, s) ← ranged? 0 60 s
  let (nano, s) ← fraction? s
  some ((hour, minute, second, nano), s)

def fields? (s : Rest) : Option (Fields × Rest) := do
  let ((year, month, day), s) ← date? s
  let s ← separator? s
  let ((hour, minute, second, nano), s) ← clock? s
  some (⟨year, month, day, hour, minute, second, nano⟩, s)

/-- The instant in universal time of a date and time that are ahead of it by an offset. -/
def Fields.instant? (f : Fields) (offset : Int) : Option Instant := do
  let date ← Date.ofParts? f.year f.month f.day
  let leap := f.second = 60
  let clock : Int := f.hour * 3600 + f.minute * 60 + (if leap then 59 else f.second) - offset
  let date ← date.plusDays? (clock / 86400)
  ofParts? date (clock % 86400).toNat (if leap then f.nano + billion else f.nano)

end Reader

open Reader in
/-- Reads a written instant and moves it to universal time. -/
def ofText? (s : String) : Option Instant := do
  let (fields, s) ← fields? s.toList
  let (offset, s) ← offset? (Text.trimStart s)
  if Text.trimStart s = [] then fields.instant? offset else none

end Instant

end SpendAlerts
