import SpendAlerts.Decimal.Layout
import SpendAlerts.Document.Decode
import SpendAlerts.Fault

/-!
Cells and rows of query results. A cell is missing, a whole number of 64 bits, a double,
a text, or a comparison of a value with the period before. Whole numbers beyond 64 bits
are doubles. A comparison is a record whose two cells may be absent, or a list of them.
-/

namespace SpendAlerts

inductive Cell where
  | null
  | int (n : Int64)
  | float (x : Float)
  | text (s : String)
  /-- The change in percent and the value of the period before. -/
  | comparison (pct val : Cell)
  deriving DecidableEq

namespace Cell

mutual

def ofValue? : Value → Option Cell
  | .null => some null
  | .bool _ => none
  | .int n =>
      if Int64.minValue.toInt ≤ n ∧ n ≤ Int64.maxValue.toInt then some (int (Int64.ofInt n))
      else some (float (Decimal.ofInt n))
  | .float x => some (float x)
  | .string s => some (text s)
  | .list xs => match cells? xs with
    | some [] => some (comparison null null)
    | some [pct] => some (comparison pct null)
    | some [pct, val] => some (comparison pct val)
    | _ => none
  | .record fields => do
      let pct ← cellUnder? "pct" fields
      let val ← cellUnder? "val" fields
      some (comparison pct val)

def cells? : List Value → Option (List Cell)
  | [] => some []
  | v :: vs => do
      let c ← ofValue? v
      let cs ← cells? vs
      some (c :: cs)

/-- The cell in a field, which may be absent. -/
def cellUnder? (name : String) : List (String × Value) → Option Cell
  | [] => some null
  | (k, v) :: rest => if k = name then ofValue? v else cellUnder? name rest

end

def decode : Decoder Cell := fun v =>
  match ofValue? v with
  | some c => .ok c
  | none => .error (.noVariant "Cell")

def encode : Cell → Value
  | null => .null
  | int n => .int n.toInt
  | float x => .ofFloat x
  | text s => .string s
  | comparison pct val => .record [("pct", encode pct), ("val", encode val)]

/-- The number in a cell that holds one. -/
def float? : Cell → Option Float
  | int n => some (Decimal.ofInt n.toInt)
  | float x => some x
  | _ => none

/-- The whole number in a cell, or in the text of one. -/
def int? : Cell → Option Int64
  | int n => some n
  | text s => (Decimal.readInt? (Text.trim s.toList)).bind fun n =>
      if Int64.minValue.toInt ≤ n ∧ n ≤ Int64.maxValue.toInt then some (Int64.ofInt n) else none
  | _ => none

/-- The breakdown value that a cell stands for; a comparison stands for none. -/
def breakdown? : Cell → Option String
  | null => some ""
  | int n => some (Decimal.intText n.toInt)
  | float x => some (Decimal.labelText x)
  | text s => some s
  | comparison .. => none

/-- The breakdown value of the cell at an index of a row. -/
def breakdownAt (c : Cell) (index : Nat) : Except Fault String :=
  match c.breakdown? with
  | some s => .ok s
  | none => .error (.invalidCell index "comparative cell used as breakdown")

end Cell

structure QueryResult where
  rows : List (List Cell)
  forecastRows : List (List Cell)
  deriving DecidableEq

namespace QueryResult

def decode : Decoder QueryResult :=
  Reading.decode "QueryResult" <|
    QueryResult.mk <$> .fieldOr "rows" (Decode.list (Decode.list Cell.decode)) (some [])
      <*> .fieldOr "forecastRows" (Decode.list (Decode.list Cell.decode)) (some [])

def encodeRows (rows : List (List Cell)) : Value :=
  .list (rows.map fun row => .list (row.map Cell.encode))

def encode (r : QueryResult) : Value :=
  .record [("forecastRows", encodeRows r.forecastRows), ("rows", encodeRows r.rows)]

end QueryResult

end SpendAlerts
