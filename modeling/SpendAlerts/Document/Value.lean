import SpendAlerts.Decimal.Literal
import SpendAlerts.Document.Table

/-!
Documents: null, booleans, integers, doubles, texts, lists and records. An integer and
a double are different values even where they are numerically equal, and doubles are
compared as numbers, so that the two zeros are the same. A canonical document lists the
fields of every record in increasing order, each once.
-/

namespace SpendAlerts

inductive Value where
  | null
  | bool (b : Bool)
  | int (n : Int)
  | float (x : Float)
  | string (s : String)
  | list (xs : List Value)
  | record (fields : List (String × Value))

namespace Value

instance : Inhabited Value := ⟨null⟩

mutual

/-- Equality of documents, with doubles compared as numbers. -/
def same : Value → Value → Bool
  | null, null => true
  | bool a, bool b => a = b
  | int a, int b => a = b
  | float a, float b => a == b
  | string a, string b => a = b
  | list as, list bs => sameItems as bs
  | record as, record bs => sameFields as bs
  | _, _ => false

def sameItems : List Value → List Value → Bool
  | [], [] => true
  | a :: as, b :: bs => same a b && sameItems as bs
  | _, _ => false

def sameFields : List (String × Value) → List (String × Value) → Bool
  | [], [] => true
  | (k, a) :: as, (l, b) :: bs => k = l && same a b && sameFields as bs
  | _, _ => false

end

instance : BEq Value := ⟨same⟩

mutual

/-- The same document with the fields of all its records in order, the last of equal
ones kept. -/
def canonical : Value → Value
  | list xs => list (canonicalItems xs)
  | record fields => record (Entries.ofList (canonicalFields fields))
  | v => v

def canonicalItems : List Value → List Value
  | [] => []
  | v :: vs => canonical v :: canonicalItems vs

def canonicalFields : List (String × Value) → List (String × Value)
  | [] => []
  | (k, v) :: rest => (k, canonical v) :: canonicalFields rest

end

mutual

/-- Every record in the document has its fields in strictly increasing order. -/
def Canonical : Value → Prop
  | list xs => CanonicalItems xs
  | record fields => Entries.Ordered fields ∧ CanonicalFields fields
  | _ => True

def CanonicalItems : List Value → Prop
  | [] => True
  | v :: vs => Canonical v ∧ CanonicalItems vs

def CanonicalFields : List (String × Value) → Prop
  | [] => True
  | (_, v) :: rest => Canonical v ∧ CanonicalFields rest

end

/-- The field of a record; anything else has no fields. -/
def field? (v : Value) (name : String) : Option Value :=
  match v with
  | record fields => Entries.find? name fields
  | _ => none

def isNull : Value → Bool
  | null => true
  | _ => false

def text? : Value → Option String
  | string s => some s
  | _ => none

/-- A double as a document; what is not finite has no number and becomes null. -/
def ofFloat (x : Float) : Value :=
  if Decimal.isFinite x then float x else null

def ofNumber : Decimal.Number → Value
  | .int n => int n
  | .float x => float x

def ofTable {α : Type} (f : α → Value) (t : Table α) : Value :=
  record (t.entries.map fun e => (e.1, f e.2))

/-- The field of a value that is left out where there is none. -/
def present {α : Type} (name : String) (f : α → Value) : Option α → List (String × Value)
  | none => []
  | some x => [(name, f x)]

/-- A value or null. -/
def orNull {α : Type} (f : α → Value) : Option α → Value
  | none => null
  | some x => f x

def strings (xs : List String) : Value := list (xs.map string)

end Value

end SpendAlerts
