import SpendAlerts.Calendar.Timestamp
import SpendAlerts.Decimal.Layout
import SpendAlerts.Document.Value
import SpendAlerts.Text.Quoted

/-!
Decoding of documents into typed values. A record is decoded from a document record, or
from a list of its fields in order. All fields that are present are checked before an
absent one is reported: in the order of the document for a record, in the order of the
declaration for a list. Fields that the record does not know are not looked at. A
`Reading` describes the fields of a record once, for the checks and for the result.
-/

namespace SpendAlerts

/-- Why a document is not the value that was expected. -/
inductive Mismatch where
  | wrongType (found : Value) (expected : String)
  | outOfRange (found : Int) (expected : String)
  | wrongLength (length : Nat) (expected : String)
  | missing (field : String)
  | unknownVariant (name : String) (known : List String)
  | notOneKey
  | noVariant (type : String)
  | refused (reason : String)
  | badTime

namespace Mismatch

def describe : Value → String
  | .null => "null"
  | .bool b => if b then "boolean `true`" else "boolean `false`"
  | .int n => "integer `" ++ Decimal.intText n ++ "`"
  | .float x => "floating point `" ++ Decimal.documentText x ++ "`"
  | .string s => "string " ++ Text.quoted s
  | .list _ => "sequence"
  | .record _ => "map"

/-- The alternatives of a choice, in the order they are declared. -/
def alternatives : List String → String
  | [] => "there are no variants"
  | [a] => "expected `" ++ a ++ "`"
  | [a, b] => "expected `" ++ a ++ "` or `" ++ b ++ "`"
  | names => "expected one of " ++ ", ".intercalate (names.map fun n => "`" ++ n ++ "`")

def message : Mismatch → String
  | wrongType v expected => "invalid type: " ++ describe v ++ ", expected " ++ expected
  | outOfRange n expected =>
      "invalid value: integer `" ++ Decimal.intText n ++ "`, expected " ++ expected
  | wrongLength n expected =>
      "invalid length " ++ Decimal.natText n ++ ", expected " ++ expected
  | missing field => "missing field `" ++ field ++ "`"
  | unknownVariant name known => "unknown variant `" ++ name ++ "`, " ++ alternatives known
  | notOneKey => "invalid value: map, expected map with a single key"
  | noVariant type => "data did not match any variant of untagged enum " ++ type
  | refused reason => reason
  | badTime => "<bad time>"

end Mismatch

abbrev Decoder (α : Type) := Value → Except Mismatch α

namespace Decode

def text : Decoder String
  | .string s => .ok s
  | v => .error (.wrongType v "a string")

def bool : Decoder Bool
  | .bool b => .ok b
  | v => .error (.wrongType v "a boolean")

/-- A double, or an integer rounded to one. -/
def float : Decoder Float
  | .float x => .ok x
  | .int n => .ok (Decimal.ofInt n)
  | v => .error (.wrongType v "f64")

/-- A natural number below a bound. -/
def natBelow (bound : Nat) (expected : String) : Decoder Nat
  | .int (.ofNat n) => if n < bound then .ok n else .error (.outOfRange n expected)
  | .int n => .error (.outOfRange n expected)
  | v => .error (.wrongType v expected)

def instant : Decoder Instant
  | .string s => match Instant.ofText? s with
    | some t => .ok t
    | none => .error .badTime
  | v => .error (.wrongType v "an RFC 3339 formatted date and time string")

def items {α : Type} (item : Decoder α) : List Value → Except Mismatch (List α)
  | [] => .ok []
  | v :: vs => do
      let x ← item v
      let xs ← items item vs
      .ok (x :: xs)

def list {α : Type} (item : Decoder α) : Decoder (List α)
  | .list vs => items item vs
  | v => .error (.wrongType v "a sequence")

def option {α : Type} (some' : Decoder α) : Decoder (Option α)
  | .null => .ok none
  | v => (some' v).map some

def pairs {α : Type} (item : Decoder α) :
    List (String × Value) → Except Mismatch (List (String × α))
  | [] => .ok []
  | (k, v) :: rest => do
      let x ← item v
      let xs ← pairs item rest
      .ok ((k, x) :: xs)

def table {α : Type} (item : Decoder α) : Decoder (Table α)
  | .record fields => (pairs item fields).map Table.ofList
  | v => .error (.wrongType v "a map")

/-- A name from a list of choices. Where the name stands alone in a record, the field
under it is empty. -/
def choice {α : Type} (choices : List (String × α)) : Decoder α
  | .string s => pick s
  | .record [(s, v)] => do
      let x ← pick s
      if v.isNull then .ok x else .error (.wrongType v "unit")
  | .record _ => .error .notOneKey
  | v => .error (.wrongType v "string or map")
where
  pick (s : String) : Except Mismatch α :=
    match Entries.find? s choices with
    | some x => .ok x
    | none => .error (.unknownVariant s (choices.map (·.1)))

end Decode

/-- What a record knows of a field whatever the type of its value. -/
structure FieldCheck where
  name : String
  required : Bool
  wrong? : Value → Option Mismatch

/-- The fields of a record and how they make up a value. -/
structure Reading (α : Type) where
  checks : List FieldCheck
  get : List (String × Value) → Except Mismatch α

namespace Reading

variable {α β : Type}

def failure? {α : Type} : Except Mismatch α → Option Mismatch
  | .ok _ => none
  | .error m => some m

/-- A field that may be absent if a default is given. -/
def fieldOr (name : String) (decode : Decoder α) (default : Option α) : Reading α where
  checks := [⟨name, default.isNone, fun v => failure? (decode v)⟩]
  get fields := match Entries.find? name fields, default with
    | some v, _ => decode v
    | none, some x => .ok x
    | none, none => .error (.missing name)

def field (name : String) (decode : Decoder α) : Reading α :=
  fieldOr name decode none

def optional (name : String) (decode : Decoder α) : Reading (Option α) :=
  fieldOr name (Decode.option decode) (some none)

def pure (x : α) : Reading α := ⟨[], fun _ => .ok x⟩

/-- Adds the fields of one more part. -/
def and (f : Reading (α → β)) (x : Reading α) : Reading β where
  checks := f.checks ++ x.checks
  get fields := do
    let g ← f.get fields
    let y ← x.get fields
    .ok (g y)

instance : Applicative Reading where
  pure := pure
  seq f x := f.and (x ())

def firstWrong? (checks : List FieldCheck) (fields : List (String × Value)) : Option Mismatch :=
  fields.findSome? fun (k, v) => (checks.find? (·.name = k)).bind (·.wrong? v)

/-- How a number of elements is worded. -/
def elements (n : Nat) : String :=
  Decimal.natText n ++ if n = 1 then " element" else " elements"

/-- Fields by position; `surplus` words the complaint about too many. -/
def ofItems (type : String) (surplus : String) (r : Reading α) (xs : List Value) :
    Except Mismatch α :=
  let fields := (r.checks.map (·.name)).zip xs
  match firstWrong? r.checks fields with
  | some m => .error m
  | none =>
      match (r.checks.drop xs.length).findIdx? (·.required) with
      | some i =>
          .error (.wrongLength (xs.length + i) (type ++ " with " ++ elements r.checks.length))
      | none =>
          if r.checks.length < xs.length then .error (.wrongLength xs.length surplus)
          else r.get fields

def ofFields (r : Reading α) (fields : List (String × Value)) : Except Mismatch α :=
  match firstWrong? r.checks fields with
  | some m => .error m
  | none => r.get fields

/-- Decodes a record that is not one of several. -/
def decode (type : String) (r : Reading α) : Decoder α
  | .record fields => r.ofFields fields
  | .list xs => r.ofItems ("struct " ++ type) "fewer elements in array" xs
  | v => .error (.wrongType v ("struct " ++ type))

/-- A record that is one of several, told apart by the text in its tag field. -/
structure Variant (α : Type) where
  tag : String
  name : String
  reading : Reading α

def tagOf (variants : List (Variant α)) : Decoder (Variant α)
  | .string s => match variants.find? (·.tag = s) with
    | some v => .ok v
    | none => .error (.unknownVariant s (variants.map (·.tag)))
  | v => .error (.wrongType v "variant identifier")

/-- Decodes one of several records. The tag is a field, or the first item of a list. -/
def decodeTagged (type tag : String) (variants : List (Variant α)) : Decoder α
  | .record fields => match Entries.find? tag fields with
    | none => .error (.missing tag)
    | some t => do
        let v ← tagOf variants t
        v.reading.ofFields (fields.filter (·.1 ≠ tag))
  | .list [] => .error (.missing tag)
  | .list (t :: xs) => do
      let v ← tagOf variants t
      v.reading.ofItems ("struct variant " ++ type ++ "::" ++ v.name)
        (elements v.reading.checks.length ++ " in sequence") xs
  | v => .error (.wrongType v ("internally tagged enum " ++ type))

end Reading

end SpendAlerts
