import SpendAlerts.Decimal.Layout
import SpendAlerts.Document.Value

/-!
Document text. Both forms print the fields of a record in the order the record has
them; the indented form puts every item and field on a line of its own, two blanks
deeper than what holds it, except that empty containers stay closed. Quotes,
backslashes and control characters are escaped, everything else stands as it is.
-/

namespace SpendAlerts

namespace Printer

def escaped (c : Char) : List Char :=
  if c = '"' then ['\\', '"']
  else if c = '\\' then ['\\', '\\']
  else if c = '\n' then ['\\', 'n']
  else if c = '\r' then ['\\', 'r']
  else if c = '\t' then ['\\', 't']
  else if c = '\x08' then ['\\', 'b']
  else if c = '\x0c' then ['\\', 'f']
  else if c.toNat < 32 then
    ['\\', 'u', '0', '0', Decimal.digit (c.toNat / 16), Decimal.digit (c.toNat % 16)]
  else [c]

def quoted (s : String) : String :=
  String.ofList ('"' :: s.toList.flatMap escaped ++ ['"'])

def leaf : Value → String
  | .null => "null"
  | .bool b => if b then "true" else "false"
  | .int n => Decimal.intText n
  | .float x => if Decimal.isFinite x then Decimal.documentText x else "null"
  | .string s => quoted s
  | _ => ""

def margin (depth : Nat) : String :=
  String.ofList ('\n' :: List.replicate (2 * depth) ' ')

mutual

def compact : Value → String
  | .list xs => "[" ++ ",".intercalate (compactItems xs) ++ "]"
  | .record fields => "\x7b" ++ ",".intercalate (compactFields fields) ++ "\x7d"
  | v => leaf v

def compactItems : List Value → List String
  | [] => []
  | v :: vs => compact v :: compactItems vs

def compactFields : List (String × Value) → List String
  | [] => []
  | (k, v) :: rest => (quoted k ++ ":" ++ compact v) :: compactFields rest

end

mutual

def indented (depth : Nat) : Value → String
  | .list [] => "[]"
  | .list xs =>
      "[" ++ ",".intercalate (indentedItems (depth + 1) xs) ++ margin depth ++ "]"
  | .record [] => "\x7b\x7d"
  | .record fields =>
      "\x7b" ++ ",".intercalate (indentedFields (depth + 1) fields) ++ margin depth ++ "\x7d"
  | v => leaf v

def indentedItems (depth : Nat) : List Value → List String
  | [] => []
  | v :: vs => (margin depth ++ indented depth v) :: indentedItems depth vs

def indentedFields (depth : Nat) : List (String × Value) → List String
  | [] => []
  | (k, v) :: rest =>
      (margin depth ++ quoted k ++ ": " ++ indented depth v) :: indentedFields depth rest

end

end Printer

namespace Value

/-- The text of a document on one line. -/
def text (v : Value) : String := Printer.compact v

/-- The text of a document over several lines. -/
def indentedText (v : Value) : String := Printer.indented 0 v

end Value

end SpendAlerts
