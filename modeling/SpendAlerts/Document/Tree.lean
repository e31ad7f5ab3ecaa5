import SpendAlerts.Document.Value

/-!
Document text as written. A tree keeps what the text says and a document does not:
number literals, the order and repetition of record fields, and escapes of half
characters, which leave a text without a value. The reader turns text into a tree and
fails only on bad grammar; a tree has a value if all its numbers and texts have one
and it is not nested too deeply.
-/

namespace SpendAlerts

inductive Tree where
  | null
  | bool (b : Bool)
  | number (l : Decimal.Literal)
  | string (s : Option String)
  | list (xs : List Tree)
  | record (fields : List (Option String × Tree))

namespace Tree

/-- Containers may be nested this deeply. -/
def maxDepth : Nat := 127

mutual

/-- The document that a tree stands for; of equal fields the last one counts. -/
def value? (depth : Nat) : Tree → Option Value
  | null => some .null
  | bool b => some (.bool b)
  | number l => l.number?.map Value.ofNumber
  | string s => s.map .string
  | list xs => if depth = 0 then none else (values? (depth - 1) xs).map .list
  | record fields =>
      if depth = 0 then none
      else (fields? (depth - 1) fields).map fun fs => .record (Entries.ofList fs)

def values? (depth : Nat) : List Tree → Option (List Value)
  | [] => some []
  | t :: ts => do
      let v ← value? depth t
      let vs ← values? depth ts
      some (v :: vs)

def fields? (depth : Nat) : List (Option String × Tree) → Option (List (String × Value))
  | [] => some []
  | (key, t) :: rest => do
      let k ← key
      let v ← value? depth t
      let vs ← fields? depth rest
      some ((k, v) :: vs)

end

namespace Reader

abbrev Rest := List Char

def skipSpace (s : List Char) : Rest :=
  s.dropWhile fun c => c = ' ' || c = '\n' || c = '\t' || c = '\r'

/-- A character of a text, or the code of an escape by number. -/
inductive Piece where
  | char (c : Char)
  | code (n : Nat)

def hexValue? (c : Char) : Option Nat :=
  if '0' ≤ c ∧ c ≤ '9' then some (c.toNat - 48)
  else if 'a' ≤ c ∧ c ≤ 'f' then some (c.toNat - 87)
  else if 'A' ≤ c ∧ c ≤ 'F' then some (c.toNat - 55)
  else none

def code? (a b c d : Char) : Option Nat := do
  some ((((← hexValue? a) * 16 + (← hexValue? b)) * 16 + (← hexValue? c)) * 16 + (← hexValue? d))

/-- The character of an escape by letter. -/
def escape? (c : Char) : Option Char :=
  if c = '"' ∨ c = '\\' ∨ c = '/' then some c
  else if c = 'b' then some '\x08'
  else if c = 'f' then some '\x0c'
  else if c = 'n' then some '\n'
  else if c = 'r' then some '\r'
  else if c = 't' then some '\t'
  else none

/-- The rest of a text after its opening quote. -/
def pieces? : List Char → Option (List Piece × Rest)
  | [] => none
  | '"' :: rest => some ([], rest)
  | '\\' :: 'u' :: a :: b :: c :: d :: rest => do
      let n ← code? a b c d
      let (ps, rest) ← pieces? rest
      some (.code n :: ps, rest)
  | '\\' :: c :: rest => do
      let e ← escape? c
      let (ps, rest) ← pieces? rest
      some (.char e :: ps, rest)
  | c :: rest =>
      if c.toNat < 32 ∨ c = '\\' then none
      else do
        let (ps, rest) ← pieces? rest
        some (.char c :: ps, rest)

def isHigh (n : Nat) : Bool := 0xd800 ≤ n && n < 0xdc00

def isLow (n : Nat) : Bool := 0xdc00 ≤ n && n < 0xe000

/-- Joins the two halves of characters escaped in halves; a half alone has no value. -/
def join? : List Piece → Option (List Char)
  | [] => some []
  | .char c :: rest => (join? rest).map (c :: ·)
  | .code a :: .code b :: rest =>
      if isHigh a && isLow b then
        (join? rest).map (Char.ofNat (0x10000 + (a - 0xd800) * 0x400 + (b - 0xdc00)) :: ·)
      else if isHigh a || isLow a then none
      else (join? (.code b :: rest)).map (Char.ofNat a :: ·)
  | .code a :: rest =>
      if isHigh a || isLow a then none else (join? rest).map (Char.ofNat a :: ·)

def text? (s : List Char) : Option (Option String × Rest) :=
  (pieces? s).map fun (ps, rest) => ((join? ps).map String.ofList, rest)

def digits? (s : List Char) : Option (List Char × Rest) :=
  let ds := s.takeWhile Decimal.isDigit
  if ds = [] then none else some (ds, s.dropWhile Decimal.isDigit)

def exponent? : List Char → Option (Option (Bool × List Char) × Rest)
  | e :: rest =>
      if e = 'e' ∨ e = 'E' then
        match rest with
        | '-' :: rest => (digits? rest).map fun (ds, rest) => (some (true, ds), rest)
        | '+' :: rest => (digits? rest).map fun (ds, rest) => (some (false, ds), rest)
        | rest => (digits? rest).map fun (ds, rest) => (some (false, ds), rest)
      else some (none, e :: rest)
  | [] => some (none, [])

def fraction? : List Char → Option (Option (List Char) × Rest)
  | '.' :: rest => (digits? rest).map fun (ds, rest) => (some ds, rest)
  | s => some (none, s)

def literal? (s : List Char) : Option (Decimal.Literal × Rest) := do
  let (negative, s) := match s with
    | '-' :: rest => (true, rest)
    | _ => (false, s)
  let (whole, s) ← digits? s
  if 1 < whole.length ∧ whole.head? = some '0' then none
  let (fraction, s) ← fraction? s
  let (exponent, s) ← exponent? s
  some (⟨negative, whole, fraction, exponent⟩, s)

mutual

/-- Reads a tree after blanks; every step consumes a character of fuel. -/
def tree? : Nat → List Char → Option (Tree × Rest)
  | 0, _ => none
  | fuel + 1, s =>
      match skipSpace s with
      | 'n' :: 'u' :: 'l' :: 'l' :: rest => some (.null, rest)
      | 't' :: 'r' :: 'u' :: 'e' :: rest => some (.bool true, rest)
      | 'f' :: 'a' :: 'l' :: 's' :: 'e' :: rest => some (.bool false, rest)
      | '"' :: rest => (text? rest).map fun (s, rest) => (.string s, rest)
      | '[' :: rest =>
          match skipSpace rest with
          | ']' :: rest => some (.list [], rest)
          | rest => (items? fuel rest).map fun (xs, rest) => (.list xs, rest)
      | '\x7b' :: rest =>
          match skipSpace rest with
          | '\x7d' :: rest => some (.record [], rest)
          | rest => (entries? fuel rest).map fun (fs, rest) => (.record fs, rest)
      | s => (literal? s).map fun (l, rest) => (.number l, rest)

def items? : Nat → List Char → Option (List Tree × Rest)
  | 0, _ => none
  | fuel + 1, s => do
      let (t, s) ← tree? fuel s
      match skipSpace s with
      | ',' :: rest =>
          let (ts, rest) ← items? fuel rest
          some (t :: ts, rest)
      | ']' :: rest => some ([t], rest)
      | _ => none

def entries? : Nat → List Char → Option (List (Option String × Tree) × Rest)
  | 0, _ => none
  | fuel + 1, s =>
      match skipSpace s with
      | '"' :: rest => do
          let (key, s) ← text? rest
          match skipSpace s with
          | ':' :: rest =>
              let (t, s) ← tree? fuel rest
              match skipSpace s with
              | ',' :: rest =>
                  let (fs, rest) ← entries? fuel rest
                  some ((key, t) :: fs, rest)
              | '\x7d' :: rest => some ([(key, t)], rest)
              | _ => none
          | _ => none
      | _ => none

end

end Reader

/-- Reads a whole text. -/
def ofText? (text : String) : Option Tree :=
  let s := text.toList
  (Reader.tree? (s.length + 1) s).bind fun (t, rest) =>
    if Reader.skipSpace rest = [] then some t else none

end Tree

namespace Value

/-- Reads a text as a document of any shape. -/
def ofText? (text : String) : Option Value :=
  (Tree.ofText? text).bind (Tree.value? Tree.maxDepth)

end Value

end SpendAlerts
