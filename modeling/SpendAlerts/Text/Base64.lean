/-!
Base64 over lists of bytes. The encoder pads to whole groups of four characters and
takes its two last symbols from an alphabet; the decoder accepts exactly what the
encoder of the same alphabet writes: groups are complete, padding stands only at the
end, and the bits that padding leaves unused are zero.
-/

namespace SpendAlerts.Text.Base64

/-- The two symbols in which base64 alphabets differ. -/
structure Alphabet where
  sixtyTwo : Char
  sixtyThree : Char

def Alphabet.standard : Alphabet := ⟨'+', '/'⟩

/-- The alphabet without a slash, so that encoded text fits into a path segment. -/
def Alphabet.urlSafe : Alphabet := ⟨'-', '_'⟩

def Alphabet.symbol (a : Alphabet) (n : Nat) : Char :=
  if n < 26 then Char.ofNat (n + 65)
  else if n < 52 then Char.ofNat (n - 26 + 97)
  else if n < 62 then Char.ofNat (n - 52 + 48)
  else if n = 62 then a.sixtyTwo
  else a.sixtyThree

def Alphabet.value? (a : Alphabet) (c : Char) : Option Nat :=
  if 'A' ≤ c ∧ c ≤ 'Z' then some (c.toNat - 65)
  else if 'a' ≤ c ∧ c ≤ 'z' then some (c.toNat - 97 + 26)
  else if '0' ≤ c ∧ c ≤ '9' then some (c.toNat - 48 + 52)
  else if c = a.sixtyTwo then some 62
  else if c = a.sixtyThree then some 63
  else none

def encode (a : Alphabet) : List UInt8 → List Char
  | [] => []
  | [x] =>
      let n := x.toNat * 16
      [a.symbol (n / 64), a.symbol (n % 64), '=', '=']
  | [x, y] =>
      let n := (x.toNat * 256 + y.toNat) * 4
      [a.symbol (n / 4096), a.symbol (n / 64 % 64), a.symbol (n % 64), '=']
  | x :: y :: z :: rest =>
      let n := (x.toNat * 256 + y.toNat) * 256 + z.toNat
      a.symbol (n / 262144) :: a.symbol (n / 4096 % 64) :: a.symbol (n / 64 % 64) ::
        a.symbol (n % 64) :: encode a rest

/-- Refuses incomplete groups, padding inside the text and unused bits that are set. -/
def decode (a : Alphabet) : List Char → Option (List UInt8)
  | [] => some []
  | c₁ :: c₂ :: c₃ :: c₄ :: rest =>
      if c₄ = '=' ∧ rest = [] then
        if c₃ = '=' then do
          let n := (← a.value? c₁) * 64 + (← a.value? c₂)
          if n % 16 = 0 then some [UInt8.ofNat (n / 16)] else none
        else do
          let n := ((← a.value? c₁) * 64 + (← a.value? c₂)) * 64 + (← a.value? c₃)
          if n % 4 = 0 then some [UInt8.ofNat (n / 1024), UInt8.ofNat (n / 4 % 256)] else none
      else do
        let n := (((← a.value? c₁) * 64 + (← a.value? c₂)) * 64 + (← a.value? c₃)) * 64 +
          (← a.value? c₄)
        let bytes ← decode a rest
        some (UInt8.ofNat (n / 65536) :: UInt8.ofNat (n / 256 % 256) :: UInt8.ofNat (n % 256) ::
          bytes)
  | _ => none

/-- The text that encodes the UTF-8 bytes of a string. -/
def encodeString (a : Alphabet) (s : String) : String :=
  String.ofList (encode a s.toUTF8.data.toList)

end SpendAlerts.Text.Base64
