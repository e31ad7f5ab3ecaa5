import SpendAlerts.Decimal.Fixed

/-!
Amounts as readers see them: a fixed number of decimals, commas between groups of three
digits, and the currency symbol between the sign and the digits. A sign stands only in
front of a negative value that does not round to zero. Integer parts of more than 128
bits are left without commas.
-/

namespace SpendAlerts.Money

/-- Commas before every third digit, counted from the right. -/
def grouped (ds : List Char) : List Char :=
  match ds with
  | [] => []
  | d :: rest =>
      if rest.length % 3 = 0 ∧ rest ≠ [] then d :: ',' :: grouped rest else d :: grouped rest

/-- The magnitude of a value with commas, and with decimals if any are asked for. -/
def magnitudeText (decimals : Nat) (x : Float) : List Char :=
  if Decimal.isNotANumber x then ['N', 'a', 'N']
  else if !Decimal.isFinite x then ['i', 'n', 'f']
  else
    let (whole, places) := Decimal.fixedParts decimals (Decimal.magnitude x)
    let whole := if Decimal.valueOf whole < Nat.pow 2 128 then grouped whole else whole
    if decimals = 0 then whole else whole ++ '.' :: places

/-- The value is shown with a sign. -/
def showsSign (decimals : Nat) (x : Float) : Bool :=
  x < 0.0 && (magnitudeText decimals x).any fun c => Decimal.isDigit c && c ≠ '0'

def groupThousands (x : Float) (decimals : Nat) : String :=
  String.ofList <|
    (if showsSign decimals x then ['-'] else []) ++ magnitudeText decimals x

def symbol : String → String
  | "USD" => "$"
  | "EUR" => "€"
  | "GBP" => "£"
  | "AUD" => "A$"
  | "CAD" => "C$"
  | "JPY" => "¥"
  | "ILS" => "₪"
  | "BRL" => "R$"
  | "NOK" => "kr"
  | "DKK" => "kr."
  | "SEK" => "kr"
  | "CHF" => "CHF "
  | "MXN" => "MX$"
  | "SGD" => "S$"
  | "ZAR" => "R"
  | "IDR" => "Rp"
  | "TWD" => "NT$"
  | "EGP" => "E£"
  | other => other

/-- An amount with two decimals in a currency. -/
def amount (x : Float) (currency : String) : String :=
  match (groupThousands x 2).toList with
  | '-' :: magnitude => "-" ++ symbol currency ++ String.ofList magnitude
  | magnitude => symbol currency ++ String.ofList magnitude

end SpendAlerts.Money
