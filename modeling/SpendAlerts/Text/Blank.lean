/-!
Blank characters, in the sense of the Unicode property White_Space, and the removal
of blanks from the ends of a text. Texts are lists of characters here, so that what
is removed is a prefix or a suffix in the sense of the list library.
-/

namespace SpendAlerts.Text

/-- The characters with the Unicode property White_Space. -/
def isBlank (c : Char) : Bool :=
  ('\t' ≤ c && c ≤ '\r') || c = ' ' || c = '\u0085' || c = '\u00a0' || c = '\u1680' ||
    ('\u2000' ≤ c && c ≤ '\u200a') || c = '\u2028' || c = '\u2029' || c = '\u202f' ||
    c = '\u205f' || c = '\u3000'

def trimStart (s : List Char) : List Char :=
  s.dropWhile isBlank

def trimEnd (s : List Char) : List Char :=
  (s.reverse.dropWhile isBlank).reverse

def trim (s : List Char) : List Char :=
  trimEnd (trimStart s)

/-- Cuts a text at every occurrence of a separator; there is always at least one piece. -/
def pieces (separator : Char) : List Char → List (List Char)
  | [] => [[]]
  | c :: rest =>
      if c = separator then [] :: pieces separator rest
      else match pieces separator rest with
        | [] => [[c]]
        | piece :: others => (c :: piece) :: others

/-- What follows the last occurrence of a separator, if there is one. -/
def afterLast? (separator : Char) (s : List Char) : Option (List Char) :=
  if separator ∈ s then some (s.reverse.takeWhile (· ≠ separator)).reverse else none

/-- Lower case for the letters A to Z, every other character as it is. -/
def asciiLower (c : Char) : Char :=
  if 'A' ≤ c ∧ c ≤ 'Z' then Char.ofNat (c.toNat + 32) else c

/-- Equality up to the case of the letters A to Z. -/
def sameIgnoringCase (a b : List Char) : Bool :=
  a.map asciiLower = b.map asciiLower

end SpendAlerts.Text
