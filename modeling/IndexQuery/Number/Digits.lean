/-! Decimal digits of natural numbers: fixed widths, counts and the reading of digit runs. -/

namespace IndexQuery.Digits

/-- The last `width` decimal digits of a number, with leading zeros. -/
def fixed : Nat → Nat → List Char
  | 0, _ => []
  | width + 1, n => fixed width (n / 10) ++ [Nat.digitChar (n % 10)]

/-- The decimal digits of a number, without leading zeros. -/
def plain (n : Nat) : List Char := Nat.toDigits 10 n

/-- How many decimal digits a number is written with. -/
def count (n : Nat) : Nat := (plain n).length

/-- The number one more digit makes of a number. -/
def push (value : Nat) (digit : Char) : Nat := 10 * value + (digit.toNat - '0'.toNat)

/-- The number a run of decimal digits spells. -/
def value (digits : List Char) : Nat := digits.foldl push 0

/-- The number a text spells, for a text of one or more decimal digits and nothing else. -/
def read? (text : List Char) : Option Nat :=
  if text ≠ [] ∧ text.all Char.isDigit then some (value text) else none

end IndexQuery.Digits
