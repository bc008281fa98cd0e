import IndexQuery.Number.Digits

/-! Exact decimal numbers of 96 bits and at most 28 decimal places. -/

namespace IndexQuery

/-- The number `coefficient / 10 ^ scale`. -/
structure Decimal where
  /-- The digits, as a signed whole number. -/
  coefficient : Int
  /-- How many of the digits stand after the point. -/
  scale : Nat
  /-- The digits fit 96 bits. -/
  coefficient_lt : coefficient.natAbs < Nat.pow 2 96
  /-- No more than 28 places are kept. -/
  scale_le : scale ≤ 28
deriving DecidableEq

namespace Decimal

/-- The decimal with the given digits and scale, when both are in range. -/
def ofParts? (coefficient : Int) (scale : Nat) : Option Decimal :=
  if bounds : coefficient.natAbs < Nat.pow 2 96 ∧ scale ≤ 28 then
    some ⟨coefficient, scale, bounds.1, bounds.2⟩
  else none

/-- Takes zeros off the end of the digits while there are decimal places left. -/
def dropZeros : Int → Nat → Int × Nat
  | coefficient, 0 => (coefficient, 0)
  | coefficient, scale + 1 =>
    -- The division is exact, so it does not matter which way a negative one rounds.
    if coefficient % 10 = 0 then dropZeros (coefficient / 10) scale else (coefficient, scale + 1)

/-- Taking zeros off makes neither the digits nor the scale larger. -/
theorem dropZeros_le (coefficient : Int) (scale : Nat) :
    (dropZeros coefficient scale).1.natAbs ≤ coefficient.natAbs ∧
      (dropZeros coefficient scale).2 ≤ scale := by
  -- Each step divides the digits by ten and gives up one place.
  induction scale generalizing coefficient with
  | zero => simp [dropZeros]
  | succ scale ih =>
    simp only [dropZeros]
    split
    · have smaller := ih (coefficient / 10)
      exact ⟨by omega, by omega⟩
    · simp

/-- The same number with the fewest decimal places. -/
def normalize (number : Decimal) : Decimal where
  coefficient := (dropZeros number.coefficient number.scale).1
  scale := (dropZeros number.coefficient number.scale).2
  coefficient_lt :=
    Nat.lt_of_le_of_lt (dropZeros_le number.coefficient number.scale).1 number.coefficient_lt
  scale_le := Nat.le_trans (dropZeros_le number.coefficient number.scale).2 number.scale_le

/-- Positional text of a magnitude: a point only where there are decimal places. -/
def positional (magnitude scale : Nat) : List Char :=
  match scale with
  | 0 => Digits.plain magnitude
  | places => Digits.plain (magnitude / Nat.pow 10 places) ++ '.' :: Digits.fixed places magnitude

/-- The text of a decimal: positional, with the fewest decimal places, and no sign on zero. -/
def render (number : Decimal) : String :=
  let short := number.normalize
  let text := positional short.coefficient.natAbs short.scale
  String.ofList (if short.coefficient < 0 then '-' :: text else text)

end Decimal

end IndexQuery
