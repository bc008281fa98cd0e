import IndexQuery.Number.Decimal
import IndexQuery.Number.Shortest

/-! Conversion between exact decimals and binary numbers. -/

namespace IndexQuery.Decimal

/-- The decimal of a coefficient and a power of ten, without decimal places if it is whole. -/
def ofForm? (negative : Bool) (coefficient : Nat) (exponent : Int) : Option Decimal :=
  let signed (digits : Nat) : Int := if negative then -(digits : Int) else digits
  if 0 ≤ exponent then ofParts? (signed (coefficient * Nat.pow 10 exponent.toNat)) 0
  else
    let scale := (-exponent).toNat
    if scale ≤ 28 then ofParts? (signed coefficient) scale
    else
      -- Places that are not kept are rounded, a half going away from zero.
      ofParts? (signed (Binary64.roundHalfUp coefficient (Nat.pow 10 (scale - 28)))) 28

/-- The exact decimal that the text of a binary number spells, for exponents of at most 28. -/
def ofBinary64? (number : Binary64) : Option Decimal :=
  if number.isZero then ofParts? 0 1
  else
    let form := number.shortest
    if 28 < form.leading.natAbs then none
    else if Binary64.isPositional form.leading ∧ 0 ≤ form.exponent then
      -- Positional text ends in a zero decimal place, which counts.
      ofForm? number.negative (form.coefficient * Nat.pow 10 (form.exponent.toNat + 1)) (-1)
    else ofForm? number.negative form.coefficient form.exponent

/-- The binary number for a decimal: its whole part and fraction, added and rounded once more. -/
def toBinary64? (number : Decimal) : Option Binary64 := do
  let digits := number.coefficient.natAbs
  let unit := Nat.pow 10 number.scale
  let whole ← Binary64.ofNat? (digits / unit)
  let power ← Binary64.ofNat? unit
  let fraction ← (← Binary64.ofNat? (digits % unit)).divide? power
  let magnitude ←
    if fraction.isZero then pure whole
    else
      -- The sum can be off in its last bit, so it is rounded to a whole number of units.
      (← (← (← whole.add? fraction).multiply? power).round?).divide? power
  pure (magnitude.withSign (number.coefficient < 0))

end IndexQuery.Decimal
