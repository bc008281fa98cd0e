/-! Finite binary numbers of 53 bits of precision, and rounding to the nearest of them. -/

namespace IndexQuery

/-- The number `±mantissa * 2 ^ exponent`; zero has a sign of its own. -/
structure Binary64 where
  negative : Bool
  mantissa : Nat
  exponent : Int
  /-- The mantissa has 53 bits. -/
  mantissa_lt : mantissa < Nat.pow 2 53
  /-- Exponents stay in range. -/
  exponent_range : -1074 ≤ exponent ∧ exponent ≤ 971
  /-- A number is written in one way: only the smallest exponent admits leading zero bits. -/
  leading_bit : Nat.pow 2 52 ≤ mantissa ∨ exponent = -1074
deriving DecidableEq

namespace Binary64

/-- The quotient of two natural numbers rounded to a whole number, a half going to the even one. -/
def roundToEven (numerator denominator : Nat) : Nat :=
  let quotient := numerator / denominator
  let twice := 2 * (numerator % denominator)
  if twice < denominator ∨ (twice = denominator ∧ quotient % 2 = 0) then quotient
  else quotient + 1

/-- The quotient of two natural numbers rounded to a whole number, a half going upwards. -/
def roundHalfUp (numerator denominator : Nat) : Nat :=
  (2 * numerator + denominator) / (2 * denominator)

/-- The two sides of a fraction multiplied by a power of two. -/
def scaleByTwo (exponent : Int) (numerator denominator : Nat) : Nat × Nat :=
  (numerator * Nat.pow 2 exponent.toNat, denominator * Nat.pow 2 (-exponent).toNat)

/-- The exponent of the grid on which a positive fraction is rounded. -/
def gridExponent (numerator denominator : Nat) : Int :=
  -- The estimate is at most one above the position of the leading bit.
  let estimate : Int := (Nat.log2 numerator : Int) - Nat.log2 denominator
  let scaled := scaleByTwo (-estimate) numerator denominator
  let leading := if scaled.2 ≤ scaled.1 then estimate else estimate - 1
  max (leading - 52) (-1074)

/-- The number with the given parts, when they are in range and in the one form. -/
def ofParts? (negative : Bool) (mantissa : Nat) (exponent : Int) : Option Binary64 :=
  if form : mantissa < Nat.pow 2 53 ∧ (-1074 ≤ exponent ∧ exponent ≤ 971) ∧
      (Nat.pow 2 52 ≤ mantissa ∨ exponent = -1074) then
    some ⟨negative, mantissa, exponent, form.1, form.2.1, form.2.2⟩
  else none

/-- Zero, with a sign. -/
def zero (negative : Bool) : Binary64 :=
  ⟨negative, 0, -1074, by decide, by decide, Or.inr rfl⟩

/-- The nearest number to a signed fraction, ties to even; a fraction beyond the range has none. -/
def nearest? (negative : Bool) (numerator denominator : Nat) : Option Binary64 :=
  if numerator = 0 then some (zero negative)
  else
    let exponent := gridExponent numerator denominator
    let scaled := scaleByTwo (-exponent) numerator denominator
    let mantissa := roundToEven scaled.1 scaled.2
    -- Rounding up to 53 bits and one more is a power of two, on the next grid.
    if mantissa = Nat.pow 2 53 then ofParts? negative (Nat.pow 2 52) (exponent + 1)
    else ofParts? negative mantissa exponent

/-- The nearest number to a natural number. -/
def ofNat? (n : Nat) : Option Binary64 := nearest? false n 1

/-- The magnitude as a fraction. -/
def magnitude (number : Binary64) : Nat × Nat :=
  scaleByTwo number.exponent number.mantissa 1

/-- Whether the number is zero, of either sign. -/
def isZero (number : Binary64) : Bool := number.mantissa = 0

/-- The same magnitude with the given sign. -/
def withSign (number : Binary64) (negative : Bool) : Binary64 := { number with negative }

/-- The rounded quotient of two magnitudes. -/
def divide? (left right : Binary64) : Option Binary64 :=
  nearest? false (left.magnitude.1 * right.magnitude.2) (left.magnitude.2 * right.magnitude.1)

/-- The rounded sum of two magnitudes. -/
def add? (left right : Binary64) : Option Binary64 :=
  nearest? false (left.magnitude.1 * right.magnitude.2 + right.magnitude.1 * left.magnitude.2)
    (left.magnitude.2 * right.magnitude.2)

/-- The rounded product of two magnitudes. -/
def multiply? (left right : Binary64) : Option Binary64 :=
  nearest? false (left.magnitude.1 * right.magnitude.1) (left.magnitude.2 * right.magnitude.2)

/-- The magnitude rounded to a whole number, a half going away from zero. -/
def round? (number : Binary64) : Option Binary64 :=
  ofNat? (roundHalfUp number.magnitude.1 number.magnitude.2)

end Binary64

end IndexQuery
