import IndexQuery.Number.Binary64
import IndexQuery.Number.Digits

/-! The fewest decimal digits that read back as a binary number, and the text made of them. -/

namespace IndexQuery.Binary64

/-- A positive number in decimal: `coefficient * 10 ^ exponent`. -/
structure DecimalForm where
  coefficient : Nat
  exponent : Int

namespace DecimalForm

/-- The power of ten of the first digit. -/
def leading (form : DecimalForm) : Int := form.exponent + Digits.count form.coefficient - 1

end DecimalForm

/-- No finite number needs a decimal place beyond this one to show its first seventeen digits. -/
def places : Nat := 400

/-- The decimal of the given length nearest to the number, among those that read back as it. -/
def ofLength? (number : Binary64) (length : Nat) : Option DecimalForm :=
  -- One unit of the last digit kept is ten to the power `dropped` in units of the last place.
  let numerator := number.magnitude.1 * Nat.pow 10 places
  let denominator := number.magnitude.2
  let dropped := Digits.count (numerator / denominator) - length
  let below := numerator / (denominator * Nat.pow 10 dropped)
  let rest := numerator % (denominator * Nat.pow 10 dropped)
  let readsBack (coefficient : Nat) : Bool :=
    nearest? number.negative (coefficient * Nat.pow 10 dropped) (Nat.pow 10 places) = some number
  let form (coefficient : Nat) : DecimalForm :=
    -- A carry out of the only digit is one unit of the place above it.
    if coefficient = 10 then ⟨1, dropped - places + 1⟩ else ⟨coefficient, dropped - places⟩
  -- The number lies between two neighbours, and the nearer one counts if both read back.
  let lower := readsBack below
  let upper := readsBack (below + 1)
  if lower && upper then
    let twice := 2 * rest
    let unit := denominator * Nat.pow 10 dropped
    if twice < unit ∨ (twice = unit ∧ below % 2 = 0) then some (form below)
    else some (form (below + 1))
  else if lower then some (form below)
  else if upper then some (form (below + 1))
  else none

/-- The shortest decimal that reads back as a number other than zero. -/
def shortest (number : Binary64) : DecimalForm :=
  -- Seventeen digits always read back, so the search never comes out empty.
  ((List.range 17).findSome? fun fewer => number.ofLength? (fewer + 1)).getD ⟨0, 0⟩

/-- Positional text, always with a decimal place. -/
def positionalText (form : DecimalForm) : List Char :=
  let digits := Digits.plain form.coefficient
  if 0 ≤ form.exponent then digits ++ List.replicate form.exponent.toNat '0' ++ ['.', '0']
  else if 0 ≤ form.leading then
    digits.take (form.leading.toNat + 1) ++ '.' :: digits.drop (form.leading.toNat + 1)
  else ['0', '.'] ++ List.replicate (-form.leading - 1).toNat '0' ++ digits

/-- Text with a power of ten, whose sign is always written. -/
def scientificText (form : DecimalForm) : List Char :=
  let digits := Digits.plain form.coefficient
  let fraction := if digits.length = 1 then [] else '.' :: digits.drop 1
  let sign := if form.leading < 0 then '-' else '+'
  digits.take 1 ++ fraction ++ ['e', sign] ++ Digits.plain form.leading.natAbs

/-- Whether a number whose first digit has this power of ten is written positionally. -/
def isPositional (leading : Int) : Bool := -5 ≤ leading ∧ leading ≤ 15

/-- The text of a number: its shortest digits, positional from `0.00001` to below `1e+16`. -/
def text (number : Binary64) : String :=
  let digits :=
    if number.isZero then ['0', '.', '0']
    else
      let form := number.shortest
      if isPositional form.leading then positionalText form else scientificText form
  String.ofList (if number.negative then '-' :: digits else digits)

end IndexQuery.Binary64
