import IndexQuery.Number.Shortest

/-! Numbers of structured text: whole numbers of 64 bits, and binary numbers for all others. -/

namespace IndexQuery

/-- A number as its literal denotes it. -/
inductive JsonNumber where
  /-- A whole number that fits 64 bits, with a sign or without. -/
  | integer (value : Int)
  /-- The binary number nearest to any other literal. -/
  | float (value : Binary64)
deriving DecidableEq

namespace JsonNumber

/-- The text of a number. -/
def text : JsonNumber → String
  | .integer value => value.repr
  | .float value => value.text

/-- The binary number nearest to digits times a power of ten; beyond the range there is none. -/
def nearestDecimal? (negative : Bool) (digits : Nat) (exponent : Int) : Option Binary64 :=
  -- Far outside the range the answer is known, and the power would be too long to write.
  let leading := exponent + Digits.count digits
  if digits = 0 ∨ leading < -400 then some (Binary64.zero negative)
  else if 400 < leading then none
  else
    Binary64.nearest? negative (digits * Nat.pow 10 exponent.toNat) (Nat.pow 10 (-exponent).toNat)

/-- The number of a literal without fraction and exponent. -/
def ofDigits? (negative : Bool) (magnitude : Nat) : Option JsonNumber :=
  if negative then
    -- Zero with a sign is no whole number.
    if 0 < magnitude ∧ magnitude ≤ Nat.pow 2 63 then some (.integer (-magnitude))
    else (nearestDecimal? true magnitude 0).map .float
  else if magnitude < Nat.pow 2 64 then some (.integer magnitude)
  else (nearestDecimal? false magnitude 0).map .float

/-- The value of the whole part of a literal: no leading zeros. -/
def wholePart? : List Char → Option Nat
  | '0' :: _ :: _ => none
  | digits => Digits.read? digits

/-- The value of the exponent of a literal, after its mark. -/
def exponentPart? : List Char → Option Int
  | '-' :: digits => (Digits.read? digits).map fun magnitude => -magnitude
  | '+' :: digits => (Digits.read? digits).map fun magnitude => magnitude
  | digits => (Digits.read? digits).map fun magnitude => magnitude

/-- Whether a character starts an exponent. -/
def isExponentMark (c : Char) : Bool := c = 'e' || c = 'E'

/-- The number of an unsigned literal with the given sign. -/
def ofUnsigned? (negative : Bool) (text : List Char) : Option JsonNumber := do
  let (mantissa, rest) := text.span fun c => !isExponentMark c
  let (whole, fraction) := mantissa.span (· ≠ '.')
  let wholeValue ← wholePart? whole
  match fraction, rest with
  -- Without a point and an exponent the literal is a whole number, if it is not too long.
  | [], [] => ofDigits? negative wholeValue
  | _, _ =>
    let places := fraction.drop 1
    let digits ← if fraction = [] then pure wholeValue
      else (Digits.read? places).map fun _ => Digits.value (whole ++ places)
    let exponent ← if rest = [] then pure 0 else exponentPart? (rest.drop 1)
    return .float (← nearestDecimal? negative digits (exponent - places.length))

/-- The number that a literal denotes, for a literal of the number grammar. -/
def ofText? : List Char → Option JsonNumber
  | '-' :: text => ofUnsigned? true text
  | text => ofUnsigned? false text

end JsonNumber

end IndexQuery
