import IndexQuery.Encoding.Decode
import Mathlib.Tactic.NormNum
import Mathlib.Tactic.Ring

/-! Which numbers denote literals: whole numbers of 96 bits, and binary ones of a limited exponent. -/

namespace IndexQuery

namespace Digits

/-- A number has as many digits as the power of ten above it says. -/
theorem lt_pow_count (n : Nat) : n < 10 ^ count n :=
  (Nat.length_toDigits_le_iff (by decide) Nat.length_toDigits_pos).mp (Nat.le_refl _)

end Digits

/-- Whether a number can be kept as an exact decimal: its first digit stands at most 28 places from the
point, and without decimal places it fits 96 bits. -/
def JsonNumber.Supported : JsonNumber → Prop
  | .integer value => value.natAbs < 2 ^ 96
  | .float value =>
    value.isZero = true ∨ value.shortest.leading.natAbs ≤ 28 ∧
      value.shortest.coefficient * 10 ^ value.shortest.exponent.toNat < 2 ^ 96

namespace Binary64

/-- A carry out of the only digit makes the digits fewer. -/
theorem carry_le (coefficient : Nat) (exponent : Int) :
    (if coefficient = 10 then (⟨1, exponent + 1⟩ : DecimalForm)
      else ⟨coefficient, exponent⟩).coefficient ≤ coefficient := by
  -- Only ten carries, and it becomes one.
  split
  · rename_i ten
    exact ten ▸ Nat.one_le_ofNat
  · exact Nat.le_refl _

/-- What is found of some length has no more digits, or is the power of ten above them. -/
theorem coefficient_le_of_length {number : Binary64} {length : Nat} {form : DecimalForm}
    (found : number.ofLength? length = some form) : form.coefficient ≤ 10 ^ length := by
  unfold ofLength? at found
  extract_lets numerator denominator dropped below rest readsBack make lower upper twice unit at found
  -- The digits that are dropped are those by which the number is longer.
  have few : below < 10 ^ length := by
    have enough : Digits.count (numerator / denominator) ≤ dropped + length :=
      Nat.le_add_of_sub_le (Nat.le_refl _)
    clear_value dropped numerator denominator
    have whole : numerator / denominator < 10 ^ dropped * 10 ^ length := by
      rw [← Nat.pow_add]
      exact Nat.lt_of_lt_of_le (Digits.lt_pow_count _) (Nat.pow_le_pow_right (by decide) enough)
    show numerator / (denominator * 10 ^ dropped) < 10 ^ length
    rw [← Nat.div_div_eq_div_mul]
    exact Nat.div_lt_of_lt_mul whole
  have carried (coefficient : Nat) : (make coefficient).coefficient ≤ coefficient := carry_le _ _
  clear_value lower upper make twice unit
  -- Whichever neighbour is taken, it has at most one unit more than the lower one.
  have first := Nat.le_trans (carried below) (Nat.le_of_lt few)
  have second := Nat.le_trans (carried (below + 1)) few
  split at found
  · split at found
    · exact Option.some.inj found ▸ first
    · exact Option.some.inj found ▸ second
  · split at found
    · exact Option.some.inj found ▸ first
    · split at found
      · exact Option.some.inj found ▸ second
      · cases found

/-- The shortest form has seventeen digits at most, or is a power of ten above them. -/
theorem coefficient_shortest_le (number : Binary64) : number.shortest.coefficient ≤ 10 ^ 17 := by
  -- A shortest form has at most seventeen digits, and without one the coefficient is zero.
  rw [shortest]
  cases found : (List.range 17).findSome? fun fewer => number.ofLength? (fewer + 1) with
  | none => simp
  | some form =>
    obtain ⟨fewer, among, found⟩ := List.exists_of_findSome?_eq_some found
    have few := List.mem_range.mp among
    exact Nat.le_trans (coefficient_le_of_length found)
      (Nat.pow_le_pow_right (by decide) (by omega))

/-- Rounding a quotient gives no more than the dividend, if it divides by more than one. -/
theorem roundHalfUp_le (numerator : Nat) {denominator : Nat} (more : 1 < denominator) :
    roundHalfUp numerator denominator ≤ numerator := by
  -- Dividing by two or more at least halves, which makes up for rounding up.
  rw [roundHalfUp]
  have half : denominator / (2 * denominator) = 0 := Nat.div_eq_of_lt (by omega)
  cases numerator with
  | zero => rw [Nat.mul_zero, Nat.zero_add, half]
  | succ rest =>
    refine Nat.div_le_of_le_mul ?_
    have grown : 2 * rest ≤ denominator * rest := Nat.mul_le_mul_right rest more
    have split : 2 * denominator * (rest + 1) = 2 * (denominator * rest) + 2 * denominator := by ring
    omega

end Binary64

namespace Decimal

/-- Digits and a scale are those of a decimal if they are in range. -/
theorem isSome_ofParts? (coefficient : Int) (scale : Nat) :
    (ofParts? coefficient scale).isSome = true ↔ coefficient.natAbs < 2 ^ 96 ∧ scale ≤ 28 := by
  -- Both bounds are what is checked.
  unfold ofParts?
  split
  · rename_i bounds
    simpa using bounds
  · rename_i out
    simpa using out

/-- A form is that of a decimal if its digits in front of the point fit 96 bits. -/
theorem isSome_ofForm? (negative : Bool) {coefficient : Nat} (exponent : Int)
    (few : coefficient < 2 ^ 96) :
    (ofForm? negative coefficient exponent).isSome = true ↔
      coefficient * 10 ^ exponent.toNat < 2 ^ 96 := by
  have signed (digits : Nat) : (if negative then -(digits : Int) else digits).natAbs = digits := by
    split <;> simp
  simp only [ofForm?]
  split
  · rw [isSome_ofParts?, signed]
    simp
  · rename_i negativeExponent
    have none : exponent.toNat = 0 := by omega
    rw [none, Nat.pow_zero, Nat.mul_one]
    split
    · rename_i kept
      rw [isSome_ofParts?, signed]
      simp [kept]
    -- Rounding does not make the digits more.
    · rename_i dropped
      rw [isSome_ofParts?, signed]
      have more : 1 < Nat.pow 10 ((-exponent).toNat - 28) := Nat.one_lt_pow (by omega) (by decide)
      have less := Binary64.roundHalfUp_le coefficient more
      exact ⟨fun _ => few, fun _ => ⟨Nat.lt_of_le_of_lt less few, Nat.le_refl _⟩⟩

/-- A binary number other than zero has an exact decimal if its digits are in range. -/
theorem isSome_ofBinary64? {number : Binary64} (nonzero : number.isZero = false) :
    (ofBinary64? number).isSome = true ↔ number.shortest.leading.natAbs ≤ 28 ∧
      number.shortest.coefficient * 10 ^ number.shortest.exponent.toNat < 2 ^ 96 := by
  have digits := number.coefficient_shortest_le
  rw [ofBinary64?, if_neg (by simp [nonzero])]
  dsimp only
  generalize number.shortest = form at digits ⊢
  by_cases far : 28 < form.leading.natAbs
  · simp [far]
  rw [if_neg far]
  have near : form.leading.natAbs ≤ 28 := by omega
  have wide : form.coefficient < 2 ^ 96 := Nat.lt_of_le_of_lt digits (by norm_num)
  split
  · rename_i written
    obtain ⟨positional, whole⟩ := written
    have leading : form.leading ≤ 15 := by
      simpa using (of_decide_eq_true positional).2
    rw [Binary64.DecimalForm.leading] at leading
    -- Positional text in front of the point has sixteen digits at most, and one is added.
    have short : form.coefficient * 10 ^ (form.exponent.toNat + 1) < 2 ^ 96 := calc
      form.coefficient * 10 ^ (form.exponent.toNat + 1)
      _ < 10 ^ Digits.count form.coefficient * 10 ^ (form.exponent.toNat + 1) :=
          Nat.mul_lt_mul_of_pos_right (Digits.lt_pow_count _) (Nat.pow_pos (by decide))
      _ = 10 ^ (Digits.count form.coefficient + (form.exponent.toNat + 1)) := (Nat.pow_add ..).symm
      _ ≤ 10 ^ 17 := Nat.pow_le_pow_right (by decide) (by omega)
      _ < 2 ^ 96 := by norm_num
    have fewer : form.coefficient * 10 ^ form.exponent.toNat < 2 ^ 96 :=
      Nat.lt_of_le_of_lt
        (Nat.mul_le_mul_left _ (Nat.pow_le_pow_right (by decide) (Nat.le_succ _))) short
    have held : (ofForm? number.negative (form.coefficient * Nat.pow 10 (form.exponent.toNat + 1))
        (-1)).isSome = true := (isSome_ofForm? _ _ short).mpr (by simpa using short)
    exact ⟨fun _ => ⟨near, fewer⟩, fun _ => held⟩
  · rw [isSome_ofForm? _ _ wide]
    simp [near]

end Decimal

namespace Encoding

/-- A whole number denotes a literal if its digits fit a decimal. -/
theorem isSome_literalOfInteger (value : Int) :
    (literalOfNumber (.integer value)).toOption.isSome = (Decimal.ofParts? value 0).isSome := by
  -- The two literals for integers differ in size only, and either way the decimal is accepted.
  simp only [literalOfNumber]
  cases Decimal.ofParts? value 0 with
  | none => rfl
  | some decimal =>
    dsimp only
    split <;> rfl

/-- Any other number denotes a literal if it has an exact decimal. -/
theorem isSome_literalOfFloat (value : Binary64) :
    (literalOfNumber (.float value)).toOption.isSome = (Decimal.ofBinary64? value).isSome := by
  simp only [literalOfNumber]
  cases Decimal.ofBinary64? value <;> rfl

/-- The numbers that denote a literal are the supported ones. -/
theorem isSome_literalOfNumber (number : JsonNumber) :
    (literalOfNumber number).toOption.isSome = true ↔ number.Supported := by
  -- An integer has no decimal places, and a zero has no coefficient to speak of.
  cases number with
  | integer value =>
    rw [isSome_literalOfInteger, Decimal.isSome_ofParts?, JsonNumber.Supported]
    exact and_iff_left (Nat.zero_le _)
  | float value =>
    rw [isSome_literalOfFloat, JsonNumber.Supported]
    cases zero : value.isZero with
    | true => simp [Decimal.ofBinary64?, zero, Decimal.isSome_ofParts?]
    | false => simp [Decimal.isSome_ofBinary64? zero]

end Encoding

end IndexQuery
