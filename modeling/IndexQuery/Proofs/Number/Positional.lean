import IndexQuery.Number.Decimal
import Mathlib.Data.Rat.Cast.Order
import Mathlib.Tactic.NormNum
import Mathlib.Tactic.Positivity

/-! The text of a decimal is a positional number that denotes its value exactly: its last decimal place is
not zero, and only a negative number has a sign. -/

namespace IndexQuery

namespace Digits

variable {digits : List Char} {width n : Nat}

/-- Digits spell their number. -/
theorem read?_digits (nonempty : digits ≠ []) (isDigits : ∀ c ∈ digits, c.isDigit = true) :
    read? digits = some (value digits) := if_pos ⟨nonempty, List.all_eq_true.mpr isDigits⟩

/-- The digits of a number are digits. -/
theorem isDigit_of_mem_plain : ∀ c ∈ plain n, c.isDigit = true :=
  fun _ => Nat.isDigit_of_mem_toDigits (by decide) (by decide)

/-- The digits of a number spell it. -/
@[simp] theorem read?_plain (n : Nat) : read? (plain n) = some n := by
  -- Digits are read as the number that they spell.
  have spelled : read? (plain n) = some (value (plain n)) :=
    read?_digits Nat.toDigits_ne_nil isDigit_of_mem_plain
  rw [spelled]
  exact congrArg some Nat.ofDigitChars_ten_toDigits

/-- A fixed width is kept. -/
@[simp] theorem length_fixed (width n : Nat) : (fixed width n).length = width := by
  -- Each step writes the last digit of what is left.
  induction width generalizing n with
  | zero => rfl
  | succ width ih => rw [fixed, List.length_append, ih, List.length_singleton]

/-- The digits of a fixed width are digits. -/
theorem isDigit_of_mem_fixed : ∀ c ∈ fixed width n, c.isDigit = true := by
  induction width generalizing n with
  | zero => simp [fixed]
  | succ width ih =>
    have last : (Nat.digitChar (n % 10)).isDigit = true := by
      rw [Nat.isDigit_digitChar, decide_eq_true_iff]
      omega
    -- The digit that is added stands behind those of the shorter spelling.
    intro c among
    obtain before | rfl := List.mem_append.mp among |>.imp_right List.mem_singleton.mp
    · exact ih c before
    · exact last

/-- One more digit is pushed onto what the others spell. -/
theorem value_concat (digits : List Char) (last : Char) :
    value (digits ++ [last]) = push (value digits) last := by
  -- The digits are folded from the left, so the last one is pushed last.
  rw [value, List.foldl_append]
  rfl

/-- A digit is pushed by its value. -/
theorem push_digitChar (number : Nat) {digit : Nat} (small : digit < 10) :
    push number (Nat.digitChar digit) = 10 * number + digit := by
  -- A digit is pushed by its distance from the character zero.
  show 10 * number + ((Nat.digitChar digit).toNat - 48) = 10 * number + digit
  rw [Nat.toNat_digitChar_sub_48_of_lt_ten small]

/-- Digits of a fixed width spell what is left of a number below a power of ten. -/
theorem value_fixed (width n : Nat) : value (fixed width n) = n % 10 ^ width := by
  -- A digit more keeps one more place of the number.
  induction width generalizing n with
  | zero =>
    rw [Nat.pow_zero, Nat.mod_one]
    rfl
  | succ width ih =>
    rw [fixed, value_concat, ih, push_digitChar _ (Nat.mod_lt n (by decide)), Nat.pow_succ',
      Nat.mod_mul, Nat.add_comm]

end Digits

namespace Positional

/-- The number of a positional text without a sign: digits, and behind a point digits again. -/
def magnitude? (text : List Char) : Option ℚ :=
  let whole := Digits.read? (text.takeWhile Char.isDigit)
  match text.dropWhile Char.isDigit with
  | [] => whole.map fun number : Nat => (number : ℚ)
  | '.' :: places =>
    whole.bind fun number : Nat => (Digits.read? places).map fun part : Nat =>
      (number : ℚ) + part / 10 ^ places.length
  | _ => none

/-- The number a positional text denotes. -/
def read? (text : List Char) : Option ℚ :=
  if text.head? = some '-' then (magnitude? text.tail).map fun number => -number
  else magnitude? text

/-- A coefficient with so many decimal places, as a positional text. -/
def signed (coefficient : Int) (scale : Nat) : List Char :=
  if coefficient < 0 then '-' :: Decimal.positional coefficient.natAbs scale
  else Decimal.positional coefficient.natAbs scale

variable {coefficient : Int} {scale : Nat}

/-- A positional text begins with the digits in front of the point. -/
theorem exists_positional_eq (magnitude scale : Nat) :
    ∃ behind, Decimal.positional magnitude scale = Digits.plain (magnitude / 10 ^ scale) ++ behind := by
  -- With or without places, the whole part comes first.
  cases scale with
  | zero => exact ⟨[], by rw [Nat.pow_zero, Nat.div_one, List.append_nil]; rfl⟩
  | succ places => exact ⟨_, rfl⟩

/-- A positional text begins with a digit. -/
theorem head?_positional_ne_sign (magnitude scale : Nat) :
    (Decimal.positional magnitude scale).head? ≠ some '-' := by
  -- The text starts with a digit of the whole part, which has at least one.
  obtain ⟨behind, text⟩ := exists_positional_eq magnitude scale
  rw [text, List.head?_append]
  cases digits : Digits.plain (magnitude / 10 ^ scale) with
  | nil => exact absurd digits Nat.toDigits_ne_nil
  | cons first rest =>
    have isDigit : first.isDigit = true := by
      refine Digits.isDigit_of_mem_plain (n := magnitude / 10 ^ scale) first ?_
      simp [digits]
    intro sign
    rw [List.head?_cons, Option.some_or, Option.some.injEq] at sign
    rw [sign] at isDigit
    exact absurd isDigit (by decide)

/-- The digits in front of a text are those up to its first character that is none. -/
theorem span_digits {digits behind : List Char} (isDigits : ∀ c ∈ digits, c.isDigit = true)
    (ends : ∀ c ∈ behind.head?, c.isDigit = false) :
    (digits ++ behind).takeWhile Char.isDigit = digits ∧
      (digits ++ behind).dropWhile Char.isDigit = behind := by
  -- The digits end where the other characters begin, or with the text.
  rw [List.takeWhile_append_of_pos isDigits, List.dropWhile_append_of_pos isDigits]
  cases behind with
  | nil => simp
  | cons c rest => simp [ends c rfl]

/-- Digits denote the number they spell. -/
theorem magnitude?_digits {digits : List Char} (isDigits : ∀ c ∈ digits, c.isDigit = true) :
    magnitude? digits = (Digits.read? digits).map fun number : Nat => (number : ℚ) := by
  -- Without a point the digits reach to the end of the text.
  have none : ∀ c ∈ ([] : List Char).head?, c.isDigit = false := by simp
  obtain ⟨front, behind⟩ := span_digits isDigits none
  rw [List.append_nil] at front behind
  rw [magnitude?, front, behind]

/-- Digits behind a point are those of a fraction. -/
theorem magnitude?_point {whole : List Char} (isDigits : ∀ c ∈ whole, c.isDigit = true)
    (places : List Char) :
    magnitude? (whole ++ '.' :: places) =
      (Digits.read? whole).bind fun number : Nat => (Digits.read? places).map fun part : Nat =>
        (number : ℚ) + part / 10 ^ places.length := by
  -- The point is no digit, so the whole part ends before it.
  have point : ∀ c ∈ ('.' :: places).head?, c.isDigit = false := by
    intro c first
    obtain rfl := Option.some.inj first
    decide
  obtain ⟨front, behind⟩ := span_digits isDigits point
  rw [magnitude?, front, behind]
  rfl

/-- A positional text denotes its digits over the power of ten. -/
theorem magnitude?_positional (magnitude scale : Nat) :
    magnitude? (Decimal.positional magnitude scale) = some ((magnitude : ℚ) / 10 ^ scale) := by
  cases scale with
  | zero =>
    have whole : Digits.read? (Digits.plain magnitude) = some magnitude := Digits.read?_plain _
    show magnitude? (Digits.plain magnitude) = _
    rw [magnitude?_digits Digits.isDigit_of_mem_plain, whole, Option.map_some, pow_zero, div_one]
  | succ scale =>
    show magnitude? (Digits.plain (magnitude / 10 ^ (scale + 1)) ++
      '.' :: Digits.fixed (scale + 1) magnitude) = _
    have nonempty : Digits.fixed (scale + 1) magnitude ≠ [] := by simp [Digits.fixed]
    rw [magnitude?_point Digits.isDigit_of_mem_plain, Digits.read?_plain,
      Digits.read?_digits nonempty Digits.isDigit_of_mem_fixed, Digits.value_fixed,
      Digits.length_fixed, Option.bind_some, Option.map_some]
    -- A quotient and its remainder make the dividend.
    have divided : ((10 ^ (scale + 1) * (magnitude / 10 ^ (scale + 1)) +
        magnitude % 10 ^ (scale + 1) : Nat) : ℚ) = magnitude :=
      congrArg _ (Nat.div_add_mod magnitude (10 ^ (scale + 1)))
    rw [Option.some.injEq, eq_div_iff (by positivity), add_mul, div_mul_cancel₀ _ (by positivity),
      mul_comm]
    exact_mod_cast divided

/-- With its sign, a positional text denotes its coefficient over the power of ten. -/
theorem read?_signed (coefficient : Int) (scale : Nat) :
    read? (signed coefficient scale) = some ((coefficient : ℚ) / 10 ^ scale) := by
  by_cases negative : coefficient < 0
  · have size : (coefficient.natAbs : ℚ) = -coefficient := by
      rw [Nat.cast_natAbs, abs_of_neg negative, Int.cast_neg]
    rw [signed, if_pos negative, read?, List.head?_cons, if_pos rfl, List.tail_cons,
      magnitude?_positional, size, Option.map_some, neg_div, neg_neg]
  -- Without a sign, the text begins with a digit.
  · have size : (coefficient.natAbs : ℚ) = coefficient := by
      rw [Nat.cast_natAbs, abs_of_nonneg (Int.not_lt.mp negative)]
    rw [signed, if_neg negative, read?, if_neg (head?_positional_ne_sign _ _),
      magnitude?_positional, size]

/-- The sign stands in front of negative coefficients alone. -/
theorem head?_signed (coefficient : Int) (scale : Nat) :
    (signed coefficient scale).head? = some '-' ↔ coefficient < 0 := by
  -- Only a negative number is written with a sign, and no magnitude starts with one.
  by_cases negative : coefficient < 0
  · simp [signed, negative]
  · rw [signed, if_neg negative]
    exact iff_of_false (head?_positional_ne_sign _ _) negative

/-- The digits of a whole number with its sign. -/
theorem toList_repr (number : Int) : number.repr.toList = signed number 0 := by
  -- Without places the positional text is the decimal spelling of the magnitude.
  rw [Int.repr_eq_if, signed]
  by_cases negative : number < 0
  · have size : (-number).toNat = number.natAbs := by omega
    rw [if_neg (Int.not_le.mpr negative), if_pos negative, String.toList_append, Nat.toList_repr,
      size]
    rfl
  · have size : number.toNat = number.natAbs := by omega
    rw [if_pos (Int.not_lt.mp negative), if_neg negative, Nat.toList_repr, size]
    rfl

/-- The text of a whole number denotes it. -/
theorem read?_repr (number : Int) : read? number.repr.toList = some (number : ℚ) := by
  -- A whole number is a signed one with no digits behind the point.
  rw [toList_repr, read?_signed, pow_zero, div_one]

/-- A point stands only in front of decimal places. -/
theorem scale_ne_zero (point : '.' ∈ signed coefficient scale) : scale ≠ 0 := by
  intro none
  -- Without them, everything behind the sign is a digit.
  have digit : '.' ∈ Digits.plain coefficient.natAbs := by
    rw [none, signed] at point
    split at point
    · exact (List.mem_cons.mp point).resolve_left (by decide)
    · exact point
  exact absurd (Digits.isDigit_of_mem_plain '.' digit) (by decide)

/-- Behind a point, the text ends in the last digit of the coefficient. -/
theorem getLast?_signed (point : '.' ∈ signed coefficient scale) :
    (signed coefficient scale).getLast? = some (Nat.digitChar (coefficient.natAbs % 10)) := by
  obtain ⟨places, rfl⟩ := Nat.exists_eq_succ_of_ne_zero (scale_ne_zero point)
  have unsigned : (Decimal.positional coefficient.natAbs (places + 1)).getLast? =
      some (Nat.digitChar (coefficient.natAbs % 10)) := by
    -- The digits behind the point are written with the last one at the end.
    show (Digits.plain _ ++ '.' :: (Digits.fixed places _ ++ [_])).getLast? = _
    rw [← List.cons_append, ← List.append_assoc, List.getLast?_concat]
  rw [signed]
  split
  · rw [List.getLast?_cons, unsigned, Option.getD_some]
  · exact unsigned

end Positional

namespace Decimal

/-- The number a decimal stands for. -/
def value (number : Decimal) : ℚ := (number.coefficient : ℚ) / 10 ^ number.scale

/-- Whether there are decimal places only down to a digit other than zero. -/
def Shortest (coefficient : Int) (scale : Nat) : Prop := scale = 0 ∨ coefficient % 10 ≠ 0

/-- No zero is left to be taken off. -/
theorem shortest_dropZeros (coefficient : Int) (scale : Nat) :
    Shortest (dropZeros coefficient scale).1 (dropZeros coefficient scale).2 := by
  -- Zeros are dropped until the last digit is another one or no place is left.
  induction scale generalizing coefficient with
  | zero => exact .inl rfl
  | succ scale ih =>
    rw [dropZeros]
    split
    · exact ih _
    · rename_i kept
      exact .inr kept

/-- Taking zeros off does not change the number. -/
theorem value_dropZeros (coefficient : Int) (scale : Nat) :
    ((dropZeros coefficient scale).1 : ℚ) / 10 ^ (dropZeros coefficient scale).2 =
      (coefficient : ℚ) / 10 ^ scale := by
  induction scale generalizing coefficient with
  | zero => rfl
  | succ scale ih =>
    rw [dropZeros]
    split
    -- A zero in the last place takes one place and one factor of ten with it.
    · rename_i zero
      have whole : ((10 * (coefficient / 10) : Int) : ℚ) = coefficient :=
        congrArg _ (Int.mul_ediv_cancel' (Int.dvd_of_emod_eq_zero zero))
      rw [ih, ← whole, Int.cast_mul, pow_succ', Int.cast_ofNat, mul_div_mul_left _ _ (by decide)]
    · rfl

/-- The last place of a shortest form is needed, so no other form of its number has fewer places. -/
theorem scale_le_of_shortest {coefficient other : Int} {scale places : Nat}
    (shortest : Shortest coefficient scale) (same : coefficient * 10 ^ places = other * 10 ^ scale) :
    scale ≤ places := by
  by_contra more
  -- With fewer places in the other form, the last digit of this one would be a zero.
  obtain ⟨extra, rfl⟩ : ∃ extra, scale = extra + 1 + places := ⟨scale - places - 1, by omega⟩
  rw [pow_add, ← mul_assoc] at same
  have ends : coefficient = 10 * (other * 10 ^ extra) := calc
    coefficient
    _ = other * 10 ^ (extra + 1) := Int.eq_of_mul_eq_mul_right (by positivity) same
    _ = 10 * (other * 10 ^ extra) := by rw [pow_succ', mul_left_comm]
  obtain none | nonzero := shortest
  · omega
  · omega

/-- A number has one shortest form. -/
theorem eq_of_shortest {coefficient other : Int} {scale places : Nat}
    (shortest : Shortest coefficient scale) (asShort : Shortest other places)
    (same : (coefficient : ℚ) / 10 ^ scale = (other : ℚ) / 10 ^ places) :
    coefficient = other ∧ scale = places := by
  -- Multiplied out, neither form can have more places than the other.
  have crossed : coefficient * 10 ^ places = other * 10 ^ scale := by
    rw [div_eq_div_iff (by positivity) (by positivity)] at same
    exact_mod_cast same
  have scales : scale = places :=
    Nat.le_antisymm (scale_le_of_shortest shortest crossed) (scale_le_of_shortest asShort crossed.symm)
  subst scales
  exact ⟨Int.eq_of_mul_eq_mul_right (by positivity) crossed, rfl⟩

variable {number other : Decimal}

/-- With the fewest decimal places, a decimal is in its shortest form. -/
theorem shortest_normalize (number : Decimal) :
    Shortest number.normalize.coefficient number.normalize.scale := shortest_dropZeros _ _

/-- With the fewest decimal places, a decimal stands for the same number. -/
@[simp] theorem value_normalize (number : Decimal) : number.normalize.value = number.value :=
  value_dropZeros _ _

/-- Decimals of one value are those with one shortest form. -/
theorem normalize_eq_iff : number.normalize = other.normalize ↔ number.value = other.value := by
  constructor
  -- Normalizing leaves the value.
  · intro same
    rw [← value_normalize number, same, value_normalize]
  -- There is only one shortest form of a value.
  · intro same
    rw [← value_normalize number, ← value_normalize other] at same
    obtain ⟨coefficients, scales⟩ :=
      eq_of_shortest number.shortest_normalize other.shortest_normalize same
    generalize number.normalize = first at coefficients scales
    generalize other.normalize = second at coefficients scales
    cases first
    cases second
    exact (mk.injEq ..).mpr ⟨coefficients, scales⟩

/-- The text of a decimal is that of its shortest form, with the sign in front. -/
theorem toList_render (number : Decimal) :
    number.render.toList =
      Positional.signed number.normalize.coefficient number.normalize.scale :=
  String.toList_ofList

/-- The text of a decimal is that of any shortest form of its value. -/
theorem toList_render_of_value {coefficient : Int} {scale : Nat}
    (shortest : Shortest coefficient scale)
    (same : number.value = (coefficient : ℚ) / 10 ^ scale) :
    number.render.toList = Positional.signed coefficient scale := by
  -- The text is that of the normalized form, which is the only shortest one.
  rw [← value_normalize] at same
  obtain ⟨coefficients, scales⟩ := eq_of_shortest number.shortest_normalize shortest same
  rw [toList_render, coefficients, scales]

/-- The text of a decimal denotes its value. -/
theorem read?_render (number : Decimal) :
    Positional.read? number.render.toList = some number.value := by
  -- Normalizing changes the digits written and not the value.
  rw [toList_render, Positional.read?_signed, ← value_normalize]
  rfl

/-- Decimals have one text exactly if they have one value. -/
theorem render_eq_iff : number.render = other.render ↔ number.value = other.value := by
  constructor
  -- The text is read back as the value.
  · intro same
    have values : some number.value = some other.value := by
      rw [← read?_render, same, read?_render]
    exact Option.some.inj values
  -- The text is that of the normalized form, and numbers of one value have the same.
  · intro same
    rw [← String.toList_inj, toList_render, toList_render, normalize_eq_iff.mpr same]

/-- The sign stands in front of negative numbers alone. -/
theorem head?_render (number : Decimal) :
    number.render.toList.head? = some '-' ↔ number.value < 0 := by
  -- Only the sign shows at the head, and the scale is positive.
  rw [toList_render, Positional.head?_signed, ← value_normalize, value, div_lt_iff₀ (by positivity),
    zero_mul, Int.cast_lt_zero]

/-- The last decimal place is not zero. -/
theorem getLast?_render (number : Decimal) (point : '.' ∈ number.render.toList) :
    number.render.toList.getLast? ≠ some '0' := by
  rw [toList_render] at point ⊢
  rw [Positional.getLast?_signed point]
  have last : number.normalize.coefficient % 10 ≠ 0 :=
    number.shortest_normalize.resolve_left (Positional.scale_ne_zero point)
  -- The digit that is written last has the value of the last digit.
  intro zero
  have digit := congrArg Char.toNat (Option.some.inj zero)
  rw [Nat.toNat_digitChar_of_lt_ten (by omega), show '0'.toNat = 48 from rfl] at digit
  omega

end Decimal

end IndexQuery
