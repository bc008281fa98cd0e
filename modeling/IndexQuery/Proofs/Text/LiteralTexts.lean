import IndexQuery.Expr.Render
import IndexQuery.Proofs.Number.Positional

/-! The text of a literal says what it means: a quoted text ends at its own closing quote, whatever comes
behind it, and literals have one text only if they are equal or one number. -/

namespace IndexQuery.Literal

section Quoted

/-- The character that a letter stands for behind a backslash. -/
def escaped : Char → Char
  | 'n' => '\n'
  | 'r' => '\r'
  | 't' => '\t'
  | plain => plain

/-- Reads a quoted text up to its closing quote, and gives what comes behind it as well. -/
def unquote? : List Char → Option (List Char × List Char)
  | [] => none
  | '"' :: behind => some ([], behind)
  | ['\\'] => none
  | '\\' :: letter :: rest =>
    (unquote? rest).map fun (text, behind) => (escaped letter :: text, behind)
  | c :: rest => (unquote? rest).map fun (text, behind) => (c :: text, behind)

/-- However it is written between quotes, a character is read as itself. -/
theorem unquote?_escape (c : Char) (rest : List Char) :
    unquote? (escape c ++ rest) = (unquote? rest).map fun (text, behind) => (c :: text, behind) := by
  unfold escape
  split
  case h_6 quote backslash _ _ _ =>
    -- A character without an escape is neither a quote nor a backslash.
    rw [List.singleton_append, unquote?]
    · exact quote
    · exact fun opens _ => backslash opens
    · exact fun _ _ opens _ => backslash opens
  all_goals rfl

/-- A quoted text ends at its closing quote, whatever comes behind it. -/
theorem unquote?_quoted (text behind : List Char) :
    unquote? (text.flatMap escape ++ '"' :: behind) = some (text, behind) := by
  -- Each character is read back from its escape, up to the closing quote.
  induction text with
  | nil => rfl
  | cons c text ih =>
    rw [List.flatMap_cons, List.append_assoc, unquote?_escape, ih]
    rfl

/-- The characters of a quoted text. -/
theorem toList_quote (text : String) :
    (quote text).toList = '"' :: (text.toList.flatMap escape ++ ['"']) := by
  rw [quote, String.toList_ofList]
  rfl

/-- Texts that begin with a quoted one begin with the same one, and go on alike. -/
theorem quote_append_inj {text other behind after : String}
    (same : quote text ++ behind = quote other ++ after) : text = other ∧ behind = after := by
  -- Reading takes the quoted text and leaves what stands behind it.
  have read (text behind : String) :
      unquote? (quote text ++ behind).toList.tail = some (text.toList, behind.toList) := by
    rw [String.toList_append, toList_quote, List.cons_append, List.tail_cons, List.append_assoc,
      List.singleton_append, unquote?_quoted]
  have both := read text behind
  rw [same, read, Option.some.injEq, Prod.mk.injEq] at both
  exact ⟨String.toList_inj.mp both.1.symm, String.toList_inj.mp both.2.symm⟩

/-- Characters that have no place between quotes as they are. -/
def Raw (c : Char) : Prop := c = '\n' ∨ c = '\r' ∨ c = '\t'

/-- What is written for a character has a place between quotes. -/
theorem not_raw_of_mem_escape {c written : Char} (among : written ∈ escape c) : ¬ Raw written := by
  unfold escape at among
  split at among
  case h_6 newline carriage tab =>
    obtain rfl := List.mem_singleton.mp among
    exact fun raw => raw.elim newline fun raw => raw.elim carriage tab
  -- An escape is a backslash and a letter.
  all_goals
    unfold Raw
    obtain rfl | rfl := List.mem_pair.mp among
    all_goals decide

/-- A quoted text stands on one line, and has no gap in it. -/
theorem not_raw_of_mem_quote {text : String} {c : Char} (among : c ∈ (quote text).toList) :
    ¬ Raw c := by
  -- The quotes are no control characters, and what stands between them is escaped.
  have quoted : ¬ Raw '"' := by
    unfold Raw
    decide
  rw [toList_quote] at among
  obtain rfl | among := List.mem_cons.mp among
  · exact quoted
  obtain among | among := List.mem_append.mp among
  · obtain ⟨read, -, written⟩ := List.mem_flatMap.mp among
    exact not_raw_of_mem_escape written
  · exact List.mem_singleton.mp among ▸ quoted

end Quoted

section Meaning

/-- What the text of a literal means; a whole number and a decimal are numbers alike. -/
inductive Meaning where
  | null
  | boolean (value : Bool)
  | number (value : ℚ)
  | string (value : String)

/-- What a literal means. -/
def meaning : Literal → Meaning
  | .null => .null
  | .boolean value => .boolean value
  | .integer value => .number value.toInt
  | .decimal value => .number value.value
  | .string value => .string value

/-- Reads what a text means: a positional number, a word or a quoted text with nothing behind it. -/
def read? (text : List Char) : Option Meaning :=
  match Positional.read? text with
  | some number => some (.number number)
  | none =>
    if text = "null".toList then some .null
    else if text = "true".toList then some (.boolean true)
    else if text = "false".toList then some (.boolean false)
    else
      match unquote? text.tail with
      | some (value, []) => some (.string (String.ofList value))
      | _ => none

/-- The text of a literal reads as what the literal means. -/
theorem read?_render (literal : Literal) :
    read? literal.render.toList = some literal.meaning := by
  cases literal with
  | null => rfl
  | boolean value => cases value <;> rfl
  | integer value =>
    rw [render, read?, Positional.read?_repr]
    rfl
  | decimal value =>
    rw [render, read?, Decimal.read?_render]
    rfl
  -- A quoted text is no number, and nothing stands behind it.
  | string value =>
    have text := unquote?_quoted value.toList []
    have number : Positional.read? (quote value).toList = none := by
      rw [toList_quote]
      rfl
    rw [render, read?, number, toList_quote]
    simp [text, meaning]

variable {a b : Literal}

/-- One literal is a whole number, and the other a decimal of its value. -/
inductive SameNumber : Literal → Literal → Prop
  | whole {whole : Int64} {number : Decimal} (same : number.value = whole.toInt) :
    SameNumber (.integer whole) (.decimal number)
  | decimal {whole : Int64} {number : Decimal} (same : number.value = whole.toInt) :
    SameNumber (.decimal number) (.integer whole)

/-- Literals of one meaning are equal or one number. -/
theorem alike_of_meaning (same : a.meaning = b.meaning) :
    a.normalize = b.normalize ∨ SameNumber a b := by
  -- Literals of different kinds have different meanings, but for the two kinds of numbers.
  cases a with
  | null =>
    cases b with
    | null => exact .inl rfl
    | _ => cases same
  | boolean value =>
    cases b with
    | boolean other =>
      cases same
      exact .inl rfl
    | _ => cases same
  | integer whole =>
    cases b with
    | integer other =>
      have numbers : (whole.toInt : ℚ) = other.toInt := Meaning.number.inj same
      exact .inl (congrArg (fun whole => normalize (.integer whole))
        (Int64.toInt_inj.mp (Int.cast_injective numbers)))
    | decimal number => exact .inr (.whole (Meaning.number.inj same).symm)
    | _ => cases same
  | decimal number =>
    cases b with
    | integer whole => exact .inr (.decimal (Meaning.number.inj same))
    | decimal other =>
      exact .inl (congrArg Literal.decimal (Decimal.normalize_eq_iff.mpr (Meaning.number.inj same)))
    | _ => cases same
  | string text =>
    cases b with
    | string other =>
      cases same
      exact .inl rfl
    | _ => cases same

/-- A decimal with the value of a whole number has its text. -/
theorem render_decimal_eq {number : Decimal} {whole : Int64} (same : number.value = whole.toInt) :
    number.render = whole.toInt.repr := by
  rw [← String.toList_inj, Positional.toList_repr]
  exact Decimal.toList_render_of_value (.inl rfl) (by rw [same, pow_zero, div_one])

/-- The shortest form of a literal has its text. -/
theorem render_normalize (literal : Literal) : literal.normalize.render = literal.render := by
  -- Only decimals have more than one form.
  cases literal with
  | decimal number => exact Decimal.render_eq_iff.mpr number.value_normalize
  | _ => rfl

/-- Literals have one text exactly if they are equal or one number. -/
theorem render_eq_iff : a.render = b.render ↔ a.normalize = b.normalize ∨ SameNumber a b := by
  constructor
  -- The text is read back as the meaning.
  · intro same
    have meanings : some a.meaning = some b.meaning := by rw [← read?_render, same, read?_render]
    exact alike_of_meaning (Option.some.inj meanings)
  -- Neither normalizing nor the kind of a number shows in the text.
  · intro alike
    cases alike with
    | inl equal => rw [← render_normalize a, equal, render_normalize]
    | inr number =>
      cases number with
      | whole same => exact (render_decimal_eq same).symm
      | decimal same => exact render_decimal_eq same

end Meaning

/-- The text of a constant is unambiguous, whatever type is declared for it. A text ends where the string
in front of it does, and a string stands on one line; constants have one text only if they are equal or
one number; and the text of a decimal is a positional number that denotes its value exactly, with no zero
in the last place and a sign on negative numbers alone. -/
theorem constant_texts_unambiguous {Label : Type} (label other : Label) (type declared : ValueType) :
    (∀ text text' behind behind' : String,
      (Expr.constant label (.string text) type).render ++ behind =
        (Expr.constant other (.string text') declared).render ++ behind' →
      text = text' ∧ behind = behind') ∧
    (∀ text, ∀ c ∈ (Expr.constant label (.string text) type).render.toList, ¬ Raw c) ∧
    (∀ a b : Literal,
      (Expr.constant label a type).render = (Expr.constant other b declared).render ↔
        a.normalize = b.normalize ∨ SameNumber a b) ∧
    (∀ number number' : Decimal,
      number.normalize = number'.normalize ↔ number.value = number'.value) ∧
    ∀ number : Decimal,
      Positional.read? (decimal number).render.toList = some number.value ∧
      ('.' ∈ (decimal number).render.toList →
        (decimal number).render.toList.getLast? ≠ some '0') ∧
      ((decimal number).render.toList.head? = some '-' ↔ number.value < 0) :=
  ⟨fun _ _ _ _ => quote_append_inj, fun _ _ => not_raw_of_mem_quote, fun _ _ => render_eq_iff,
    fun _ _ => Decimal.normalize_eq_iff,
    fun number => ⟨number.read?_render, number.getLast?_render, number.head?_render⟩⟩

/-- Two decimal places, of which one is needed. -/
def debit : Decimal := ⟨-150, 2, by decide, by decide⟩

/-- Two decimal places, of which none is needed. -/
def five : Decimal := ⟨500, 2, by decide, by decide⟩

/-- A quote behind a literal is not one inside it, and a backslash at its end does not take it in; a whole
number has the text of a decimal of its value, and the places that are not needed are not written. -/
theorem constant_texts_unambiguous_quotes :
    (string "a").render ++ "\"" ≠ (string "a\"").render ++ "" ∧
      (string ("a".push '\\')).render ++ "\"" = (string "a\\").render ++ "\"" ∧
      "a".push '\\' = "a\\" ∧
      (integer 5).render = (decimal five).render ∧
      Positional.read? (decimal debit).render.toList = some (-3 / 2) ∧
      '.' ∈ (decimal debit).render.toList ∧
      (decimal debit).render.toList.getLast? ≠ some '0' := by
  obtain ⟨apart, -, alike, -, numbers⟩ := constant_texts_unambiguous () () .string .number
  have again : (string ("a".push '\\')).render ++ "\"" = (string "a\\").render ++ "\"" := rfl
  have whole : five.value = (5 : Int64).toInt := by
    show ((500 : Int) : ℚ) / 10 ^ 2 = ((5 : Int) : ℚ)
    norm_num
  have part : debit.value = -3 / 2 := by
    show ((-150 : Int) : ℚ) / 10 ^ 2 = -3 / 2
    norm_num
  have point : '.' ∈ (decimal debit).render.toList := by decide +kernel
  -- Texts that differ cannot be made equal by what is put behind them.
  refine ⟨?_, again, (apart _ _ _ _ again).1, (alike _ _).mpr (.inr (.whole whole)), ?_, point,
    (numbers debit).2.1 point⟩
  · intro same
    exact absurd (apart _ _ _ _ same).1 (by decide)
  · rw [(numbers debit).1, part]

end IndexQuery.Literal
