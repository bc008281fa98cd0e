import IndexQuery.Template

/-! Filling a template is one substitution from left to right: every hole that names an argument becomes
the text of the argument, and every other character is copied once. -/

namespace IndexQuery.Template

/-- Digits that name an argument by its position. -/
structure Names (args : List String) (digits : String) : Prop where
  nonempty : digits ≠ ""
  digit : ∀ c ∈ digits.toList, c.isDigit = true
  below : Digits.value digits.toList < args.length

/-- The text of the argument that digits name. -/
def Names.text {args : List String} {digits : String} (names : Names args digits) : String :=
  args.get ⟨Digits.value digits.toList, names.below⟩

/-- The hole with the given digits. -/
def hole (digits : String) : String := "\x7b" ++ digits ++ "\x7d"

/-- Whether a text has a hole that names an argument. -/
def HasHole (args : List String) (text : String) : Prop :=
  ∃ before digits after, Names args digits ∧ text = before ++ hole digits ++ after

/-- A part of a template. -/
inductive Piece where
  /-- A text that stays. -/
  | copied (text : String)
  /-- A hole that is filled. -/
  | filled (digits : String)

namespace Piece

/-- What stands in the template. -/
def source : Piece → String
  | .copied text => text
  | .filled digits => hole digits

/-- What stands in the result. -/
def result (args : List String) : Piece → String
  | .copied text => text
  | .filled digits => args[Digits.value digits.toList]?.getD ""

/-- Whether no hole of a text that stays, and every hole that is filled, names an argument. -/
def Fits (args : List String) : Piece → Prop
  | .copied text => ¬ HasHole args text
  | .filled digits => Names args digits

end Piece

/-- The part of a text between two byte offsets, which there is only if both fall between characters. -/
def slice? (text : String) (start stop : Nat) : Option String :=
  if bounds : String.Pos.Raw.IsValid text ⟨start⟩ ∧ String.Pos.Raw.IsValid text ⟨stop⟩ then
    some (String.extract (text.pos ⟨start⟩ bounds.1) (text.pos ⟨stop⟩ bounds.2))
  else none

/-- Fills what is left of a template from a byte offset on. What turns out to be no hole is cut out of
the template by its offsets. -/
def fillFrom? (template : String) (args : List (List Char)) (start : Nat) :
    List Char → Option (List Char)
  | [] => some []
  | c :: rest =>
    if c = opening then
      let digits := rest.takeWhile Char.isDigit
      let after := rest.dropWhile Char.isDigit
      -- An opening takes one byte, and so does a digit.
      let stop := start + 1 + digits.length
      match if after.head? = some closing then argument? args digits else none with
      | some text => (fillFrom? template args (stop + 1) after.tail).map (text ++ ·)
      | none =>
        (slice? template start stop).bind fun kept =>
          (fillFrom? template args stop after).map (kept.toList ++ ·)
    else (fillFrom? template args (start + c.utf8Size) rest).map (c :: ·)
termination_by text => text.length
decreasing_by
  · have := (List.dropWhile_suffix Char.isDigit (l := rest)).length_le
    simp only [List.length_tail, List.length_cons]
    omega
  · have := (List.dropWhile_suffix Char.isDigit (l := rest)).length_le
    simp only [List.length_cons]
    omega
  · simp

/-- Fills a template by byte offsets. -/
def fillBySlices? (template : String) (args : List String) : Option String :=
  (fillFrom? template (args.map String.toList) 0 template.toList).map String.ofList

section Scan

variable {args : List (List Char)} {digits after : List Char}

/-- A character that opens no hole is copied. -/
theorem scan_copy {c : Char} (copied : c ≠ opening) (rest : List Char) :
    scan args none (c :: rest) = c :: scan args none rest := if_neg copied

/-- The digits of a hole are kept until it is closed. -/
theorem scan_digits (isDigits : ∀ c ∈ digits, c.isDigit = true) (begun after : List Char) :
    scan args (some begun) (digits ++ after) = scan args (some (begun ++ digits)) after := by
  -- Digits are collected one by one while the number goes on.
  induction digits generalizing begun with
  | nil => simp
  | cons c digits ih =>
    obtain ⟨isDigit, isDigits⟩ := List.forall_mem_cons.mp isDigits
    rw [List.cons_append, scan, if_pos isDigit, ih isDigits, List.append_assoc,
      List.singleton_append]

/-- A hole is opened, and its digits are kept. -/
theorem scan_opening (isDigits : ∀ c ∈ digits, c.isDigit = true) (after : List Char) :
    scan args none (opening :: (digits ++ after)) = scan args (some digits) after := by
  -- Behind the opening brace the digits are collected one after another.
  rw [scan, if_pos rfl, scan_digits isDigits, List.nil_append]

/-- A hole that names an argument is filled, and the scan goes on behind it. -/
theorem scan_closing {text : List Char} (named : argument? args digits = some text)
    (after : List Char) :
    scan args (some digits) (closing :: after) = text ++ scan args none after := by
  -- The number is complete, and what it names is written in place of the hole.
  rw [scan, if_neg (by decide), if_pos rfl, named]

/-- What turns out to be no hole is copied, and what comes next is looked at afresh. -/
theorem scan_unfilled (noDigit : ∀ c ∈ after.head?, ¬ c.isDigit = true)
    (unfilled : after.head? = some closing → argument? args digits = none) :
    scan args (some digits) after = opening :: digits ++ scan args none after := by
  cases after with
  | nil => simp [scan]
  | cons c rest =>
    -- Where the braces are closed, no argument has that number.
    have kept : (if c = closing then argument? args digits else none) = none := by
      split
      · rename_i closes
        exact unfilled (by rw [List.head?_cons, closes])
      · rfl
    show (if c.isDigit then scan args (some (digits ++ [c])) rest else _) = _
    rw [if_neg (noDigit c rfl), kept]
    rfl

/-- Whatever is left open in front of it, a hole that names an argument is filled. -/
theorem scan_append_hole {text : List Char} (isDigits : ∀ c ∈ digits, c.isDigit = true)
    (named : argument? args digits = some text) (before after : List Char)
    (open? : Option (List Char)) :
    scan args open? (before ++ opening :: (digits ++ closing :: after)) =
      scan args open? before ++ (text ++ scan args none after) := by
  -- The scan takes the same steps in front of the hole as it does without it.
  induction before generalizing open? with
  | nil =>
    have filled : scan args none (opening :: (digits ++ closing :: after)) =
        text ++ scan args none after := by
      rw [scan_opening isDigits, scan_closing named]
    cases open? with
    | none => exact filled
    | some begun =>
      rw [List.nil_append, scan_unfilled (by simp [opening]) (by simp [opening, closing]), filled, scan]
  | cons c before ih =>
    have copied : scan args none (c :: before ++ opening :: (digits ++ closing :: after)) =
        scan args none (c :: before) ++ (text ++ scan args none after) := by
      by_cases opens : c = opening
      · rw [List.cons_append, scan, if_pos opens, ih, scan, if_pos opens]
      · rw [List.cons_append, scan_copy opens, ih, scan_copy opens, List.cons_append]
    cases open? with
    | none => exact copied
    -- The next character goes on with the hole that is open, closes it or shows that it is none.
    | some begun =>
      by_cases isDigit : c.isDigit = true
      · rw [List.cons_append, scan, if_pos isDigit, ih, scan, if_pos isDigit]
      by_cases filled : c = closing ∧ (argument? args begun).isSome
      · obtain ⟨rfl, some⟩ := filled
        obtain ⟨inserted, found⟩ := Option.isSome_iff_exists.mp some
        rw [List.cons_append, scan_closing found, scan_closing found, ih, List.append_assoc]
      · have unfilled (rest : List Char) : (c :: rest).head? = some closing →
            argument? args begun = none := by
          intro closes
          simpa [Option.some.inj closes] using filled
        rw [List.cons_append, scan_unfilled (by simpa using isDigit) (unfilled _), ← List.cons_append,
          copied, scan_unfilled (by simpa using isDigit) (unfilled _), List.append_assoc]

/-- The characters of a hole that is still open. -/
def begun : Option (List Char) → List Char
  | none => []
  | some digits => opening :: digits

/-- A text without a hole that names an argument is copied. -/
theorem scan_of_no_hole {text : List Char} (open? : Option (List Char))
    (isDigits : ∀ digits ∈ open?, ∀ c ∈ digits, c.isDigit = true)
    (noHole : ∀ before digits after, (∀ c ∈ digits, c.isDigit = true) →
      begun open? ++ text = before ++ opening :: (digits ++ closing :: after) →
      argument? args digits = none) : scan args open? text = begun open? ++ text := by
  induction text generalizing open? with
  | nil => cases open? <;> simp [scan, begun]
  | cons c rest ih =>
    -- A hole further on is one of the whole text as well.
    have copied (noHole : ∀ before digits after, (∀ c ∈ digits, c.isDigit = true) →
        c :: rest = before ++ opening :: (digits ++ closing :: after) →
        argument? args digits = none) : scan args none (c :: rest) = c :: rest := by
      by_cases opens : c = opening
      · subst opens
        exact ih (some []) (by simp) noHole
      · rw [scan_copy opens, ih none (by simp)]
        · rfl
        · intro before digits after isDigits split
          exact noHole (c :: before) digits after isDigits (by rw [List.cons_append, ← split]; rfl)
    cases open? with
    | none => exact copied noHole
    -- If the next character is no digit, the hole that is open is copied, and so is what comes next.
    | some digits =>
      have isDigits := isDigits digits rfl
      by_cases isDigit : c.isDigit = true
      · have more : begun (some (digits ++ [c])) ++ rest = begun (some digits) ++ c :: rest := by
          simp [begun]
        rw [scan, if_pos isDigit, ih, more]
        · simpa [isDigit, or_imp, forall_and] using isDigits
        · rwa [more]
      · rw [scan_unfilled (by simpa using isDigit), copied]
        · rfl
        · intro before digits' after isDigits' split
          exact noHole (begun (some digits) ++ before) digits' after isDigits'
            (by rw [List.append_assoc, ← split])
        · intro closes
          refine noHole [] digits rest isDigits ?_
          rw [Option.some.inj closes]
          simp [begun]

end Scan

section Slices

/-- The offset behind the first part of a text falls between characters. -/
theorem isValid_append (before after : String) :
    String.Pos.Raw.IsValid (before ++ after) ⟨before.utf8ByteSize⟩ :=
  String.Pos.Raw.isValid_iff_exists_append.mpr ⟨before, after, rfl, rfl⟩

/-- The middle part of a text is cut out by its offsets. -/
theorem slice?_append (before middle after : String) :
    slice? (before ++ (middle ++ after)) before.utf8ByteSize
      (before.utf8ByteSize + middle.utf8ByteSize) = some middle := by
  -- Both offsets are boundaries between characters, so the bytes between them are those of the middle.
  have start := isValid_append before (middle ++ after)
  have stop := isValid_append (before ++ middle) after
  rw [String.append_assoc, String.utf8ByteSize_append] at stop
  rw [slice?, dif_pos ⟨start, stop⟩, Option.some.injEq, ← String.toByteArray_inj,
    String.toByteArray_extract, String.offset_pos, String.offset_pos, String.toByteArray_append,
    String.toByteArray_append]
  calc (before.toByteArray ++ (middle.toByteArray ++ after.toByteArray)).extract
        (before.toByteArray.size + 0) (before.toByteArray.size + middle.toByteArray.size)
    _ = (middle.toByteArray ++ after.toByteArray).extract 0 middle.toByteArray.size :=
        ByteArray.extract_append_size_add
    _ = middle.toByteArray := ByteArray.extract_append_eq_left rfl

/-- How many bytes a text takes. -/
def width (text : List Char) : Nat := (String.ofList text).utf8ByteSize

/-- Parts of a text take the bytes of the whole. -/
theorem width_append (before after : List Char) :
    width (before ++ after) = width before + width after := by
  rw [width, String.ofList_append, String.utf8ByteSize_append]
  rfl

/-- A character takes its own bytes. -/
theorem width_singleton (c : Char) : width [c] = c.utf8Size := by
  rw [width, ← String.singleton_eq_ofList, String.utf8ByteSize_singleton]

/-- A digit takes one byte. -/
theorem utf8Size_of_isDigit {c : Char} (isDigit : c.isDigit = true) : c.utf8Size = 1 := by
  -- Digits are among the first 128 characters.
  rw [Char.utf8Size_eq_one_iff]
  have bounds : c.val ≥ 48 ∧ c.val ≤ 57 := by simpa [Char.isDigit] using isDigit
  exact UInt32.le_trans bounds.2 (by decide)

/-- Digits take as many bytes as there are digits. -/
theorem width_digits {digits : List Char} (isDigits : ∀ c ∈ digits, c.isDigit = true) :
    width digits = digits.length := by
  -- Each digit takes one byte.
  induction digits with
  | nil => rfl
  | cons c digits ih =>
    obtain ⟨isDigit, isDigits⟩ := List.forall_mem_cons.mp isDigits
    rw [← List.singleton_append, width_append, width_singleton, utf8Size_of_isDigit isDigit,
      ih isDigits, List.length_append]
    rfl

/-- The opening of a hole takes one byte more. -/
theorem width_opening {digits : List Char} (isDigits : ∀ c ∈ digits, c.isDigit = true) :
    width (opening :: digits) = 1 + digits.length := by
  -- The brace is one byte.
  rw [← List.singleton_append, width_append, width_digits isDigits]
  rfl

/-- Filling by byte offsets cuts between characters everywhere, and gives the text of the scan. -/
theorem fillFrom?_eq {template : String} {args : List (List Char)} {start : Nat} {text : List Char}
    (before : List Char) (split : template.toList = before ++ text) (offset : start = width before) :
    fillFrom? template args start text = some (scan args none text) := by
  fun_induction fillFrom? template args start text generalizing before with
  | case1 => rfl
  | case2 start rest digits after stop text filled ih =>
    have parts : rest = digits ++ after := List.takeWhile_append_dropWhile.symm
    have isDigits : ∀ c ∈ digits, c.isDigit = true := List.all_eq_true.mp List.all_takeWhile
    clear_value digits after
    subst parts
    obtain ⟨closes, named⟩ : after.head? = some closing ∧ argument? args digits = some text := by
      simpa using filled
    obtain ⟨tail, rfl⟩ : ∃ tail, after = closing :: tail := List.head?_eq_some_iff.mp closes
    -- The scan goes on behind the closing character, which takes one byte as well.
    have further := ih (before ++ opening :: digits ++ [closing]) (by simp [split]) (by
      rw [width_append, width_append, width_opening isDigits, ← offset, ← Nat.add_assoc]
      rfl)
    rw [further, scan_opening isDigits, scan_closing named]
    rfl
  | case3 start rest digits after stop unfilled ih =>
    have parts : rest = digits ++ after := List.takeWhile_append_dropWhile.symm
    have isDigits : ∀ c ∈ digits, c.isDigit = true := List.all_eq_true.mp List.all_takeWhile
    have noDigit : ∀ c ∈ after.head?, ¬ c.isDigit = true := by
      intro c head
      have stops := List.head?_dropWhile_not Char.isDigit rest
      rw [show List.dropWhile Char.isDigit rest = after from rfl, Option.mem_def.mp head] at stops
      simpa using stops
    have kept : after.head? = some closing → argument? args digits = none := by
      simpa using unfilled
    clear_value digits after
    subst parts
    have size : stop = width before + width (opening :: digits) := by
      rw [width_opening isDigits, ← offset]
      exact Nat.add_assoc start 1 digits.length
    have further := ih (before ++ opening :: digits) (by simp [split]) (by rw [width_append, size])
    have cut : slice? template start stop = some (String.ofList (opening :: digits)) := by
      have whole : template = String.ofList before ++
          (String.ofList (opening :: digits) ++ String.ofList after) := by
        rw [← String.ofList_append, ← String.ofList_append, ← String.ofList_toList (s := template),
          split]
        rfl
      rw [whole, size, offset]
      exact slice?_append _ _ _
    rw [cut, further, scan_opening isDigits, scan_unfilled noDigit kept]
    simp
  | case4 start c rest copied ih =>
    have further := ih (before ++ [c]) (by simp [split])
      (by rw [width_append, width_singleton, offset])
    rw [further, scan_copy copied]
    rfl

end Slices

section Fill

variable {args : List String} {digits : String}

/-- The characters of a hole. -/
theorem toList_hole (digits : String) : (hole digits).toList = opening :: (digits.toList ++ [closing]) := by
  simp [hole, opening, closing]

/-- The opening and the closing of a hole are two characters. -/
theorem length_hole (digits : String) : (hole digits).length = digits.length + 2 := by
  -- Two braces stand around the digits.
  rw [hole, String.length_append, String.length_append, show "\x7b".length = 1 from rfl,
    show "\x7d".length = 1 from rfl]
  omega

/-- Digits that name an argument call for its text. -/
theorem Names.argument? (names : Names args digits) :
    Template.argument? (args.map String.toList) digits.toList =
      some names.text.toList := by
  -- The digits are read as a number, and there is an argument for it.
  have spelled : digits.toList ≠ [] ∧ digits.toList.all Char.isDigit = true :=
    ⟨by simpa using names.nonempty, List.all_eq_true.mpr names.digit⟩
  rw [Template.argument?, Digits.read?, if_pos spelled, Option.bind_some, List.getElem?_map,
    List.getElem?_eq_getElem names.below]
  rfl

/-- Digits that call for a text name an argument. -/
theorem names_of_argument? {digits : List Char}
    (found : Template.argument? (args.map String.toList) digits ≠ none) :
    Names args (String.ofList digits) := by
  -- An argument is only looked up for digits that spell a number.
  rw [Template.argument?, Digits.read?] at found
  split at found
  · rename_i spelled
    rw [Option.bind_some, List.getElem?_map] at found
    refine ⟨by simpa using spelled.1, ?_, ?_⟩
    · rw [String.toList_ofList]
      exact List.all_eq_true.mp spelled.2
    · rw [String.toList_ofList]
      simpa using found
  · exact absurd rfl found

/-- What becomes of a hole is the text of the argument that it names. -/
theorem Piece.result_filled (names : Names args digits) :
    Piece.result args (.filled digits) = names.text := by
  -- The number is that of an argument, so the lookup does not fall back to the text.
  rw [Piece.result, List.getElem?_eq_getElem names.below]
  rfl

/-- A hole that names an argument is filled, whatever stands on either side. -/
theorem fill_append_hole (names : Names args digits) (before after : String) :
    fill (before ++ hole digits ++ after) args =
      fill before args ++ names.text ++ fill after args := by
  -- The scan comes to the hole with nothing collected, and goes on behind it.
  have parts : (before ++ hole digits ++ after).toList =
      before.toList ++ opening :: (digits.toList ++ closing :: after.toList) := by
    simp [toList_hole]
  rw [fill, parts, scan_append_hole names.digit names.argument?, String.ofList_append,
    String.ofList_append, String.ofList_toList, ← String.append_assoc]
  rfl

/-- A text without such a hole is its own result. -/
theorem fill_of_no_hole {text : String} (noHole : ¬ HasHole args text) : fill text args = text := by
  -- A number in braces that is filled would be a hole.
  rw [fill, scan_of_no_hole none (by simp), begun, List.nil_append, String.ofList_toList]
  intro before digits after isDigits split
  refine Decidable.byContradiction fun found =>
    noHole ⟨String.ofList before, String.ofList digits, String.ofList after,
      names_of_argument? found, ?_⟩
  rw [← String.toList_inj]
  simpa [begun, toList_hole] using split

/-- Every template consists of holes that are filled and of texts that stay. -/
theorem exists_pieces (args : List String) (text : String) :
    ∃ pieces : List Piece, (∀ piece ∈ pieces, piece.Fits args) ∧
      String.join (pieces.map Piece.source) = text ∧
      String.join (pieces.map (Piece.result args)) = fill text args := by
  -- A hole cuts a template into two shorter ones.
  induction size : text.length using Nat.strongRecOn generalizing text with
  | ind bound ih =>
    by_cases hasHole : HasHole args text
    · obtain ⟨before, digits, after, names, rfl⟩ := hasHole
      rw [String.length_append, String.length_append, length_hole] at size
      obtain ⟨left, fitsLeft, sourceLeft, resultLeft⟩ :=
        ih before.length (by omega) before rfl
      obtain ⟨right, fitsRight, sourceRight, resultRight⟩ :=
        ih after.length (by omega) after rfl
      refine ⟨left ++ .filled digits :: right, ?_, ?_, ?_⟩
      · intro piece among
        obtain among | among := List.mem_append.mp among
        · exact fitsLeft piece among
        · obtain rfl | among := List.mem_cons.mp among
          · exact names
          · exact fitsRight piece among
      · rw [List.map_append, List.map_cons, String.join_append, String.join_cons, sourceLeft,
          sourceRight, ← String.append_assoc]
        rfl
      · rw [List.map_append, List.map_cons, String.join_append, String.join_cons, resultLeft,
          resultRight, fill_append_hole names, Piece.result_filled names, String.append_assoc]
    · refine ⟨[.copied text], by simpa [Piece.Fits] using hasHole, ?_, ?_⟩
      · simp [Piece.source]
      · simp [Piece.result, fill_of_no_hole hasHole]

/-- Filling by byte offsets finds every cut between characters. -/
theorem fillBySlices?_eq (template : String) (args : List String) :
    fillBySlices? template args = some (fill template args) := by
  -- The slices are cut where the scan has come to.
  have filled : fillFrom? template (args.map String.toList) 0 template.toList =
      some (scan (args.map String.toList) none template.toList) := fillFrom?_eq [] rfl rfl
  rw [fillBySlices?, filled]
  rfl

/-- Filling a template substitutes from left to right, once: a hole that names an argument becomes the
text of the argument, whatever is still open in front of it, and a text without such a hole stays. So a
template consists of holes that are filled and of texts that stay, and the result of their results; and
what is cut out of it by byte offsets is cut between characters. -/
theorem fill_substitutes (args : List String) :
    (∀ (before digits after : String) (names : Names args digits),
      fill (before ++ hole digits ++ after) args =
        fill before args ++ names.text ++ fill after args) ∧
    (∀ text, ¬ HasHole args text → fill text args = text) ∧
    (∀ text, ∃ pieces : List Piece, (∀ piece ∈ pieces, piece.Fits args) ∧
      String.join (pieces.map Piece.source) = text ∧
      String.join (pieces.map (Piece.result args)) = fill text args) ∧
    ∀ text, fillBySlices? text args = some (fill text args) :=
  ⟨fun before _ after names => fill_append_hole names before after, fun _ => fill_of_no_hole,
    exists_pieces args, fun text => fillBySlices?_eq text args⟩

/-- Behind a hole that is left open, a hole with leading zeros is filled by a text with a hole, and that
one stays. -/
theorem fill_substitutes_nested :
    Names ["x", "\x7b0\x7d"] "001" ∧ ¬ HasHole ["x", "\x7b0\x7d"] "é\x7b12" ∧
      fill ("é\x7b12" ++ hole "001" ++ "\x7b2\x7d") ["x", "\x7b0\x7d"] =
        "é\x7b12\x7b0\x7d\x7b2\x7d" := by
  have names : Names ["x", "\x7b0\x7d"] "001" :=
    ⟨by decide, List.all_eq_true.mp (by decide), by decide⟩
  -- Nothing is closed in this text.
  have noHole : ¬ HasHole ["x", "\x7b0\x7d"] "é\x7b12" := by
    rintro ⟨before, digits, after, -, split⟩
    have closes : closing ∈ "é\x7b12".toList := by simp [split, toList_hole]
    exact absurd closes (by decide)
  obtain ⟨filled, copied, -, -⟩ := fill_substitutes ["x", "\x7b0\x7d"]
  refine ⟨names, noHole, ?_⟩
  -- There are two arguments, so the third hole has none.
  have beyond : fill "\x7b2\x7d" ["x", "\x7b0\x7d"] = "\x7b2\x7d" := by decide
  rw [filled "é\x7b12" "001" "\x7b2\x7d" names, copied "é\x7b12" noHole, beyond]
  rfl

end Fill

end IndexQuery.Template
