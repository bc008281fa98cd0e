import IndexQuery.Proofs.Text.MemberNames

/-! Which names come out the same: with the first character in upper case, and with runs of separators
joined. -/

namespace IndexQuery.Text

/-- Names that differ in nothing but how the upper case of their first characters is spelled. -/
inductive Recased : List Char → List Char → Prop
  /-- The first characters have the same upper case. -/
  | first {c d : Char} {rest : List Char} (upper : upperCase c = upperCase d) :
    Recased (c :: rest) (d :: rest)
  /-- The upper case of the first character is longer, and the second name goes on with what is left
  of it. -/
  | spelled {c d : Char} {more rest : List Char} (upper : upperCase c = upperCase d ++ more)
    (longer : more ≠ []) : Recased (c :: rest) (d :: (more ++ rest))
  /-- The same with the names exchanged. -/
  | spelledBack {c d : Char} {more rest : List Char} (upper : upperCase c = upperCase d ++ more)
    (longer : more ≠ []) : Recased (d :: (more ++ rest)) (c :: rest)

/-- A name is capitalised by the upper case of its first character. -/
theorem toList_capitalize {text : String} {c : Char} {rest : List Char}
    (begins : text.toList = c :: rest) : (capitalize text).toList = upperCase c ++ rest := by
  -- Only the first character is changed, and it may become several.
  rw [capitalize, begins, String.toList_ofList]

/-- Two names are capitalised alike exactly when they differ in the spelling of an upper case. -/
theorem capitalize_eq_iff {left right : String} (nonempty : left ≠ "") (nonempty' : right ≠ "") :
    capitalize left = capitalize right ↔ Recased left.toList right.toList := by
  obtain ⟨c, rest, begins⟩ := List.exists_cons_of_ne_nil (l := left.toList) (by simpa using nonempty)
  obtain ⟨d, rest', begins'⟩ :=
    List.exists_cons_of_ne_nil (l := right.toList) (by simpa using nonempty')
  rw [← String.toList_inj, toList_capitalize begins, toList_capitalize begins', begins, begins']
  constructor
  · intro same
    -- One of the two upper cases begins with the other one.
    obtain ⟨more, upper, rfl⟩ | ⟨more, upper, rfl⟩ := List.append_eq_append_iff.mp same
    · by_cases none : more = []
      · subst none
        exact .first (by simpa using upper.symm)
      · exact .spelledBack upper none
    · by_cases none : more = []
      · subst none
        exact .first (by simpa using upper)
      · exact .spelled upper none
  · intro recased
    cases recased with
    | first upper => rw [upper]
    | spelled upper _ => rw [upper, List.append_assoc]
    | spelledBack upper _ => rw [upper, List.append_assoc]

/-- What a member name has one underscore for, in front of the rest of a text: an underscore, or a
whole run of separators. -/
inductive Gap (rest : List Char) : List Char → Prop
  | underscore : Gap rest ['_']
  | run {gap : List Char} (nonempty : gap ≠ []) (separators : ∀ c ∈ gap, isNameCharacter c = false)
    (whole : ∀ c ∈ rest.head?, isNameCharacter c = true) : Gap rest gap

/-- Texts that have the same characters but for the gaps in them, which stand at the same places. -/
inductive AlikeButGaps : List Char → List Char → Prop
  | nil : AlikeButGaps [] []
  | same {c : Char} {left right : List Char} (name : isNameCharacter c = true)
    (rest : AlikeButGaps left right) : AlikeButGaps (c :: left) (c :: right)
  | gap {gap gap' left right : List Char} (first : Gap left gap) (second : Gap right gap')
    (rest : AlikeButGaps left right) : AlikeButGaps (gap ++ left) (gap' ++ right)

/-- Inside a run, further separators leave nothing. -/
theorem joinRuns_separators {gap : List Char} (separators : ∀ c ∈ gap, isNameCharacter c = false)
    (rest : List Char) : joinRuns true (gap ++ rest) = joinRuns true rest := by
  -- Inside a gap one more separator adds nothing.
  induction gap with
  | nil => rfl
  | cons c gap ih =>
    obtain ⟨separator, separators⟩ := List.forall_mem_cons.mp separators
    rw [List.cons_append, joinRuns, if_neg (by simp [separator]), if_pos rfl, ih separators]

/-- Where a name begins, it makes no difference whether a run has just ended. -/
theorem joinRuns_true {text : List Char} (begins : ∀ c ∈ text.head?, isNameCharacter c = true) :
    joinRuns true text = joinRuns false text := by
  -- Only a separator at the start could tell the two apart.
  cases text with
  | nil => rfl
  | cons c rest => rw [joinRuns, joinRuns, if_pos (begins c rfl), if_pos (begins c rfl)]

/-- A gap leaves one underscore. -/
theorem joinRuns_gap {gap rest : List Char} (isGap : Gap rest gap) :
    joinRuns false (gap ++ rest) = '_' :: joinRuns false rest := by
  cases isGap with
  | underscore => exact joinRuns_append (by simp [isNameCharacter]) (by simp) false rest
  -- Only the first separator of a run leaves something.
  | run nonempty separators whole =>
    obtain ⟨c, gap, rfl⟩ := List.exists_cons_of_ne_nil nonempty
    obtain ⟨separator, separators⟩ := List.forall_mem_cons.mp separators
    rw [List.cons_append, joinRuns, if_neg (by simp [separator]), if_neg (by simp),
      joinRuns_separators separators, joinRuns_true whole]

/-- A text that is not empty begins with a letter, a number or a gap. -/
theorem cases_gap (text : List Char) :
    text = [] ∨ (∃ c rest, text = c :: rest ∧ isLetterOrNumber c = true) ∨
      ∃ gap rest, text = gap ++ rest ∧ gap ≠ [] ∧ Gap rest gap := by
  cases text with
  | nil => exact .inl rfl
  | cons c rest =>
    right
    by_cases underscore : c = '_'
    · subst underscore
      exact .inr ⟨['_'], rest, rfl, by simp, .underscore⟩
    by_cases letter : isLetterOrNumber c = true
    · exact .inl ⟨c, rest, rfl, letter⟩
    · right
      -- The run goes on up to the first character that a name can hold.
      let separator (c : Char) : Bool := !isNameCharacter c
      refine ⟨c :: rest.takeWhile separator, rest.dropWhile separator, ?_, by simp,
        .run (by simp) ?_ ?_⟩
      · rw [List.cons_append, List.takeWhile_append_dropWhile]
      · rw [List.forall_mem_cons]
        refine ⟨by simp [isNameCharacter, underscore, letter], fun d among => ?_⟩
        simpa [separator] using List.all_eq_true.mp List.all_takeWhile d among
      · intro d head
        have stops := List.head?_dropWhile_not separator rest
        rw [Option.mem_def.mp head] at stops
        simpa [separator] using stops

/-- Texts that are alike but for gaps come out the same. -/
theorem AlikeButGaps.joinRuns {left right : List Char} (alike : AlikeButGaps left right) :
    Text.joinRuns false left = Text.joinRuns false right := by
  -- Gaps of any length become one underscore.
  induction alike with
  | nil => rfl
  | same name _ ih => rw [Text.joinRuns, Text.joinRuns, if_pos name, if_pos name, ih]
  | gap first second _ ih => rw [joinRuns_gap first, joinRuns_gap second, ih]

/-- A letter or a number at the start comes out as itself. -/
theorem joinRuns_letter {c : Char} (letter : isLetterOrNumber c = true) (rest : List Char) :
    joinRuns false (c :: rest) = c :: joinRuns false rest := by
  rw [joinRuns, if_pos (isNameCharacter_of_letter letter)]

/-- Runs of separators are joined to the same text exactly when the texts are alike but for gaps. -/
theorem joinRuns_eq_iff (left right : List Char) :
    joinRuns false left = joinRuns false right ↔ AlikeButGaps left right := by
  refine ⟨fun same => ?_, AlikeButGaps.joinRuns⟩
  -- No letter is an underscore, so a letter stands against the same letter and a gap against a gap.
  have letter_ne {c : Char} (letter : isLetterOrNumber c = true) : c ≠ '_' := by
    rintro rfl
    rw [isLetterOrNumber_underscore] at letter
    cases letter
  induction size : left.length using Nat.strongRecOn generalizing left right with
  | ind bound ih =>
    obtain rfl | ⟨c, rest, rfl, letter⟩ | ⟨gap, rest, rfl, nonempty, isGap⟩ := cases_gap left <;>
    obtain rfl | ⟨d, rest', rfl, letter'⟩ | ⟨gap', rest', rfl, -, isGap'⟩ := cases_gap right
    · exact .nil
    · rw [joinRuns_letter letter'] at same
      cases same
    · rw [joinRuns_gap isGap'] at same
      cases same
    · rw [joinRuns_letter letter] at same
      cases same
    · rw [joinRuns_letter letter, joinRuns_letter letter', List.cons.injEq] at same
      obtain ⟨rfl, same⟩ := same
      exact .same (isNameCharacter_of_letter letter)
        (ih rest.length (by simp [← size]) rest rest' same rfl)
    · rw [joinRuns_letter letter, joinRuns_gap isGap', List.cons.injEq] at same
      exact absurd same.1 (letter_ne letter)
    · rw [joinRuns_gap isGap] at same
      cases same
    · rw [joinRuns_gap isGap, joinRuns_letter letter', List.cons.injEq] at same
      exact absurd same.1.symm (letter_ne letter')
    · rw [joinRuns_gap isGap, joinRuns_gap isGap', List.cons.injEq] at same
      have shorter : rest.length < bound := by
        rw [← size, List.length_append]
        have := List.length_pos_iff.mpr nonempty
        omega
      exact .gap isGap isGap' (ih rest.length shorter rest rest' same.2 rfl)

/-- Two texts have the same identifier exactly when they are alike but for gaps. -/
theorem identifier_eq_iff (left right : String) :
    identifier left = identifier right ↔ AlikeButGaps left.toList right.toList := by
  rw [identifier, identifier, ← String.toList_inj, String.toList_ofList, String.toList_ofList]
  exact joinRuns_eq_iff left.toList right.toList

end IndexQuery.Text
