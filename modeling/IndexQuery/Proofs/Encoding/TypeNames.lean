import IndexQuery.ValueType
import Mathlib.Data.List.Basic

/-! Types and their names: a type is read back from its name, and a text that spells a type is the name of
that type, unless it marks a class that is unmistakable without a mark. -/

namespace IndexQuery.ValueType

/-- The names of the built-in types. -/
def builtinNames : List String :=
  ["boolean", "string", "number", "collection", "anonymous", "expression"]

/-- Whether the name of a class would be mistaken without a mark: for a built-in type, or for another
class, one that is already marked. -/
def NeedsMark (className : String) : Prop :=
  className ∈ builtinNames ∨ ∃ rest, className = classMark ++ rest

/-- A text spells a built-in type exactly if it is one of the names of those. -/
theorem isSome_builtin? {text : String} : (builtin? text).isSome = true ↔ text ∈ builtinNames := by
  constructor
  -- The last case of the reader is for every other text.
  · intro known
    fun_cases builtin? text with
    | case7 => simp [builtin?] at known
    | _ => decide
  · intro listed
    simp only [builtinNames, List.mem_cons, List.not_mem_nil, or_false] at listed
    obtain rfl | rfl | rfl | rfl | rfl | rfl := listed <;> rfl

/-- A text that spells a built-in type is the name of that type. -/
theorem name_of_builtin? {text : String} {type : ValueType} (spelled : builtin? text = some type) :
    type.name = text := by
  -- Each text that is recognized is the name of what it stands for.
  fun_cases builtin? text with
  | case7 => simp [builtin?] at spelled
  | _ => cases spelled; rfl

/-- What is left without a mark is what stands behind one. -/
theorem unmarked?_eq_some_iff {text className : String} :
    unmarked? text = some className ↔ text = classMark ++ className := by
  -- Taking the mark off a text is the reverse of putting it before one.
  rw [unmarked?, Option.map_eq_some_iff]
  constructor
  · rintro ⟨rest, behind, rfl⟩
    rw [List.isPrefixOf?_eq_some_iff_append_eq] at behind
    rw [← String.toList_inj, String.toList_append, String.toList_ofList, behind]
  · rintro rfl
    refine ⟨className.toList, ?_, String.ofList_toList⟩
    rw [List.isPrefixOf?_eq_some_iff_append_eq, String.toList_append]

/-- A class is written with a mark exactly if its bare name would be mistaken. -/
theorem marks_iff_needsMark {className : String} :
    ((builtin? className).isSome || (unmarked? className).isSome) = true ↔ NeedsMark className := by
  -- The two tests are those of a built-in name and of a mark in front.
  rw [Bool.or_eq_true, isSome_builtin?, Option.isSome_iff_exists, NeedsMark]
  simp only [unmarked?_eq_some_iff]

instance (className : String) : Decidable (NeedsMark className) :=
  decidable_of_iff _ marks_iff_needsMark

/-- A name needs no mark if it spells no built-in type and starts with no mark. -/
theorem not_needsMark_iff {className : String} :
    ¬ NeedsMark className ↔
      builtin? className = none ∧ ∀ rest, className ≠ classMark ++ rest := by
  rw [NeedsMark, not_or, not_exists, ← isSome_builtin?, Option.not_isSome_iff_eq_none]

/-- The name of a class. -/
theorem name_object (className : String) :
    (object className).name = if NeedsMark className then classMark ++ className else className := by
  simp only [name, marks_iff_needsMark]

/-- A mark makes a class of whatever name stands behind it. -/
theorem ofName_mark (className : String) : ofName (classMark ++ className) = .object className := by
  rw [ofName, unmarked?_eq_some_iff.mpr rfl]

/-- Without a mark, a text spells a built-in type or is the bare name of a class. -/
theorem ofName_of_unmarked {text : String} (bare : ∀ className, text ≠ classMark ++ className) :
    ofName text = (builtin? text).getD (.object text) := by
  -- Without the mark nothing can be taken off, so the text itself is looked at.
  have unmarked : unmarked? text = none :=
    Option.eq_none_iff_forall_ne_some.mpr fun className marked =>
      bare className (unmarked?_eq_some_iff.mp marked)
  rw [ofName, unmarked]

/-- A name that cannot be mistaken is read as that of a class. -/
theorem ofName_of_not_needsMark {className : String} (plain : ¬ NeedsMark className) :
    ofName className = .object className := by
  -- Without a mark the name is looked up among the built-in ones, and is none of them.
  obtain ⟨unknown, bare⟩ := not_needsMark_iff.mp plain
  rw [ofName_of_unmarked bare, unknown, Option.getD_none]

/-- The name of a type spells that type, whatever its class is called. -/
theorem ofName_name (type : ValueType) : ofName type.name = type := by
  -- Only the name of a class can look like another type, and then it is written with a mark.
  cases type with
  | object className =>
    rw [name_object]
    split
    · exact ofName_mark className
    · rename_i plain
      exact ofName_of_not_needsMark plain
  | _ => decide

/-- A mark is taken back where the class needs none, and kept where it does. -/
theorem name_ofName_mark (className : String) :
    (ofName (classMark ++ className)).name =
      if NeedsMark className then classMark ++ className else className := by
  rw [ofName_mark, name_object]

/-- A text without a mark is the name of the type it spells. -/
theorem name_ofName_of_unmarked {text : String} (bare : ∀ className, text ≠ classMark ++ className) :
    (ofName text).name = text := by
  rw [ofName_of_unmarked bare]
  cases known : builtin? text with
  | some type => exact name_of_builtin? known
  | none =>
    -- The text is read as a class, and none of this name needs a mark.
    have plain : ¬ NeedsMark text := not_needsMark_iff.mpr ⟨known, bare⟩
    rw [Option.getD_none, name_object, if_neg plain]

/-- A text is the name of the type it spells exactly if it marks no class that needs no mark. -/
theorem name_ofName_iff {text : String} :
    (ofName text).name = text ↔ ∀ className, text = classMark ++ className → NeedsMark className := by
  constructor
  · rintro kept className rfl
    by_contra plain
    -- Without its mark the text would be shorter.
    rw [name_ofName_mark, if_neg plain, eq_comm, String.append_eq_right_iff] at kept
    exact absurd kept (by decide)
  · intro needed
    by_cases marked : ∃ className, text = classMark ++ className
    · obtain ⟨className, rfl⟩ := marked
      rw [name_ofName_mark, if_pos (needed className rfl)]
    · exact name_ofName_of_unmarked (not_exists.mp marked)

/-- Types and names determine each other. Every type is read back from its name, so that distinct types
have distinct names; and every text is the name of the type it spells, unless it is a mark in front of a
class name that needs none, in which case the name is what stands behind the mark. -/
theorem types_and_names :
    (∀ type, ofName type.name = type) ∧
    Function.Injective name ∧
    ∀ text,
      ((ofName text).name = text ↔
        ∀ className, text = classMark ++ className → NeedsMark className) ∧
      ∀ className, text = classMark ++ className → ¬ NeedsMark className →
        (ofName text).name = className := by
  -- A reader that finds every type by its name tells names apart.
  have apart : Function.Injective name := Function.LeftInverse.injective ofName_name
  refine ⟨ofName_name, apart, fun text => ⟨name_ofName_iff, ?_⟩⟩
  rintro className rfl plain
  rw [name_ofName_mark, if_neg plain]

/-- Two marks are one mark in front of a name that needs it; a class without a name needs none, and
neither does one whose name only begins with that of a built-in type. -/
theorem types_and_names_marks :
    ofName (object "class:").name = object "class:" ∧
      (object "").name ≠ (object "class:").name ∧
      (ofName "class:class:x").name = "class:class:x" ∧
      (ofName "class:string").name = "class:string" ∧
      ¬ NeedsMark "" ∧ (ofName "class:").name = "" ∧
      ¬ NeedsMark "strings" ∧ (ofName "class:strings").name = "strings" := by
  -- A mark stays where the class name could be taken for something else without it.
  obtain ⟨readBack, apart, texts⟩ := types_and_names
  have kept (className : String) (needed : NeedsMark className) :
      (ofName (classMark ++ className)).name = classMark ++ className :=
    (texts _).1.mpr fun _ same => (String.append_right_inj classMark).mp same ▸ needed
  have nameless : ¬ NeedsMark "" := by decide
  have longer : ¬ NeedsMark "strings" := by decide
  exact ⟨readBack _, apart.ne (by decide), kept "class:x" (by decide), kept "string" (by decide),
    nameless, (texts _).2 "" rfl nameless, longer, (texts _).2 "strings" rfl longer⟩

end IndexQuery.ValueType
