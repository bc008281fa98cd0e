import IndexQuery.Expr.Roots
import IndexQuery.Proofs.Expr.Unlabel
import Mathlib.Data.List.InsertIdx

/-! Which arguments an operation reads roots from, and where in an expression a root is read. -/

namespace IndexQuery.Expr

variable {Label α β : Type}

/-- The arguments that an operation reads roots from: all but what a sum adds up. -/
def readArgs (operator : Operator) (args : List α) : List α :=
  if operator = .sum then args.eraseIdx 1 else args

/-- What is done to every argument is done to those that are read. -/
theorem readArgs_map (view : α → β) (operator : Operator) (args : List α) :
    readArgs operator (args.map view) = (readArgs operator args).map view := by
  -- The argument that is left out is found by its position.
  rw [readArgs, readArgs]
  split
  · exact List.eraseIdx_map view args 1
  · rfl

/-- What is read of the first two arguments is read of all. -/
theorem mem_readArgs_of_take {operator : Operator} {args : List α} {arg : α}
    (member : arg ∈ readArgs operator (args.take 2)) : arg ∈ readArgs operator args := by
  rw [readArgs] at member ⊢
  split at member
  · rename_i isSum
    rw [if_pos isSum]
    -- Of two arguments a sum reads the first one.
    rcases args with _ | ⟨first, _ | ⟨summed, rest⟩⟩
    · exact member
    · exact member
    · obtain rfl := List.mem_singleton.mp member
      exact List.mem_cons_self
  · rename_i other
    rw [if_neg other]
    exact List.mem_of_mem_take member

/-- An argument that is read is one of the arguments. -/
theorem mem_of_mem_readArgs {operator : Operator} {args : List α} {arg : α}
    (read : arg ∈ readArgs operator args) : arg ∈ args := by
  -- At most one argument is left out.
  rw [readArgs] at read
  split at read
  · exact List.mem_of_mem_eraseIdx read
  · exact read

/-- An operation reads the roots of these arguments. -/
theorem rootOccurrences_operation (label : Label) (operator : Operator) (type : ValueType)
    (args : List (Expr Label)) :
    (operation label operator type args).rootOccurrences =
      (readArgs operator args).flatMap rootOccurrences := by
  -- Only the equation of sums is another one, and only for two arguments or more.
  by_cases isSum : operator = .sum
  · subst isSum
    rcases args with _ | ⟨source, _ | ⟨summed, rest⟩⟩
    all_goals simp [rootOccurrences, readArgs]
  · rw [readArgs, if_neg isSum]
    cases operator <;> simp_all only [rootOccurrences, rootOccurrencesAll_eq_flatMap,
      not_true_eq_false, reduceCtorEq, not_false_eq_true]

/-- Whether an operation reads its argument at a position, counted from zero. -/
def readsAt : Operator → (position : Nat) → Bool
  -- The second argument of a sum is what is summed, not what is read.
  | .sum, 1 => false
  | _, _ => true

/-- An argument is read if it stands at a position that is read. -/
theorem mem_readArgs {operator : Operator} {args : List α} {arg : α} :
    arg ∈ readArgs operator args ↔
      ∃ position, args[position]? = some arg ∧ readsAt operator position = true := by
  by_cases isSum : operator = .sum
  -- Taking out the second member leaves those at all other positions.
  · subst isSum
    rw [readArgs, if_pos rfl, List.mem_eraseIdx_iff_getElem?]
    constructor
    · intro ⟨position, other, found⟩
      exact ⟨position, found, by simp [readsAt, other]⟩
    · intro ⟨position, found, read⟩
      refine ⟨position, ?_, found⟩
      rintro rfl
      simp [readsAt] at read
  · rw [readArgs, if_neg isSum, List.mem_iff_getElem?]
    simp [readsAt, isSum]

end IndexQuery.Expr
