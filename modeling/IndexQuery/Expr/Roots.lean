import IndexQuery.Expr.Basic

/-! The root names an expression reads, with and without those that its lambdas bind. -/

namespace IndexQuery.Expr

variable {Label : Type}

mutual

/-- The root name of every path that the expression reads, left to right. -/
def rootOccurrences : Expr Label → List String
  | .path _ target => [target.rootName]
  -- The second argument of a sum is what is summed, not what is read.
  | .operation _ .sum _ (source :: _ :: rest) => source.rootOccurrences ++ rootOccurrencesAll rest
  | .operation _ _ _ args => rootOccurrencesAll args
  | .factory _ _ args => rootOccurrencesAll args
  | .constant .. | .param .. | .subquery .. | .template .. => []

/-- The root names that a list of expressions reads. -/
def rootOccurrencesAll : List (Expr Label) → List String
  | [] => []
  | first :: rest => first.rootOccurrences ++ rootOccurrencesAll rest

end

/-- A list reads what its members read, in order. -/
@[simp] theorem rootOccurrencesAll_eq_flatMap (exprs : List (Expr Label)) :
    rootOccurrencesAll exprs = exprs.flatMap rootOccurrences := by
  induction exprs with
  | nil => rfl
  | cons first rest ih => simp [rootOccurrencesAll, ih]

mutual

/-- The root names that a lambda parameter binds. -/
def binders : Expr Label → List String
  | .path _ target => [target.rootName]
  -- Several parameters stand in a list, and the list in parentheses.
  | .operation _ .wrapped _ args => bindersAll args
  | .operation _ .list _ args => bindersAll args
  | _ => []

/-- The root names that a list of lambda parameters binds. -/
def bindersAll : List (Expr Label) → List String
  | [] => []
  | first :: rest => first.binders ++ bindersAll rest

end

/-- A list of parameters binds what its members bind, in order. -/
@[simp] theorem bindersAll_eq_flatMap (exprs : List (Expr Label)) :
    bindersAll exprs = exprs.flatMap binders := by
  induction exprs with
  | nil => rfl
  | cons first rest ih => simp [bindersAll, ih]

mutual

/-- The root name of every path read outside the lambdas that bind it, given names bound already. -/
def freeOccurrences (bound : List String) : Expr Label → List String
  | .path _ target => if target.rootName ∈ bound then [] else [target.rootName]
  -- The parameter binds and is not read itself.
  | .operation _ .lambda _ (parameter :: bodies) =>
    freeOccurrencesAll (parameter.binders ++ bound) bodies
  | .operation _ .sum _ (source :: _ :: rest) =>
    source.freeOccurrences bound ++ freeOccurrencesAll bound rest
  | .operation _ _ _ args => freeOccurrencesAll bound args
  | .factory _ _ args => freeOccurrencesAll bound args
  | .constant .. | .param .. | .subquery .. | .template .. => []

/-- The root names that a list of expressions reads outside the lambdas that bind them. -/
def freeOccurrencesAll (bound : List String) : List (Expr Label) → List String
  | [] => []
  | first :: rest => first.freeOccurrences bound ++ freeOccurrencesAll bound rest

end

/-- A list reads freely what its members read freely, in order. -/
@[simp] theorem freeOccurrencesAll_eq_flatMap (bound : List String) (exprs : List (Expr Label)) :
    freeOccurrencesAll bound exprs = exprs.flatMap (freeOccurrences bound) := by
  induction exprs with
  | nil => rfl
  | cons first rest ih => simp [freeOccurrencesAll, ih]

/-- Names in ascending order, each once. -/
def sortedNames (names : List String) : List String :=
  names.eraseDups.mergeSort fun left right => decide (left ≤ right)

/-- The names of the roots that the expression reads. -/
def roots (expr : Expr Label) : List String := sortedNames expr.rootOccurrences

/-- The names of the roots that the expression reads and does not bind. -/
def freeRoots (expr : Expr Label) : List String := sortedNames (expr.freeOccurrences [])

end IndexQuery.Expr
