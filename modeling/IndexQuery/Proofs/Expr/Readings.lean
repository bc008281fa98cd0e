import IndexQuery.Expr.Roots
import IndexQuery.Proofs.Expr.Unlabel

/-! The paths that an expression reads, each with the parameters of the lambdas around it. -/

namespace IndexQuery

/-- A path that is read inside lambdas with the given parameters. -/
structure Reading where
  target : Path
  parameters : List Path
deriving DecidableEq

namespace Reading

/-- The same reading inside one more lambda. -/
def inside (parameters : List Path) (reading : Reading) : Reading where
  target := reading.target
  parameters := parameters ++ reading.parameters

/-- No parameter around the path binds its root. -/
def IsFree (reading : Reading) : Prop :=
  ∀ parameter ∈ reading.parameters, parameter.rootName ≠ reading.target.rootName

instance (reading : Reading) : Decidable reading.IsFree :=
  inferInstanceAs (Decidable (∀ _ ∈ _, _))

/-- A reading is free inside one more lambda if it is free and the lambda does not bind its root. -/
theorem isFree_inside (parameters : List Path) (reading : Reading) :
    (reading.inside parameters).IsFree ↔
      reading.target.rootName ∉ parameters.map Path.rootName ∧ reading.IsFree := by
  -- The parameters inside are those of the new lambda, and then those that were there before.
  simp only [IsFree, inside, List.mem_append, List.mem_map, not_exists, not_and]
  constructor
  · intro free
    exact ⟨fun parameter isNew => free parameter (.inl isNew),
      fun parameter isOld => free parameter (.inr isOld)⟩
  · rintro ⟨unbound, free⟩ parameter (isNew | isOld)
    · exact unbound parameter isNew
    · exact free parameter isOld

end Reading

namespace Expr

variable {Label : Type}

mutual

/-- The paths that a lambda parameter binds. -/
def parameters : Expr Label → List Path
  | .path _ target => [target]
  | .operation _ .wrapped _ args => parametersAll args
  | .operation _ .list _ args => parametersAll args
  | _ => []

/-- The paths that a list of lambda parameters binds. -/
def parametersAll : List (Expr Label) → List Path
  | [] => []
  | first :: rest => first.parameters ++ parametersAll rest

end

/-- A list of parameters binds the paths that its members bind, in order. -/
@[simp] theorem parametersAll_eq_flatMap (exprs : List (Expr Label)) :
    parametersAll exprs = exprs.flatMap parameters := by
  induction exprs with
  | nil => rfl
  | cons first rest ih => simp [parametersAll, ih]

mutual

/-- The paths that an expression reads, left to right. -/
def readings : Expr Label → List Reading
  | .path _ target => [{ target, parameters := [] }]
  | .operation _ .lambda _ (parameter :: bodies) =>
    (readingsAll bodies).map (.inside parameter.parameters)
  -- The second argument of a sum is what is summed, not what is read.
  | .operation _ .sum _ (source :: _ :: rest) => source.readings ++ readingsAll rest
  | .operation _ _ _ args => readingsAll args
  | .factory _ _ args => readingsAll args
  | .constant .. | .param .. | .subquery .. | .template .. => []

/-- The paths that a list of expressions reads. -/
def readingsAll : List (Expr Label) → List Reading
  | [] => []
  | first :: rest => first.readings ++ readingsAll rest

end

/-- A list reads what its members read, in order. -/
@[simp] theorem readingsAll_eq_flatMap (exprs : List (Expr Label)) :
    readingsAll exprs = exprs.flatMap readings := by
  induction exprs with
  | nil => rfl
  | cons first rest ih => simp [readingsAll, ih]

/-- The names that a parameter binds are the roots of the paths that it binds. -/
theorem binders_eq_map (expr : Expr Label) :
    expr.binders = expr.parameters.map Path.rootName := by
  -- Both look through wrappers and lists only, down to the paths.
  induction expr with
  | operation label operator type args ih =>
    have same : args.flatMap binders = (args.flatMap parameters).map Path.rootName := by
      rw [List.map_flatMap, List.flatMap_def, List.flatMap_def, List.map_congr_left ih]
    cases operator <;> simp [binders, parameters, same]
  | _ => simp [binders, parameters]

/-- Whether an operation on some number of arguments reads all of them: a lambda binds its first
one, and a sum does not read its second. -/
def readsAll : Operator → Nat → Bool
  | .lambda, count => count = 0
  | .sum, count => count < 2
  | _, _ => true

/-- An operation is a lambda with a parameter, a sum with what is summed, or reads all arguments. -/
theorem operation_cases (operator : Operator) (args : List (Expr Label)) :
    (∃ parameter bodies, operator = .lambda ∧ args = parameter :: bodies) ∨
      (∃ source summed rest, operator = .sum ∧ args = source :: summed :: rest) ∨
      readsAll operator args.length = true := by
  -- Without enough arguments, a lambda binds nothing and a sum skips nothing.
  by_cases isLambda : operator = .lambda
  · cases args with
    | nil => simp [readsAll, isLambda]
    | cons parameter bodies => exact .inl ⟨parameter, bodies, isLambda, rfl⟩
  · by_cases isSum : operator = .sum
    · rcases args with _ | ⟨source, _ | ⟨summed, rest⟩⟩
      · simp [readsAll, isSum]
      · simp [readsAll, isSum]
      · exact .inr (.inl ⟨source, summed, rest, isSum, rfl⟩)
    · cases operator <;> simp_all [readsAll]

/-- Only lambdas and sums with too few arguments to bind or to skip one read all of them. -/
theorem readsAll_cases {operator : Operator} {args : List (Expr Label)}
    (all : readsAll operator args.length = true) :
    (operator ≠ .lambda ∧ operator ≠ .sum) ∨ args = [] ∨
      ∃ source, operator = .sum ∧ args = [source] := by
  rcases args with _ | ⟨first, rest⟩
  · exact .inr (.inl rfl)
  · have noLambda : operator ≠ .lambda := by
      rintro rfl
      simp [readsAll] at all
    by_cases isSum : operator = .sum
    -- A sum reads all arguments only as long as there is no second one.
    · subst isSum
      have short : rest.length + 1 < 2 := of_decide_eq_true all
      cases rest with
      | nil => exact .inr (.inr ⟨first, rfl, rfl⟩)
      | cons second rest =>
        rw [List.length_cons] at short
        omega
    · exact .inl ⟨noLambda, isSum⟩

/-- An operation that reads all arguments reads what they read. -/
theorem readings_operation {label : Label} {operator : Operator} {type : ValueType}
    {args : List (Expr Label)} (all : readsAll operator args.length = true) :
    (operation label operator type args).readings = args.flatMap readings := by
  -- The equation of every operator but two is the same, and these two have no argument to treat apart.
  obtain ⟨noLambda, noSum⟩ | rfl | ⟨source, rfl, rfl⟩ := readsAll_cases all
  · cases operator <;> simp_all only [readings, readingsAll_eq_flatMap, ne_eq, not_true_eq_false,
      reduceCtorEq, not_false_eq_true]
  · cases operator <;> simp [readings]
  · simp [readings]

/-- An operation that reads all arguments reads freely what they read freely. -/
theorem freeOccurrences_operation {label : Label} {operator : Operator} {type : ValueType}
    {args : List (Expr Label)} (all : readsAll operator args.length = true) (bound : List String) :
    (operation label operator type args).freeOccurrences bound =
      args.flatMap (freeOccurrences bound) := by
  -- As for the paths that are read, two operators have to be told from the others.
  obtain ⟨noLambda, noSum⟩ | rfl | ⟨source, rfl, rfl⟩ := readsAll_cases all
  · cases operator <;> simp_all only [freeOccurrences, freeOccurrencesAll_eq_flatMap, ne_eq,
      not_true_eq_false, reduceCtorEq, not_false_eq_true]
  · cases operator <;> simp [freeOccurrences]
  · simp [freeOccurrences]

/-- The second argument of a sum is not read. -/
theorem readings_sum (label : Label) (type : ValueType) (source summed : Expr Label)
    (rest : List (Expr Label)) :
    (operation label .sum type (source :: summed :: rest)).readings =
      (source :: rest).flatMap readings := by
  simp [readings]

/-- The bodies of a lambda are read inside it. -/
theorem readings_lambda (label : Label) (type : ValueType) (parameter : Expr Label)
    (bodies : List (Expr Label)) :
    (operation label .lambda type (parameter :: bodies)).readings =
      (bodies.flatMap readings).map (.inside parameter.parameters) := by
  simp [readings]

/-- A name is the root of a path that is read outside all lambdas that bind it. -/
def ReadsFreely (readings : List Reading) (name : String) : Prop :=
  ∃ reading ∈ readings, reading.IsFree ∧ reading.target.rootName = name

instance (readings : List Reading) (name : String) : Decidable (ReadsFreely readings name) :=
  inferInstanceAs (Decidable (∃ _ ∈ _, _))

/-- A list reads a name freely if one of its members does. -/
theorem mem_flatMap_freeOccurrences (bound : List String) (name : String)
    {exprs : List (Expr Label)} (each : ∀ expr ∈ exprs, name ∈ expr.freeOccurrences bound ↔
      name ∉ bound ∧ ReadsFreely expr.readings name) :
    name ∈ exprs.flatMap (freeOccurrences bound) ↔
      name ∉ bound ∧ ReadsFreely (exprs.flatMap readings) name := by
  -- What is bound already is the same for every member.
  simp only [List.mem_flatMap, ReadsFreely]
  constructor
  · rintro ⟨expr, member, occurs⟩
    obtain ⟨unbound, reading, read, free⟩ := (each expr member).mp occurs
    exact ⟨unbound, reading, ⟨expr, member, read⟩, free⟩
  · rintro ⟨unbound, reading, ⟨expr, member, read⟩, free⟩
    exact ⟨expr, member, (each expr member).mpr ⟨unbound, reading, read, free⟩⟩

/-- Inside a lambda the names that it binds are not free any more. -/
theorem readsFreely_inside {parameters : List Path} {readings : List Reading} {name : String} :
    ReadsFreely (readings.map (.inside parameters)) name ↔
      name ∉ parameters.map Path.rootName ∧ ReadsFreely readings name := by
  constructor
  -- What is free inside is the same reading without the lambda, of a name that it does not bind.
  · rintro ⟨_, among, free, rfl⟩
    obtain ⟨reading, read, rfl⟩ := List.mem_map.mp among
    obtain ⟨unbound, free⟩ := (reading.isFree_inside parameters).mp free
    exact ⟨unbound, reading, read, free, rfl⟩
  · rintro ⟨unbound, reading, read, free, rfl⟩
    exact ⟨reading.inside parameters, List.mem_map.mpr ⟨reading, read, rfl⟩,
      (reading.isFree_inside parameters).mpr ⟨unbound, free⟩, rfl⟩

/-- A name is read freely, given names bound already, if it is none of these and the root of a free
reading. -/
theorem mem_freeOccurrences {bound : List String} {name : String} {expr : Expr Label} :
    name ∈ expr.freeOccurrences bound ↔ name ∉ bound ∧ ReadsFreely expr.readings name := by
  -- One side carries the bound names down, the other puts them around what was read below.
  induction expr generalizing bound with
  | path label target =>
    have only : ReadsFreely (path label target).readings name ↔ target.rootName = name := by
      simp [readings, ReadsFreely, Reading.IsFree]
    rw [only, freeOccurrences]
    split
    -- A bound path occurs nowhere freely.
    · rename_i member
      constructor
      · intro occurs
        simp at occurs
      · rintro ⟨unbound, rfl⟩
        exact absurd member unbound
    · rename_i unbound
      rw [List.mem_singleton]
      constructor
      · rintro rfl
        exact ⟨unbound, rfl⟩
      · rintro ⟨-, same⟩
        exact same.symm
  | operation label operator type args ih =>
    have inside {exprs : List (Expr Label)} (among : ∀ expr ∈ exprs, expr ∈ args)
        (bound : List String) := mem_flatMap_freeOccurrences bound name
      fun expr member => ih expr (among expr member)
    obtain ⟨parameter, bodies, rfl, rfl⟩ | ⟨source, summed, rest, rfl, rfl⟩ | all :=
      operation_cases operator args
    -- The bodies of a lambda are read with its names bound too.
    · rw [freeOccurrences, freeOccurrencesAll_eq_flatMap, inside (by simp +contextual),
        readings_lambda, readsFreely_inside, List.mem_append, binders_eq_map, not_or, and_assoc,
        and_left_comm]
    -- What is summed is left out on both sides.
    · rw [freeOccurrences, freeOccurrencesAll_eq_flatMap, readings_sum,
        ← inside (by simp +contextual), List.flatMap_cons]
    · rw [freeOccurrences_operation all, readings_operation all, inside (by simp)]
  | factory label type args ih =>
    simp only [freeOccurrences, freeOccurrencesAll_eq_flatMap, readings, readingsAll_eq_flatMap]
    exact mem_flatMap_freeOccurrences bound name fun arg member => ih arg member
  | _ => simp [freeOccurrences, readings, ReadsFreely]

/-- The free roots are those of the paths that are read outside all lambdas that bind them. -/
theorem mem_freeRoots {name : String} {expr : Expr Label} :
    name ∈ expr.freeRoots ↔ ReadsFreely expr.readings name := by
  -- Sorting and erasing duplicates keep the names, and at the top no name is bound.
  simp [freeRoots, sortedNames, List.mem_eraseDups, mem_freeOccurrences]

instance (name : String) (expr : Expr Label) : Decidable (name ∈ expr.freeRoots) :=
  decidable_of_iff _ mem_freeRoots.symm

/-- The roots are those of the paths that are read. -/
theorem mem_roots {name : String} {expr : Expr Label} :
    name ∈ expr.roots ↔ name ∈ expr.rootOccurrences := by
  -- Sorting and leaving out repetitions keep the same names.
  simp [roots, sortedNames, List.mem_eraseDups]

instance (name : String) (expr : Expr Label) : Decidable (name ∈ expr.roots) :=
  decidable_of_iff _ mem_roots.symm

/-- The paths that a parameter binds do not depend on labels. -/
theorem parameters_unlabel (expr : Expr Label) : expr.unlabel.parameters = expr.parameters := by
  -- Only wrappers and lists are looked into for parameters.
  induction expr with
  | operation label operator type args ih =>
    have same : (args.map unlabel).flatMap parameters = args.flatMap parameters := by
      rw [List.flatMap_map, List.flatMap_def, List.flatMap_def, List.map_congr_left ih]
    cases operator <;> simp [parameters, same]
  | _ => simp [parameters]

/-- What is read does not depend on labels. -/
theorem readings_unlabel (expr : Expr Label) : expr.unlabel.readings = expr.readings := by
  -- Removing labels keeps operators and the number of arguments, which decide what is read.
  induction expr with
  | operation label operator type args ih =>
    have inside {exprs : List (Expr Label)} (among : ∀ expr ∈ exprs, expr ∈ args) :
        (exprs.map unlabel).flatMap readings = exprs.flatMap readings := by
      rw [List.flatMap_map, List.flatMap_def, List.flatMap_def,
        List.map_congr_left fun expr member => ih expr (among expr member)]
    rw [unlabel_operation]
    obtain ⟨parameter, bodies, rfl, rfl⟩ | ⟨source, summed, rest, rfl, rfl⟩ | all :=
      operation_cases operator args
    · rw [List.map_cons, readings_lambda, readings_lambda, parameters_unlabel,
        inside (by simp +contextual)]
    · rw [List.map_cons, List.map_cons, readings_sum, readings_sum, ← List.map_cons,
        inside (by simp +contextual)]
    · rw [readings_operation all, readings_operation (by rwa [List.length_map]), inside (by simp)]
  | factory label type args ih =>
    simp only [unlabel_factory, readings, readingsAll_eq_flatMap, List.flatMap_map]
    rw [List.flatMap_def, List.flatMap_def, List.map_congr_left ih]
  | _ => simp [readings]

end Expr

end IndexQuery
