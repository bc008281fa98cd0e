import IndexQuery.Proofs.Expr.Readings
import IndexQuery.Proofs.Expr.Roots

/-! The free roots of an expression are the roots of paths that no lambda on the way to them binds. -/

namespace IndexQuery.Expr

variable {Label : Type}

/-- Whether a walk for free roots goes on to an argument at a position, counted from zero. -/
def readsFreelyAt : Operator → (position : Nat) → Bool
  -- The parameter of a lambda is bound and not read.
  | .lambda, 0 => false
  | operator, position => readsAt operator position

/-- A parameter binds the root of a path, and a list or a group binds what its members bind. -/
inductive Binds (name : String) : Expr Label → Prop
  | path {label : Label} {target : Path} (root : target.rootName = name) :
      Binds name (.path label target)
  | member {label : Label} {operator : Operator} {type : ValueType} {args : List (Expr Label)}
      {arg : Expr Label} (groups : operator = .wrapped ∨ operator = .list) (member : arg ∈ args)
      (binds : Binds name arg) : Binds name (.operation label operator type args)

/-- A lambda whose parameter binds a name. -/
inductive IsBinder (name : String) : Expr Label → Prop
  | lambda {label : Label} {type : ValueType} {parameter : Expr Label} {bodies : List (Expr Label)}
      (binds : Binds name parameter) : IsBinder name (.operation label .lambda type (parameter :: bodies))

/-- What occurs in an expression where a walk through operations and factories comes to it, with the
operations that it passes on the way, outermost first. -/
inductive Occurs (enters : Operator → Nat → Bool) :
    Expr Label → (passed : List (Expr Label)) → Expr Label → Prop
  | here {expr : Expr Label} : Occurs enters expr [] expr
  | operation {label : Label} {operator : Operator} {type : ValueType} {args passed : List (Expr Label)}
      {arg node : Expr Label} {position : Nat} (found : args[position]? = some arg)
      (entered : enters operator position = true) (below : Occurs enters arg passed node) :
      Occurs enters (.operation label operator type args)
        (.operation label operator type args :: passed) node
  | factory {label : Label} {type : ValueType} {args passed : List (Expr Label)}
      {arg node : Expr Label} (member : arg ∈ args) (below : Occurs enters arg passed node) :
      Occurs enters (.factory label type args) passed node

/-- A path with a root occurs in an expression. -/
def ReadsRoot (expr : Expr Label) (name : String) : Prop :=
  ∃ passed label target, Occurs readsAt expr passed (.path label target) ∧ target.rootName = name

/-- A path with a root occurs in an expression, and no lambda on the way to it binds the root. -/
def ReadsUnbound (expr : Expr Label) (name : String) : Prop :=
  ∃ passed label target, Occurs readsFreelyAt expr passed (.path label target) ∧
    target.rootName = name ∧ ∀ outer ∈ passed, ¬ outer.IsBinder name

/-- The names that a parameter binds are collected as its binders. -/
theorem binds_iff {name : String} {parameter : Expr Label} :
    Binds name parameter ↔ name ∈ parameter.binders := by
  -- The induction is on the parameter, whose groups can be nested to any depth.
  induction parameter with
  | path label target =>
    constructor
    · intro binds
      cases binds with
      | path root => simp [binders, root]
    · intro among
      exact .path (List.mem_singleton.mp among).symm
  | operation label operator type args ih =>
    -- Only the two operators that group parameters pass on what their arguments bind.
    by_cases groups : operator = .wrapped ∨ operator = .list
    · have collected : (operation label operator type args).binders = args.flatMap binders := by
        rcases groups with rfl | rfl
        · simp [binders]
        · simp [binders]
      rw [collected, List.mem_flatMap]
      constructor
      · intro binds
        cases binds with
        | member _ member binds => exact ⟨_, member, (ih _ member).mp binds⟩
      · rintro ⟨arg, member, among⟩
        exact .member groups member ((ih arg member).mpr among)
    · have none : (operation label operator type args).binders = [] := by
        cases operator <;> simp_all [binders]
      rw [none]
      constructor
      · intro binds
        cases binds with
        | member isGroup => exact absurd isGroup groups
      · intro among
        simp at among
  | _ =>
    constructor
    · intro binds
      cases binds
    · intro among
      simp [binders] at among

/-- A root occurrence is a path that occurs in an expression. -/
theorem mem_rootOccurrences {name : String} {expr : Expr Label} :
    name ∈ expr.rootOccurrences ↔ ReadsRoot expr name := by
  -- The first step of the way to a path goes to an argument that is read, and the rest is below it.
  induction expr with
  | path label target =>
    constructor
    · intro among
      exact ⟨[], label, target, .here, (List.mem_singleton.mp among).symm⟩
    · rintro ⟨passed, _, _, occurs, root⟩
      cases occurs with
      | here => simp [rootOccurrences, root]
  | operation label operator type args ih =>
    rw [rootOccurrences_operation, List.mem_flatMap]
    constructor
    · rintro ⟨arg, read, among⟩
      obtain ⟨position, found, entered⟩ := mem_readArgs.mp read
      obtain ⟨passed, _, _, below, root⟩ := (ih arg (mem_of_mem_readArgs read)).mp among
      exact ⟨_, _, _, .operation found entered below, root⟩
    · rintro ⟨passed, _, _, occurs, root⟩
      cases occurs with
      | operation found entered below =>
        refine ⟨_, mem_readArgs.mpr ⟨_, found, entered⟩, ?_⟩
        exact (ih _ (List.mem_of_getElem? found)).mpr ⟨_, _, _, below, root⟩
  | factory label type args ih =>
    rw [rootOccurrences, rootOccurrencesAll_eq_flatMap, List.mem_flatMap]
    constructor
    · rintro ⟨arg, member, among⟩
      obtain ⟨passed, _, _, below, root⟩ := (ih arg member).mp among
      exact ⟨_, _, _, .factory member below, root⟩
    · rintro ⟨passed, _, _, occurs, root⟩
      cases occurs with
      | factory member below => exact ⟨_, member, (ih _ member).mpr ⟨_, _, _, below, root⟩⟩
  | _ =>
    constructor
    · intro among
      simp [rootOccurrences] at among
    · rintro ⟨passed, _, _, occurs, _⟩
      cases occurs

/-- Where all arguments are read, there is none that a sum could leave out. -/
theorem readArgs_of_readsAll {operator : Operator} {args : List (Expr Label)}
    (all : readsAll operator args.length = true) : readArgs operator args = args := by
  -- A sum with one argument at most has no second one to leave out.
  obtain ⟨-, noSum⟩ | rfl | ⟨source, rfl, rfl⟩ := readsAll_cases all
  · rw [readArgs, if_neg noSum]
  · simp [readArgs]
  · simp [readArgs]

/-- An operation other than a lambda reads what the arguments read that it reads. -/
theorem readings_readArgs {label : Label} {operator : Operator} {type : ValueType}
    {args : List (Expr Label)} (noLambda : operator ≠ .lambda) :
    (operation label operator type args).readings = (readArgs operator args).flatMap readings := by
  -- Lambdas apart, only a sum leaves out an argument.
  obtain ⟨_, _, isLambda, -⟩ | ⟨source, summed, rest, rfl, rfl⟩ | all :=
    operation_cases operator args
  · exact absurd isLambda noLambda
  · exact readings_sum label type source summed rest
  · rw [readings_operation all, readArgs_of_readsAll all]

/-- It reads freely what they read freely. -/
theorem freeOccurrences_readArgs {label : Label} {operator : Operator} {type : ValueType}
    {args : List (Expr Label)} (noLambda : operator ≠ .lambda) (bound : List String) :
    (operation label operator type args).freeOccurrences bound =
      (readArgs operator args).flatMap (freeOccurrences bound) := by
  -- The collector makes the same exception for sums.
  obtain ⟨_, _, isLambda, -⟩ | ⟨source, summed, rest, rfl, rfl⟩ | all :=
    operation_cases operator args
  · exact absurd isLambda noLambda
  · simp [freeOccurrences, readArgs]
  · rw [freeOccurrences_operation all, readArgs_of_readsAll all]

/-- A lambda reads unbound what its bodies read unbound and its parameter does not bind. -/
theorem readsUnbound_lambda {label : Label} {type : ValueType} {parameter : Expr Label}
    {bodies : List (Expr Label)} {name : String} :
    (operation label .lambda type (parameter :: bodies)).ReadsUnbound name ↔
      ¬ Binds name parameter ∧ ∃ body ∈ bodies, body.ReadsUnbound name := by
  constructor
  · rintro ⟨passed, _, _, occurs, root, unbound⟩
    cases occurs with
    | @operation _ _ _ _ _ _ _ position found entered below =>
      -- The walk does not enter the parameter, so the first step leads to one of the bodies.
      cases position with
      | zero => simp [readsFreelyAt] at entered
      | succ position =>
        obtain ⟨outermost, inside⟩ := List.forall_mem_cons.mp unbound
        refine ⟨fun binds => outermost (.lambda binds), _, List.mem_of_getElem? found, ?_⟩
        exact ⟨_, _, _, below, root, inside⟩
  · rintro ⟨outermost, body, member, passed, _, _, below, root, unbound⟩
    obtain ⟨position, found⟩ := List.mem_iff_getElem?.mp member
    have entered : readsFreelyAt .lambda (position + 1) = true := rfl
    refine ⟨_, _, _, .operation found entered below, root, ?_⟩
    -- One more operation is passed on the way, which is this lambda.
    rw [List.forall_mem_cons]
    refine ⟨?_, unbound⟩
    intro binder
    cases binder with
    | lambda binds => exact outermost binds

/-- Any other operation reads unbound what the arguments read unbound that it reads. -/
theorem readsUnbound_operation {label : Label} {operator : Operator} {type : ValueType}
    {args : List (Expr Label)} {name : String} (noLambda : operator ≠ .lambda) :
    (operation label operator type args).ReadsUnbound name ↔
      ∃ arg ∈ readArgs operator args, arg.ReadsUnbound name := by
  have same (position : Nat) : readsFreelyAt operator position = readsAt operator position := by
    cases operator <;> simp_all [readsFreelyAt]
  -- An operation that is no lambda binds nothing, so the same lambdas are passed on the way.
  constructor
  · rintro ⟨passed, _, _, occurs, root, unbound⟩
    cases occurs with
    | operation found entered below =>
      obtain ⟨-, inside⟩ := List.forall_mem_cons.mp unbound
      rw [same] at entered
      exact ⟨_, mem_readArgs.mpr ⟨_, found, entered⟩, _, _, _, below, root, inside⟩
  · rintro ⟨arg, read, passed, _, _, below, root, unbound⟩
    obtain ⟨position, found, entered⟩ := mem_readArgs.mp read
    rw [← same] at entered
    refine ⟨_, _, _, .operation found entered below, root, ?_⟩
    rw [List.forall_mem_cons]
    refine ⟨?_, unbound⟩
    intro binder
    cases binder with
    | lambda => exact noLambda rfl

/-- What is read freely is read unbound. -/
theorem readsFreely_iff {name : String} {expr : Expr Label} :
    ReadsFreely expr.readings name ↔ expr.ReadsUnbound name := by
  have members {exprs : List (Expr Label)} (each : ∀ expr ∈ exprs,
      (ReadsFreely expr.readings name ↔ expr.ReadsUnbound name)) :
      ReadsFreely (exprs.flatMap readings) name ↔ ∃ expr ∈ exprs, expr.ReadsUnbound name := by
    -- What a list reads is what its members read, one after the other.
    constructor
    · rintro ⟨reading, read, free⟩
      obtain ⟨expr, member, read⟩ := List.mem_flatMap.mp read
      exact ⟨expr, member, (each expr member).mp ⟨reading, read, free⟩⟩
    · rintro ⟨expr, member, unbound⟩
      obtain ⟨reading, read, free⟩ := (each expr member).mpr unbound
      exact ⟨reading, List.mem_flatMap.mpr ⟨expr, member, read⟩, free⟩
  induction expr with
  | path label target =>
    constructor
    · rintro ⟨reading, read, _, root⟩
      obtain rfl := List.mem_singleton.mp read
      exact ⟨[], label, target, .here, root, by simp⟩
    · rintro ⟨passed, _, _, occurs, root, _⟩
      cases occurs with
      | here => exact ⟨_, List.mem_singleton.mpr rfl, by simp [Reading.IsFree], root⟩
  | operation label operator type args ih =>
    by_cases isLambda : operator = .lambda
    · subst isLambda
      cases args with
      | nil =>
        constructor
        · rintro ⟨reading, read, _⟩
          simp [readings] at read
        · rintro ⟨passed, _, _, occurs, _⟩
          cases occurs with
          | operation found => simp at found
      | cons parameter bodies =>
        -- The binders of the parameter are left out of what the bodies read.
        rw [readings_lambda, readsFreely_inside, ← binders_eq_map, ← binds_iff,
          readsUnbound_lambda, members fun body member => ih body (List.mem_cons_of_mem _ member)]
    · rw [readings_readArgs isLambda, readsUnbound_operation isLambda,
        members fun arg read => ih arg (mem_of_mem_readArgs read)]
  | factory label type args ih =>
    rw [readings, readingsAll_eq_flatMap, members ih]
    constructor
    · rintro ⟨arg, member, passed, _, _, below, root, unbound⟩
      exact ⟨_, _, _, .factory member below, root, unbound⟩
    · rintro ⟨passed, _, _, occurs, root, unbound⟩
      cases occurs with
      | factory member below => exact ⟨_, member, _, _, _, below, root, unbound⟩
  | _ =>
    constructor
    · rintro ⟨reading, read, _⟩
      simp [readings] at read
    · rintro ⟨passed, _, _, occurs, _⟩
      cases occurs

/-- A walk that enters fewer arguments comes to nothing else. -/
theorem Occurs.mono {enters others : Operator → Nat → Bool} {expr node : Expr Label}
    {passed : List (Expr Label)}
    (fewer : ∀ operator position, enters operator position = true → others operator position = true)
    (occurs : Occurs enters expr passed node) : Occurs others expr passed node := by
  -- Each step of the way is one that the other walk may take too.
  induction occurs with
  | here => exact .here
  | operation found entered _ ih => exact .operation found (fewer _ _ entered) ih
  | factory member _ ih => exact .factory member ih

/-- What is read freely is read. -/
theorem readsAt_of_readsFreelyAt (operator : Operator) (position : Nat)
    (entered : readsFreelyAt operator position = true) : readsAt operator position = true := by
  -- The two differ in the parameter of a lambda only.
  unfold readsFreelyAt at entered
  split at entered
  · simp at entered
  · exact entered

/-- Without a lambda that has a parameter, everything that is read is read freely. -/
theorem freeOccurrences_of_no_binder {expr : Expr Label}
    (noBinder : ∀ passed label type args,
      Occurs readsAt expr passed (.operation label .lambda type args) → args = []) :
    expr.freeOccurrences [] = expr.rootOccurrences := by
  -- No name is ever bound, so both walks take the same arguments all the way down.
  induction expr with
  | path label target => simp [freeOccurrences, rootOccurrences]
  | operation label operator type args ih =>
    by_cases isLambda : operator = .lambda
    · subst isLambda
      obtain rfl := noBinder [] label type args .here
      rfl
    · rw [freeOccurrences_readArgs isLambda, rootOccurrences_operation, List.flatMap_def,
        List.flatMap_def]
      congr 1
      refine List.map_congr_left fun arg read => ih arg (mem_of_mem_readArgs read) ?_
      intro passed inner lambdaType bodies occurs
      obtain ⟨position, found, entered⟩ := mem_readArgs.mp read
      exact noBinder _ inner lambdaType bodies (.operation found entered occurs)
  | factory label type args ih =>
    simp only [freeOccurrences, freeOccurrencesAll_eq_flatMap, rootOccurrences,
      rootOccurrencesAll_eq_flatMap, List.flatMap_def]
    congr 1
    refine List.map_congr_left fun arg member => ih arg member ?_
    intro passed inner lambdaType bodies occurs
    exact noBinder _ inner lambdaType bodies (.factory member occurs)
  | _ => rfl

/-- Which names are bound matters, and neither their order nor how often they are bound. -/
theorem freeOccurrences_congr {bound others : List String} {expr : Expr Label}
    (same : ∀ name, name ∈ bound ↔ name ∈ others) :
    expr.freeOccurrences bound = expr.freeOccurrences others := by
  -- Below a lambda both lists are longer, so the induction is over any two lists with the same names.
  induction expr generalizing bound others with
  | path label target => simp [freeOccurrences, same]
  | operation label operator type args ih =>
    have inside {exprs : List (Expr Label)} (among : ∀ expr ∈ exprs, expr ∈ args)
        {bound others : List String} (same : ∀ name, name ∈ bound ↔ name ∈ others) :
        exprs.flatMap (freeOccurrences bound) = exprs.flatMap (freeOccurrences others) := by
      rw [List.flatMap_def, List.flatMap_def]
      congr 1
      exact List.map_congr_left fun expr member => ih expr (among expr member) same
    by_cases isLambda : operator = .lambda
    · subst isLambda
      cases args with
      | nil => rfl
      | cons parameter bodies =>
        simp only [freeOccurrences, freeOccurrencesAll_eq_flatMap]
        -- The names of the parameter join both lists.
        exact inside (by simp +contextual) fun name => by simp [same]
    · rw [freeOccurrences_readArgs isLambda, freeOccurrences_readArgs isLambda]
      exact inside (fun arg read => mem_of_mem_readArgs read) same
  | factory label type args ih =>
    simp only [freeOccurrences, freeOccurrencesAll_eq_flatMap, List.flatMap_def]
    congr 1
    exact List.map_congr_left fun arg member => ih arg member same
  | _ => rfl

/-- A walk for free roots on a single stack: the names bound where it is, innermost last, and the roots
found so far. -/
structure FreeWalk where
  bound : List String
  found : List String

mutual

/-- Pushes the names that a parameter binds. -/
def pushBinders : Expr Label → List String → List String
  | .path _ target, bound => bound ++ [target.rootName]
  | .operation _ .wrapped _ args, bound => pushBindersAll args bound
  | .operation _ .list _ args, bound => pushBindersAll args bound
  | _, bound => bound

/-- Pushes the names that a list of parameters binds. -/
def pushBindersAll : List (Expr Label) → List String → List String
  | [], bound => bound
  | first :: rest, bound => pushBindersAll rest (pushBinders first bound)

end

mutual

/-- Adds the roots that an expression reads freely to those found so far. -/
def collectFree : Expr Label → FreeWalk → FreeWalk
  | .path _ target, walk =>
    if target.rootName ∈ walk.bound then walk
    else { walk with found := walk.found ++ [target.rootName] }
  | .operation _ .lambda _ (parameter :: bodies), walk =>
    let inside := collectFreeAll bodies { walk with bound := pushBinders parameter walk.bound }
    -- The scope ends with the lambda: the stack is cut back to the height that it had before.
    { inside with bound := inside.bound.take walk.bound.length }
  | .operation _ .sum _ (source :: _ :: rest), walk => collectFreeAll rest (collectFree source walk)
  | .operation _ _ _ args, walk => collectFreeAll args walk
  | .factory _ _ args, walk => collectFreeAll args walk
  | .constant .., walk | .param .., walk | .subquery .., walk | .template .., walk => walk

/-- Adds what a list of expressions reads freely, left to right. -/
def collectFreeAll : List (Expr Label) → FreeWalk → FreeWalk
  | [], walk => walk
  | first :: rest, walk => collectFreeAll rest (collectFree first walk)

end

/-- What is pushed for a parameter are its binders. -/
theorem pushBinders_eq (parameter : Expr Label) (bound : List String) :
    pushBinders parameter bound = bound ++ parameter.binders := by
  -- Both go through wrappers and lists in order, and the stack grows at its end.
  induction parameter generalizing bound with
  | operation label operator type args ih =>
    have pushed : pushBindersAll args bound = bound ++ args.flatMap binders := by
      clear label operator type
      induction args generalizing bound with
      | nil => simp [pushBindersAll]
      | cons first rest ihRest =>
        obtain ⟨head, tail⟩ := List.forall_mem_cons.mp ih
        rw [pushBindersAll, head, ihRest tail, List.flatMap_cons, List.append_assoc]
    cases operator <;> simp [pushBinders, binders, pushed]
  | _ => simp [pushBinders, binders]

/-- An operation other than a lambda is walked through by its arguments that are read. -/
theorem collectFree_readArgs {label : Label} {operator : Operator} {type : ValueType}
    {args : List (Expr Label)} (noLambda : operator ≠ .lambda) (walk : FreeWalk) :
    collectFree (operation label operator type args) walk =
      collectFreeAll (readArgs operator args) walk := by
  -- A sum skips its second argument, and any other operation goes through all of them.
  by_cases isSum : operator = .sum
  · subst isSum
    rcases args with _ | ⟨source, _ | ⟨summed, rest⟩⟩
    all_goals simp [collectFree, collectFreeAll, readArgs]
  · rw [readArgs, if_neg isSum]
    cases operator <;> simp_all only [collectFree, ne_eq, not_true_eq_false, reduceCtorEq,
      not_false_eq_true]

/-- The walk finds what is read freely, given the names on the stack, and leaves the stack as it was. -/
theorem collectFree_eq (expr : Expr Label) (walk : FreeWalk) :
    collectFree expr walk = { walk with found := walk.found ++ expr.freeOccurrences walk.bound } := by
  have members {exprs : List (Expr Label)} (each : ∀ expr ∈ exprs, ∀ walk,
      collectFree expr walk =
        { walk with found := walk.found ++ expr.freeOccurrences walk.bound }) (walk : FreeWalk) :
      collectFreeAll exprs walk =
        { walk with found := walk.found ++ exprs.flatMap (freeOccurrences walk.bound) } := by
    induction exprs generalizing walk with
    | nil => simp [collectFreeAll]
    | cons first rest ih =>
      obtain ⟨head, tail⟩ := List.forall_mem_cons.mp each
      rw [collectFreeAll, head, ih tail, List.flatMap_cons, List.append_assoc]
  induction expr generalizing walk with
  | path label target =>
    rw [collectFree, freeOccurrences]
    split
    · simp
    · rfl
  | operation label operator type args ih =>
    by_cases isLambda : operator = .lambda
    · subst isLambda
      cases args with
      | nil => simp [collectFree, collectFreeAll, freeOccurrences]
      | cons parameter bodies =>
        rw [collectFree, members fun body member => ih body (List.mem_cons_of_mem _ member)]
        simp only [pushBinders_eq, List.take_left, freeOccurrences, freeOccurrencesAll_eq_flatMap]
        -- The stack has the names of the parameter on top, and the other list has them in front.
        have inside : bodies.flatMap (freeOccurrences (walk.bound ++ parameter.binders)) =
            bodies.flatMap (freeOccurrences (parameter.binders ++ walk.bound)) := by
          rw [List.flatMap_def, List.flatMap_def]
          congr 1
          refine List.map_congr_left fun body _ => freeOccurrences_congr fun name => ?_
          simp [or_comm]
        rw [inside]
    · rw [collectFree_readArgs isLambda, freeOccurrences_readArgs isLambda,
        members fun arg read => ih arg (mem_of_mem_readArgs read)]
  | factory label type args ih =>
    rw [collectFree, members ih, freeOccurrences, freeOccurrencesAll_eq_flatMap]
  | _ => simp [collectFree, freeOccurrences]

/-- The free roots of an expression are the roots of the paths that occur in it where no lambda on the
way binds them, and a walk on a single stack finds them. All of them are roots, and without a lambda that
has a parameter all roots are free. -/
theorem freeRoots_unbound (expr : Expr Label) :
    (∀ name, name ∈ expr.freeRoots ↔ expr.ReadsUnbound name) ∧
      (∃ found, collectFree expr ⟨[], []⟩ = ⟨[], found⟩ ∧ expr.freeRoots = sortedNames found) ∧
      expr.freeRoots ⊆ expr.roots ∧
      ((∀ passed label type args,
        Occurs readsAt expr passed (.operation label .lambda type args) → args = []) →
          expr.freeRoots = expr.roots) := by
  refine ⟨fun name => mem_freeRoots.trans readsFreely_iff, ?_, ?_, ?_⟩
  · exact ⟨expr.freeOccurrences [], collectFree_eq expr _, rfl⟩
  -- A path that is reached without the parameters of lambdas is reached with them.
  · intro name free
    obtain ⟨passed, label, target, occurs, root, -⟩ := readsFreely_iff.mp (mem_freeRoots.mp free)
    have read := mem_rootOccurrences.mpr
      ⟨passed, label, target, occurs.mono readsAt_of_readsFreelyAt, root⟩
    exact mem_roots.mpr read
  -- Without a lambda nothing is ever bound, so both collect the same occurrences.
  · intro noBinder
    rw [freeRoots, roots, freeOccurrences_of_no_binder noBinder]

/-- A filter over a lambda, beside a path with the root that the lambda binds. -/
def filterBesideName : Tree :=
  let family := Path.ofVariable "x" (.object "Family")
  .operation () .and .boolean
    [.operation () .filter .collection
        [.path () (.ofVariable "docs" .collection),
          .operation () .lambda .expression
            [.path () family, .path () (family.property "Active" .boolean)]],
      .path () (family.property "Name" .string)]

/-- A sum over what another variable has. -/
def sumOfTotals : Tree :=
  .operation () .sum .number
    [.path () (.ofVariable "docs" .collection), .path () (.ofVariable "x" (.object "Order"))]

/-- The scope of a name ends with the lambda that binds it, and without a lambda what is read is read
freely. -/
theorem freeRoots_unbound_filterBesideName :
    "x" ∈ filterBesideName.freeRoots ∧ sumOfTotals.freeRoots = sumOfTotals.roots := by
  obtain ⟨unbound, -⟩ := freeRoots_unbound filterBesideName
  obtain ⟨-, -, -, same⟩ := freeRoots_unbound sumOfTotals
  refine ⟨(unbound "x").mpr ?_, same ?_⟩
  -- The second operand of the conjunction is reached past no lambda.
  · have entered : readsFreelyAt .and 1 = true := rfl
    refine ⟨_, (), _, .operation rfl entered .here, rfl, ?_⟩
    rw [List.forall_mem_singleton]
    intro binder
    cases binder
  -- A sum enters its first argument only, which is a path.
  · intro passed label type args occurs
    cases occurs with
    | @operation _ _ _ _ _ _ _ position found entered below =>
      rcases position with _ | _ | position
      · cases found
        cases below
      · simp [readsAt] at entered
      · simp at found

end IndexQuery.Expr
