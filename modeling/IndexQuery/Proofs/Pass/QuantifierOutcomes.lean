import IndexQuery.Proofs.Pass.QuantifierFaults
import IndexQuery.Proofs.Pass.QuantifierRefinement

/-! When an expansion succeeds, and what becomes of each node, also where operands are shared. -/

namespace IndexQuery

open Steps

namespace Expr

variable {Label : Type}

mutual

/-- The paths through a marker in the arguments that an expansion looks at, left to right. -/
def markedPaths : Expr Label → List Path
  | .path _ target => if target.hasMarker then [target] else []
  | .operation _ _ _ args => markedPathsAll args
  | .template _ _ _ args => markedPathsAll args
  | .constant .. | .factory .. | .param .. | .subquery .. => []

/-- The paths through a marker in a list of expressions. -/
def markedPathsAll : List (Expr Label) → List Path
  | [] => []
  | first :: rest => first.markedPaths ++ markedPathsAll rest

end

/-- A list has the marked paths of its members, in order. -/
@[simp] theorem markedPathsAll_eq_flatMap (exprs : List (Expr Label)) :
    markedPathsAll exprs = exprs.flatMap markedPaths := by
  induction exprs with
  | nil => rfl
  | cons first rest ih => simp [markedPathsAll, ih]

/-- An operation has the marked paths of its arguments. -/
@[simp] theorem markedPaths_operation (label : Label) (operator : Operator) (type : ValueType)
    (args : List (Expr Label)) :
    (operation label operator type args).markedPaths = args.flatMap markedPaths := by
  rw [markedPaths, markedPathsAll_eq_flatMap]

/-- A template has those of its holes. -/
@[simp] theorem markedPaths_template (label : Label) (text : String) (type : ValueType)
    (args : List (Expr Label)) :
    (template label text type args).markedPaths = args.flatMap markedPaths := by
  rw [markedPaths, markedPathsAll_eq_flatMap]

/-- An expression without marked paths is none itself. -/
theorem isMarked_of_markedPaths {expr : Expr Label} (unmarked : expr.markedPaths = []) :
    expr.isMarked = false := by
  -- A marked path is its own marked path.
  cases expr with
  | path label target => simpa [markedPaths, isMarked] using unmarked
  | _ => rfl

end Expr

namespace AnyQuantifier

open PassM

/-- What an operand is compared with: the operator and the type of the comparison, and the other
operand. -/
abbrev Comparison := Operator × ValueType × Node

/-- How an operation compares one of its arguments, if that is its left operand. -/
def comparing (operator : Operator) (type : ValueType) : (args : List Node) → Node →
    Option Comparison
  | left :: compared :: _, arg =>
    if left.label = arg.label then some (operator, type, compared) else none
  | _, _ => none

/-- An argument of an operation finds on the stack how the operation compares it. -/
theorem comparison?_operation {inner : Context} {label : NodeId} {operator : Operator}
    {type : ValueType} {args ancestors : List Node}
    (stacked : inner.ancestors = .operation label operator type args :: ancestors) (arg : Node) :
    (inner.push arg).comparison? arg = comparing operator type args arg := by
  -- It is found just below the argument itself.
  rcases args with _ | ⟨left, _ | ⟨compared, others⟩⟩
  all_goals simp [Context.comparison?, Context.ancestor?, Context.push, stacked, comparing]

/-- A hole of a template finds no comparison. -/
theorem comparison?_template {inner : Context} {label : NodeId} {text : String} {type : ValueType}
    {args ancestors : List Node}
    (stacked : inner.ancestors = .template label text type args :: ancestors) (arg : Node) :
    (inner.push arg).comparison? arg = none := by
  -- The node above the argument is a template, which compares nothing.
  simp [Context.comparison?, Context.ancestor?, Context.push, stacked]

mutual

/-- Whether every path through a marker can be taken apart and is compared, given what compares the
node itself. -/
def accepted (held : Option Comparison) : Node → Bool
  | .path _ target => !target.hasMarker || held.isSome && (Direct.split? target).isSome
  | .operation _ operator type args => acceptedAll (comparing operator type args) args
  | .template _ _ _ args => acceptedAll (fun _ => none) args
  | .constant .. | .factory .. | .param .. | .subquery .. => true

/-- Whether this holds in a list of nodes, given what compares each of them. -/
def acceptedAll (held : Node → Option Comparison) : List Node → Bool
  | [] => true
  | first :: rest => accepted (held first) first && acceptedAll held rest

end

/-- A list is accepted if its members are. -/
@[simp] theorem acceptedAll_eq_all (held : Node → Option Comparison) (nodes : List Node) :
    acceptedAll held nodes = nodes.all fun node => accepted (held node) node := by
  induction nodes with
  | nil => rfl
  | cons first rest ih => simp [acceptedAll, ih]

/-- An operation is accepted if each argument is, by the way the operation compares it. -/
theorem accepted_operation {held : Option Comparison} {label : NodeId} {operator : Operator}
    {type : ValueType} {args : List Node} :
    accepted held (.operation label operator type args) = true ↔
      ∀ arg ∈ args, accepted (comparing operator type args arg) arg = true := by
  rw [accepted, acceptedAll_eq_all, List.all_eq_true]

/-- A template is accepted if each hole is. -/
theorem accepted_template {held : Option Comparison} {label : NodeId} {text : String}
    {type : ValueType} {args : List Node} :
    accepted held (.template label text type args) = true ↔
      ∀ arg ∈ args, accepted none arg = true := by
  rw [accepted, acceptedAll_eq_all, List.all_eq_true]

/-- What an expansion makes of a node, given what compares the node itself, when new nodes get their
identities from a floor on. -/
inductive Expansion (floor : NodeId) : (held : Option Comparison) → Node → Node → Prop
  | still {held : Option Comparison} {node : Node} (unmarked : node.markedPaths = []) :
      Expansion floor held node node
  | quantified {label next : NodeId} {target : Path} {split : Direct.Split} {operator : Operator}
      {type : ValueType} {compared : Node} (apart : Direct.split? target = some split)
      (drawn : floor ≤ next) :
      Expansion floor (some (operator, type, compared)) (.path label target)
        (split.quantifier operator type compared next).1
  | absorbed {held : Option Comparison} {label left next : NodeId} {target : Path}
      {split : Direct.Split} {operator : Operator} {type : ValueType} {compared : Node}
      {others : List Node} (apart : Direct.split? target = some split) (drawn : floor ≤ next) :
      Expansion floor held
        (.operation label operator type (.path left target :: compared :: others))
        (split.quantifier operator type compared next).1
  | operation {held : Option Comparison} {label next : NodeId} {operator : Operator}
      {type : ValueType} {args results : List Node} (unmarked : startsWithMarker args = false)
      (marked : args.flatMap Expr.markedPaths ≠ []) (drawn : floor ≤ next)
      (length : args.length = results.length)
      (inside : ∀ pair ∈ args.zip results,
        Expansion floor (comparing operator type args pair.1) pair.1 pair.2) :
      Expansion floor held (.operation label operator type args)
        (.operation next operator type results)
  | template {held : Option Comparison} {label next : NodeId} {text : String} {type : ValueType}
      {args results : List Node} (marked : args.flatMap Expr.markedPaths ≠ [])
      (drawn : floor ≤ next) (length : args.length = results.length)
      (inside : ∀ pair ∈ args.zip results, Expansion floor none pair.1 pair.2) :
      Expansion floor held (.template label text type args) (.template next text type results)

/-- Lists of nodes and of what an expansion makes of them one by one. -/
structure Expansions (floor : NodeId) (held : Node → Option Comparison) (args results : List Node) :
    Prop where
  length : args.length = results.length
  inside : ∀ pair ∈ args.zip results, Expansion floor (held pair.1) pair.1 pair.2

/-- What is made of a list is what is made of its first member, and of the others. -/
theorem Expansions.cons {floor : NodeId} {held : Node → Option Comparison} {first result : Node}
    {rest results : List Node} (head : Expansion floor (held first) first result)
    (tail : Expansions floor held rest results) :
    Expansions floor held (first :: rest) (result :: results) := by
  -- The first pair stands before the others.
  refine ⟨congrArg (· + 1) tail.length, ?_⟩
  rw [List.zip_cons_cons, List.forall_mem_cons]
  exact ⟨head, tail.inside⟩

/-- What an attempt at an expansion gives: a node that is made as told and a flag that tells whether there
was a marker, unless a path through a marker cannot be taken apart or is not compared. -/
def Outcome (floor : NodeId) (node : Node) (context : Context) : Prop :=
  let held := (context.push node).comparison? node
  if accepted held node = true then
    ∃ result next, context.nextNode ≤ next ∧ Expansion floor held node result ∧
      attempt (expand node) context =
        some (result, context.settle (!node.markedPaths.isEmpty) next)
  else attempt (expand node) context = none

/-- The outcome for a node that is left as it is. -/
theorem outcome_still {floor : NodeId} {node : Node} {context : Context}
    (unmarked : node.markedPaths = [])
    (succeeds : accepted ((context.push node).comparison? node) node = true)
    (ran : attempt (expand node) context = some (node, context)) : Outcome floor node context := by
  -- Drawing nothing and raising no flag leaves the state as it was.
  rw [Outcome, if_pos succeeds]
  refine ⟨node, context.nextNode, Nat.le_refl _, .still unmarked, ?_⟩
  rw [ran, unmarked]
  exact congrArg some (Prod.ext rfl context.settle_false.symm)

/-- A path is quantified if it can be taken apart. -/
theorem Direct.quantify_apply (operator : Operator) (type : ValueType) (target : Path)
    (compared : Node) (next : NodeId) :
    Direct.quantify operator type target compared next =
      (Direct.split? target).map fun split =>
        split.quantifier operator type compared next := by
  -- Only where the path can be split is anything drawn from the supply.
  rw [Direct.quantify]
  cases Direct.split? target with
  | none => rfl
  | some split => rfl

/-- A path through a marker becomes a quantifier if it can be taken apart and is compared. -/
theorem outcome_path {floor : NodeId} {label : NodeId} {target : Path} {context : Context}
    (atLeast : floor ≤ context.nextNode) : Outcome floor (.path label target) context := by
  have ran := attempt_expand_path label target context
  cases marked : target.hasMarker with
  | false =>
    rw [marked, if_neg Bool.false_ne_true] at ran
    exact outcome_still (by simp [Expr.markedPaths, marked]) (by simp [accepted, marked]) ran
  | true =>
    rw [marked, if_pos rfl] at ran
    rw [Outcome, ran]
    -- It fails if it is compared with nothing, and also if it cannot be taken apart.
    cases (context.push (.path label target)).comparison? (.path label target) with
    | none => simp [accepted, marked]
    | some held =>
      obtain ⟨operator, type, compared⟩ := held
      rw [Option.bind_some, Direct.quantify_apply]
      cases apart : Direct.split? target with
      | none => simp [accepted, marked, apart]
      | some split =>
        rw [if_pos (by simp [accepted, apart])]
        refine ⟨_, context.nextNode + 4, Nat.le_add_right _ _, .quantified apart atLeast, ?_⟩
        simp [Expr.markedPaths, marked, Direct.Split.quantifier]

/-- A list of arguments gives the outcomes of its members one after the other. -/
theorem attempt_expandAll_outcome {floor : NodeId} {args ancestors : List Node}
    {held : Node → Option Comparison} {context : Context}
    (each : ∀ arg ∈ args, ∀ inner : Context, inner.ancestors = ancestors →
      floor ≤ inner.nextNode → Outcome floor arg inner)
    (found : ∀ inner : Context, inner.ancestors = ancestors →
      ∀ arg, (inner.push arg).comparison? arg = held arg)
    (stacked : context.ancestors = ancestors) (atLeast : floor ≤ context.nextNode) :
    let marked := !(args.flatMap Expr.markedPaths).isEmpty
    if acceptedAll held args = true then
      ∃ results next, context.nextNode ≤ next ∧ Expansions floor held args results ∧
        attempt (expandAll args) context = some ((results, marked), context.settle marked next)
    else attempt (expandAll args) context = none := by
  -- Neither the flag nor the supply is part of the stack, so every argument sees the same ancestors.
  induction args generalizing context with
  | nil =>
    refine ⟨[], context.nextNode, Nat.le_refl _, ⟨rfl, by simp⟩, ?_⟩
    exact congrArg some (Prod.ext rfl context.settle_false.symm)
  | cons first rest ih =>
    obtain ⟨head, tail⟩ := List.forall_mem_cons.mp each
    have head := head { context with replaced := false } stacked atLeast
    rw [Outcome, found _ (by exact stacked)] at head
    rw [expandAll, attempt_bind, acceptedAll]
    cases firstAccepted : accepted (held first) first with
    | false =>
      rw [firstAccepted, if_neg Bool.false_ne_true] at head
      have ran := @attempt_isolated_settle _ (expand first) context none head
      simp [ran]
    | true =>
      rw [firstAccepted, if_pos rfl] at head
      obtain ⟨result, next, grown, expansion, ran⟩ := head
      have ran := @attempt_isolated_settle _ (expand first) context
        (some ((result, !first.markedPaths.isEmpty), next)) ran
      -- The others start from the identities that the first one has left.
      have others := @ih (context.settle (!first.markedPaths.isEmpty) next) tail stacked
        (Nat.le_trans atLeast grown)
      rw [ran, Option.map_some, Option.bind_some, Bool.true_and]
      dsimp only
      rw [attempt_bind]
      cases restAccepted : acceptedAll held rest with
      | false =>
        rw [restAccepted, if_neg Bool.false_ne_true] at others
        simp [others]
      | true =>
        rw [restAccepted, if_pos rfl] at others
        obtain ⟨results, last, grownFurther, expansions, restRan⟩ := others
        refine ⟨result :: results, last, Nat.le_trans grown grownFurther,
          expansions.cons expansion, ?_⟩
        have marks : (!first.markedPaths.isEmpty || !(rest.flatMap Expr.markedPaths).isEmpty) =
            !((first :: rest).flatMap Expr.markedPaths).isEmpty := by
          cases paths : first.markedPaths <;> simp [paths]
        rw [restRan, Option.bind_some, attempt_pure, Context.settle_settle, marks]

/-- What a path through a marker has become is a quantifier for what it is compared with. -/
theorem Expansion.of_marked {floor : NodeId} {held : Option Comparison} {node result : Node}
    (expansion : Expansion floor held node result) (marked : node.isMarked = true) :
    ∃ label target split operator type compared next, node = .path label target ∧
      Direct.split? target = some split ∧ floor ≤ next ∧
      held = some (operator, type, compared) ∧
      result = (split.quantifier operator type compared next).1 := by
  -- A marked path does not stay, and what is no path has no mark.
  cases expansion with
  | still unmarked => simp [Expr.isMarked_of_markedPaths unmarked] at marked
  | quantified apart drawn => exact ⟨_, _, _, _, _, _, _, rfl, apart, drawn, rfl, rfl⟩
  | absorbed | operation | template => simp [Expr.isMarked] at marked

/-- An operation whose arguments have changed is built from them, or gives way to the quantifier that its
left operand has become. -/
theorem attempt_rebuild {floor : NodeId} {operator : Operator} {type : ValueType}
    {args results : List Node} {context : Context}
    (expansions : Expansions floor (comparing operator type args) args results)
    (marked : args.flatMap Expr.markedPaths ≠ []) (atLeast : floor ≤ context.nextNode)
    (held : Option Comparison) (label : NodeId) :
    let node : Node := .operation label operator type args
    ∃ result next, context.nextNode ≤ next ∧ Expansion floor held node result ∧
      attempt (rebuild node operator type args results true) context =
        some (result, { context with nextNode := next }) := by
  intro node
  obtain ⟨length, inside⟩ := expansions
  rcases args with _ | ⟨first, rest⟩
  · simp at marked
  rcases results with _ | ⟨result, others⟩
  · simp at length
  rw [rebuild]
  cases starts : startsWithMarker (first :: rest) with
  | false =>
    refine ⟨_, context.nextNode + 1, Nat.le_succ _, ?_, rfl⟩
    exact .operation starts marked atLeast length inside
  | true =>
    rw [startsWithMarker_eq] at starts
    obtain ⟨left, target, split, _, _, _, next, rfl, apart, drawn, compares, rfl⟩ :=
      (inside (first, result) (by simp)).of_marked starts
    refine ⟨_, context.nextNode, Nat.le_refl _, ?_, rfl⟩
    -- The left operand is compared, so there is another one.
    cases rest with
    | nil => simp [comparing] at compares
    | cons compared rest =>
      obtain ⟨rfl, rfl, rfl⟩ : operator = _ ∧ type = _ ∧ compared = _ := by
        simpa [comparing] using compares
      exact .absorbed apart drawn

/-- An operation that gives the outcomes of its arguments gives its own. -/
theorem outcome_operation {floor : NodeId} {label : NodeId} {operator : Operator}
    {type : ValueType} {args : List Node} {context : Context}
    (each : ∀ arg ∈ args, ∀ inner : Context,
      inner.ancestors = .operation label operator type args :: context.ancestors →
      floor ≤ inner.nextNode → Outcome floor arg inner)
    (atLeast : floor ≤ context.nextNode) :
    Outcome floor (.operation label operator type args) context := by
  let self : Node := .operation label operator type args
  have inside := @attempt_expandAll_outcome _ _ _ _ (context.push self) each
    (fun inner stacked => comparison?_operation stacked) rfl atLeast
  rw [Outcome, accepted, expand, attempt_visiting, attempt_bind]
  dsimp only at inside ⊢
  -- The arguments are expanded first, so they decide whether the operation fails.
  split at inside
  · rename_i argsAccepted
    obtain ⟨results, next, grown, expansions, ran⟩ := inside
    rw [if_pos argsAccepted, ran, Option.bind_some, Expr.markedPaths_operation]
    -- Without a marked path below, the flag stays down and the operation is kept.
    cases marks : args.flatMap Expr.markedPaths with
    | nil =>
      refine ⟨self, next, grown, .still (by simpa [self] using marks), ?_⟩
      rfl
    | cons target targets =>
      have still : floor ≤ ((context.push self).settle true next).nextNode :=
        Nat.le_trans atLeast grown
      obtain ⟨result, last, grownFurther, expansion, built⟩ :=
        attempt_rebuild expansions (by simp [marks]) still _ label
      refine ⟨result, last, Nat.le_trans grown grownFurther, expansion, ?_⟩
      rw [List.isEmpty_cons, Bool.not_false, built]
      rfl
  · rename_i refused
    rw [if_neg refused, inside]
    rfl

/-- A template that gives the outcomes of its holes gives its own. -/
theorem outcome_template {floor : NodeId} {label : NodeId} {text : String} {type : ValueType}
    {args : List Node} {context : Context}
    (each : ∀ arg ∈ args, ∀ inner : Context,
      inner.ancestors = .template label text type args :: context.ancestors →
      floor ≤ inner.nextNode → Outcome floor arg inner)
    (atLeast : floor ≤ context.nextNode) :
    Outcome floor (.template label text type args) context := by
  let self : Node := .template label text type args
  have inside := @attempt_expandAll_outcome _ _ _ _ (context.push self) each
    (fun inner stacked => comparison?_template stacked) rfl atLeast
  rw [Outcome, accepted, expand, attempt_visiting, attempt_bind]
  dsimp only at inside ⊢
  -- The arguments are expanded first, so they decide whether the template fails.
  split at inside
  · rename_i argsAccepted
    obtain ⟨results, next, grown, ⟨length, inside⟩, ran⟩ := inside
    rw [if_pos argsAccepted, ran, Option.bind_some, Expr.markedPaths_template]
    -- Without a marked path below, the flag stays down and the template is kept.
    cases marks : args.flatMap Expr.markedPaths with
    | nil =>
      refine ⟨self, next, grown, .still (by simpa [self] using marks), ?_⟩
      rfl
    | cons target targets =>
      refine ⟨.template next text type results, next + 1, Nat.le_trans grown (Nat.le_succ _), ?_, rfl⟩
      exact .template (by simp [marks]) (Nat.le_trans atLeast grown) length inside
  · rename_i refused
    rw [if_neg refused, inside]
    rfl

/-- Expanding a node gives a node that is made as told, unless a path through a marker that it looks at
cannot be taken apart or is not compared. -/
theorem expand_outcome {floor : NodeId} (node : Node) {context : Context}
    (atLeast : floor ≤ context.nextNode) : Outcome floor node context := by
  -- The stack above the node does not matter to its arguments, so the induction is for any context.
  induction node using Expr.induct generalizing context with
  | path label target => exact outcome_path atLeast
  | operation label operator type args ih =>
    exact outcome_operation (fun arg member inner _ atLeast => ih arg member atLeast) atLeast
  | template label text type args ih =>
    exact outcome_template (fun arg member inner _ atLeast => ih arg member atLeast) atLeast
  | factory | constant | param | subquery => exact outcome_still rfl rfl rfl

/-- The pass succeeds if every path through a marker that it looks at can be taken apart and is
compared, given what the stack says of the node itself. -/
theorem runIn_expandMarkers_iff {node : Node} {context : Context} :
    (∃ result, (Pass.expandMarkers.runIn node context).1 = .ok result) ↔
      accepted ((context.push node).comparison? node) node = true := by
  -- What the attempt gives is decided by whether the node is accepted.
  have outcome := @expand_outcome context.nextNode node context (Nat.le_refl _)
  rw [Outcome] at outcome
  change (∃ result, (run (expand node) context).1 = .ok result) ↔ _
  split at outcome
  · rename_i succeeds
    obtain ⟨result, next, -, -, ran⟩ := outcome
    rw [run_of_attempt_some ran]
    simp [succeeds]
  · rename_i refused
    obtain ⟨fault, ran⟩ := run_of_attempt_none outcome
    rw [ran]
    simp [refused]

/-- What the pass gives is made of the node as told, and the flag is raised if there was a marker. -/
theorem expansion_of_runIn {node result : Node} {context : Context}
    (done : (Pass.expandMarkers.runIn node context).1 = .ok result) :
    Expansion context.nextNode ((context.push node).comparison? node) node result ∧
      (Pass.expandMarkers.runIn node context).2.replaced =
        (context.replaced || !node.markedPaths.isEmpty) := by
  -- The run has succeeded, so the node is accepted and has an outcome.
  have outcome := @expand_outcome context.nextNode node context (Nat.le_refl _)
  rw [Outcome, if_pos (runIn_expandMarkers_iff.mp ⟨result, done⟩)] at outcome
  obtain ⟨made, next, -, expansion, ran⟩ := outcome
  have ran : Pass.expandMarkers.runIn node context = _ := run_of_attempt_some ran
  rw [ran] at done ⊢
  cases done
  exact ⟨expansion, rfl⟩

/-- From a new state, nothing compares the node itself. -/
theorem run_expandMarkers_iff {options : Options} {node : Node} {supply : NodeId} :
    (∃ result, (Pass.expandMarkers.run options node supply).1 = .ok result) ↔
      accepted none node = true :=
  runIn_expandMarkers_iff

/-- From a new state, the pass gives what is made of the node as told. -/
theorem expansion_of_run {options : Options} {node result : Node} {supply : NodeId}
    (done : (Pass.expandMarkers.run options node supply).1 = .ok result) :
    Expansion supply none node result :=
  (expansion_of_runIn done).1

end AnyQuantifier

end IndexQuery
