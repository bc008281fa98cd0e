import IndexQuery.Proofs.Pass.FlatMapIdentities

/-! What a normalized node is made of, whatever becomes of its paths. -/

namespace IndexQuery.FlatMap

open Steps PassM

/-- What normalizing makes of a node, whatever becomes of its paths, when new nodes get their identities
from a floor on. -/
inductive Normalization (floor : NodeId) : Node → Node → Prop
  | still {node : Node} (leaf : Plain.looksInto node = false) (other : node.path? = none) :
    Normalization floor node node
  | path {label label' : NodeId} {target target' : Path} :
    Normalization floor (.path label target) (.path label' target')
  | factory {label label' : NodeId} {type : ValueType} {args results : List Node}
    (length : args.length = results.length)
    (inside : ∀ pair ∈ args.zip results, Normalization floor pair.1 pair.2) :
    Normalization floor (.factory label type args) (.factory label' type results)
  | operation {label label' : NodeId} {operator : Operator} {type : ValueType}
    {args results : List Node} (other : operator ≠ .flatMap) (length : args.length = results.length)
    (inside : ∀ pair ∈ args.zip results, Normalization floor pair.1 pair.2) :
    Normalization floor (.operation label operator type args)
      (.operation label' operator type results)
  | flatMap {label next : NodeId} {type : ValueType} {args results : List Node}
    {parts : FlatMap NodeId} {selector : Node} (length : args.length = results.length)
    (inside : ∀ pair ∈ args.zip results, Normalization floor pair.1 pair.2)
    (taken : ofArgs (.operation label .flatMap type args) results = .ok parts)
    (selects : SelectorOf floor parts selector) :
    Normalization floor (.operation label .flatMap type args) (canonicalNode type parts selector next)

/-- Lists of nodes and of what normalizing makes of them one by one. -/
structure Normalizations (floor : NodeId) (args results : List Node) : Prop where
  length : args.length = results.length
  inside : ∀ pair ∈ args.zip results, Normalization floor pair.1 pair.2

variable {floor : NodeId}

/-- Only a path becomes a path. -/
theorem Normalization.of_path {node result : Node} (normalization : Normalization floor node result)
    (isPath : result.path?.isSome = true) : ∃ label target, node = .path label target := by
  -- Everything but a path becomes something that is no path.
  cases normalization with
  | still _ other => simp [other] at isPath
  | path => exact ⟨_, _, rfl⟩
  | factory | operation => simp [Expr.path?] at isPath
  | flatMap => simp [canonicalNode, Expr.path?] at isPath

/-- A list is normalized by normalizing its members, from state to state. -/
theorem normalizations_of_run {args results : List Node} {context after : Context}
    (each : ∀ arg ∈ args, ∀ before : Context, before.MembersFrom floor → floor ≤ before.nextNode →
      ∀ result next, run (normalize arg) before = (.ok result, next) →
        Normalization floor arg result)
    (below : ∀ arg ∈ args, Below floor arg) (members : context.MembersFrom floor)
    (atLeast : floor ≤ context.nextNode)
    (ran : run (normalizeAll args) context = (.ok results, after)) :
    Normalizations floor args results := by
  -- What the members leave in the state is what the others may assume of it.
  induction args generalizing context results with
  | nil =>
    cases ran
    exact ⟨rfl, by simp⟩
  | cons first rest ih =>
    obtain ⟨head, tail⟩ := List.forall_mem_cons.mp each
    obtain ⟨firstBelow, restBelow⟩ := List.forall_mem_cons.mp below
    obtain ⟨result, others, between, rfl, firstRan, restRan⟩ := run_normalizeAll_cons_ok ran
    have traced := normalize_traced firstBelow members atLeast firstRan
    have rests := ih tail restBelow traced.members (Nat.le_trans atLeast traced.grown) restRan
    refine ⟨congrArg (· + 1) rests.length, ?_⟩
    rw [List.zip_cons_cons, List.forall_mem_cons]
    exact ⟨head context members atLeast _ _ firstRan, rests.inside⟩

/-- A node that is made of normalized arguments is normalized. -/
theorem Normalizations.of_made {node result : Node} {results : List Node}
    (all : Normalizations floor node.args results) (made : MadeOf floor node results result) :
    Normalization floor node result := by
  cases made with
  | factory => exact .factory all.length all.inside
  | operation settled =>
    refine .operation ?_ all.length all.inside
    rintro rfl
    simp [Plain.rewrites] at settled
  | @lambda _ _ _ _ args =>
    -- The new parameter is a path, as the one that it takes the place of.
    obtain ⟨length, inside⟩ := all
    cases args with
    | nil => simp [Expr.args] at length
    | cons first rest =>
      rw [Expr.args, List.zip_cons_cons, List.forall_mem_cons] at inside
      refine .operation (by simp) length ?_
      rw [List.zip_cons_cons, List.forall_mem_cons]
      obtain ⟨_, _, rfl⟩ := inside.1.of_path rfl
      exact ⟨.path, inside.2⟩
  | flatMap taken selects => exact .flatMap all.length all.inside taken selects

/-- A node that is normalized in a state whose registrations are new paths without markers is made as
told. -/
theorem normalization_of_normalize {node result : Node} {context after : Context}
    (below : Below floor node) (members : context.MembersFrom floor)
    (atLeast : floor ≤ context.nextNode)
    (ran : run (normalize node) context = (.ok result, after)) :
    Normalization floor node result := by
  induction node using Expr.induct generalizing context result after with
  -- What a path is renamed to is a path, since members are registered only.
  | path label target =>
    rw [normalize] at ran
    obtain ⟨renamed?, between, renamed, ran⟩ := run_bind_ok.mp ran
    cases ran
    have replaces := replaces_of_rename members atLeast renamed
    cases renamed? with
    | none => exact .path
    | some replacement =>
      obtain ⟨_, _, rfl, -⟩ := replaces.found replacement rfl
      exact .path
  -- The arguments are normalized first, and the node is made of what they have become.
  | operation _ _ _ args ih | factory _ _ args ih =>
    obtain ⟨results, inner, argsRan, made⟩ := made_of_run rfl atLeast ran
    have all := normalizations_of_run
      (fun arg member before members atLeast result next ran =>
        ih arg member (below.args arg member) members atLeast ran)
      below.args (members.draw false (Nat.le_refl _)) atLeast argsRan
    exact all.of_made made
  | _ =>
    cases ran
    exact .still rfl rfl

/-- What the pass gives in a new state is made of the node as told. -/
theorem normalization_of_run {options : Options} {node result : Node} {supply : NodeId}
    (older : Below supply node)
    (done : (Pass.normalizeFlatMaps.run options node supply).1 = .ok result) :
    Normalization supply node result := by
  -- In a new state nothing is registered.
  have unregistered : (Context.start options supply).MembersFrom supply := by
    simp [Context.MembersFrom, Context.start]
  have ran : run (normalize node) (Context.start options supply) =
      (.ok result, (Pass.normalizeFlatMaps.run options node supply).2) := Prod.ext done rfl
  exact normalization_of_normalize older unregistered (Nat.le_refl _) ran

end IndexQuery.FlatMap
