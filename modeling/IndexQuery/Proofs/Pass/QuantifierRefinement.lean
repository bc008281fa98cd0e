import IndexQuery.Pass.Run
import IndexQuery.Proofs.Pass.DirectQuantifier
import IndexQuery.Proofs.Pass.Steps

/-! The stack of ancestors tells a marker what its operation could tell it directly. -/

namespace IndexQuery

open Steps

/-- The comparison that a node is the left operand of, while it is visited. -/
def Context.comparison? (context : Context) (node : Node) : Option (Operator × ValueType × Node) :=
  match context.ancestor? 1 with
  | some (.operation _ operator type (left :: compared :: _)) =>
    if left.label = node.label then some (operator, type, compared) else none
  | _ => none

/-- The state after steps that have drawn some identities and may have raised the flag. -/
def Context.settle (context : Context) (changed : Bool) (next : NodeId) : Context :=
  { context with replaced := context.replaced || changed, nextNode := next }

@[simp] theorem Context.settle_nextNode (context : Context) (changed : Bool) (next : NodeId) :
    (context.settle changed next).nextNode = next := rfl

/-- Steps that change nothing and draw nothing leave the state. -/
theorem Context.settle_false (context : Context) :
    context.settle false context.nextNode = context := by
  simp [settle]

/-- Steps after steps raise the flag if one of them does. -/
theorem Context.settle_settle (context : Context) (changed further : Bool) (next last : NodeId) :
    (context.settle changed next).settle further last =
      context.settle (changed || further) last := by
  simp [settle, Bool.or_assoc]

namespace AnyQuantifier

open PassM

/-- The comparison of the path being visited is read off the stack. -/
theorem attempt_comparison (node : Node) (whole : Path) (context : Context) :
    attempt (comparison node whole) context =
      (context.comparison? node).map fun found => (found, context) := by
  rw [comparison, attempt_bind, attempt_get, Option.bind_some, Context.comparison?]
  -- Only an operation with two arguments can compare, and only its first one.
  generalize context.ancestor? 1 = holder
  rcases holder with _ | holder
  · rfl
  · cases holder with
    | operation label operator type args =>
      rcases args with _ | ⟨left, _ | ⟨compared, others⟩⟩
      · rfl
      · rfl
      · dsimp only
        split <;> rfl
    | _ => rfl

/-- A path below a path on the stack is compared with nothing. -/
theorem comparison?_below_path (context : Context) {label : NodeId} {target : Path}
    {ancestors : List Node} (visits : context.ancestors = .path label target :: ancestors)
    (node source : Node) : (context.push source).comparison? node = none := by
  -- What is above it on the stack is the path, which is no operation.
  simp [Context.comparison?, Context.ancestor?, Context.push, visits]

/-- A path through a marker becomes a quantifier if it can be taken apart and is compared. The segments that
were passed before go below its element. -/
theorem attempt_quantify (node : Node) (whole : Path) (below : List Segment) (path : Path)
    (context : Context)
    (visits : ∃ label target ancestors, context.ancestors = .path label target :: ancestors) :
    attempt (quantify node whole below path) context =
      if path.hasMarker then
        (Direct.split? path).bind fun split =>
          (context.comparison? node).map fun (operator, type, compared) =>
            let passed : Direct.Split := { split with element := split.element.extend below }
            let (result, next) := passed.quantifier operator type compared context.nextNode
            (some result, context.settle true next)
      else some (none, context) := by
  -- The walk goes up to the innermost marker, and what it has passed is the part below.
  induction path generalizing node whole below context with
  | root segment =>
    by_cases isAny : segment.kind = .any
    · simp [quantify, Path.hasMarker, isAny, Direct.split?]
    · simp [quantify, Path.hasMarker, isAny]
  | member parent segment ih =>
    by_cases isAny : segment.kind = .any
    -- The collection is visited below the path, so a marker in it is compared with nothing.
    · obtain ⟨label, target, ancestors, stacked⟩ := visits
      let source : Node := .path context.nextNode parent
      let drawn : Context := { context with nextNode := context.nextNode + 1 }
      have inner := ih source parent [] (drawn.push source) ⟨_, _, _, rfl⟩
      rw [comparison?_below_path drawn stacked] at inner
      have marked : (Path.member parent segment).hasMarker = true := by simp [Path.hasMarker, isAny]
      rw [marked, if_pos rfl, Direct.split?, if_pos isAny, quantify, if_pos isAny]
      have built : attempt (build (Fresh.path parent)) context = some (source, drawn) := rfl
      rw [attempt_bind, built, Option.bind_some]
      dsimp only
      rw [attempt_bind, attempt_visiting, attempt_bind, inner]
      cases parent.hasMarker with
      | true => simp
      | false =>
        -- Without one the visit leaves the state, and the comparison is looked up in the same stack.
        simp only [Bool.false_eq_true, if_false, Option.bind_some, attempt_pure, Option.map_some]
        rw [attempt_bind, attempt_comparison]
        change Option.bind (Option.map _ (context.comparison? node)) _ = _
        cases context.comparison? node with
        | none => rfl
        | some found =>
          simp only [Context.settle, Bool.or_true]
          rfl
    -- Any other segment belongs to what is below the marker.
    · have same : (Path.member parent segment).hasMarker = parent.hasMarker := by
        simp [Path.hasMarker, isAny]
      rw [quantify, if_neg isAny, ih node whole (segment :: below) context visits, same,
        Direct.split?, if_neg isAny]
      -- The first of the segments that were passed is the last one of the element.
      cases Direct.split? parent with
      | none => rfl
      | some split => rfl

/-- A path through a marker that is compared becomes a quantifier, and one that is not fails. -/
theorem attempt_expand_path (label : NodeId) (target : Path) (context : Context) :
    attempt (expand (.path label target)) context =
      if target.hasMarker then
        ((context.push (.path label target)).comparison? (.path label target)).bind fun found =>
          (Direct.quantify found.1 found.2.1 target found.2.2 context.nextNode).map fun ran =>
            (ran.1, context.settle true ran.2)
      else some (.path label target, context) := by
  rw [expand, attempt_visiting, attempt_bind, attempt_quantify _ _ _ _ _ ⟨_, _, _, rfl⟩]
  cases target.hasMarker with
  | false => rfl
  | true =>
    rw [if_pos rfl, if_pos rfl]
    simp only [Direct.quantify]
    -- Both orders of asking, first for the comparison or first for the parts, fail if either does.
    cases (context.push (.path label target)).comparison? (.path label target) with
    | none => simp
    | some found =>
      cases Direct.split? target with
      | none => rfl
      | some split => rfl

/-- Whether a node is a path through a marker. -/
def isMarked : Node → Bool
  | .path _ target => target.hasMarker
  | _ => false

theorem startsWithMarker_cons (first : Node) (rest : List Node) :
    startsWithMarker (first :: rest) = isMarked first := by
  cases first <;> rfl

mutual

/-- Whether no operation that expansion reaches holds the same path through a marker twice. -/
def markersApart : Node → Bool
  | .operation _ _ _ args =>
    decide (args.Pairwise fun left right =>
      left.label = right.label → isMarked left = false ∧ isMarked right = false) &&
        markersApartAll args
  | .template _ _ _ args => markersApartAll args
  | .constant .. | .path .. | .factory .. | .param .. | .subquery .. => true

/-- Whether this holds of every expression of a list. -/
def markersApartAll : List Node → Bool
  | [] => true
  | first :: rest => markersApart first && markersApartAll rest

end

/-- A list is checked one by one. -/
theorem markersApartAll_iff {nodes : List Node} :
    markersApartAll nodes = true ↔ ∀ node ∈ nodes, markersApart node = true := by
  induction nodes with
  | nil => simp [markersApartAll]
  | cons first rest ih => simp [markersApartAll, ih]

/-- The stack and the direct recursion expand a node alike: both fail, or they give the same node and
leave the earlier state but for the flag and the supply of identities. -/
def Agrees (node : Node) (context : Context) : Prop :=
  attempt (expand node) context =
    (Direct.expand node context.nextNode).map fun ran =>
      (ran.1.1, context.settle ran.1.2 ran.2)

/-- Isolated steps tell whether they changed anything, and do not lose an earlier flag. -/
theorem attempt_isolated_settle {α : Type} {steps : PassM α} {context : Context}
    {ran? : Option ((α × Bool) × NodeId)}
    (agrees : attempt steps { context with replaced := false } = ran?.map fun ran =>
      (ran.1.1, Context.settle { context with replaced := false } ran.1.2 ran.2)) :
    attempt (isolated steps) context = ran?.map fun ran =>
      (ran.1, context.settle ran.1.2 ran.2) := by
  -- From a cleared flag, the flag in the end is whether these steps changed anything.
  rw [attempt_isolated, agrees, Option.map_map]
  rfl

/-- Arguments that are expanded alike one by one are expanded alike in a row. -/
theorem attempt_expandAll {args ancestors : List Node}
    (each : ∀ arg ∈ args, ∀ context : Context, context.ancestors = ancestors → Agrees arg context)
    {context : Context} (stacked : context.ancestors = ancestors) :
    attempt (expandAll args) context =
      (Direct.expandAll args context.nextNode).map fun ran =>
        (ran.1, context.settle ran.1.2 ran.2) := by
  -- Neither the flag nor the supply is part of the stack, so every argument sees the same ancestors.
  induction args generalizing context with
  | nil =>
    rw [expandAll, attempt_pure]
    exact congrArg some (Prod.ext rfl context.settle_false.symm)
  | cons first rest ih =>
    have head := attempt_isolated_settle
      (each first (by simp) { context with replaced := false } stacked)
    rw [expandAll, attempt_bind, head, Direct.expandAll, Direct.bind_apply]
    cases Direct.expand first context.nextNode with
    | none => rfl
    | some ran =>
      -- The others start from the identities that the first one has left.
      obtain ⟨⟨expanded, changed⟩, next⟩ := ran
      have tail := @ih (fun arg member => each arg (by simp [member])) (context.settle changed next)
        stacked
      rw [Context.settle_nextNode] at tail
      rw [Option.map_some, Option.bind_some, Option.bind_some]
      dsimp only
      rw [attempt_bind, tail, Direct.bind_apply]
      cases Direct.expandAll rest next with
      | none => rfl
      | some others =>
        simp only [Option.map_some, Option.bind_some, attempt_pure, Context.settle_settle]
        rfl

/-- An operation that does not start with a path through a marker is expanded through its arguments. -/
theorem Direct.expand_operation {label : NodeId} {operator : Operator} {type : ValueType}
    {args : List Node} (unmarked : startsWithMarker args = false) :
    Direct.expand (.operation label operator type args) =
      Direct.expandAll args >>=
        Direct.rebuild (.operation label operator type args) (Fresh.operation operator type) := by
  -- The equation for comparisons comes first, and a path without a marker takes the same way.
  unfold Direct.expand
  split
  · rename_i left target compared others same
    cases same
    rw [if_neg (by simpa [startsWithMarker] using unmarked)]
  · rename_i same
    cases same
    rfl
  all_goals simp_all

/-- A node that is built from its expanded arguments is expanded alike if they are. -/
theorem agrees_of_args {node : Node} {make : List Node → Fresh Node} {args : List Node}
    {finish : List Node → Bool → PassM Node} {context : Context}
    (expands : expand node = visiting node (expandAll args >>= fun ran => finish ran.1 ran.2))
    (direct : Direct.expand node = Direct.expandAll args >>= Direct.rebuild node make)
    (finishes : ∀ expanded changed (inner : Context) next,
      attempt (finish expanded changed) (inner.settle changed next) =
        (Direct.rebuild node make (expanded, changed) next).map fun ran =>
          (ran.1.1, inner.settle ran.1.2 ran.2))
    (each : ∀ arg ∈ args, ∀ inner : Context, inner.ancestors = node :: context.ancestors →
      Agrees arg inner) :
    Agrees node context := by
  -- The node is on the stack while its arguments are visited, and off it when it is built.
  rw [Agrees, direct, Direct.bind_apply, expands, attempt_visiting, attempt_bind,
    attempt_expandAll each rfl]
  change Option.map _ (Option.bind (Option.map _ (Direct.expandAll args context.nextNode)) _) = _
  cases Direct.expandAll args context.nextNode with
  | none => rfl
  | some ran =>
    obtain ⟨⟨expanded, changed⟩, next⟩ := ran
    rw [Option.map_some, Option.bind_some, Option.bind_some]
    dsimp only
    rw [finishes, Option.map_map]
    rfl

/-- An operation whose arguments are expanded alike, none of them compared by it, is expanded alike. -/
theorem agrees_operation {label : NodeId} {operator : Operator} {type : ValueType}
    {args : List Node} {context : Context} (unmarked : startsWithMarker args = false)
    (each : ∀ arg ∈ args, ∀ inner : Context,
      inner.ancestors = .operation label operator type args :: context.ancestors →
      Agrees arg inner) :
    Agrees (.operation label operator type args) context := by
  refine agrees_of_args (by rw [expand]) (Direct.expand_operation unmarked) ?_ each
  intro expanded changed inner next
  cases changed with
  | false => rfl
  | true =>
    cases expanded with
    | nil => rfl
    | cons first rest =>
      -- It does not give way to its first argument, whatever that has become.
      rw [rebuild, if_neg (by simp [unmarked])]
      rfl

/-- A template whose arguments are expanded alike is expanded alike. -/
theorem agrees_template {label : NodeId} {text : String} {type : ValueType} {args : List Node}
    {context : Context}
    (each : ∀ arg ∈ args, ∀ inner : Context,
      inner.ancestors = .template label text type args :: context.ancestors → Agrees arg inner) :
    Agrees (.template label text type args) context := by
  -- A template with changed arguments is built anew, and any other one is kept.
  let finish (expanded : List Node) (dirty : Bool) : PassM Node :=
    if dirty then build (Fresh.template text type expanded)
    else pure (.template label text type args)
  have expands : expand (.template label text type args) =
      visiting (.template label text type args)
        (expandAll args >>= fun ran => finish ran.1 ran.2) := by
    rw [expand]
  refine agrees_of_args expands (by rw [Direct.expand]) ?_ each
  intro expanded changed inner next
  cases changed with
  | false => rfl
  | true => rfl

/-- A comparison of a path through a marker whose other arguments are expanded alike becomes the same
quantifier. -/
theorem agrees_comparison {label left : NodeId} {operator : Operator} {type : ValueType}
    {target : Path} {compared : Node} {others : List Node} {context : Context}
    (marked : target.hasMarker = true)
    (each : ∀ arg ∈ compared :: others, ∀ inner : Context,
      inner.ancestors =
        .operation label operator type (.path left target :: compared :: others) :: context.ancestors →
      Agrees arg inner) :
    Agrees (.operation label operator type (.path left target :: compared :: others)) context := by
  let self : Node := .operation label operator type (.path left target :: compared :: others)
  -- The path reads the comparison off the stack, and changes, so that the operation gives way to it.
  have head : attempt (isolated (expand (.path left target))) (context.push self) =
      (Direct.quantify operator type target compared context.nextNode).map fun ran =>
        ((ran.1, true), (context.push self).settle true ran.2) := by
    have found (inner : Context) (stacked : inner.ancestors = self :: context.ancestors) :
        (inner.push (.path left target)).comparison? (.path left target) =
          some (operator, type, compared) := by
      simp [Context.comparison?, Context.ancestor?, Context.push, stacked, self, Expr.label]
    have isolated := @attempt_isolated_settle _ (expand (.path left target)) (context.push self)
      ((Direct.quantify operator type target compared context.nextNode).map fun ran =>
        ((ran.1, true), ran.2))
    rw [attempt_expand_path, if_pos marked, found _ rfl, Option.bind_some,
      Option.map_map] at isolated
    rw [isolated rfl, Option.map_map]
    rfl
  rw [Agrees, Direct.expand, if_pos marked, Direct.bind_apply, expand, attempt_visiting,
    attempt_bind, expandAll, attempt_bind, head]
  cases Direct.quantify operator type target compared context.nextNode with
  | none => rfl
  | some ran =>
    obtain ⟨result, next⟩ := ran
    have tail := @attempt_expandAll _ _ each ((context.push self).settle true next) rfl
    rw [Context.settle_nextNode] at tail
    rw [Option.map_some, Option.bind_some, Option.bind_some]
    dsimp only
    rw [attempt_bind, tail, Direct.bind_apply]
    cases Direct.expandAll (compared :: others) next with
    | none => rfl
    | some ran =>
      -- The other arguments had to expand, but what they became is dropped with the operation.
      obtain ⟨⟨expanded, changed⟩, last⟩ := ran
      have taken : rebuild self operator type (.path left target :: compared :: others)
          (result :: expanded) true = pure result := by
        rw [rebuild, if_pos (by simpa [startsWithMarker] using marked)]
      simp only [Option.map_some, Option.bind_some, attempt_pure, Bool.true_or]
      rw [taken, Context.settle_settle]
      rfl

/-- A path through a marker that nothing compares fails both ways, and any other path is kept. -/
theorem agrees_path {label : NodeId} {target : Path} {context : Context}
    (uncompared : target.hasMarker = true →
      (context.push (.path label target)).comparison? (.path label target) = none) :
    Agrees (.path label target) context := by
  -- Where nothing is compared a marked path fails, and any other one is kept.
  rw [Agrees, attempt_expand_path, Direct.expand]
  cases marked : target.hasMarker with
  | false =>
    rw [if_neg Bool.false_ne_true, if_neg Bool.false_ne_true]
    exact congrArg some (Prod.ext rfl context.settle_false.symm)
  | true =>
    rw [if_pos rfl, if_pos rfl, uncompared marked]
    rfl

/-- An operation compares no argument that is another node than its first one. -/
theorem comparison?_of_ne {label : NodeId} {operator : Operator} {type : ValueType}
    {first arg : Node} {rest ancestors : List Node} {inner : Context}
    (stacked : inner.ancestors = .operation label operator type (first :: rest) :: ancestors)
    (different : first.label ≠ arg.label) : (inner.push arg).comparison? arg = none := by
  -- Only the first argument is held by a comparison, and this one is told from it.
  cases rest with
  | nil => simp [Context.comparison?, Context.ancestor?, Context.push, stacked]
  | cons compared others =>
    simp [Context.comparison?, Context.ancestor?, Context.push, stacked, different]

/-- An operation over a single path through a marker fails both ways. -/
theorem agrees_single {label left : NodeId} {operator : Operator} {type : ValueType} {target : Path}
    {context : Context} (marked : target.hasMarker = true) :
    Agrees (.operation label operator type [.path left target]) context := by
  -- There is nothing to compare the path with, so it fails, and the operation with it.
  have each : ∀ arg ∈ [Expr.path left target], ∀ inner : Context,
      inner.ancestors = .operation label operator type [.path left target] :: context.ancestors →
      Agrees arg inner := by
    intro arg member inner stacked
    rw [List.mem_singleton] at member
    subst member
    apply agrees_path
    intro _
    simp [Context.comparison?, Context.ancestor?, Context.push, stacked]
  have fails (supply : NodeId) : Direct.expandAll [.path left target] supply = none := by
    rw [Direct.expandAll, Direct.bind_apply, Direct.expand, if_pos marked]
    rfl
  rw [Agrees, Direct.expand, Direct.bind_apply, fails, expand, attempt_visiting, attempt_bind,
    attempt_expandAll each rfl, fails]
  · rfl
  · simp

/-- Expansion agrees with the direct recursion wherever the node is not compared as a path. -/
theorem expand_agrees {node : Node} (apart : markersApart node = true) {context : Context}
    (uncompared : isMarked node = true → (context.push node).comparison? node = none) :
    Agrees node context := by
  -- What carries the induction is that a marked argument other than the first finds no comparison.
  induction node using Expr.induct generalizing context with
  | path label target => exact agrees_path uncompared
  | operation label operator type args ih =>
    rw [markersApart, Bool.and_eq_true, decide_eq_true_iff, markersApartAll_iff] at apart
    obtain ⟨distinct, inside⟩ := apart
    cases args with
    | nil => exact agrees_operation rfl (by simp)
    | cons first rest =>
      obtain ⟨others, -⟩ := List.pairwise_cons.mp distinct
      have later (arg : Node) (member : arg ∈ rest) (inner : Context)
          (stacked : inner.ancestors =
            .operation label operator type (first :: rest) :: context.ancestors) :
          Agrees arg inner := by
        refine ih arg (by simp [member]) (inside arg (by simp [member])) ?_
        intro marked
        -- The operation compares its first argument, which a marked one is not the same node as.
        apply comparison?_of_ne stacked
        intro same
        simp [(others arg member same).2] at marked
      cases marked : startsWithMarker (first :: rest) with
      | false =>
        apply agrees_operation marked
        intro arg member inner stacked
        rcases List.mem_cons.mp member with rfl | member
        · refine ih arg (by simp) (inside arg (by simp)) ?_
          intro isMarked
          rw [← startsWithMarker_cons arg rest, marked] at isMarked
          simp at isMarked
        · exact later arg member inner stacked
      | true =>
        cases first with
        | path left target =>
          cases rest with
          | nil => exact agrees_single marked
          | cons compared rest => exact agrees_comparison marked later
        | _ => simp [startsWithMarker] at marked
  | template label text type args ih =>
    rw [markersApart, markersApartAll_iff] at apart
    apply agrees_template
    intro arg member inner stacked
    -- A template on the stack compares nothing.
    refine ih arg member (apart arg member) ?_
    intro _
    simp [Context.comparison?, Context.ancestor?, Context.push, stacked]
  | _ =>
    rw [Agrees, expand, attempt_pure, Direct.expand]
    exact congrArg some (Prod.ext rfl context.settle_false.symm)

/-- From an empty stack, the pass and the direct recursion both fail on a tree in which no operation
holds a path through a marker twice, or they give the same node, with the same identities for the nodes
that are new. The state that is left is the earlier one but for the flag, which is raised if there was
a marker, and the supply of identities. -/
theorem expand_refines_direct {node : Node} (apart : markersApart node = true) {context : Context}
    (unvisited : context.ancestors = []) :
    match Direct.expand node context.nextNode with
    | none => ∃ fault, (Pass.expandMarkers.runIn node context).1 = .error fault
    | some ((result, changed), next) =>
      Pass.expandMarkers.runIn node context = (.ok result,
        { context with replaced := context.replaced || changed, nextNode := next }) := by
  -- With nothing above it on the stack, the node itself is compared with nothing.
  have agrees : Agrees node context := expand_agrees apart fun _ => by
    simp [Context.comparison?, Context.ancestor?, Context.push, unvisited]
  rw [Agrees] at agrees
  cases direct : Direct.expand node context.nextNode with
  | none =>
    rw [direct] at agrees
    exact run_of_attempt_none agrees
  | some ran =>
    rw [direct] at agrees
    exact run_of_attempt_some agrees

/-- A condition on a family, and a comparison of the name of any of its children. -/
def namedChild : Node :=
  let family := Path.ofVariable "x" (.object "Family")
  let child := (family.property "Children" .collection).any (.object "Person")
  .operation 5 .and .boolean
    [.path 1 (family.property "Active" .boolean),
      .operation 4 .equal .boolean
        [.path 2 (child.property "Name" .string), .constant 3 (.string "bob") .string]]

/-- The comparison inside the conjunction becomes a quantifier, out of five new nodes. -/
theorem expand_refines_direct_namedChild :
    ∃ result, Pass.expandMarkers.runIn namedChild (Context.start {} 6) =
      (.ok result, { Context.start {} 6 with replaced := true, nextNode := 11 }) := by
  have agrees := @expand_refines_direct namedChild (by decide +kernel) (Context.start {} 6) rfl
  have drawn : (Direct.expand namedChild 6).map (fun ran => (ran.1.2, ran.2)) = some (true, 11) := by
    decide +kernel
  -- The direct recursion succeeds, and what it has drawn is what the pass has drawn.
  cases direct : Direct.expand namedChild 6 with
  | none => simp [direct] at drawn
  | some ran =>
    obtain ⟨⟨result, changed⟩, next⟩ := ran
    rw [show (Context.start {} 6).nextNode = 6 from rfl, direct] at agrees
    simp only [direct, Option.map_some, Option.some.injEq, Prod.mk.injEq] at drawn
    obtain ⟨rfl, rfl⟩ := drawn
    exact ⟨result, agrees⟩

end AnyQuantifier

end IndexQuery
