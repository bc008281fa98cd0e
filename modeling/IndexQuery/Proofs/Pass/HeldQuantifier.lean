import IndexQuery.Proofs.Expr.Unlabel
import IndexQuery.Proofs.Pass.Frames
import IndexQuery.Proofs.Pass.PlainQuantifier

/-! The expander as a function of the node and of what it is compared with, whatever else the state is. -/

namespace IndexQuery

open Steps

/-- What a node is compared with while it is visited, read off the stack. -/
def Context.holder (context : Context) (node : Node) : AnyQuantifier.Plain.Holder :=
  match context.ancestor? 1 with
  | some (.operation _ operator type (left :: compared :: _)) =>
    if left.label = node.label then .ok (operator, type, compared.unlabel)
    else .error .notLeftOperand
  | _ => .error .noComparison

namespace Expr

/-- Labels have no part in whether an expression is a path through a marker. -/
@[simp] theorem isMarked_unlabel {Label : Type} (expr : Expr Label) :
    expr.unlabel.isMarked = expr.isMarked := by
  cases expr <;> simp [isMarked]

end Expr

namespace AnyQuantifier

/-- Labels have no part in whether an expression is entered. -/
@[simp] theorem reaches_unlabel {Label : Type} (expr : Expr Label) :
    reaches expr.unlabel = reaches expr := by
  cases expr <;> simp [reaches]

open PassM

/-- A list starts with a path through a marker if its first member is one. -/
theorem startsWithMarker_eq (first : Node) (rest : List Node) :
    startsWithMarker (first :: rest) = first.isMarked := by
  cases first <;> rfl

/-- The comparison of the path being visited is the one that the stack tells. -/
theorem run_comparison (node : Node) (whole : Path) (context : Context) :
    (run (comparison node whole) context).1.map
        (fun (operator, type, compared) => (operator, type, compared.unlabel)) =
        (context.holder node).mapError (.malformedAny whole.dotted) ∧
      (run (comparison node whole) context).2 = context := by
  rw [comparison, run_bind, run_get, Context.holder]
  dsimp only
  -- Only an operation with two arguments can compare, and only its first one.
  generalize context.ancestor? 1 = holder
  rcases holder with _ | holder
  · exact ⟨rfl, rfl⟩
  · cases holder with
    | operation label operator type args =>
      rcases args with _ | ⟨left, _ | ⟨compared, others⟩⟩
      · exact ⟨rfl, rfl⟩
      · exact ⟨rfl, rfl⟩
      · dsimp only
        split
        · exact ⟨rfl, rfl⟩
        · exact ⟨rfl, rfl⟩
    | _ => exact ⟨rfl, rfl⟩

/-- What a run gives beside a plain outcome: the same error or the same result without labels, and
a flag that is raised if a condition holds. -/
def Gives {α β : Type} (ran : Except ShapeError α × Context) (view : α → β)
    (outcome : Except ShapeError β) (flag : Bool) : Prop :=
  ran.1.map view = outcome ∧ ∀ result, ran.1 = .ok result → ran.2.replaced = flag

/-- A path that is compared with nothing is left as it is by a visit that does not fail. -/
theorem run_visiting_uncompared {label : NodeId} {path : Path} {context : Context} {flag : Bool}
    (gives : Gives
      (run (quantify (.path label path) path [] path) (context.push (.path label path)))
      (Option.map Expr.unlabel) (Plain.quantify (.error .noComparison) path [] path) flag) :
    let node : Node := .path label path
    let ran := run (visiting node do return (← quantify node path [] path).getD node) context
    ran.1 = (Plain.quantify (.error .noComparison) path [] path).map (fun _ => node) ∧
      context.Keeps ran.2 := by
  intro node ran
  obtain ⟨same, -⟩ := gives
  have kept : context.Keeps ran.2 :=
    keeps_visiting node ((keeps_quantify node path [] path).bind fun _ => .pure _) context
  refine ⟨?_, kept⟩
  change (run (visiting node _) context).1 = _
  rw [run_visiting, run_bind, ← same]
  generalize run (quantify node path [] path) (context.push node) = inner at same ⊢
  -- Nothing is held for the path, so it either is not marked or fails.
  rcases inner with ⟨fault | result?, after⟩
  · rfl
  · obtain ⟨-, none⟩ | ⟨-, _, _, _, _, -, compared, -⟩ := Plain.quantify_ok same.symm
    · obtain rfl := Option.map_eq_none_iff.mp none
      rfl
    · cases compared

/-- A path is quantified as in the plain recursion, and raises the flag if it has a marker. -/
theorem run_quantify (node : Node) (whole : Path) (below : List Segment) (path : Path)
    {context : Context}
    (visits : ∃ label target ancestors, context.ancestors = .path label target :: ancestors) :
    Gives (run (quantify node whole below path) context) (Option.map Expr.unlabel)
      (Plain.quantify (context.holder node) whole below path)
      (context.replaced || path.hasMarker) := by
  -- The walk goes up to the innermost marker, and what it has passed is the part below.
  induction path generalizing node whole below context with
  | root segment =>
    rw [quantify, Plain.quantify]
    by_cases isAny : segment.kind = .any
    · rw [if_pos isAny, if_pos isAny]
      exact ⟨rfl, by rintro _ ⟨⟩⟩
    · rw [if_neg isAny, if_neg isAny]
      exact ⟨rfl, fun _ _ => by simp [Path.hasMarker, isAny]⟩
  | member parent segment ih =>
    by_cases isAny : segment.kind = .any
    · obtain ⟨label, target, ancestors, stacked⟩ := visits
      have marked : (Path.member parent segment).hasMarker = true := by simp [Path.hasMarker, isAny]
      let source : Node := .path context.nextNode parent
      let drawn : Context := { context with nextNode := context.nextNode + 1 }
      -- The collection is visited below the path, so a marker in it is compared with nothing.
      have uncompared : (drawn.push source).holder source = .error .noComparison := by
        simp [Context.holder, Context.ancestor?, Context.push, drawn, stacked]
      have inner := @ih source parent [] (drawn.push source) ⟨_, _, _, rfl⟩
      rw [uncompared] at inner
      obtain ⟨visited, kept⟩ := run_visiting_uncompared inner
      have built : run (build (Fresh.path parent)) context = (.ok source, drawn) := rfl
      rw [marked, quantify, if_pos isAny, Plain.quantify, if_pos isAny, run_bind, built]
      dsimp only
      rw [run_bind]
      generalize run (visiting source _) drawn = ran at visited kept ⊢
      obtain ⟨outcome, after⟩ := ran
      obtain ⟨replaced, nextNode, rfl⟩ := kept
      obtain rfl : outcome = _ := visited
      cases Plain.quantify (.error .noComparison) parent [] parent with
      | error fault => exact ⟨rfl, by rintro _ ⟨⟩⟩
      | ok collection? =>
        -- The visit has left the stack as it was, so the comparison is still there.
        dsimp only [Except.map]
        rw [run_bind]
        obtain ⟨found, still⟩ := run_comparison node whole { drawn with replaced, nextNode }
        change _ = (context.holder node).mapError _ at found
        change Gives _ _ (Bind.bind (Except.mapError _ (context.holder node)) _) _
        rw [← found]
        generalize run (comparison node whole) _ = ran at found still ⊢
        obtain ⟨outcome, after⟩ := ran
        obtain rfl : after = _ := still
        cases outcome with
        | error fault => exact ⟨rfl, by rintro _ ⟨⟩⟩
        | ok comparison => exact ⟨rfl, fun _ _ => by simp; rfl⟩
    -- Any other segment belongs to what is below the marker.
    · have same : (Path.member parent segment).hasMarker = parent.hasMarker := by
        simp [Path.hasMarker, isAny]
      rw [same, quantify, if_neg isAny, Plain.quantify, if_neg isAny]
      exact ih node whole (segment :: below) visits

/-- Without labels, the first argument takes the operation in under the same condition. -/
theorem plain_rebuild (operator : Operator) (type : ValueType) (args expanded : List Node) :
    Plain.rebuild operator type args (expanded.map Expr.unlabel) =
      match startsWithMarker args, expanded with
      | true, result :: _ => result.unlabel
      | _, _ => .operation () operator type (expanded.map Expr.unlabel) := by
  -- Whether the first argument is marked is seen before it is expanded.
  cases args with
  | nil => rfl
  | cons first rest =>
    rw [startsWithMarker_eq]
    cases expanded with
    | nil => cases first.isMarked <;> rfl
    | cons result others => cases marked : first.isMarked <;> simp [Plain.rebuild, marked]

/-- An operation is built from its expanded arguments as in the plain recursion. -/
theorem unlabel_rebuild {label : NodeId} {operator : Operator} {type : ValueType}
    {args expanded : List Node} {dirty : Bool} {context after : Context} {result : Node}
    (kept : dirty = false → expanded = args)
    (marked : startsWithMarker args = true → dirty = true)
    (ran : run (rebuild (.operation label operator type args) operator type args expanded dirty)
      context = (.ok result, after)) :
    result.unlabel =
        Plain.rebuild operator type args (expanded.map Expr.unlabel) ∧
      after.replaced = context.replaced ∧
      (dirty = false → result = .operation label operator type args) := by
  -- The flag decides in the pass, and the plain recursion builds the same without asking.
  rw [plain_rebuild]
  cases dirty with
  | false =>
    obtain rfl := kept rfl
    -- Without a change, the first argument is no path through a marker.
    have unmarked : startsWithMarker expanded = false := by simpa using marked
    rw [unmarked]
    cases ran
    exact ⟨by simp, rfl, fun _ => rfl⟩
  | true =>
    cases expanded with
    | nil =>
      cases ran
      exact ⟨by cases startsWithMarker args <;> rfl, rfl, by rintro ⟨⟩⟩
    | cons left others =>
      rw [rebuild] at ran
      split at ran
      -- The quantifier that the first argument has become takes the operation in.
      · rename_i isMarked
        rw [isMarked]
        cases ran
        exact ⟨rfl, rfl, by rintro ⟨⟩⟩
      · rename_i unmarked
        rw [Bool.not_eq_true] at unmarked
        rw [unmarked]
        cases ran
        exact ⟨Expr.unlabel_operation .., rfl, by rintro ⟨⟩⟩

namespace Held

/-- What a node finds on the stack is how the operation just above it compares it. -/
theorem holder_operation {inner : Context} {label : NodeId} {operator : Operator}
    {type : ValueType} {args ancestors : List Node}
    (stacked : inner.ancestors = .operation label operator type args :: ancestors) (isFirst : Bool)
    (arg : Node) :
    (inner.push arg).holder arg = Plain.holder Plain.byLabel operator type args isFirst arg := by
  -- The argument itself is the innermost ancestor, and the operation is the next one.
  rcases args with _ | ⟨left, _ | ⟨compared, others⟩⟩
  all_goals
    simp [Context.holder, Context.ancestor?, Context.push, stacked, Plain.holder, Plain.byLabel]

/-- A template on the stack compares nothing. -/
theorem holder_template {inner : Context} {label : NodeId} {text : String} {type : ValueType}
    {args ancestors : List Node}
    (stacked : inner.ancestors = .template label text type args :: ancestors) (arg : Node) :
    (inner.push arg).holder arg = .error .noComparison := by
  simp [Context.holder, Context.ancestor?, Context.push, stacked]

/-- Expanding a node gives what is told from what holds it: the same error, or the same result but for
labels. The flag is raised if the result is another node, and by every path through a marker. -/
def Expands (held : Plain.Holder) (node : Node) (context : Context) : Prop :=
  match run (AnyQuantifier.expand node) context with
  | (.error fault, _) => Plain.expand Plain.byLabel held node = .error fault
  | (.ok result, after) =>
    Plain.expand Plain.byLabel held node = .ok result.unlabel ∧
      ∃ changed, after.replaced = (context.replaced || changed) ∧
        (changed = false → result = node) ∧ (node.isMarked = true → changed = true)

/-- A path is quantified by what holds it. -/
theorem expands_path (label : NodeId) (target : Path) (context : Context) :
    let node : Node := .path label target
    Expands ((context.push node).holder node) node context := by
  intro node
  have gives := @run_quantify node target [] target (context.push node) ⟨_, _, _, rfl⟩
  rw [Expands, expand, run_visiting, run_bind, Plain.expand]
  generalize run (quantify _ target [] target) (context.push node) = ran at gives ⊢
  obtain ⟨outcome, after⟩ := ran
  obtain ⟨same, raised⟩ := gives
  rw [← same]
  cases outcome with
  | error fault => rfl
  | ok result? =>
    refine ⟨by cases result? <;> rfl, target.hasMarker, raised result? rfl, ?_, id⟩
    -- Without a marker there is no quantifier, so the path is the result.
    intro unmarked
    rw [Plain.quantify_of_not_marked unmarked] at same
    cases result? with
    | none => rfl
    | some result => simp [Except.map] at same

/-- Arguments that give what is told one by one give it in a row. -/
theorem run_expandAll {args ancestors : List Node} {held : Bool → Node → Plain.Holder}
    {context : Context}
    (each : ∀ arg ∈ args, ∀ (isFirst : Bool) (inner : Context), inner.ancestors = ancestors →
      Expands (held isFirst arg) arg inner) (stacked : context.ancestors = ancestors)
    (isFirst : Bool) :
    match run (expandAll args) context with
    -- The state after a failure does not matter, since nothing catches it.
    | (.error fault, _) => Plain.expandAll Plain.byLabel held isFirst args = .error fault
    | (.ok (expanded, dirty), after) =>
      Plain.expandAll Plain.byLabel held isFirst args = .ok (expanded.map Expr.unlabel) ∧
        after.replaced = (context.replaced || dirty) ∧ (dirty = false → expanded = args) ∧
        (startsWithMarker args = true → dirty = true) := by
  -- Only the stack is the same for all arguments, so the rest of the state stays quantified over.
  induction args generalizing context isFirst with
  | nil => exact ⟨rfl, by simp, fun _ => rfl, by rintro ⟨⟩⟩
  | cons first rest ih =>
    obtain ⟨head, tail⟩ := List.forall_mem_cons.mp each
    have expands := head isFirst { context with replaced := false } stacked
    have kept := expand_keeps first { context with replaced := false }
    rw [Expands] at expands
    rw [expandAll, run_bind, run_isolated, Plain.expandAll]
    generalize run (expand first) { context with replaced := false } = ran
      at expands kept ⊢
    rcases ran with ⟨fault | result, after⟩
    · dsimp only at expands ⊢
      rw [expands]
      rfl
    · obtain ⟨replaced, nextNode, rfl⟩ := kept
      obtain ⟨same, changed, raised, kept, marked⟩ := expands
      obtain rfl : replaced = changed := raised
      -- The first argument leaves the stack as it was, so the others find the same ancestors.
      have others := @ih { context with replaced := context.replaced || replaced, nextNode } tail
        stacked false
      dsimp only
      rw [run_bind, same]
      generalize run (expandAll rest) _ = ran at others ⊢
      rcases ran with ⟨fault | ⟨results, dirty⟩, after⟩
      · dsimp only at others ⊢
        change Bind.bind (Plain.expandAll _ held false rest) _ = _
        rw [others]
        rfl
      · obtain ⟨others, flag, still, -⟩ := others
        refine ⟨?_, ?_, ?_, ?_⟩
        · change Bind.bind (Plain.expandAll _ held false rest) _ = _
          rw [others]
          rfl
        · rw [flag, Bool.or_assoc]
        · intro quiet
          obtain ⟨first, rest⟩ := Bool.or_eq_false_iff.mp quiet
          rw [kept first, still rest]
        · intro isMarked
          rw [startsWithMarker_eq] at isMarked
          rw [marked isMarked, Bool.true_or]

/-- Building an operation from its expanded arguments never fails. -/
theorem rebuild_ok (node : Node) (operator : Operator) (type : ValueType) (args expanded : List Node)
    (dirty : Bool) (context : Context) :
    ∃ result after, run (rebuild node operator type args expanded dirty) context =
      (.ok result, after) := by
  -- It keeps the node, gives way to the first argument or draws one identity.
  unfold rebuild
  split
  · exact ⟨_, _, rfl⟩
  · split
    · exact ⟨_, _, rfl⟩
    · exact ⟨_, _, rfl⟩
  · exact ⟨_, _, rfl⟩

/-- An operation gives what is told if its arguments do. -/
theorem expands_operation {label : NodeId} {operator : Operator} {type : ValueType}
    {args : List Node} (held : Plain.Holder) {context : Context}
    (each : ∀ arg ∈ args, ∀ inner : Context,
      Expands ((inner.push arg).holder arg) arg inner) :
    Expands held (.operation label operator type args) context := by
  let self : Node := .operation label operator type args
  -- Whatever holds the operation itself, its arguments find the operation on the stack.
  have inside := @run_expandAll args _ (Plain.holder Plain.byLabel operator type args)
    (context.push self)
    (fun arg member isFirst inner stacked => by
      rw [← holder_operation stacked]
      exact each arg member inner) rfl true
  rw [Expands, expand, run_visiting, run_bind, Plain.expand]
  generalize run (expandAll args) (context.push self) = ran at inside ⊢
  rcases ran with ⟨fault | ⟨expanded, dirty⟩, between⟩
  · dsimp only at inside ⊢
    rw [inside]
    rfl
  · obtain ⟨same, flag, kept, marked⟩ := inside
    obtain ⟨result, after, built⟩ := rebuild_ok self operator type args expanded dirty between
    obtain ⟨unlabel, still, quiet⟩ := unlabel_rebuild kept marked built
    dsimp only
    rw [same, built]
    refine ⟨congrArg Except.ok unlabel.symm, dirty, ?_, quiet, by rintro ⟨⟩⟩
    exact still.trans flag

/-- A template gives what is told if its arguments do. -/
theorem expands_template {label : NodeId} {text : String} {type : ValueType} {args : List Node}
    (held : Plain.Holder) {context : Context}
    (each : ∀ arg ∈ args, ∀ inner : Context,
      Expands ((inner.push arg).holder arg) arg inner) :
    Expands held (.template label text type args) context := by
  let self : Node := .template label text type args
  -- Arguments of a template have the template below them on the stack, which compares nothing.
  have inside := @run_expandAll args _ (fun _ _ => .error .noComparison) (context.push self)
    (fun arg member _ inner stacked => by
      rw [← holder_template stacked arg]
      exact each arg member inner) rfl true
  rw [Expands, expand, run_visiting, run_bind, Plain.expand]
  generalize run (expandAll args) (context.push self) = ran at inside ⊢
  rcases ran with ⟨fault | ⟨expanded, dirty⟩, between⟩
  · dsimp only at inside ⊢
    rw [inside]
    rfl
  · obtain ⟨same, flag, kept, -⟩ := inside
    dsimp only
    rw [same]
    -- Without a change the template itself is the result, which then is what its plain tree is.
    cases dirty with
    | false =>
      obtain rfl := kept rfl
      refine ⟨?_, false, flag, fun _ => rfl, by rintro ⟨⟩⟩
      simp [Bind.bind, Except.bind, Pure.pure, Except.pure]
    | true =>
      refine ⟨?_, true, flag, by rintro ⟨⟩, fun _ => rfl⟩
      simp [Bind.bind, Except.bind, Pure.pure, Except.pure]

/-- From every state, expanding a node gives what is told from what the stack says of it. -/
theorem expands (node : Node) (context : Context) :
    Expands ((context.push node).holder node) node context := by
  -- An operation and a template are what their arguments find on the stack, whatever is below them.
  induction node using Expr.induct generalizing context with
  | path label target => exact expands_path label target context
  | operation label operator type args ih => exact expands_operation _ ih
  | template label text type args ih => exact expands_template _ ih
  | _ => exact ⟨rfl, false, (Bool.or_false _).symm, fun _ => rfl, by rintro ⟨⟩⟩

/-- The pass gives what is told, and fails with the same error. -/
theorem map_unlabel_runIn (node : Node) (context : Context) :
    (Pass.expandMarkers.runIn node context).1.map Expr.unlabel =
      Plain.expand Plain.byLabel ((context.push node).holder node) node := by
  -- The node on the stack is the one that holds the expression.
  have expands := expands node context
  change (run (expand node) context).1.map Expr.unlabel = _
  rw [Expands] at expands
  generalize run (expand node) context = ran at expands ⊢
  rcases ran with ⟨fault | result, after⟩
  · exact expands.symm
  · exact expands.1.symm

end Held

end AnyQuantifier

end IndexQuery
