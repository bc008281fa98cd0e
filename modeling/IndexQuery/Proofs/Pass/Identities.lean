import IndexQuery.Proofs.Pass.FlatMapRefinement
import IndexQuery.Proofs.Pass.QuantifierFaults

/-! No pass makes an operation hold a path through a marker twice: identities tell its operands apart. -/

namespace IndexQuery

open Steps AnyQuantifier

/-- Nodes whose identities, as far down as passes look, come before a given one. -/
inductive Below (bound : NodeId) : Node → Prop
  | intro {node : Node} (label : node.label < bound) (args : ∀ arg ∈ node.args, Below bound arg) :
      Below bound node

namespace Below

variable {bound : NodeId} {node : Node}

/-- The identity of the node itself comes before the given one. -/
theorem label (below : Below bound node) : node.label < bound := by
  cases below with
  | intro label args => exact label

/-- So do those of the arguments. -/
theorem args (below : Below bound node) : ∀ arg ∈ node.args, Below bound arg := by
  cases below with
  | intro label args => exact args

/-- What comes before an identity comes before every later one. -/
theorem mono (below : Below bound node) {later : NodeId} (le : bound ≤ later) :
    Below later node := by
  -- The bound holds of every node, so it is raised at every node.
  induction below with
  | intro label args ih => exact .intro (Nat.lt_of_lt_of_le label le) ih

/-- A path has no arguments. -/
theorem path {label : NodeId} (lt : label < bound) (target : Path) :
    Below bound (.path label target) := .intro lt (by simp [Expr.args])

/-- An operation over two nodes comes after both. -/
theorem pair {label : NodeId} {first second : Node} (lt : label < bound) (head : Below bound first)
    (tail : Below bound second) (operator : Operator) (type : ValueType) :
    Below bound (.operation label operator type [first, second]) := by
  -- Both members are arguments, and there are no others.
  refine .intro lt ?_
  simp only [Expr.args, List.forall_mem_cons]
  exact ⟨head, tail, by simp⟩

end Below

namespace AnyQuantifier.OperandsApart

/-- The arguments of an operation have their operands apart, and so has the operation itself. -/
theorem operation_inside {label : NodeId} {operator : Operator} {type : ValueType}
    {args : List Node} (apart : OperandsApart (.operation label operator type args)) :
    FirstApart args ∧ ∀ arg ∈ args, OperandsApart arg := by
  -- An operation is reached, so it is no leaf.
  cases apart with
  | leaf leaf => simp [reaches] at leaf
  | operation apart inside => exact ⟨apart, inside⟩

/-- An operation over two nodes has its operands apart if the second is told from the first. -/
theorem pair {label : NodeId} {first second : Node} (head : OperandsApart first)
    (tail : OperandsApart second) (told : second.isMarked = true → second.label ≠ first.label)
    (operator : Operator) (type : ValueType) :
    OperandsApart (.operation label operator type [first, second]) := by
  -- The second member is the only one that the first has to be told from.
  refine .operation ?_ ?_
  · intro arg member
    rw [List.mem_singleton.mp member]
    exact told
  · simp only [List.forall_mem_cons]
    exact ⟨head, tail, by simp⟩

end AnyQuantifier.OperandsApart

/-- What is left of a list whose members come one after the other is apart. -/
theorem AnyQuantifier.FirstApart.of_unmarked {nodes : List Node}
    (unmarked : ∀ node ∈ nodes, node.isMarked = false) : FirstApart nodes := by
  -- Only marked nodes have to be told from the first one.
  cases nodes with
  | nil => trivial
  | cons first rest =>
    intro arg member marked
    simp [unmarked arg (by simp [member])] at marked

namespace Expr

/-- A list of expressions gets identities one after the other. -/
theorem freshAll_cons {Label : Type} (first : Expr Label) (rest : List (Expr Label))
    (next : NodeId) :
    freshAll (first :: rest) next =
      ((first.fresh next).1 :: (freshAll rest (first.fresh next).2).1,
        (freshAll rest (first.fresh next).2).2) := rfl

/-- New identities are all that is new. -/
theorem unlabel_fresh {Label : Type} (expr : Expr Label) (next : NodeId) :
    (expr.fresh next).1.unlabel = expr.unlabel := by
  -- Lists are numbered from where the member before has ended.
  have all {exprs : List (Expr Label)}
      (each : ∀ expr ∈ exprs, ∀ next : NodeId, (expr.fresh next).1.unlabel = expr.unlabel)
      (next : NodeId) : (freshAll exprs next).1.map unlabel = exprs.map unlabel := by
    induction exprs generalizing next with
    | nil => rfl
    | cons first rest ih =>
      obtain ⟨head, tail⟩ := List.forall_mem_cons.mp each
      rw [freshAll_cons, List.map_cons, List.map_cons, head, ih tail]
  induction expr generalizing next with
  | operation label operator type args ih =>
    rw [unlabel_operation, ← all ih next]
    exact unlabel_operation ..
  | factory label type args ih =>
    rw [unlabel_factory, ← all ih next]
    exact unlabel_factory ..
  | template label text type args ih =>
    rw [unlabel_template, ← all ih next]
    exact unlabel_template ..
  | subquery label query ih =>
    rw [unlabel_subquery, ← ih next]
    rfl
  | _ => rfl

/-- Where the members of a list get identities from a supply, so does the list, and the first member is
apart from the others. -/
theorem freshAll_apart {Label : Type} {exprs : List (Expr Label)}
    (each : ∀ expr ∈ exprs, ∀ next : NodeId, OperandsApart (expr.fresh next).1 ∧
      Below (expr.fresh next).2 (expr.fresh next).1 ∧ next ≤ (expr.fresh next).1.label)
    (next : NodeId) :
    FirstApart (freshAll exprs next).1 ∧ next ≤ (freshAll exprs next).2 ∧
      ∀ node ∈ (freshAll exprs next).1, OperandsApart node ∧
        Below (freshAll exprs next).2 node ∧ next ≤ node.label := by
  induction exprs generalizing next with
  | nil => exact ⟨trivial, Nat.le_refl _, by rintro _ ⟨⟩⟩
  | cons first rest ih =>
    obtain ⟨head, tail⟩ := List.forall_mem_cons.mp each
    obtain ⟨apart, below, atLeast⟩ := head next
    obtain ⟨-, grown, others⟩ := ih tail (first.fresh next).2
    -- The others are numbered after the first.
    have drawn := below.label
    have started : next ≤ (first.fresh next).2 := Nat.le_trans atLeast (Nat.le_of_lt drawn)
    rw [freshAll_cons]
    refine ⟨?_, Nat.le_trans started grown, ?_⟩
    · intro arg member _
      exact Nat.ne_of_gt (Nat.lt_of_lt_of_le drawn (others arg member).2.2)
    · simp only [List.forall_mem_cons]
      refine ⟨⟨apart, below.mono grown, atLeast⟩, ?_⟩
      intro node member
      obtain ⟨apart, below, later⟩ := others node member
      exact ⟨apart, below, Nat.le_trans started later⟩

/-- New nodes have their operands apart, and get their identities from the supply. -/
theorem fresh_apart {Label : Type} (expr : Expr Label) (next : NodeId) :
    OperandsApart (expr.fresh next).1 ∧ Below (expr.fresh next).2 (expr.fresh next).1 ∧
      next ≤ (expr.fresh next).1.label := by
  -- A node is numbered after its arguments, so its own identity is the last one.
  induction expr generalizing next with
  | operation label operator type args ih =>
    obtain ⟨apart, grown, inside⟩ := freshAll_apart ih next
    refine ⟨.operation apart fun arg member => (inside arg member).1, ?_, grown⟩
    refine .intro (Nat.lt_succ_self _) fun arg member => ?_
    exact (inside arg member).2.1.mono (Nat.le_succ _)
  | factory label type args ih =>
    obtain ⟨-, grown, inside⟩ := freshAll_apart ih next
    refine ⟨.leaf rfl, ?_, grown⟩
    refine .intro (Nat.lt_succ_self _) fun arg member => ?_
    exact (inside arg member).2.1.mono (Nat.le_succ _)
  | template label text type args ih =>
    obtain ⟨-, grown, inside⟩ := freshAll_apart ih next
    refine ⟨.template fun arg member => (inside arg member).1, ?_, grown⟩
    refine .intro (Nat.lt_succ_self _) fun arg member => ?_
    exact (inside arg member).2.1.mono (Nat.le_succ _)
  | subquery label query ih =>
    obtain ⟨-, below, atLeast⟩ := ih next
    have drawn := below.label
    exact ⟨.leaf rfl, .intro (Nat.lt_succ_self _) (by rintro _ ⟨⟩),
      Nat.le_of_lt (Nat.lt_of_le_of_lt atLeast drawn)⟩
  | _ =>
    exact ⟨.leaf rfl, .intro (Nat.lt_succ_self _) (by rintro _ ⟨⟩), Nat.le_refl _⟩

end Expr

/-- States in which the nodes that are being visited have their operands apart. -/
def Context.StackApart (context : Context) : Prop :=
  ∀ ancestor ∈ context.ancestors, OperandsApart ancestor ∧ Below context.nextNode ancestor

namespace Context.StackApart

variable {context : Context}

/-- More identities that are given away leave the stack as it is. -/
theorem draw (stack : context.StackApart) (replaced : Bool) {next : NodeId}
    (grown : context.nextNode ≤ next) :
    StackApart { context with replaced := replaced, nextNode := next } := by
  -- Neither the flag nor new identities touch the ancestors.
  intro ancestor member
  obtain ⟨apart, below⟩ := stack ancestor member
  exact ⟨apart, below.mono grown⟩

/-- So do steps that only give identities away. -/
theorem keep (stack : context.StackApart) {after : Context} (keeps : context.Keeps after)
    (grown : context.nextNode ≤ after.nextNode) : after.StackApart := by
  obtain ⟨replaced, nextNode, rfl⟩ := keeps
  exact stack.draw replaced grown

/-- A node that has its operands apart can be visited. -/
theorem push (stack : context.StackApart) {node : Node} (apart : OperandsApart node)
    (below : Below context.nextNode node) : (context.push node).StackApart := by
  -- The node is the innermost ancestor, and the others stay.
  intro ancestor member
  rcases List.mem_cons.mp member with rfl | member
  · exact ⟨apart, below⟩
  · exact stack ancestor member

end Context.StackApart

namespace AnyQuantifier

open PassM

/-- What a step of an expansion leaves: more identities that are given away, and a result that has its
operands apart, if there is one. -/
def LeavesApart (before after : Context) (result? : Option Node) : Prop :=
  before.nextNode ≤ after.nextNode ∧
    ∀ result, result? = some result → OperandsApart result ∧ Below after.nextNode result

/-- A result that has its operands apart is what such a step may leave. -/
theorem LeavesApart.of_result {before after : Context} {result : Node}
    (grown : before.nextNode ≤ after.nextNode) (apart : OperandsApart result)
    (below : Below after.nextNode result) : LeavesApart before after (some result) := by
  -- What is said of a result is said of this one.
  refine ⟨grown, ?_⟩
  rintro _ ⟨⟩
  exact ⟨apart, below⟩

/-- What a step that leaves operands apart gives on the stack, it gives below it. -/
theorem LeavesApart.pop {node : Node} {before after : Context} {result? : Option Node}
    (leaves : LeavesApart (before.push node) after result?) :
    LeavesApart before after.pop.2 result? := leaves

/-- What the path being visited is compared with is an argument of a node on the stack. -/
theorem comparison_apart {node compared : Node} {whole : Path} {context after : Context}
    {operator : Operator} {type : ValueType} (stack : context.StackApart)
    (ran : run (comparison node whole) context = (.ok (operator, type, compared), after)) :
    after = context ∧ OperandsApart compared ∧ Below context.nextNode compared := by
  -- The operation that is found is on the stack, and all nodes there have their operands apart.
  rw [comparison, run_bind, run_get] at ran
  dsimp only at ran
  split at ran
  · rename_i label op ty left other others found
    split at ran
    · cases ran
      obtain ⟨apart, below⟩ := stack _ (List.mem_of_getElem? found)
      exact ⟨rfl, apart.operation_inside.2 compared (by simp),
        below.args compared (by simp [Expr.args])⟩
    · cases ran
  · cases ran

/-- A quantifier has its operands apart if what it is made of has. -/
theorem quantifier_apart {collection compared : Node} {next : NodeId} (element : Path)
    (operator : Operator) (type : ValueType) (collectionApart : OperandsApart collection)
    (collectionBelow : Below next collection) (comparedApart : OperandsApart compared)
    (comparedBelow : Below next compared) :
    OperandsApart (quantifier collection element operator type compared next).1 ∧
      Below (quantifier collection element operator type compared next).2
        (quantifier collection element operator type compared next).1 := by
  -- The variable is a new node, so that it is told from whatever it is compared with.
  have told : compared.label ≠ (Expr.path next element).label := Nat.ne_of_lt comparedBelow.label
  have elementBelow : Below (next + 3) (.path next element) :=
    .path (Nat.lt_add_of_pos_right (Nat.succ_pos 2)) element
  have predicateApart : OperandsApart
      (.operation (next + 1) operator type [.path next element, compared]) :=
    .pair (.leaf rfl) comparedApart (fun _ => told) _ _
  have predicateBelow : Below (next + 3)
      (.operation (next + 1) operator type [.path next element, compared]) :=
    .pair (Nat.add_lt_add_left (by decide) next) elementBelow
      (comparedBelow.mono (Nat.le_add_right _ _)) _ _
  exact ⟨.pair collectionApart predicateApart (by rintro ⟨⟩) _ _,
    .pair (Nat.lt_succ_self _) (collectionBelow.mono (Nat.le_add_right next 3)) predicateBelow _ _⟩

/-- A path that is visited is left as it is, or becomes what it is quantified to. -/
theorem visiting_apart {label : NodeId} {path : Path} {result : Node} {context after : Context}
    (below : Below context.nextNode (.path label path))
    (quantified : ∀ result? inner,
      run (quantify (.path label path) path [] path) (context.push (.path label path)) =
          (.ok result?, inner) →
        LeavesApart (context.push (.path label path)) inner result?)
    (ran : run (visiting (.path label path) do
      return (← quantify (.path label path) path [] path).getD (.path label path)) context =
        (.ok result, after)) :
    LeavesApart context after (some result) := by
  obtain ⟨inner, visited, rfl⟩ := run_visiting_ok.mp ran
  obtain ⟨result?, between, ran, returned⟩ := run_bind_ok.mp visited
  cases returned
  have leaves := quantified result? inner ran
  -- Without a quantifier the path itself is the result, and it is a leaf.
  cases result? with
  | none => exact LeavesApart.pop (.of_result leaves.1 (.leaf rfl) (below.mono leaves.1))
  | some result => exact leaves.pop

/-- A path through a marker becomes a quantifier that has its operands apart. -/
theorem quantify_apart {path whole : Path} {node : Node} {below : List Segment}
    {context after : Context} {result? : Option Node} (stack : context.StackApart)
    (ran : run (quantify node whole below path) context = (.ok result?, after)) :
    LeavesApart context after result? := by
  -- The collection above a marker is visited by itself, which the induction hypothesis is used for.
  induction path generalizing node whole below context after result? with
  | root segment =>
    rw [quantify] at ran
    split at ran
    · cases ran
    · cases ran
      exact ⟨Nat.le_refl _, by simp⟩
  | member parent segment ih =>
    rw [quantify] at ran
    split at ran
    · rw [run_bind_ok] at ran
      obtain ⟨source, drawn, built, ran⟩ := ran
      cases built
      rw [run_bind_ok] at ran
      obtain ⟨collection, between, visited, ran⟩ := ran
      let source : Node := .path context.nextNode parent
      let drawn : Context := { context with nextNode := context.nextNode + 1 }
      have sourceBelow : Below drawn.nextNode source := .path (Nat.lt_succ_self _) parent
      have stackDrawn : drawn.StackApart := stack.draw context.replaced (Nat.le_succ _)
      have leaves : LeavesApart drawn between (some collection) :=
        visiting_apart sourceBelow (fun result? inner ran =>
          ih (stackDrawn.push (.leaf rfl) sourceBelow) ran) visited
      obtain ⟨grown, leaves⟩ := leaves
      obtain ⟨collectionApart, collectionBelow⟩ := leaves collection rfl
      -- The visit leaves the stack, where the comparison is looked for.
      have kept := keeps_visiting source ((keeps_quantify source parent [] parent).bind fun result? =>
        .pure (result?.getD source)) drawn
      rw [visited] at kept
      have stackBetween := stackDrawn.keep kept grown
      rw [run_bind_ok] at ran
      obtain ⟨⟨operator, type, compared⟩, same, found, ran⟩ := ran
      obtain ⟨rfl, comparedApart, comparedBelow⟩ := comparison_apart stackBetween found
      cases ran
      refine ⟨?_, ?_⟩
      · exact Nat.le_trans (Nat.le_trans (Nat.le_succ _) grown) (Nat.le_add_right _ 3)
      · rintro result ⟨⟩
        exact quantifier_apart _ operator type collectionApart collectionBelow comparedApart
          comparedBelow
    · exact ih stack ran

/-- Arguments that leave their operands apart one by one do so in a row, and none of them is left a path
through a marker. -/
theorem expandAll_apart {args expanded : List Node} {dirty : Bool} {context after : Context}
    (each : ∀ arg ∈ args, ∀ inner : Context, inner.StackApart → Below inner.nextNode arg →
      ∀ result next, run (expand arg) inner = (.ok result, next) →
        LeavesApart inner next (some result))
    (apart : ∀ arg ∈ args, OperandsApart arg) (below : ∀ arg ∈ args, Below context.nextNode arg)
    (stack : context.StackApart)
    (ran : run (expandAll args) context = (.ok (expanded, dirty), after)) :
    context.nextNode ≤ after.nextNode ∧ ∀ result ∈ expanded,
      OperandsApart result ∧ Below after.nextNode result ∧ result.isMarked = false := by
  -- What is left of a path through a marker is a quantifier, so no result has to be told apart.
  induction args generalizing context expanded dirty with
  | nil =>
    cases ran
    exact ⟨Nat.le_refl _, by simp⟩
  | cons first rest ih =>
    obtain ⟨head, tail⟩ := List.forall_mem_cons.mp each
    obtain ⟨firstApart, restApart⟩ := List.forall_mem_cons.mp apart
    obtain ⟨firstBelow, restBelow⟩ := List.forall_mem_cons.mp below
    let cleared : Context := { context with replaced := false }
    rw [expandAll, run_bind_ok] at ran
    obtain ⟨⟨result, dirty⟩, between, isolatedRan, ran⟩ := ran
    obtain ⟨inner, firstRan, -, same⟩ := run_isolated_ok.mp isolatedRan
    rw [run_bind_ok] at ran
    obtain ⟨⟨results, othersDirty⟩, last, restRan, ran⟩ := ran
    cases ran
    obtain ⟨grown, leaves⟩ := head cleared (stack.draw false (Nat.le_refl _)) firstBelow _ _ firstRan
    obtain ⟨resultApart, resultBelow⟩ := leaves result rfl
    -- The first one leaves the stack, on which the others find the same nodes.
    have kept := expand_keeps first cleared
    rw [firstRan] at kept
    obtain ⟨replaced, nextNode, rfl⟩ := kept
    subst same
    let following : Context := { context with replaced := context.replaced || replaced, nextNode }
    obtain ⟨grownFurther, others⟩ := @ih _ _ following tail restApart (fun arg member =>
      (restBelow arg member).mono grown) (stack.draw (context.replaced || replaced) grown) restRan
    have expands := @plain_runIn_of_apart first firstApart _ cleared fun _ => rfl
    change (run (expand first) cleared).1.map Expr.unlabel = _ at expands
    rw [firstRan] at expands
    have unmarked := Plain.isMarked_of_expand expands.symm
    rw [Expr.isMarked_unlabel] at unmarked
    refine ⟨Nat.le_trans grown grownFurther, ?_⟩
    simp only [List.forall_mem_cons]
    exact ⟨⟨resultApart, resultBelow.mono grownFurther, unmarked⟩, others⟩

/-- An operation is built of arguments that are left apart. -/
theorem rebuild_apart {node result : Node} {operator : Operator} {type : ValueType}
    {args expanded : List Node} {dirty : Bool} {context after : Context} (apart : OperandsApart node)
    (below : Below context.nextNode node)
    (inside : ∀ result ∈ expanded,
      OperandsApart result ∧ Below context.nextNode result ∧ result.isMarked = false)
    (ran : run (rebuild node operator type args expanded dirty) context = (.ok result, after)) :
    LeavesApart context after (some result) := by
  -- The result is the operation as it was, its first argument, or a new operation.
  have built : OperandsApart (.operation context.nextNode operator type expanded) ∧
      Below (context.nextNode + 1) (.operation context.nextNode operator type expanded) := by
    refine ⟨.operation (.of_unmarked fun arg member => (inside arg member).2.2) fun arg member =>
      (inside arg member).1, .intro (Nat.lt_succ_self _) fun arg member => ?_⟩
    exact (inside arg member).2.1.mono (Nat.le_succ _)
  unfold rebuild at ran
  split at ran
  · cases ran
    exact .of_result (Nat.le_refl _) apart below
  · rename_i first rest
    split at ran
    · cases ran
      obtain ⟨apart, below, -⟩ := inside result (by simp)
      exact .of_result (Nat.le_refl _) apart below
    · cases ran
      exact .of_result (Nat.le_succ _) built.1 built.2
  · cases ran
    exact .of_result (Nat.le_succ _) built.1 built.2

/-- An expansion leaves operands apart. -/
theorem expand_apart {node result : Node} {context after : Context} (apart : OperandsApart node)
    (below : Below context.nextNode node) (stack : context.StackApart)
    (ran : run (expand node) context = (.ok result, after)) :
    LeavesApart context after (some result) := by
  -- A node that nothing happens to is its own result, so the hypothesis on all of it is kept.
  have whole := apart
  induction apart generalizing context result after with
  | @leaf node leaf =>
    cases node with
    | operation | template => simp [reaches] at leaf
    | path label target =>
      rw [expand] at ran
      exact visiting_apart below (fun result? inner ran =>
        quantify_apart (stack.push whole below) ran) ran
    | _ =>
      cases ran
      exact .of_result (Nat.le_refl _) whole below
  | @operation label operator type args firstApart inside ih =>
    rw [expand] at ran
    obtain ⟨inner, visited, rfl⟩ := run_visiting_ok.mp ran
    obtain ⟨⟨expanded, dirty⟩, between, argsRan, built⟩ := run_bind_ok.mp visited
    have pushed := stack.push whole below
    obtain ⟨grown, results⟩ := @expandAll_apart _ _ _ (context.push _) _
      (fun arg member inner stack below result next ran =>
        ih arg member below stack ran (inside arg member)) inside below.args pushed argsRan
    obtain ⟨grownFurther, leaves⟩ := rebuild_apart whole (below.mono grown) results built
    exact LeavesApart.pop ⟨Nat.le_trans grown grownFurther, leaves⟩
  | @template label text type args inside ih =>
    rw [expand] at ran
    obtain ⟨inner, visited, rfl⟩ := run_visiting_ok.mp ran
    obtain ⟨⟨expanded, dirty⟩, between, argsRan, built⟩ := run_bind_ok.mp visited
    have pushed := stack.push whole below
    obtain ⟨grown, results⟩ := @expandAll_apart _ _ _ (context.push _) _
      (fun arg member inner stack below result next ran =>
        ih arg member below stack ran (inside arg member)) inside below.args pushed argsRan
    dsimp only at built
    split at built
    · cases built
      refine LeavesApart.pop (.of_result (Nat.le_trans grown (Nat.le_succ _)) ?_ ?_)
      · exact .template fun arg member => (results arg member).1
      · refine .intro (Nat.lt_succ_self _) fun arg member => ?_
        exact (results arg member).2.1.mono (Nat.le_succ _)
    · cases built
      exact LeavesApart.pop (.of_result grown whole (below.mono grown))

end AnyQuantifier

end IndexQuery
