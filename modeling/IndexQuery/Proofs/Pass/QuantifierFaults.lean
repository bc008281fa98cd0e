import IndexQuery.Proofs.Pass.HeldQuantifier

/-! The expander gives what the plain recursion gives, and fails with the same error. -/

namespace IndexQuery

open Steps

namespace AnyQuantifier

/-- Lists whose first member is told from every later one that is a path through a marker. -/
def FirstApart : List Node → Prop
  | [] => True
  | first :: rest => ∀ arg ∈ rest, arg.isMarked = true → arg.label ≠ first.label

/-- Nodes in which no operation that expansion reaches holds its left operand again, if that is a path
through a marker. -/
inductive OperandsApart : Node → Prop
  | leaf {node : Node} (leaf : reaches node = false) : OperandsApart node
  | operation {label : NodeId} {operator : Operator} {type : ValueType} {args : List Node}
      (apart : FirstApart args) (inside : ∀ arg ∈ args, OperandsApart arg) :
      OperandsApart (.operation label operator type args)
  | template {label : NodeId} {text : String} {type : ValueType} {args : List Node}
      (inside : ∀ arg ∈ args, OperandsApart arg) : OperandsApart (.template label text type args)

/-- An operation compares its first argument with the second one, whichever way it is told. -/
theorem holder_first (operator : Operator) (type : ValueType) (first : Node) (rest : List Node) :
    Plain.holder Plain.byPlace operator type ((first :: rest).map Expr.unlabel) true first.unlabel =
      Plain.holder Plain.byLabel operator type (first :: rest) true first := by
  -- The first place and the label of the first argument mark the same argument.
  cases rest with
  | nil => rfl
  | cons compared others => simp [Plain.holder, Plain.byPlace, Plain.byLabel, Expr.unlabel_tree]

/-- An operation compares no other argument that is told from the first one. -/
theorem holder_later (operator : Operator) (type : ValueType) {first arg : Node} {rest : List Node}
    (member : arg ∈ rest) (different : arg.label ≠ first.label) :
    Plain.holder Plain.byPlace operator type ((first :: rest).map Expr.unlabel) false arg.unlabel =
      Plain.holder Plain.byLabel operator type (first :: rest) false arg := by
  -- With a second argument there is a left operand, which this argument is not.
  cases rest with
  | nil => simp at member
  | cons compared others =>
    simp [Plain.holder, Plain.byPlace, Plain.byLabel, Ne.symm different]

/-- Arguments that are expanded alike one by one are so in a row. -/
theorem plain_expandAll {args : List Node} {held : Bool → Tree → Plain.Holder}
    {held' : Bool → Node → Plain.Holder} {isFirst : Bool}
    (head : ∀ first rest, args = first :: rest →
      Plain.expand Plain.byPlace (held isFirst first.unlabel) first.unlabel =
        Plain.expand Plain.byLabel (held' isFirst first) first)
    (tail : ∀ arg ∈ args.tail, Plain.expand Plain.byPlace (held false arg.unlabel) arg.unlabel =
      Plain.expand Plain.byLabel (held' false arg) arg) :
    Plain.expandAll Plain.byPlace held isFirst (args.map Expr.unlabel) =
      Plain.expandAll Plain.byLabel held' isFirst args := by
  -- Only the first argument is compared, so from then on the later ones are all that is left.
  induction args generalizing isFirst with
  | nil => rfl
  | cons first rest ih =>
    have rests := @ih false (fun second others split => tail second (by simp [split]))
      (fun arg member => tail arg (List.mem_of_mem_tail member))
    rw [List.map_cons, Plain.expandAll, Plain.expandAll, head first rest rfl, rests]

/-- An operation is built the same from arguments without labels. -/
theorem rebuild_unlabel (operator : Operator) (type : ValueType) (args : List Node)
    (expanded : List Tree) :
    Plain.rebuild operator type (args.map Expr.unlabel) expanded =
      Plain.rebuild operator type args expanded := by
  -- The first argument is a path through a marker with or without labels.
  cases args with
  | nil => rfl
  | cons first rest =>
    cases expanded with
    | nil => rfl
    | cons result others => simp [Plain.rebuild]

/-- Where operands are told apart, it makes no difference whether the left one is told by its place or by
its label. -/
theorem plain_expand {node : Node} (apart : OperandsApart node) {held held' : Plain.Holder}
    (same : node.isMarked = true → held = held') :
    Plain.expand Plain.byPlace held node.unlabel = Plain.expand Plain.byLabel held' node := by
  -- Only a path through a marker asks what it is compared with, so only then the holders have to fit.
  induction apart generalizing held held' with
  | leaf leaf =>
    rename_i node
    cases marked : node.isMarked with
    | true =>
      rw [same marked]
      cases node with
      | path label target => rw [Expr.unlabel_path, Plain.expand, Plain.expand]
      | _ => simp [Expr.isMarked] at marked
    | false =>
      have leaf' : reaches node.unlabel = false := by simpa using leaf
      rw [Plain.expand_leaf leaf marked, Plain.expand_leaf leaf' (by simpa using marked),
        Expr.unlabel_tree]
  | @operation label operator type args apart inside ih =>
    rw [Expr.unlabel_operation, Plain.expand, Plain.expand,
      @plain_expandAll args _ (Plain.holder Plain.byLabel operator type args)]
    · simp only [rebuild_unlabel]
    · rintro first rest rfl
      exact ih first (by simp) fun _ => holder_first operator type first rest
    · intro arg member
      cases args with
      | nil => simp at member
      | cons first rest =>
        exact ih arg (List.mem_cons_of_mem _ member) fun marked =>
          holder_later operator type member (apart arg member marked)
  | template inside ih =>
    rw [Expr.unlabel_template, Plain.expand, Plain.expand,
      @plain_expandAll _ _ (fun _ _ => .error .noComparison)]
    · rintro first rest rfl
      exact ih first (by simp) fun _ => rfl
    · intro arg member
      exact ih arg (List.mem_of_mem_tail member) fun _ => rfl

/-- The pass does what the plain recursion does with what the stack says of the node, if it is a path
through a marker. -/
theorem plain_runIn_of_apart {node : Node} (apart : OperandsApart node) {held : Plain.Holder}
    {context : Context}
    (same : node.isMarked = true → (context.push node).holder node = held) :
    (Pass.expandMarkers.runIn node context).1.map Expr.unlabel =
      Plain.expand Plain.byPlace held node.unlabel := by
  rw [Held.map_unlabel_runIn, plain_expand apart fun marked => (same marked).symm]

/-- From an empty stack, the pass does what the plain recursion does with a node that nothing
compares. -/
theorem plain_of_expand {node : Node} (apart : OperandsApart node) {context : Context}
    (unvisited : context.ancestors = []) :
    (Pass.expandMarkers.runIn node context).1.map Expr.unlabel =
      Plain.expand Plain.byPlace (.error .noComparison) node.unlabel := by
  apply plain_runIn_of_apart apart
  intro _
  -- The only node on the stack is the one that is visited.
  simp [Context.holder, Context.ancestor?, Context.push, unvisited]

end AnyQuantifier

end IndexQuery
