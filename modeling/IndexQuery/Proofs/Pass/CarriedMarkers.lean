import IndexQuery.Proofs.Expr.Reached
import IndexQuery.Proofs.Pass.Identities
import IndexQuery.Proofs.Pass.MarkerComparisons
import IndexQuery.Proofs.Pass.QuantifierOutcomes

/-! Which markers an expansion leaves, and what a second one makes of them. -/

namespace IndexQuery

open Steps

namespace AnyQuantifier

/-- Nodes whose identities tell apart whatever an expansion comes to. -/
def Identified (node : Node) : Prop :=
  ∀ left ∈ node.reached reaches, ∀ right ∈ node.reached reaches,
    left.label = right.label → left = right

instance (node : Node) : Decidable (Identified node) :=
  inferInstanceAs
    (Decidable (∀ left ∈ node.reached reaches, ∀ right ∈ node.reached reaches, _ → _))

mutual

/-- The operands that quantifiers take over: the second argument of every operation that starts with a
path through a marker, but for operations below it. -/
def carried : Node → List Node
  | .operation _ _ _ args => if startsWithMarker args then args[1]?.toList else carriedAll args
  | .template _ _ _ args => carriedAll args
  | .constant .. | .path .. | .factory .. | .param .. | .subquery .. => []

/-- The operands that the quantifiers for a list of nodes take over. -/
def carriedAll : List Node → List Node
  | [] => []
  | first :: rest => carried first ++ carriedAll rest

end

/-- A list has the operands of its members carried over, in order. -/
@[simp] theorem carriedAll_eq_flatMap (nodes : List Node) :
    carriedAll nodes = nodes.flatMap carried := by
  induction nodes with
  | nil => rfl
  | cons first rest ih => simp [carriedAll, ih]

namespace Identified

/-- Nodes are told apart in an argument if they are in the whole. -/
theorem arg {node arg : Node} (identified : Identified node) (entered : reaches node = true)
    (member : arg ∈ node.args) : Identified arg := by
  -- What is reached in an argument is reached in the node.
  intro left first right second
  have subset := Expr.reached_subset entered member
  exact identified left (subset first) right (subset second)

/-- Arguments are told apart. -/
theorem args_eq {node left right : Node} (identified : Identified node)
    (entered : reaches node = true) (first : left ∈ node.args) (second : right ∈ node.args)
    (same : left.label = right.label) : left = right := by
  -- Both arguments are reached in the node, where identities tell nodes apart.
  refine identified left ?_ right ?_ same
  · exact Expr.reached_subset entered first (Expr.mem_reached reaches left)
  · exact Expr.reached_subset entered second (Expr.mem_reached reaches right)

end Identified

/-- A path that is taken apart leaves no marker above or below the one that it is taken apart at. -/
theorem unmarked_of_split {path : Path} {split : Direct.Split}
    (apart : Direct.split? path = some split) :
    split.collection.hasMarker = false ∧ split.element.hasMarker = false := by
  induction path, split, apart using Direct.split_induct with
  | marker parent segment _ _ above => exact ⟨above, rfl⟩
  -- The segments below the innermost marker are none themselves.
  | member parent segment split _ _ other ih => exact ⟨ih.1, by simp [Path.hasMarker, other, ih.2]⟩

/-- A quantifier has the marked paths of the operand that it takes over. -/
theorem markedPaths_quantifier {target : Path} {split : Direct.Split}
    (apart : Direct.split? target = some split) (operator : Operator) (type : ValueType)
    (compared : Node) (next : NodeId) :
    (split.quantifier operator type compared next).1.markedPaths = compared.markedPaths := by
  -- The collection ends before the marker and the element starts behind it.
  obtain ⟨collection, element⟩ := unmarked_of_split apart
  simp [Direct.Split.quantifier, Expr.markedPaths, collection, element]

/-- A list without marked paths does not start with one. -/
theorem startsWithMarker_of_unmarked {args : List Node}
    (unmarked : args.flatMap Expr.markedPaths = []) : startsWithMarker args = false := by
  -- A first argument that is a marked path would be one of the marked paths.
  cases args with
  | nil => rfl
  | cons first rest =>
    rw [startsWithMarker_eq]
    exact Expr.isMarked_of_markedPaths (List.append_eq_nil_iff.mp unmarked).1

/-- A node without marked paths has nothing carried over. -/
theorem carried_of_unmarked {node : Node} (unmarked : node.markedPaths = []) :
    carried node = [] := by
  have all {args : List Node} (each : ∀ arg ∈ args, arg.markedPaths = [] → carried arg = [])
      (unmarked : args.flatMap Expr.markedPaths = []) : args.flatMap carried = [] := by
    rw [List.flatMap_eq_nil_iff] at unmarked ⊢
    exact fun arg member => each arg member (unmarked arg member)
  -- A comparison carries something only if a marked path starts it, and the other nodes pass on what is
  -- below.
  induction node using Expr.induct with
  | operation label operator type args ih =>
    rw [Expr.markedPaths_operation] at unmarked
    rw [carried, startsWithMarker_of_unmarked unmarked, carriedAll_eq_flatMap]
    exact all ih unmarked
  | template label text type args ih =>
    rw [Expr.markedPaths_template] at unmarked
    rw [carried, carriedAll_eq_flatMap]
    exact all ih unmarked
  | _ => rfl

/-- What an argument is compared as makes it the left operand, so in an operation that starts with
another node no argument is marked. -/
theorem Identified.unmarked_arg {floor : NodeId} {label : NodeId} {operator : Operator}
    {type : ValueType} {args : List Node} {arg result : Node}
    (identified : Identified (.operation label operator type args))
    (unmarked : startsWithMarker args = false) (member : arg ∈ args)
    (expansion : Expansion floor (comparing operator type args arg) arg result) :
    arg.isMarked = false := by
  cases marked : arg.isMarked with
  | false => rfl
  | true =>
    obtain ⟨_, _, _, _, _, compared, _, -, -, -, compares, -⟩ := expansion.of_marked marked
    rcases args with _ | ⟨left, _ | ⟨second, others⟩⟩
    · simp [comparing] at compares
    · simp [comparing] at compares
    · rw [comparing] at compares
      split at compares
      -- Only the left operand has its identity, and that one is no path through a marker.
      · rename_i same
        rw [startsWithMarker_eq, identified.args_eq rfl (by simp [Expr.args]) member same,
          marked] at unmarked
        exact unmarked
      · cases compares

/-- What nothing compares is no path through a marker, if something is made of it. -/
theorem Expansion.unmarked_of_none {floor : NodeId} {node result : Node}
    (expansion : Expansion floor none node result) : node.isMarked = false := by
  -- A marked path only expands inside a comparison.
  cases marked : node.isMarked with
  | false => rfl
  | true =>
    obtain ⟨_, _, _, _, _, _, _, -, -, -, compares, -⟩ := expansion.of_marked marked
    cases compares

/-- A node without marked paths is left as it is. -/
theorem Expansion.eq_of_unmarked {floor : NodeId} {held : Option Comparison} {node result : Node}
    (expansion : Expansion floor held node result) (unmarked : node.markedPaths = []) :
    result = node := by
  -- Each other case has a marked path, its own or one below.
  cases expansion with
  | still => rfl
  | quantified apart => simp [Expr.markedPaths, hasMarker_of_split apart] at unmarked
  | absorbed apart => simp [Expr.markedPaths, hasMarker_of_split apart] at unmarked
  | operation _ marked =>
    rw [Expr.markedPaths_operation] at unmarked
    exact absurd unmarked marked
  | template marked =>
    rw [Expr.markedPaths_template] at unmarked
    exact absurd unmarked marked

/-- What is made of a node is no path through a marker. -/
theorem Expansion.isMarked {floor : NodeId} {held : Option Comparison} {node result : Node}
    (expansion : Expansion floor held node result) : result.isMarked = false := by
  -- What is built is no path, and what stays had no mark.
  cases expansion with
  | still unmarked => exact Expr.isMarked_of_markedPaths unmarked
  | quantified | absorbed | operation | template => rfl

/-- The arguments of an operation that starts with no marked path are told apart, and not marked. -/
theorem Identified.args_unmarked {floor : NodeId} {label : NodeId} {operator : Operator}
    {type : ValueType} {args results : List Node}
    (identified : Identified (.operation label operator type args))
    (starts : startsWithMarker args = false)
    (inside : ∀ pair ∈ args.zip results,
      Expansion floor (comparing operator type args pair.1) pair.1 pair.2) :
    ∀ pair ∈ args.zip results, Identified pair.1 ∧ pair.1.isMarked = false := by
  -- Only the first argument of a comparison may be a marked path, and it is none here.
  intro pair member
  have arg : pair.1 ∈ args := (List.of_mem_zip member).1
  exact ⟨identified.arg rfl arg,
    identified.unmarked_arg starts arg (inside pair member)⟩

/-- So are the holes of a template. -/
theorem Identified.holes_unmarked {floor : NodeId} {label : NodeId} {text : String}
    {type : ValueType} {args results : List Node}
    (identified : Identified (.template label text type args))
    (inside : ∀ pair ∈ args.zip results, Expansion floor none pair.1 pair.2) :
    ∀ pair ∈ args.zip results, Identified pair.1 ∧ pair.1.isMarked = false := by
  -- Nothing is compared inside a template.
  intro pair member
  have arg : pair.1 ∈ args := (List.of_mem_zip member).1
  exact ⟨identified.arg rfl arg, (inside pair member).unmarked_of_none⟩

/-- The marked paths that are left are those of the operands that are carried over. -/
theorem Expansion.markedPaths {floor : NodeId} {held : Option Comparison} {node result : Node}
    (expansion : Expansion floor held node result) (identified : Identified node)
    (unmarked : node.isMarked = false) :
    result.markedPaths = (carried node).flatMap Expr.markedPaths := by
  -- What is left of a list is left of its members, and what is carried over in them.
  have joined {args results : List Node} (length : args.length = results.length)
      (each : ∀ pair ∈ args.zip results,
        pair.2.markedPaths = (carried pair.1).flatMap Expr.markedPaths) :
      results.flatMap Expr.markedPaths = (args.flatMap carried).flatMap Expr.markedPaths := by
    have same := (map_eq_iff_zip _ (fun arg => (carried arg).flatMap Expr.markedPaths) length).mpr each
    rw [List.flatMap_assoc, List.flatMap_def, same, ← List.flatMap_def]
  induction expansion with
  | still none => rw [carried_of_unmarked none, none, List.flatMap_nil]
  | quantified apart => simp [Expr.isMarked, hasMarker_of_split apart] at unmarked
  | absorbed apart =>
    rw [markedPaths_quantifier apart, carried, startsWithMarker_eq]
    simp [Expr.isMarked, hasMarker_of_split apart]
  | operation starts _ _ length inside ih =>
    rw [Expr.markedPaths_operation, carried, starts, carriedAll_eq_flatMap]
    have sound := identified.args_unmarked starts inside
    exact joined length fun pair member => ih pair member (sound pair member).1 (sound pair member).2
  | template _ _ length inside ih =>
    rw [Expr.markedPaths_template, carried, carriedAll_eq_flatMap]
    have sound := identified.holes_unmarked inside
    exact joined length fun pair member => ih pair member (sound pair member).1 (sound pair member).2

/-- Whether a node that is no path through a marker is accepted does not depend on what compares it. -/
theorem accepted_of_unmarked {node : Node} (unmarked : node.isMarked = false)
    (held : Option Comparison) : accepted held node = accepted none node := by
  -- Only a marked path asks what it is compared with.
  cases node with
  | path label target =>
    rw [Expr.isMarked] at unmarked
    simp [accepted, unmarked]
  | _ => rfl

/-- A node without marked paths is accepted. -/
theorem accepted_of_no_markers {node : Node} (unmarked : node.markedPaths = [])
    (held : Option Comparison) : accepted held node = true := by
  -- The comparison that holds an argument changes on the way down, so it is general.
  induction node using Expr.induct generalizing held with
  | path label target =>
    have unmarked := Expr.isMarked_of_markedPaths unmarked
    rw [Expr.isMarked] at unmarked
    simp [accepted, unmarked]
  | operation label operator type args ih =>
    rw [Expr.markedPaths_operation, List.flatMap_eq_nil_iff] at unmarked
    rw [accepted_operation]
    exact fun arg member => ih arg member (unmarked arg member) _
  | template label text type args ih =>
    rw [Expr.markedPaths_template, List.flatMap_eq_nil_iff] at unmarked
    rw [accepted_template]
    exact fun arg member => ih arg member (unmarked arg member) _
  | _ => rfl

/-- A quantifier is accepted if the operand that it takes over is accepted where nothing compares it:
the variable is told from whatever it is compared with. -/
theorem accepted_quantifier {target : Path} {split : Direct.Split} {floor next : NodeId}
    {compared : Node} (apart : Direct.split? target = some split) (drawn : floor ≤ next)
    (older : compared.label < floor) (operator : Operator) (type : ValueType)
    (held : Option Comparison) :
    accepted held (split.quantifier operator type compared next).1 = accepted none compared := by
  obtain ⟨collection, element⟩ := unmarked_of_split apart
  let bound : Node := .path (next + 1) split.element
  -- The variable is a new node, so the operand is not taken for it.
  have told : bound.label ≠ compared.label :=
    Nat.ne_of_gt (Nat.lt_of_lt_of_le older (Nat.le_trans drawn (Nat.le_succ next)))
  have uncompared : comparing operator type [bound, compared] compared = none := by
    rw [comparing, if_neg told]
  -- Neither the collection nor the variable is marked, which leaves the operand.
  simp [Direct.Split.quantifier, accepted, collection, element, bound, uncompared]

/-- What is made of an accepted node is accepted if no operand that is carried over is a path through a
marker. -/
theorem Expansion.accepted_eq {floor : NodeId} {held : Option Comparison} {node result : Node}
    (expansion : Expansion floor held node result) (identified : Identified node)
    (unmarked : node.isMarked = false) (older : Below floor node)
    (succeeds : accepted none node = true) :
    accepted none result = (carried node).all fun value => !value.isMarked := by
  -- No result asks what compares it, so a list of them is accepted if each one is by itself.
  have joined {args results : List Node} {compares : Node → Option Comparison}
      (length : args.length = results.length)
      (plain : ∀ pair ∈ args.zip results, pair.2.isMarked = false)
      (each : ∀ pair ∈ args.zip results,
        accepted none pair.2 = (carried pair.1).all fun value => !value.isMarked) :
      acceptedAll compares results = (args.flatMap carried).all fun value => !value.isMarked := by
    have same := (map_eq_iff_zip (fun result => accepted (compares result) result)
      (fun arg => (carried arg).all fun value => !value.isMarked) length).mpr
      fun pair member => by rw [accepted_of_unmarked (plain pair member), each pair member]
    have folded := congrArg (List.all · id) same
    simpa [List.all_map, List.all_flatMap, Function.comp_def] using folded
  induction expansion with
  | still none =>
    rw [carried_of_unmarked none, succeeds, List.all_nil]
  | quantified apart => simp [Expr.isMarked, hasMarker_of_split apart] at unmarked
  | @absorbed held label left next target split operator type compared others apart drawn =>
    have below : compared.label < floor := (older.args compared (by simp [Expr.args])).label
    have starts : startsWithMarker (.path left target :: compared :: others) = true :=
      hasMarker_of_split apart
    rw [accepted_quantifier apart drawn below, carried, if_pos starts]
    rw [accepted_operation] at succeeds
    have inside := succeeds compared (by simp)
    cases marked : compared.isMarked with
    | false =>
      rw [accepted_of_unmarked marked] at inside
      simp [inside, marked]
    | true =>
      -- A marked operand was compared only if it is the left operand too, and now it never is.
      cases compared with
      | path label target =>
        rw [Expr.isMarked] at marked
        simp [accepted, marked, Expr.isMarked]
      | _ => simp [Expr.isMarked] at marked
  | operation starts _ _ length inside ih =>
    have sound := identified.args_unmarked starts inside
    rw [accepted_operation] at succeeds
    rw [accepted, carried, if_neg (by simp [starts]), carriedAll_eq_flatMap]
    refine joined length (fun pair member => (inside pair member).isMarked) fun pair member => ?_
    obtain ⟨identified, unmarked⟩ := sound pair member
    have arg := (List.of_mem_zip member).1
    have succeeds := succeeds pair.1 arg
    rw [accepted_of_unmarked unmarked] at succeeds
    exact ih pair member identified unmarked (older.args _ arg) succeeds
  | template _ _ length inside ih =>
    have sound := identified.holes_unmarked inside
    rw [accepted_template] at succeeds
    rw [accepted, carried, carriedAll_eq_flatMap]
    refine joined length (fun pair member => (inside pair member).isMarked) fun pair member => ?_
    obtain ⟨identified, unmarked⟩ := sound pair member
    have arg := (List.of_mem_zip member).1
    exact ih pair member identified unmarked (older.args _ arg) (succeeds pair.1 arg)

/-- Where the result looks like the node, there was no path through a marker to look at. -/
theorem Expansion.unmarked_of_shape {floor : NodeId} {held : Option Comparison}
    {node result : Node} (expansion : Expansion floor held node result)
    (same : result.shape = node.shape) : node.markedPaths = [] := by
  -- A quantifier is over a path without a marker, where the operation that it replaces has one.
  have joined {args results : List Node} (length : args.length = results.length)
      (same : Expr.shapes results = Expr.shapes args)
      (each : ∀ pair ∈ args.zip results, pair.2.shape = pair.1.shape →
        pair.1.markedPaths = []) : args.flatMap Expr.markedPaths = [] := by
    rw [Expr.shapes_eq_map, Expr.shapes_eq_map, map_eq_iff_zip _ _ length] at same
    rw [List.flatMap_eq_nil_iff]
    intro arg member
    obtain ⟨result, together⟩ := exists_pair_of_arg length member
    exact each (arg, result) together (same (arg, result) together)
  induction expansion with
  | still none => exact none
  | quantified apart => simp [Direct.Split.quantifier, Expr.shape] at same
  | absorbed apart =>
    have marked := hasMarker_of_split apart
    obtain ⟨collection, -⟩ := unmarked_of_split apart
    simp only [Direct.Split.quantifier, Expr.shape, Expr.shapes, Expr.operation.injEq,
      List.cons.injEq, Expr.path.injEq] at same
    obtain ⟨-, -, -, ⟨-, whole⟩, -⟩ := same
    simp [whole, marked] at collection
  | operation starts _ _ length inside ih =>
    simp only [Expr.shape, Expr.operation.injEq, true_and] at same
    rw [Expr.markedPaths_operation]
    exact joined length same ih
  | template _ _ length inside ih =>
    simp only [Expr.shape, Expr.template.injEq, true_and] at same
    rw [Expr.markedPaths_template]
    exact joined length same ih

/-- What an expansion gives has the marked paths of the operands that quantifiers take over. Another
expansion of it, from any new state, succeeds if none of these operands is a path through a marker, and
gives back the very node if none of them has such a path to look at. -/
theorem expand_expanded {node result : Node} {options : Options} {supply : NodeId}
    (identified : Identified node) (older : Below supply node)
    (done : (Pass.expandMarkers.run options node supply).1 = .ok result) (other : Options)
    (otherSupply : NodeId) :
    let again := (Pass.expandMarkers.run other result otherSupply).1
    result.markedPaths = (carried node).flatMap Expr.markedPaths ∧
      ((∃ final, again = .ok final) ↔ ∀ value ∈ carried node, value.isMarked = false) ∧
      (again = .ok result ↔ ∀ value ∈ carried node, value.markedPaths = []) := by
  have expansion := expansion_of_run done
  have unmarked := expansion.unmarked_of_none
  have succeeds := run_expandMarkers_iff.mp ⟨result, done⟩
  have left := expansion.markedPaths identified unmarked
  refine ⟨left, ?_, ?_⟩
  · rw [run_expandMarkers_iff, expansion.accepted_eq identified unmarked older succeeds]
    simp
  · rw [← List.flatMap_eq_nil_iff, ← left]
    constructor
    -- A run that gives back the node has left how it looks.
    · intro same
      exact (expansion_of_run same).unmarked_of_shape rfl
    · intro still
      obtain ⟨final, ran⟩ := run_expandMarkers_iff.mpr (accepted_of_no_markers still none)
      rw [ran, (expansion_of_run ran).eq_of_unmarked still]

/-- A condition on any document that any name satisfies, beside a condition on any tag in a template. -/
def nestedConditions : Tree :=
  let element (name : String) : Tree :=
    .path () ((Path.ofVariable name .collection).any .string)
  .operation () .and .boolean
    [.operation () .equal .boolean [element "docs",
        .operation () .equal .boolean [element "names", .constant () (.string "a") .string]],
      .template () "{0}" .boolean
        [.operation () .equal .boolean [element "tags", .constant () (.string "b") .string]]]

/-- The inner condition is carried over with its marker, so that a second expansion succeeds and gives
another node. -/
theorem expand_expanded_nestedConditions :
    let drawn := nestedConditions.fresh 0
    ∃ result, (Pass.expandMarkers.run {} drawn.1 drawn.2).1 = .ok result ∧
      result.markedPaths = [(Path.ofVariable "names" .collection).any .string] ∧
      (∃ final, (Pass.expandMarkers.run {} result 50).1 = .ok final) ∧
      (Pass.expandMarkers.run {} result 50).1 ≠ .ok result := by
  intro drawn
  have succeeds : (Pass.expandMarkers.run {} drawn.1 drawn.2).1.toOption.any (fun _ => true) =
      true := by decide +kernel
  obtain ⟨result, done, -⟩ := exists_of_any succeeds
  obtain ⟨left, succeedsAgain, same⟩ := expand_expanded (by decide +kernel)
    (nestedConditions.fresh_apart 0).2.1 done {} 50
  -- What was carried along is accepted, and has marked paths of its own, so a second run goes on.
  refine ⟨result, done, left.trans (by decide +kernel), ?_, ?_⟩
  · exact succeedsAgain.mpr (by decide +kernel)
  · rw [ne_eq, same]
    decide +kernel

/-- A path through a marker that is compared with itself. -/
def selfCompared : Node :=
  let tag : Node := .path 0 ((Path.ofVariable "tags" .collection).any .string)
  .operation 1 .equal .boolean [tag, tag]

/-- A second expansion can give another node, and it can fail. -/
theorem expand_not_idempotent :
    (let drawn := nestedConditions.fresh 0
      ∃ result, (Pass.expandMarkers.run {} drawn.1 drawn.2).1 = .ok result ∧
        (Pass.expandMarkers.run {} result 50).1 ≠ .ok result) ∧
      ∃ result, (Pass.expandMarkers.run {} selfCompared 2).1 = .ok result ∧
        ∀ final, (Pass.expandMarkers.run {} result 50).1 ≠ .ok final := by
  refine ⟨?_, ?_⟩
  -- A comparison that is carried into another one is expanded by the second run.
  · intro drawn
    have changes : (Pass.expandMarkers.run {} drawn.1 drawn.2).1.toOption.any (fun result =>
        (Pass.expandMarkers.run {} result 50).1.toOption ≠ some result) = true := by
      decide +kernel
    obtain ⟨result, done, other⟩ := exists_of_any changes
    refine ⟨result, done, fun same => ?_⟩
    simp [same, Except.toOption] at other
  -- A path that is compared with itself is left as the operand, where a second run cannot expand it.
  · have fails : (Pass.expandMarkers.run {} selfCompared 2).1.toOption.any (fun result =>
        (Pass.expandMarkers.run {} result 50).1.toOption.isNone) = true := by decide +kernel
    obtain ⟨result, done, none⟩ := exists_of_any fails
    refine ⟨result, done, fun final same => ?_⟩
    simp [same, Except.toOption] at none

end AnyQuantifier

end IndexQuery
