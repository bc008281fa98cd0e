import IndexQuery.Proofs.Pass.CarriedMarkers

/-! Static types after an expansion: quantifiers are predicates, and every other node keeps its type. -/

namespace IndexQuery

open Steps

namespace AnyQuantifier

/-- Whether a node is an operation that starts with a path through a marker, which a quantifier takes in. -/
def isComparison : Node → Bool
  | .operation _ _ _ args => startsWithMarker args
  | _ => false

/-- The static type of what an expansion makes of a node: a quantifier is a predicate, whatever it takes
in, and every other node keeps its type. -/
def typeLeft (node : Node) : ValueType := if isComparison node then .boolean else node.type

/-- Nodes that stand in one place of an expression and of what an expansion has made of it, down to the
operations that quantifiers take in. -/
inductive Becomes : (node result inner built : Node) → Prop
  | here {node result : Node} : Becomes node result node result
  | inside {node result arg expanded inner built : Node} (entered : reaches node = true)
      (other : isComparison node = false) (together : (arg, expanded) ∈ node.args.zip result.args)
      (becomes : Becomes arg expanded inner built) : Becomes node result inner built

/-- A quantifier that takes in an operation: its predicate has the operator, the type and the types of the
first two arguments of the operation. -/
def TakesIn (node built : Node) : Prop :=
  ∃ label collection predicate, built = .operation label .any .boolean [collection, predicate] ∧
    predicate.operator? = node.operator? ∧ predicate.type = node.type ∧
    predicate.args.map Expr.type = (node.args.take 2).map Expr.type

/-- A path that is taken apart has the type of the variable with the segments below the marker. -/
theorem type_of_split {path : Path} {split : Direct.Split}
    (apart : Direct.split? path = some split) : split.element.type = path.type := by
  -- Either is the type of the last segment, which is the marker or stays as it is.
  induction path, split, apart using Direct.split_induct with
  | marker => rfl
  | member => rfl

/-- A node without marked paths is not taken in. -/
theorem isComparison_of_unmarked {node : Node} (unmarked : node.markedPaths = []) :
    isComparison node = false := by
  -- The first argument of a comparison would be one of the marked paths.
  cases node with
  | operation label operator type args =>
    rw [Expr.markedPaths_operation] at unmarked
    exact startsWithMarker_of_unmarked unmarked
  | _ => rfl

/-- Nor are its arguments marked, where they are expanded. -/
theorem markedPaths_of_arg {node arg : Node} (unmarked : node.markedPaths = [])
    (entered : reaches node = true) (member : arg ∈ node.args) : arg.markedPaths = [] := by
  -- What is marked in an argument is marked in the node.
  cases node with
  | operation =>
    rw [Expr.markedPaths_operation, List.flatMap_eq_nil_iff] at unmarked
    exact unmarked arg member
  | template =>
    rw [Expr.markedPaths_template, List.flatMap_eq_nil_iff] at unmarked
    exact unmarked arg member
  | _ => cases entered

/-- An operation is taken in if its first argument is a path that can be taken apart. -/
theorem isComparison_of_split {label left : NodeId} {operator : Operator} {type : ValueType}
    {target : Path} {others : List Node} {split : Direct.Split}
    (apart : Direct.split? target = some split) :
    isComparison (.operation label operator type (.path left target :: others)) = true :=
  hasMarker_of_split apart

/-- What an expansion makes of a node that is no path through a marker has the type that is left. -/
theorem Expansion.type_eq {floor : NodeId} {held : Option Comparison} {node result : Node}
    (expansion : Expansion floor held node result) (unmarked : node.isMarked = false) :
    result.type = typeLeft node := by
  -- A quantifier takes the place of its comparison, and every other node keeps the type it has.
  cases expansion with
  | still none => rw [typeLeft, isComparison_of_unmarked none]; rfl
  | quantified apart => simp [Expr.isMarked, hasMarker_of_split apart] at unmarked
  | absorbed apart => rw [typeLeft, if_pos (isComparison_of_split apart)]; rfl
  | operation starts => rw [typeLeft, if_neg (by simp [isComparison, starts])]; rfl
  | template => rfl

/-- What stands in one place is an expansion too, and told apart from whatever else is expanded. -/
theorem Becomes.expansion {floor : NodeId} {node result inner built : Node}
    {held : Option Comparison} (becomes : Becomes node result inner built)
    (expansion : Expansion floor held node result) (identified : Identified node)
    (unmarked : node.isMarked = false) :
    ∃ held, Expansion floor held inner built ∧ Identified inner ∧ inner.isMarked = false := by
  induction becomes generalizing held with
  | here => exact ⟨held, expansion, identified, unmarked⟩
  | @inside node result arg expanded inner built entered other together _ ih =>
    cases expansion with
    -- What is left as it is has its own arguments in their places.
    | still none =>
      obtain rfl : expanded = arg := (map_eq_iff_zip id id rfl).mp rfl _ together
      have member : expanded ∈ node.args := (List.of_mem_zip together).1
      have kept := markedPaths_of_arg none entered member
      have expansion : Expansion floor Option.none expanded expanded := .still kept
      exact ih expansion (identified.arg entered member) (Expr.isMarked_of_markedPaths kept)
    | quantified => cases entered
    | absorbed apart => rw [isComparison_of_split apart] at other; cases other
    | operation starts _ _ _ inside =>
      obtain ⟨identified, unmarked⟩ := identified.args_unmarked starts inside _ together
      exact ih (inside _ together) identified unmarked
    | template _ _ _ inside =>
      obtain ⟨identified, unmarked⟩ := identified.holes_unmarked inside _ together
      exact ih (inside _ together) identified unmarked

/-- What an expansion gives in place of a node: a quantifier for an operation that starts with a path
through a marker, and otherwise, if it looks at the arguments, the node with arguments of the types that
are left. -/
theorem Expansion.args_types {floor : NodeId} {held : Option Comparison} {node result : Node}
    (expansion : Expansion floor held node result) (identified : Identified node)
    (unmarked : node.isMarked = false) :
    (isComparison node = true → TakesIn node result) ∧
      (isComparison node = false → reaches node = true →
        reaches result = true ∧ result.operator? = node.operator? ∧
          result.args.map Expr.type = node.args.map typeLeft) := by
  cases expansion with
  | still none =>
    refine ⟨by simp [isComparison_of_unmarked none], fun _ entered => ⟨entered, rfl, ?_⟩⟩
    refine List.map_congr_left fun arg member => ?_
    rw [typeLeft, isComparison_of_unmarked (markedPaths_of_arg none entered member)]
    rfl
  | quantified apart => simp [Expr.isMarked, hasMarker_of_split apart] at unmarked
  | absorbed apart =>
    refine ⟨fun _ => ⟨_, _, _, rfl, rfl, rfl, ?_⟩, by simp [isComparison_of_split apart]⟩
    -- The variable stands for the path of the first argument, and the second is taken over.
    simp [Expr.args, Expr.type, type_of_split apart]
  | operation starts _ _ length inside =>
    refine ⟨by simp [isComparison, starts], fun _ _ => ⟨rfl, rfl, ?_⟩⟩
    refine (map_eq_iff_zip _ _ length).mpr fun pair together => ?_
    exact (inside pair together).type_eq (identified.args_unmarked starts inside pair together).2
  | template _ _ length inside =>
    refine ⟨by simp [isComparison], fun _ _ => ⟨rfl, rfl, ?_⟩⟩
    refine (map_eq_iff_zip _ _ length).mpr fun pair together => ?_
    exact (inside pair together).type_eq (identified.holes_unmarked inside pair together).2

/-- An expansion keeps the type of an expression, unless it is an operation that starts with a path
through a marker: such an operation becomes a quantifier, which is a predicate. Everywhere in the
expression the same holds, so that every operation and template that is expanded keeps its arguments by
position and type, but for arguments which become quantifiers. The predicate of a quantifier keeps the
operator, the type and the types of the first two arguments of the operation. -/
theorem expand_types {node result : Node} {options : Options} {supply : NodeId}
    (identified : Identified node)
    (done : (Pass.expandMarkers.run options node supply).1 = .ok result) :
    result.type = typeLeft node ∧ ∀ inner built, Becomes node result inner built →
      built.type = typeLeft inner ∧
      (isComparison inner = true → TakesIn inner built) ∧
      (isComparison inner = false → reaches inner = true →
        reaches built = true ∧ built.operator? = inner.operator? ∧
          built.args.map Expr.type = inner.args.map typeLeft) := by
  -- Each place holds an expansion of what stood there, which has the type in question.
  have expansion := expansion_of_run done
  have unmarked := expansion.unmarked_of_none
  refine ⟨expansion.type_eq unmarked, fun inner built becomes => ?_⟩
  obtain ⟨held, expansion, identified, unmarked⟩ := becomes.expansion expansion identified unmarked
  exact ⟨expansion.type_eq unmarked, expansion.args_types identified unmarked⟩

/-- The sum of something over any element of a collection, which is a number. -/
def scoreSum : Node :=
  let scores := (Path.ofVariable "x" (.object "Family")).property "Scores" .collection
  .operation 2 .sum .number [.path 0 (scores.any .number), .path 1 (.ofVariable "y" .number)]

/-- A comparison of the sum. -/
def scoreSumAbove : Node :=
  .operation 4 .greater .boolean [scoreSum, .path 3 (.ofVariable "limit" .number)]

/-- The comparison keeps its type, and gets a predicate in place of the sum. -/
theorem expand_types_scoreSumAbove :
    ∃ result, (Pass.expandMarkers.run {} scoreSumAbove 5).1 = .ok result ∧
      result.type = .boolean ∧ result.args.map Expr.type = [.boolean, .number] := by
  -- The sum has become a quantifier, and the comparison above it keeps its own type.
  have succeeds : (Pass.expandMarkers.run {} scoreSumAbove 5).1.toOption.any (fun _ => true) =
      true := by decide +kernel
  obtain ⟨result, done, -⟩ := exists_of_any succeeds
  obtain ⟨same, each⟩ := expand_types (by decide +kernel) done
  have args := ((each _ _ .here).2.2 rfl rfl).2.2
  exact ⟨result, done, same, args.trans (by decide +kernel)⟩

/-- An expansion can change the type of an expression, and of an argument of one. -/
theorem expand_types_not_kept :
    (∃ result, (Pass.expandMarkers.run {} scoreSum 3).1 = .ok result ∧
        result.type ≠ scoreSum.type) ∧
      ∃ result, (Pass.expandMarkers.run {} scoreSumAbove 5).1 = .ok result ∧
        result.operator? = scoreSumAbove.operator? ∧
        result.args.map Expr.type ≠ scoreSumAbove.args.map Expr.type := by
  -- A quantifier is Boolean, whatever the comparison was that it takes in.
  have whole : (Pass.expandMarkers.run {} scoreSum 3).1.toOption.any (fun result =>
      result.type ≠ scoreSum.type) = true := by decide +kernel
  have inside : (Pass.expandMarkers.run {} scoreSumAbove 5).1.toOption.any (fun result =>
      result.operator? = scoreSumAbove.operator? ∧
        result.args.map Expr.type ≠ scoreSumAbove.args.map Expr.type) = true := by decide +kernel
  obtain ⟨result, done, other⟩ := exists_of_any whole
  obtain ⟨result', done', other'⟩ := exists_of_any inside
  exact ⟨⟨result, done, of_decide_eq_true other⟩, result', done', of_decide_eq_true other'⟩

end AnyQuantifier

end IndexQuery
