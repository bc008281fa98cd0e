import IndexQuery.Proofs.Pass.FlatMapRefinement
import IndexQuery.Proofs.Pass.PlainQuantifier
import IndexQuery.Proofs.Pass.PlainRuns

/-! Trees whose element markers are all compared: what expansion makes of them, and of their flat
maps. -/

namespace IndexQuery

open Steps

/-- Whether an operator compares two values. -/
def Operator.compares : Operator → Bool
  | .equal | .notEqual | .less | .lessEqual | .greater | .greaterEqual => true
  | _ => false

namespace Path

/-- How many element markers a path goes through. -/
def markers : Path → Nat
  | .root segment => if segment.kind = .any then 1 else 0
  | .member parent segment => parent.markers + if segment.kind = .any then 1 else 0

/-- A path that goes through no marker has none. -/
theorem markers_eq_zero {path : Path} : path.markers = 0 ↔ path.hasMarker = false := by
  -- Every segment adds what it is, so none of them may be a marker.
  induction path with
  | root segment => simp [markers, hasMarker]
  | member parent segment ih =>
    simp only [markers, hasMarker, Bool.or_eq_false_iff, Nat.add_eq_zero_iff, ih]
    simp [and_comm]

/-- The root of a path without a marker is none either. -/
theorem hasMarker_rootPath {path : Path} (unmarked : path.hasMarker = false) :
    path.rootPath.hasMarker = false := by
  -- The root is one of the segments.
  induction path with
  | root segment => exact unmarked
  | member parent segment ih =>
    exact ih (by simp_all [hasMarker])

/-- Segments that are no markers leave whether there is one. -/
theorem hasMarker_extend {path : Path} {segments : List Segment} :
    (path.extend segments).hasMarker = (path.hasMarker || segments.any (·.kind = .any)) := by
  -- The first of the segments goes below the path, and the others below that.
  induction segments generalizing path with
  | nil => simp [extend]
  | cons segment rest ih =>
    have more := @ih (.member path segment)
    rw [List.any_cons, ← Bool.or_assoc, Bool.or_comm path.hasMarker]
    exact more

end Path

namespace AnyQuantifier

/-- A path that can be taken apart goes through a marker. -/
theorem hasMarker_of_split {path : Path} {split : Direct.Split}
    (apart : Direct.split? path = some split) : path.hasMarker = true := by
  induction path, split, apart using Direct.split_induct with
  | marker parent segment _ isAny => simp [Path.hasMarker, isAny]
  -- The marker is further up.
  | member parent segment split _ _ _ ih => simp [Path.hasMarker, ih]

/-- A path that is taken apart has the root of the collection, and the element is the variable of the
quantifier. -/
theorem rootName_of_split {path : Path} {split : Direct.Split}
    (apart : Direct.split? path = some split) :
    split.collection.rootName = path.rootName ∧ split.element.rootName = elementName := by
  induction path, split, apart using Direct.split_induct with
  | marker => exact ⟨rfl, rfl⟩
  -- A segment more has the same root, below the collection as below the variable.
  | member _ _ _ _ _ _ ih => exact ih

/-- A path can be taken apart if it goes through a single marker, and that is not its root. -/
theorem split_of_single {path : Path} (single : path.markers = 1)
    (rooted : path.rootSegment.kind ≠ .any) : ∃ split, Direct.split? path = some split := by
  -- The walk goes up until it comes to the marker, which is there before the root.
  induction path with
  | root segment => simp_all [Path.markers, Path.rootSegment]
  | member parent segment ih =>
    rw [Direct.split?]
    rw [Path.markers] at single
    by_cases isAny : segment.kind = .any
    -- The marker is the only one, so there is none above it.
    · rw [if_pos isAny] at single ⊢
      have none : parent.markers = 0 := by omega
      rw [Path.markers_eq_zero.mp none]
      exact ⟨_, rfl⟩
    · rw [if_neg isAny] at single ⊢
      obtain ⟨split, apart⟩ := ih single rooted
      rw [apart]
      exact ⟨_, rfl⟩

/-- What is taken apart is a marker below an unmarked collection, and segments without a marker. -/
theorem markers_of_split {path : Path} {split : Direct.Split}
    (apart : Direct.split? path = some split) :
    path.markers = 1 ∧ path.rootSegment.kind ≠ .any := by
  induction path, split, apart using Direct.split_induct with
  | marker parent segment _ isAny above =>
    -- No marker is above this one, so the root is none either.
    have none := Path.markers_eq_zero.mpr above
    have unmarked := Path.hasMarker_rootPath above
    rw [Path.markers, Path.rootSegment, if_pos isAny]
    refine ⟨by omega, ?_⟩
    simpa [Path.rootPath, Path.hasMarker] using unmarked
  | member parent segment split _ _ other ih =>
    rw [Path.markers, Path.rootSegment, if_neg other]
    exact ih

/-- A path that goes through no marker cannot be taken apart. -/
theorem split_of_not_marked {path : Path} (unmarked : path.hasMarker = false) :
    Direct.split? path = none := by
  -- What can be split off ends in a marker.
  cases apart : Direct.split? path with
  | none => rfl
  | some split => simp [hasMarker_of_split apart] at unmarked

/-- Trees in which every path through a marker that expansion reaches goes through one marker, which
is not its root, and is the left operand of a comparison of two values. -/
inductive MarkersCompared : Tree → Prop
  | leaf {tree : Tree} (leaf : reaches tree = false) (unmarked : tree.isMarked = false) :
      MarkersCompared tree
  | comparison {operator : Operator} {type : ValueType} {target : Path} {compared : Tree}
      (compares : operator.compares = true) (single : target.markers = 1)
      (rooted : target.rootSegment.kind ≠ .any) (inside : MarkersCompared compared) :
      MarkersCompared (.operation () operator type [.path () target, compared])
  | operation {operator : Operator} {type : ValueType} {args : List Tree}
      (inside : ∀ arg ∈ args, MarkersCompared arg) :
      MarkersCompared (.operation () operator type args)
  | template {text : String} {type : ValueType} {args : List Tree}
      (inside : ∀ arg ∈ args, MarkersCompared arg) :
      MarkersCompared (.template () text type args)

namespace MarkersCompared

/-- A path without a marker needs no comparison. -/
theorem path {target : Path} (unmarked : target.hasMarker = false) :
    MarkersCompared (.path () target) := .leaf rfl unmarked

/-- An operation over two trees whose markers are compared is one. -/
theorem pair {first second : Tree} (head : MarkersCompared first) (tail : MarkersCompared second)
    (operator : Operator) (type : ValueType) :
    MarkersCompared (.operation () operator type [first, second]) := by
  -- Both members are arguments, and there are no others.
  refine .operation ?_
  simp only [List.forall_mem_cons]
  exact ⟨head, tail, by simp⟩

/-- A tree whose markers are compared is not a path that would have to be. -/
theorem isMarked {tree : Tree} (compared : MarkersCompared tree) : tree.isMarked = false := by
  -- A marked path is allowed as the first operand of a comparison only.
  cases compared with
  | leaf leaf unmarked => exact unmarked
  | _ => rfl

/-- A path whose markers are compared has none. -/
theorem unmarked {label : Unit} {target : Path} (compared : MarkersCompared (.path label target)) :
    target.hasMarker = false := compared.isMarked

/-- The arguments of an operation that compares nothing have their markers compared inside. -/
theorem args {operator : Operator} {type : ValueType} {args : List Tree}
    (compared : MarkersCompared (.operation () operator type args))
    (other : operator.compares = false) : ∀ arg ∈ args, MarkersCompared arg := by
  -- An operator that compares nothing has no first operand of that kind.
  cases compared with
  | leaf leaf => simp [reaches] at leaf
  | comparison compares => simp [compares] at other
  | operation inside => exact inside

end MarkersCompared

/-- The parts of a comparison of a path through a marker. -/
def comparison? : List Tree → Option (Direct.Split × Tree)
  | [.path _ target, compared] => (Direct.split? target).map fun split => (split, compared)
  | _ => none

mutual

/-- What expansion makes of a tree whose markers are compared. -/
def quantified : Tree → Tree
  | .operation label operator type args =>
    match comparison? args with
    | some (split, compared) =>
      Plain.quantifier split.collection split.element operator type compared
    | none => .operation label operator type (quantifiedAll args)
  | .template label text type args => .template label text type (quantifiedAll args)
  | .factory label type args => .factory label type args
  | .constant label value type => .constant label value type
  | .path label target => .path label target
  | .param label name type => .param label name type
  | .subquery label query => .subquery label query

/-- What it makes of a list of them. -/
def quantifiedAll : List Tree → List Tree
  | [] => []
  | first :: rest => quantified first :: quantifiedAll rest

end

/-- A list is expanded one by one. -/
@[simp] theorem quantifiedAll_eq_map (trees : List Tree) :
    quantifiedAll trees = trees.map quantified := by
  induction trees with
  | nil => rfl
  | cons first rest ih => simp [quantifiedAll, ih]

/-- What is not reached stays as it is. -/
theorem quantified_of_leaf {tree : Tree} (leaf : reaches tree = false) : quantified tree = tree := by
  cases tree <;> simp_all [reaches, quantified]

/-- A comparison of a path through a single marker becomes a quantifier. -/
theorem quantified_comparison {target : Path} {split : Direct.Split}
    (apart : Direct.split? target = some split) (operator : Operator) (type : ValueType)
    (compared : Tree) :
    quantified (.operation () operator type [.path () target, compared]) =
      Plain.quantifier split.collection split.element operator type compared := by
  -- The marked path is the first of two arguments, and it comes apart.
  simp [quantified, comparison?, apart]

/-- Any other operation is expanded inside. -/
theorem quantified_operation {args : List Tree} (inside : ∀ arg ∈ args, MarkersCompared arg)
    (operator : Operator) (type : ValueType) :
    quantified (.operation () operator type args) =
      .operation () operator type (args.map quantified) := by
  -- If all arguments are such trees themselves, the first one is no path through a marker.
  have other : comparison? args = none := by
    unfold comparison?
    split
    · rename_i label target compared
      simp [split_of_not_marked (inside (.path label target) (by simp)).unmarked]
    · rfl
  simp [quantified, other]

/-- Arguments whose markers are compared are expanded one by one. -/
theorem expandAll_of_compared {args : List Tree}
    (each : ∀ arg ∈ args, ∀ held, Plain.expand Plain.byPlace held arg = .ok (quantified arg))
    (held : Bool → Tree → Plain.Holder) (isFirst : Bool) :
    Plain.expandAll Plain.byPlace held isFirst args = .ok (args.map quantified) := by
  -- What they are compared with makes no difference to such trees.
  induction args generalizing isFirst with
  | nil => rfl
  | cons first rest ih =>
    obtain ⟨head, tail⟩ := List.forall_mem_cons.mp each
    rw [Plain.expandAll, head (held isFirst first), ih tail]
    rfl

/-- The expansion of a tree whose markers are compared does not fail. -/
theorem expand_of_compared {tree : Tree} (compared : MarkersCompared tree)
    (held : Plain.Holder) : Plain.expand Plain.byPlace held tree = .ok (quantified tree) := by
  -- A path through a marker comes with the comparison around it, so the holder is never asked.
  induction compared generalizing held with
  | leaf leaf unmarked =>
    rw [quantified_of_leaf leaf, Plain.expand_leaf leaf unmarked, Expr.unlabel_tree]
  | comparison compares single rooted inside ih =>
    rename_i operator type target compared
    obtain ⟨split, apart⟩ := split_of_single single rooted
    have marked : (Expr.path () target).isMarked = true := hasMarker_of_split apart
    -- The left operand finds the operation and the second argument, which has no labels to lose.
    have left : Plain.holder Plain.byPlace operator type [.path () target, compared] true
        (.path () target) = .ok (operator, type, compared) := by
      simp [Plain.holder, Plain.byPlace, Expr.unlabel_tree]
    rw [quantified_comparison apart, Plain.expand, Plain.expandAll, left, Plain.expand,
      Plain.quantify_of_split apart, Plain.expandAll, ih]
    -- The operation gives way to the quantifier that its left operand has become.
    change Except.ok (Plain.rebuild operator type [.path () target, compared] [_, _]) = _
    rw [Plain.rebuild, if_pos marked]
    rfl
  | operation inside ih =>
    rename_i operator type args
    rw [quantified_operation inside, Plain.expand, expandAll_of_compared ih]
    cases args with
    | nil => rfl
    | cons first rest =>
      have unmarked := (inside first (by simp)).isMarked
      change Except.ok (Plain.rebuild operator type (first :: rest) (_ :: _)) = _
      rw [Plain.rebuild, if_neg (by simp [unmarked])]
      rfl
  | template inside ih =>
    rename_i text type args
    rw [Plain.expand, expandAll_of_compared ih]
    simp [quantified, Bind.bind, Except.bind, Pure.pure, Except.pure]

/-- A path stays one, and nothing else becomes one. -/
theorem path?_quantified (tree : Tree) : (quantified tree).path? = tree.path? := by
  -- Only operations change, and both of what they become are operations.
  cases tree with
  | operation label operator type args =>
    rw [quantified]
    split <;> rfl
  | _ => rw [quantified] <;> rfl

/-- The parameter of a lambda stays, and the body is expanded. -/
theorem pathLambda?_quantified {tree : Tree} (compared : MarkersCompared tree) :
    (quantified tree).pathLambda? =
      tree.pathLambda?.map fun (parameter, body) => (parameter, quantified body) := by
  -- An expansion leaves what is not reached, and every operation but a comparison of a marker.
  cases compared with
  | leaf leaf unmarked =>
    rw [quantified_of_leaf leaf]
    cases tree <;> simp_all [reaches, Expr.pathLambda?]
  | @comparison operator type target operand compares single rooted inside =>
    -- Neither the comparison nor the quantifier is a lambda.
    obtain ⟨split, apart⟩ := split_of_single single rooted
    rw [quantified_comparison apart]
    cases operator <;> simp_all [Operator.compares, Expr.pathLambda?, Plain.quantifier]
  | @operation operator type args inside =>
    rw [quantified_operation inside]
    by_cases lambda : operator = .lambda ∧ args.length = 2
    · obtain ⟨rfl, two⟩ := lambda
      obtain ⟨first, body, rfl⟩ := List.length_eq_two.mp two
      rw [Expr.pathLambda?_pair, List.map_cons, List.map_cons, List.map_nil, Expr.pathLambda?_pair,
        path?_quantified, Option.map_map]
      rfl
    · rw [Expr.pathLambda?_of_not_pair lambda, Expr.pathLambda?_of_not_pair (by simpa using lambda)]
      rfl
  | template inside => simp [quantified, Expr.pathLambda?]

end AnyQuantifier

namespace FlatMap

open AnyQuantifier

/-- Arguments whose markers are compared give parts whose markers are. -/
theorem partsCompared {node : Tree} {args : List Tree} {parts : FlatMap Unit}
    (taken : ofArgs node args = .ok parts) (inside : ∀ arg ∈ args, MarkersCompared arg) :
    HoldsOfParts MarkersCompared parts := by
  -- Neither a list nor a lambda compares anything.
  refine holdsOfParts ?_ taken inside
  rintro label operator type args (rfl | rfl) compared
  · exact compared.args rfl
  · exact compared.args rfl

/-- The arguments of a flat map are taken apart after an expansion as before it. -/
theorem ofArgs_quantified {args : List Tree} (inside : ∀ arg ∈ args, MarkersCompared arg)
    (node node' : Tree) :
    (ofArgs node' (args.map quantified)).toOption =
      (ofArgs node args).toOption.map (map quantified) := by
  -- The errors may quote other texts, but whether there is one depends on the look of the pair.
  rcases args with _ | ⟨source, _ | ⟨pair, rest⟩⟩
  · rfl
  · rfl
  · rw [List.map_cons, List.map_cons]
    cases inside pair (by simp) with
    | leaf leaf unmarked =>
      -- What is not reached is no list before or after.
      rw [quantified_of_leaf leaf]
      cases pair <;> simp_all [reaches, ofArgs, Except.toOption]
    | @comparison operator type target operand compares single rooted compared =>
      obtain ⟨split, apart⟩ := split_of_single single rooted
      rw [quantified_comparison apart]
      cases operator <;>
        simp_all [Operator.compares, ofArgs, Plain.quantifier, Except.toOption]
    | @operation operator type elements compared =>
      rw [quantified_operation compared]
      by_cases two : operator = .list ∧ elements.length = 2
      · obtain ⟨rfl, two⟩ := two
        obtain ⟨first, second, rfl⟩ := List.length_eq_two.mp two
        -- Both elements look as they did, so the same parts are found.
        rw [List.map_cons, List.map_cons, List.map_nil, ofArgs_pair, ofArgs_pair,
          pathLambda?_quantified (compared first (by simp)), path?_quantified,
          pathLambda?_quantified (compared second (by simp))]
        cases first.pathLambda? with
        | none => rfl
        | some lambda =>
          cases second.path? with
          | some partner => rfl
          | none => cases second.pathLambda? <;> rfl
      · rw [ofArgs_of_not_pair two, ofArgs_of_not_pair (by simpa using two)]
        rfl
    | template compared => rfl

/-- The canonical form of expanded parts is the expansion of the canonical form. -/
theorem canonical_quantified (type : ValueType) (parts : FlatMap Unit) :
    Plain.canonical type (parts.map quantified) (Plain.selectorOf (parts.map quantified)) =
      quantified (Plain.canonical type parts (Plain.selectorOf parts)) := by
  -- No operation that the form adds starts with a path through a marker.
  rw [Plain.selectorOf_map (quantified_of_leaf rfl)]
  simp [Plain.canonical, Plain.lambda, map, quantified, comparison?,
    Direct.split?, Path.rootPath]

/-- The canonical form of parts whose markers are compared is such a tree. -/
theorem canonical_compared {parts : FlatMap Unit} (compared : HoldsOfParts MarkersCompared parts)
    (type : ValueType) : MarkersCompared (Plain.canonical type parts (Plain.selectorOf parts)) := by
  obtain ⟨_, bound⟩ := compared.element
  obtain ⟨_, partner⟩ := compared.partner
  have element : MarkersCompared (.path () parts.element.rootPath) :=
    .path (Path.hasMarker_rootPath bound.unmarked)
  -- Both lambdas bind paths without markers, the second one as a wrapped list.
  have list := element.pair (.path partner.unmarked) .list .expression
  have parameters := @MarkersCompared.operation .wrapped .expression _
    (List.forall_mem_singleton.mpr list)
  have selector := Plain.selectorOf_of_parts compared (.leaf rfl rfl)
  have outer := element.pair compared.body .lambda .expression
  have inner := parameters.pair selector .lambda .expression
  refine .operation ?_
  simp only [List.forall_mem_cons]
  exact ⟨compared.source, outer, inner, by simp⟩

end FlatMap

end IndexQuery
