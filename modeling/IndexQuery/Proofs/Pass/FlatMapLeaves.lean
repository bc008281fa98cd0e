import IndexQuery.Proofs.Expr.Reached
import IndexQuery.Proofs.Pass.FlatMapOutcomes

/-! The flat-map pass keeps what it does not look into, in the order in which it stands. -/

namespace IndexQuery

open Steps

namespace Expr

variable {Label : Type}

/-- The nodes that normalization comes to and leaves alone, left to right: all but paths. -/
def leaves (expr : Expr Label) : List (Expr Label) :=
  (expr.reached FlatMap.Plain.looksInto).filter fun node =>
    !FlatMap.Plain.looksInto node && node.path?.isNone

/-- The leaves of an expression and its object constructions. -/
def blocks (expr : Expr Label) : List (Expr Label) :=
  (expr.reached FlatMap.Plain.looksInto).filter fun node =>
    node.operator?.isNone && node.path?.isNone

/-- The leaves are among the blocks. -/
theorem leaves_eq_filter (expr : Expr Label) :
    expr.leaves = expr.blocks.filter fun node => !FlatMap.Plain.looksInto node := by
  rw [leaves, blocks, List.filter_filter]
  apply List.filter_congr
  intro node _
  -- Every operation is looked into.
  cases node <;> rfl

/-- What a walk over an operation or an object construction keeps is that node, if it is kept, and what
it keeps of the arguments. -/
theorem filter_reached (keeps : Expr Label → Bool) {expr : Expr Label}
    (entered : FlatMap.Plain.looksInto expr = true) :
    (expr.reached FlatMap.Plain.looksInto).filter keeps =
      (if keeps expr then [expr] else []) ++
        expr.args.flatMap fun arg => (arg.reached FlatMap.Plain.looksInto).filter keeps := by
  -- A node that is looked into is reached first, and then what its arguments reach.
  rw [reached_eq, if_pos entered, List.filter_cons, List.filter_flatMap]
  split <;> rfl

/-- An operation has the blocks of its arguments. -/
@[simp] theorem blocks_operation (label : Label) (operator : Operator) (type : ValueType)
    (args : List (Expr Label)) :
    (operation label operator type args).blocks = args.flatMap blocks := filter_reached _ rfl

/-- An object construction comes before the blocks of its arguments. -/
@[simp] theorem blocks_factory (label : Label) (type : ValueType) (args : List (Expr Label)) :
    (factory label type args).blocks = factory label type args :: args.flatMap blocks :=
  filter_reached _ rfl

/-- A path has no blocks. -/
@[simp] theorem blocks_path (label : Label) (target : Path) : (path label target).blocks = [] := rfl

/-- An operation has the leaves of its arguments. -/
@[simp] theorem leaves_operation (label : Label) (operator : Operator) (type : ValueType)
    (args : List (Expr Label)) :
    (operation label operator type args).leaves = args.flatMap leaves := filter_reached _ rfl

/-- So has an object construction. -/
@[simp] theorem leaves_factory (label : Label) (type : ValueType) (args : List (Expr Label)) :
    (factory label type args).leaves = args.flatMap leaves := filter_reached _ rfl

/-- A leaf is its only leaf. -/
theorem leaves_leaf {expr : Expr Label} (leaf : FlatMap.Plain.looksInto expr = false)
    (other : expr.path? = none) : expr.leaves = [expr] := by
  -- What is left when operations, constructions and paths are excluded is its own only leaf.
  cases expr with
  | operation | factory => simp [FlatMap.Plain.looksInto] at leaf
  | path => simp [path?] at other
  | _ => rfl

/-- A lambda that binds a path has the blocks of its body. -/
theorem blocks_of_pathLambda {expr body : Expr Label} {parameter : Path}
    (found : expr.pathLambda? = some (parameter, body)) : expr.blocks = body.blocks := by
  -- The parameter of the lambda is a path, which has no blocks.
  obtain ⟨label, type, inner, rfl⟩ := pathLambda?_eq_some found
  simp

end Expr

namespace FlatMap

/-- A canonical form has the blocks of the source and the pair that it is made from, and those of the
object that pairs its variables if that is made. -/
theorem blocks_canonical {floor next : NodeId} {node selector : Node} {type : ValueType}
    {args : List Node} {parts : FlatMap NodeId} (taken : ofArgs node args = .ok parts)
    (selects : SelectorOf floor parts selector) :
    ∃ paired, (canonicalNode type parts selector next).blocks =
        (args.take 2).flatMap Expr.blocks ++ paired ∧
      (paired = [] ∨ ∃ drawn, floor ≤ drawn ∧
        paired = (pairNode parts.element parts.partner drawn).blocks) := by
  obtain ⟨label, listType, first, second, rest, rfl, isLambda, partner⟩ := ofArgs_ok taken
  have form : (canonicalNode type parts selector next).blocks =
      parts.source.blocks ++ parts.body.blocks ++ selector.blocks := by
    simp [canonicalNode]
  have body := Expr.blocks_of_pathLambda isLambda
  rw [form]
  -- A selector of its own stands in the second argument, and a pair is added behind both.
  cases selects with
  | own found =>
    refine ⟨[], ?_, .inl rfl⟩
    obtain ⟨_, _, missing⟩ | ⟨_, isSelector, same⟩ := partner
    · simp [missing] at found
    · rw [found] at same
      cases same
      simp [body, Expr.blocks_of_pathLambda isSelector]
  | pair missing drawn =>
    refine ⟨_, ?_, .inr ⟨_, drawn, rfl⟩⟩
    obtain ⟨_, rfl, _⟩ | ⟨_, _, found⟩ := partner
    · simp [body]
    · simp [found] at missing

/-- The arguments of an operation that normalization keeps: the first two of a flat map, or all. -/
def keptArgs {α : Type} (operator : Operator) (args : List α) : List α :=
  if operator = .flatMap then args.take 2 else args

mutual

/-- A node without the arguments of flat maps that normalization drops: those after the second one. -/
def trimmed : Node → Node
  | .operation label operator type args =>
    .operation label operator type (keptArgs operator (trimmedAll args))
  | .factory label type args => .factory label type (trimmedAll args)
  | .constant label value type => .constant label value type
  | .path label target => .path label target
  | .param label name type => .param label name type
  | .subquery label query => .subquery label query
  | .template label text type args => .template label text type args

/-- A list of nodes without the arguments that normalization drops. -/
def trimmedAll : List Node → List Node
  | [] => []
  | first :: rest => trimmed first :: trimmedAll rest

end

/-- The members of a list are trimmed one by one. -/
@[simp] theorem trimmedAll_eq_map (nodes : List Node) : trimmedAll nodes = nodes.map trimmed := by
  induction nodes with
  | nil => rfl
  | cons first rest ih => simp [trimmedAll, ih]

/-- The leaves whose identities come before a given one. -/
def olderLeaves (floor : NodeId) (node : Node) : List Node :=
  node.leaves.filter fun leaf => leaf.label < floor

variable {floor : NodeId}

/-- What is done to every argument is done to those that are kept. -/
theorem keptArgs_map {α β : Type} (view : α → β) (operator : Operator) (args : List α) :
    keptArgs operator (args.map view) = (keptArgs operator args).map view := by
  -- Only a flat map loses arguments, those after the first two.
  rw [keptArgs, keptArgs]
  split
  · exact List.map_take.symm
  · rfl

/-- What is kept of the results has the older leaves of what is kept of the arguments, if each result has
those of its argument. -/
theorem olderLeaves_keptArgs {args results : List Node} (operator : Operator)
    (length : args.length = results.length)
    (each : ∀ pair ∈ args.zip results, olderLeaves floor pair.2 = (trimmed pair.1).leaves) :
    ((keptArgs operator results).flatMap Expr.leaves).filter (fun leaf => leaf.label < floor) =
      (keptArgs operator (args.map trimmed)).flatMap Expr.leaves := by
  -- What is kept is decided by position, on both sides alike.
  have same := (map_eq_iff_zip (olderLeaves floor) (fun arg => (trimmed arg).leaves) length).mpr each
  rw [List.filter_flatMap, List.flatMap_def, List.flatMap_def]
  change ((keptArgs operator results).map (olderLeaves floor)).flatten = _
  rw [← keptArgs_map, same, ← keptArgs_map, List.map_map]
  rfl

/-- The only leaves of an object for a pair are the names of its fields, which are new. -/
theorem olderLeaves_pairNode {next : NodeId} (drawn : floor ≤ next) (element partner : Path) :
    olderLeaves floor (pairNode element partner next) = [] := by
  -- Its leaves are the two names, and both are new.
  have leaves : (pairNode element partner next).leaves =
      [.constant (next + 2) (.string (Text.capitalize element.name)) .string,
        .constant (next + 4) (.string (Text.capitalize partner.name)) .string] := rfl
  rw [olderLeaves, leaves]
  have later (offset : Nat) : ¬ next + offset < floor :=
    Nat.not_lt.mpr (Nat.le_add_right_of_le drawn)
  simp [Expr.label, later]

/-- A canonical form has the older leaves of the source and the pair that it is made from. -/
theorem olderLeaves_canonical {next : NodeId} {node selector : Node} {type : ValueType}
    {args : List Node} {parts : FlatMap NodeId} (taken : ofArgs node args = .ok parts)
    (selects : SelectorOf floor parts selector) :
    olderLeaves floor (canonicalNode type parts selector next) =
      ((args.take 2).flatMap Expr.leaves).filter fun leaf => leaf.label < floor := by
  obtain ⟨paired, blocks, made⟩ := @blocks_canonical _ next _ _ type _ _ taken selects
  -- If the form has a pair object, all its leaves are new.
  have new : (paired.filter fun node => !Plain.looksInto node).filter
      (fun leaf => leaf.label < floor) = [] := by
    obtain rfl | ⟨drawn, later, rfl⟩ := made
    · rfl
    · rw [← Expr.leaves_eq_filter]
      exact olderLeaves_pairNode later _ _
  -- The leaves are those blocks that are not looked into.
  have old : ((args.take 2).flatMap Expr.blocks).filter (fun node => !Plain.looksInto node) =
      (args.take 2).flatMap Expr.leaves := by
    rw [List.filter_flatMap]
    exact congrArg (List.flatMap · _) (funext fun arg => (Expr.leaves_eq_filter arg).symm)
  rw [olderLeaves, Expr.leaves_eq_filter, blocks, List.filter_append, List.filter_append, new, old,
    List.append_nil]

/-- Normalizing keeps the leaves of what it keeps of a node, in their order. -/
theorem Normalization.olderLeaves {node result : Node}
    (normalization : Normalization floor node result) (older : Below floor node) :
    olderLeaves floor result = (trimmed node).leaves := by
  induction normalization with
  | @still node leaf other =>
    have whole : trimmed node = node := by
      cases node with
      | operation | factory => simp [Plain.looksInto] at leaf
      | _ => rfl
    have kept : decide (node.label < floor) = true := decide_eq_true older.label
    rw [whole, FlatMap.olderLeaves, Expr.leaves_leaf leaf other, List.filter_singleton, kept]
    rfl
  | path => rfl
  | @factory label label' type args results length inside ih =>
    have all := olderLeaves_keptArgs .list length fun pair member =>
      ih pair member (older.args _ (List.of_mem_zip member).1)
    rw [trimmed, trimmedAll_eq_map, FlatMap.olderLeaves, Expr.leaves_factory, Expr.leaves_factory]
    exact all
  | @operation label label' operator type args results other length inside ih =>
    have all := olderLeaves_keptArgs operator length fun pair member =>
      ih pair member (older.args _ (List.of_mem_zip member).1)
    rw [trimmed, trimmedAll_eq_map, FlatMap.olderLeaves, Expr.leaves_operation,
      Expr.leaves_operation, ← all, keptArgs, if_neg other]
  | @flatMap label next type args results parts selector length inside taken selects ih =>
    -- The canonical form is made from the first two results, which is where arguments get lost.
    have all := olderLeaves_keptArgs .flatMap length fun pair member =>
      ih pair member (older.args _ (List.of_mem_zip member).1)
    rw [trimmed, trimmedAll_eq_map, Expr.leaves_operation, ← all,
      olderLeaves_canonical taken selects]
    rfl

/-- Nodes in which every new leaf stands in an object for a pair, which is new too. -/
def NewLeavesPaired (floor : NodeId) (node : Node) : Prop :=
  ∀ leaf ∈ node.leaves, floor ≤ leaf.label →
    ∃ element partner next, floor ≤ next ∧ pairNode element partner next ∈ node.blocks ∧
      leaf ∈ (pairNode element partner next).leaves

/-- A new leaf of a part stands in such an object of the whole. -/
theorem NewLeavesPaired.widen {part whole leaf : Node} (paired : NewLeavesPaired floor part)
    (subset : part.blocks ⊆ whole.blocks) (inside : leaf ∈ part.leaves) (new : floor ≤ leaf.label) :
    ∃ element partner next, floor ≤ next ∧ pairNode element partner next ∈ whole.blocks ∧
      leaf ∈ (pairNode element partner next).leaves := by
  -- The pair that holds the leaf is one of the blocks of the whole as well.
  obtain ⟨element, partner, next, drawn, stands, named⟩ := paired leaf inside new
  exact ⟨element, partner, next, drawn, subset stands, named⟩

/-- A node with the leaves of its arguments, and at least their blocks, is like them. -/
theorem NewLeavesPaired.of_args {node : Node} {args : List Node}
    (each : ∀ part ∈ args, NewLeavesPaired floor part)
    (leaves : node.leaves = args.flatMap Expr.leaves)
    (blocks : args.flatMap Expr.blocks ⊆ node.blocks) : NewLeavesPaired floor node := by
  -- A new leaf is one of an argument, and belongs to a pair object there.
  intro leaf inside new
  rw [leaves, List.mem_flatMap] at inside
  obtain ⟨part, member, inside⟩ := inside
  have subset : part.blocks ⊆ node.blocks := fun block stands =>
    blocks (List.mem_flatMap.mpr ⟨part, member, stands⟩)
  exact (each part member).widen subset inside new

/-- The new leaves of a canonical form are those of the source and the pair, and the names of the fields
of the object that pairs its variables. -/
theorem newLeaves_canonical {next : NodeId} {node selector : Node} {type : ValueType}
    {args : List Node} {parts : FlatMap NodeId} (taken : ofArgs node args = .ok parts)
    (selects : SelectorOf floor parts selector) (each : ∀ arg ∈ args, NewLeavesPaired floor arg) :
    NewLeavesPaired floor (canonicalNode type parts selector next) := by
  obtain ⟨paired, blocks, made⟩ := @blocks_canonical _ next _ _ type _ _ taken selects
  intro leaf inside new
  rw [Expr.leaves_eq_filter, blocks, List.mem_filter, List.mem_append, List.mem_flatMap] at inside
  obtain ⟨⟨part, member, inside⟩ | inside, isLeaf⟩ := inside
  -- Either it comes from one of the first two arguments, or from the object that is made.
  · have subset : part.blocks ⊆ (canonicalNode type parts selector next).blocks := by
      intro block stands
      rw [blocks]
      exact List.mem_append_left _ (List.mem_flatMap.mpr ⟨part, member, stands⟩)
    refine (each part (List.mem_of_mem_take member)).widen subset ?_ new
    rw [Expr.leaves_eq_filter, List.mem_filter]
    exact ⟨inside, isLeaf⟩
  · obtain rfl | ⟨drawn, later, rfl⟩ := made
    · simp at inside
    · refine ⟨parts.element, parts.partner, drawn, later, ?_, ?_⟩
      · rw [blocks]
        exact List.mem_append_right _ List.mem_cons_self
      · rw [Expr.leaves_eq_filter, List.mem_filter]
        exact ⟨inside, isLeaf⟩

/-- Normalizing adds no leaves but the names of the fields of such objects. -/
theorem Normalization.newLeaves {node result : Node}
    (normalization : Normalization floor node result) (older : Below floor node) :
    NewLeavesPaired floor result := by
  -- Every result belongs to an argument, which the induction hypothesis is about.
  have all {args results : List Node} (length : args.length = results.length)
      (below : ∀ arg ∈ args, Below floor arg)
      (each : ∀ pair ∈ args.zip results, Below floor pair.1 → NewLeavesPaired floor pair.2) :
      ∀ part ∈ results, NewLeavesPaired floor part := by
    intro part member
    obtain ⟨arg, together⟩ := exists_pair_of_result length member
    exact each (arg, part) together (below arg (List.of_mem_zip together).1)
  induction normalization with
  | still leaf other =>
    intro found inside new
    rw [Expr.leaves_leaf leaf other, List.mem_singleton] at inside
    subst inside
    exact absurd older.label (Nat.not_lt.mpr new)
  | path => simp [NewLeavesPaired, Expr.leaves_eq_filter]
  | factory length _ ih =>
    refine .of_args (all length older.args ih) (Expr.leaves_factory ..) ?_
    rw [Expr.blocks_factory]
    exact List.subset_cons_self ..
  | operation _ length _ ih =>
    refine .of_args (all length older.args ih) (Expr.leaves_operation ..) ?_
    rw [Expr.blocks_operation]
    exact List.Subset.refl _
  | flatMap length _ taken selects ih =>
    exact newLeaves_canonical taken selects (all length older.args ih)

/-- The pass keeps everything that it does not look into, apart from what stands in the arguments of
flat maps after the second one: the same nodes in the same order. It adds nothing of this kind but the
names of the fields of the objects that it makes for pairs. -/
theorem leaves_normalize {node result : Node} {options : Options} {supply : NodeId}
    (older : Below supply node)
    (done : (Pass.normalizeFlatMaps.run options node supply).1 = .ok result) :
    (result.leaves.filter fun leaf => leaf.label < supply) = (trimmed node).leaves ∧
      ∀ leaf ∈ result.leaves, supply ≤ leaf.label →
        ∃ element partner next, supply ≤ next ∧
          pairNode element partner next ∈ result.reached Plain.looksInto ∧
          leaf ∈ (pairNode element partner next).leaves := by
  -- Both statements are read off what the normalization says of its leaves.
  have normalization := normalization_of_run older done
  refine ⟨normalization.olderLeaves older, ?_⟩
  intro leaf inside new
  obtain ⟨element, partner, next, drawn, stands, named⟩ :=
    normalization.newLeaves older leaf inside new
  exact ⟨element, partner, next, drawn, List.mem_of_mem_filter stands, named⟩

/-- A parameter, a flat map with an argument too many, and a constant; the flat map maps over a template to
a nested query. -/
def overfull : Tree :=
  let x := Path.ofVariable "x" (.object "Family")
  let pair : Tree := .operation () .list .expression
    [.operation () .lambda .expression
        [.path () x, .subquery () (.path () (x.property "Children" .collection))],
      .path () (.ofVariable "c" (.object "Person"))]
  .operation () .list .expression
    [.param () "first" .string,
      .operation () .flatMap .collection
        [.template () "docs" .collection [], pair, .constant () (.string "extra") .string],
      .constant () (.string "last") .string]

/-- The argument too many is dropped, everything else that is not looked into is kept in its order, and the
names of the fields of a pair are new. -/
theorem leaves_normalize_overfull :
    let drawn := overfull.fresh 0
    ∃ result, (Pass.normalizeFlatMaps.run {} drawn.1 drawn.2).1 = .ok result ∧
      (result.leaves.filter fun leaf => leaf.label < drawn.2).map Expr.unlabel =
        [.param () "first" .string, .template () "docs" .collection [],
          .subquery () (.path () ((Path.ofVariable "x" (.object "Family")).property "Children"
            .collection)),
          .constant () (.string "last") .string] ∧
      ∃ leaf ∈ result.leaves, drawn.2 ≤ leaf.label ∧
        ∃ element partner next, pairNode element partner next ∈ result.reached Plain.looksInto ∧
          leaf ∈ (pairNode element partner next).leaves := by
  intro drawn
  have adds : (Pass.normalizeFlatMaps.run {} drawn.1 drawn.2).1.toOption.any (fun result =>
      decide (∃ leaf ∈ result.leaves, drawn.2 ≤ leaf.label)) = true := by decide +kernel
  obtain ⟨result, done, added⟩ := exists_of_any adds
  obtain ⟨leaf, inside, new⟩ := of_decide_eq_true added
  obtain ⟨kept, named⟩ := leaves_normalize (overfull.fresh_apart 0).2.1 done
  obtain ⟨element, partner, next, -, stands, names⟩ := named leaf inside new
  -- What is kept of the third argument is nothing, and the other leaves stay as they were.
  refine ⟨result, done, ?_, leaf, inside, new, element, partner, next, stands, names⟩
  rw [kept]
  decide +kernel

/-- The pass can lose a node that it does not look into. -/
theorem leaves_normalize_not_kept :
    let drawn := overfull.fresh 0
    ∃ result, (Pass.normalizeFlatMaps.run {} drawn.1 drawn.2).1 = .ok result ∧
      ∃ leaf ∈ drawn.1.leaves, leaf ∉ result.leaves := by
  -- The constant in the third argument is lost.
  intro drawn
  have loses : (Pass.normalizeFlatMaps.run {} drawn.1 drawn.2).1.toOption.any (fun result =>
      decide (∃ leaf ∈ drawn.1.leaves, leaf ∉ result.leaves)) = true := by decide +kernel
  obtain ⟨result, done, lost⟩ := exists_of_any loses
  exact ⟨result, done, of_decide_eq_true lost⟩

end FlatMap

end IndexQuery
