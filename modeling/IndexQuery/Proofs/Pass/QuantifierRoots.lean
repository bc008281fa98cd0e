import IndexQuery.Proofs.Expr.Readings
import IndexQuery.Proofs.Expr.Roots
import IndexQuery.Proofs.Pass.CarriedMarkers
import IndexQuery.Proofs.Pass.Renaming

/-! Which roots an expression reads after its markers are expanded. -/

namespace IndexQuery

open Steps

namespace AnyQuantifier

mutual

/-- A node without the arguments that quantifiers drop: those after the second one of every operation
that starts with a path through a marker, but for operations below it. -/
def trimmed : Node → Node
  | .operation label operator type args =>
    .operation label operator type
      (if startsWithMarker args then args.take 2 else trimmedAll args)
  | .template label text type args => .template label text type (trimmedAll args)
  | .factory label type args => .factory label type args
  | .constant label value type => .constant label value type
  | .path label target => .path label target
  | .param label name type => .param label name type
  | .subquery label query => .subquery label query

/-- A list of nodes without the arguments that quantifiers drop. -/
def trimmedAll : List Node → List Node
  | [] => []
  | first :: rest => trimmed first :: trimmedAll rest

end

/-- The members of a list are trimmed one by one. -/
@[simp] theorem trimmedAll_eq_map (nodes : List Node) : trimmedAll nodes = nodes.map trimmed := by
  induction nodes with
  | nil => rfl
  | cons first rest ih => simp [trimmedAll, ih]

/-- A node without marked paths loses nothing. -/
theorem trimmed_of_unmarked {node : Node} (unmarked : node.markedPaths = []) :
    trimmed node = node := by
  have all {args : List Node} (each : ∀ arg ∈ args, arg.markedPaths = [] → trimmed arg = arg)
      (unmarked : args.flatMap Expr.markedPaths = []) : args.map trimmed = args := by
    rw [List.flatMap_eq_nil_iff] at unmarked
    have same := List.map_congr_left fun arg member => each arg member (unmarked arg member)
    rw [same, List.map_id']
  -- No operation starts with a marked path, so all arguments are kept.
  induction node using Expr.induct with
  | operation label operator type args ih =>
    rw [Expr.markedPaths_operation] at unmarked
    rw [trimmed, startsWithMarker_of_unmarked unmarked, trimmedAll_eq_map, all ih unmarked]
    rfl
  | template label text type args ih =>
    rw [Expr.markedPaths_template] at unmarked
    rw [trimmed, trimmedAll_eq_map, all ih unmarked]
  | _ => rfl

/-- What is left of a node reads no other roots than the node. -/
theorem rootOccurrences_trimmed {node : Node} {name : String}
    (read : name ∈ (trimmed node).rootOccurrences) : name ∈ node.rootOccurrences := by
  induction node using Expr.induct with
  | operation label operator type args ih =>
    rw [trimmed, Expr.rootOccurrences_operation, List.mem_flatMap] at read
    rw [Expr.rootOccurrences_operation, List.mem_flatMap]
    obtain ⟨arg, member, read⟩ := read
    split at member
    -- Of an operation that starts with a marked path two arguments are left, as they are.
    · exact ⟨arg, Expr.mem_readArgs_of_take member, read⟩
    · rw [trimmedAll_eq_map, Expr.readArgs_map] at member
      obtain ⟨original, kept, rfl⟩ := List.mem_map.mp member
      exact ⟨original, kept, ih original (Expr.mem_of_mem_readArgs kept) read⟩
  | template => simp [trimmed, Expr.rootOccurrences] at read
  | _ => exact read

/-- A list reads a root if one of its members reads it. -/
theorem mem_flatMap_iff_map {name : String} {nodes : List Node} :
    name ∈ nodes.flatMap Expr.rootOccurrences ↔
      True ∈ nodes.map fun node => name ∈ node.rootOccurrences := by
  simp [List.mem_flatMap]

/-- Operations read the same root if their arguments do one by one. -/
theorem mem_rootOccurrences_operation {name : String} {args results : List Node} {view : Node → Node}
    (length : args.length = results.length)
    (each : ∀ pair ∈ args.zip results,
      name ∈ pair.2.rootOccurrences ↔ name ∈ (view pair.1).rootOccurrences)
    (operator : Operator) (type type' : ValueType) (label label' : NodeId) :
    name ∈ (Expr.operation label operator type results).rootOccurrences ↔
      name ∈ (Expr.operation label' operator type' (args.map view)).rootOccurrences := by
  -- Which arguments are read is decided by their positions, so it is enough to compare them in pairs.
  have same := (map_eq_iff_zip (fun result => name ∈ result.rootOccurrences)
    (fun arg => name ∈ (view arg).rootOccurrences) length).mpr
      fun pair member => propext (each pair member)
  rw [Expr.rootOccurrences_operation, Expr.rootOccurrences_operation, mem_flatMap_iff_map,
    mem_flatMap_iff_map, ← Expr.readArgs_map, same, Expr.readArgs_map, Expr.readArgs_map,
    List.map_map]
  rfl

/-- A quantifier reads what the comparison reads, but for the root of the element. -/
theorem mem_rootOccurrences_quantifier {target : Path} {split : Direct.Split}
    (apart : Direct.split? target = some split) {name : String} (other : name ≠ elementName)
    (operator : Operator) (type : ValueType) (label left next : NodeId) (compared : Node) :
    name ∈ (split.quantifier operator type compared next).1.rootOccurrences ↔
      name ∈ (Expr.operation label operator type [.path left target, compared]).rootOccurrences := by
  obtain ⟨collection, element⟩ := rootName_of_split apart
  rw [Direct.Split.quantifier, Expr.rootOccurrences_operation, Expr.rootOccurrences_operation]
  by_cases isSum : operator = .sum
  -- A sum reads its second argument in neither of them.
  · simp [Expr.readArgs, isSum, Expr.rootOccurrences, collection, element, other]
  · simp [Expr.readArgs, isSum, Expr.rootOccurrences, Expr.rootOccurrences_operation, collection,
      element, other]

/-- What is made of a node reads the roots of what quantifiers leave of the node, but for the variable
that they bind. -/
theorem Expansion.mem_rootOccurrences {floor : NodeId} {held : Option Comparison}
    {node result : Node} (expansion : Expansion floor held node result)
    (identified : Identified node) (unmarked : node.isMarked = false) {name : String}
    (other : name ≠ elementName) :
    name ∈ result.rootOccurrences ↔ name ∈ (trimmed node).rootOccurrences := by
  -- Only what starts with a marked path loses arguments, and there the quantifier is compared directly.
  induction expansion with
  | still none => rw [trimmed_of_unmarked none]
  | quantified apart => simp [Expr.isMarked, hasMarker_of_split apart] at unmarked
  | @absorbed _ label left next target split operator type compared others apart =>
    have starts : startsWithMarker (.path left target :: compared :: others) = true :=
      hasMarker_of_split apart
    rw [trimmed, if_pos starts]
    exact mem_rootOccurrences_quantifier apart other operator type label left next compared
  | operation starts _ _ length inside ih =>
    have sound := identified.args_unmarked starts inside
    rw [trimmed, if_neg (by simp [starts]), trimmedAll_eq_map]
    exact mem_rootOccurrences_operation length
      (fun pair member => ih pair member (sound pair member).1 (sound pair member).2) _ _ _ _ _
  | template => simp [trimmed, Expr.rootOccurrences]

/-- An expansion that succeeds keeps every root that is read in the arguments that quantifiers keep,
apart from the variable that they bind. It adds no root but this one. -/
theorem roots_expand {node result : Node} {options : Options} {supply : NodeId}
    (identified : Identified node)
    (done : (Pass.expandMarkers.run options node supply).1 = .ok result) :
    (∀ name, name ≠ elementName → (name ∈ result.roots ↔ name ∈ (trimmed node).roots)) ∧
      ∀ name ∈ result.roots, name = elementName ∨ name ∈ node.roots := by
  have expansion := expansion_of_run done
  have kept (name : String) (other : name ≠ elementName) :
      name ∈ result.roots ↔ name ∈ (trimmed node).roots := by
    rw [Expr.mem_roots, Expr.mem_roots]
    exact expansion.mem_rootOccurrences identified expansion.unmarked_of_none other
  refine ⟨kept, fun name read => ?_⟩
  -- A root that is kept was read before, since trimming only drops arguments.
  by_cases same : name = elementName
  · exact .inl same
  · have left := (kept name same).mp read
    rw [Expr.mem_roots] at left ⊢
    exact .inr (rootOccurrences_trimmed left)

/-- A condition on the name of any child with an operand too many, beside a sum. -/
def overfull : Tree :=
  let name (root : String) : Tree := .path () (.ofVariable root .string)
  let child := ((Path.ofVariable "x" (.object "Family")).property "Children" .collection).any
    (.object "Person")
  .operation () .and .boolean
    [.operation () .equal .boolean
        [.path () (child.property "Name" .string), name "y", name "z"],
      .operation () .sum .number [name "docs", name "summed", name "w"]]

/-- The operand too many is dropped, and with it a root that is read nowhere else. -/
theorem roots_expand_overfull :
    let drawn := overfull.fresh 0
    ∃ result, (Pass.expandMarkers.run {} drawn.1 drawn.2).1 = .ok result ∧
      "x" ∈ result.roots ∧ "y" ∈ result.roots ∧ "w" ∈ result.roots ∧ "z" ∉ result.roots ∧
      ∀ name ∈ result.roots, name = "r" ∨ name ∈ drawn.1.roots := by
  intro drawn
  have succeeds : (Pass.expandMarkers.run {} drawn.1 drawn.2).1.toOption.any (fun _ => true) =
      true := by decide +kernel
  obtain ⟨result, done, -⟩ := exists_of_any succeeds
  obtain ⟨kept, added⟩ := roots_expand (by decide +kernel) done
  -- Every name but that of the variable is a root of the result exactly if it is one of what is kept.
  refine ⟨result, done, ?_, ?_, ?_, ?_, added⟩
  · exact (kept "x" (by decide)).mpr (by decide +kernel)
  · exact (kept "y" (by decide)).mpr (by decide +kernel)
  · exact (kept "w" (by decide)).mpr (by decide +kernel)
  · exact fun read => absurd ((kept "z" (by decide)).mp read) (by decide +kernel)

/-- An expansion can lose a root other than the variable that quantifiers bind. -/
theorem roots_expand_not_kept :
    let drawn := overfull.fresh 0
    ∃ result, (Pass.expandMarkers.run {} drawn.1 drawn.2).1 = .ok result ∧
      "z" ≠ elementName ∧ "z" ∈ drawn.1.roots ∧ "z" ∉ result.roots := by
  -- The third argument of a comparison is left out, and with it its root.
  intro drawn
  have loses : (Pass.expandMarkers.run {} drawn.1 drawn.2).1.toOption.any
      (fun result => "z" ∉ result.roots) = true := by decide +kernel
  obtain ⟨result, done, lost⟩ := exists_of_any loses
  exact ⟨result, done, by decide, by decide +kernel, of_decide_eq_true lost⟩

end AnyQuantifier

end IndexQuery
