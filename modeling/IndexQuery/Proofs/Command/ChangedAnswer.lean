import IndexQuery.Command.Execute
import IndexQuery.Proofs.Pass.FlatMapNormalForm
import IndexQuery.Proofs.Pass.Identities
import IndexQuery.Proofs.Pass.QuantifierFrame

/-! The answer of a pass says that an expression has changed exactly if it is another one. -/

namespace IndexQuery

open Steps AnyQuantifier Encoding

namespace Expr

variable {Label : Type}

/-- Structural equality leaves labels aside. -/
theorem shape_unlabel (expr : Expr Label) : expr.unlabel.shape = expr.shape := by
  -- Arguments keep their shapes one by one, and nothing else of an expression has labels.
  induction expr with
  | operation label operator type args ih | template label operator type args ih =>
    simpa [shape] using ih
  | factory label type args ih => simpa [shape] using ih
  | subquery label query ih => simpa [shape] using ih
  | _ => rfl

/-- What is structurally equal to a path is that path. -/
theorem path?_shape (expr : Expr Label) : expr.shape.path? = expr.path? := by
  cases expr <;> rfl

end Expr

namespace FlatMap

/-- Structurally equal arguments are rewritten alike. -/
theorem rewrites_shape (operator : Operator) (args : List Tree) :
    Plain.rewrites operator (args.map Expr.shape) = Plain.rewrites operator args := by
  -- Of the arguments only a path in front is asked for.
  have same : (args.map Expr.shape).head?.bind Expr.path? = args.head?.bind Expr.path? := by
    cases args with
    | nil => rfl
    | cons first rest => exact first.path?_shape
  rw [rewrites_eq, rewrites_eq, same]

/-- An operation is canonical if it is not rewritten and its arguments are canonical. -/
theorem isCanonical_operation {operator : Operator} {type : ValueType} {args : List Tree} :
    IsCanonical (.operation () operator type args) ↔
      Plain.rewrites operator args = false ∧ ∀ arg ∈ args, IsCanonical arg := by
  -- An operation is never a leaf, so only its own constructor can have built the canonical form.
  constructor
  · intro canonical
    cases canonical with
    | leaf leaf => simp [Plain.looksInto] at leaf
    | operation settled inside => exact ⟨settled, inside⟩
  · rintro ⟨settled, inside⟩
    exact .operation settled inside

/-- An object construction is canonical if its arguments are. -/
theorem isCanonical_factory {type : ValueType} {args : List Tree} :
    IsCanonical (.factory () type args) ↔ ∀ arg ∈ args, IsCanonical arg := by
  -- An object construction is never a leaf, and has no condition of its own.
  constructor
  · intro canonical
    cases canonical with
    | leaf leaf => simp [Plain.looksInto] at leaf
    | factory inside => exact inside
  · exact .factory

/-- Being canonical is a matter of structure. -/
theorem isCanonical_shape (tree : Tree) : IsCanonical tree.shape ↔ IsCanonical tree := by
  -- Decimals are what a shape may spell anew, and no rewriting looks at them.
  induction tree using Expr.induct with
  | operation label operator type args ih =>
    rw [Expr.shape, Expr.shapes_eq_map, isCanonical_operation, isCanonical_operation, rewrites_shape,
      List.forall_mem_map]
    exact and_congr_right fun _ => forall₂_congr ih
  | factory label type args ih =>
    rw [Expr.shape, Expr.shapes_eq_map, isCanonical_factory, isCanonical_factory, List.forall_mem_map]
    exact forall₂_congr ih
  | _ => exact iff_of_true (.leaf rfl) (.leaf rfl)

/-- Structurally equal nodes are canonical alike. -/
theorem isCanonical_congr {node other : Node} (alike : other.Alike node) :
    IsCanonical other.unlabel ↔ IsCanonical node.unlabel := by
  -- The form can be told from the shape, and the two nodes share theirs.
  rw [← isCanonical_shape other.unlabel, ← isCanonical_shape node.unlabel, Expr.shape_unlabel,
    Expr.shape_unlabel, alike]

end FlatMap

/-- A result that is the very node, or a new node and another expression: the identity tells which. -/
def Node.Tells (node : Node) (supply : NodeId) (result : Node) : Prop :=
  result = node ∨ (supply ≤ result.label ∧ ¬ result.Alike node)

/-- Where identities of new nodes come from a supply above that of the node, the identity of the result
is that of the node exactly if the two are structurally equal. -/
theorem Node.Tells.label_eq_iff {node result : Node} {supply : NodeId}
    (tells : node.Tells supply result) (older : node.label < supply) :
    result.label = node.label ↔ result.Alike node := by
  -- A new node comes after the supply, and the old one before it.
  obtain rfl | ⟨new, different⟩ := tells
  · exact iff_of_true rfl rfl
  · exact iff_of_false (Nat.ne_of_gt (Nat.lt_of_lt_of_le older new)) different

/-- A flat-map pass that succeeds gives back the very node, or a new one that is another expression. -/
theorem FlatMap.normalize_tells {node result : Node} {options : Options} {supply : NodeId}
    (done : (Pass.normalizeFlatMaps.run options node supply).1 = .ok result) :
    node.Tells supply result := by
  let start := Context.start options supply
  have unregistered : start.plain.substitutions = [] := rfl
  obtain ⟨follows, drawn⟩ := normalize_effect node start
  have ran : run (normalize node) start = (.ok result, (run (normalize node) start).2) :=
    Prod.ext done rfl
  rw [Follows, ran] at follows
  obtain ⟨-, -, kept, -⟩ := follows
  cases fired : Plain.fires node.unlabel start.plain with
  | false => exact .inl (kept fired)
  | true =>
    -- What is rewritten was not canonical, and every result is.
    have unsettled : ¬ IsCanonical node.unlabel := by
      intro canonical
      simp [(Plain.normalize_of_isCanonical canonical unregistered).2] at fired
    have canonical : IsCanonical result.unlabel := by
      have registered : start.plain.IsCanonical := by simp [Plain.State.IsCanonical, unregistered]
      exact (Plain.normalize_isCanonical (plain_of_runIn done) registered).1
    -- Only what the pass looks into is known to be a new node, and the rest is canonical as it is.
    have entered : Plain.looksInto node = true := by
      cases node with
      | operation | factory => rfl
      | template =>
        rw [Expr.unlabel_template] at unsettled
        exact absurd (.leaf rfl) unsettled
      | _ => exact absurd (.leaf rfl) unsettled
    refine .inr ⟨(drawn result _ ran fired entered).1, ?_⟩
    intro alike
    exact unsettled ((isCanonical_congr alike).mp canonical)

/-- What an expansion makes of a node with a marked path is a new node. -/
theorem AnyQuantifier.Expansion.drawn {floor : NodeId} {held : Option Comparison}
    {node result : Node} (expansion : Expansion floor held node result)
    (marked : node.markedPaths ≠ []) : floor ≤ result.label := by
  cases expansion with
  | still unmarked => exact absurd unmarked marked
  | quantified apart drawn | absorbed apart drawn =>
    -- The quantifier is the last of four nodes.
    exact Nat.le_trans drawn (Nat.le_add_right _ 3)
  | operation _ _ drawn | template _ drawn => exact drawn

/-- An expansion that succeeds gives back the very node, or a new one that is another expression. -/
theorem AnyQuantifier.expand_tells {node result : Node} {options : Options} {supply : NodeId}
    (done : (Pass.expandMarkers.run options node supply).1 = .ok result) :
    node.Tells supply result := by
  -- Without a marked path the expansion is the node itself, and with one it is new at the top.
  have expansion := expansion_of_run done
  by_cases unmarked : node.markedPaths = []
  · exact .inl (expansion.eq_of_unmarked unmarked)
  · refine .inr ⟨expansion.drawn unmarked, ?_⟩
    rwa [expansion.alike_iff]

/-- So does each of the passes. -/
theorem Pass.run_tells (pass : Pass) {node result : Node} {options : Options} {supply : NodeId}
    (done : (pass.run options node supply).1 = .ok result) : node.Tells supply result := by
  -- Each pass has its own reason why identity and likeness agree.
  cases pass with
  | normalizeFlatMaps => exact FlatMap.normalize_tells done
  | expandMarkers => exact AnyQuantifier.expand_tells done

namespace Command

/-- A pass on an encoded expression answers what the pass on new nodes gives. It says that nothing has
changed exactly if the result is structurally equal to the expression that was read, and the identity of
the result is that of the node which the pass was given exactly then. -/
theorem executeJson_changed_iff {value : Json} {tree : Tree} (decoded : decode value = .ok tree)
    (pass : Pass) (options : Options) :
    let input := tree.fresh 0
    let ran := (pass.run options input.1 input.2).1
    (∀ fault, ran = .error fault →
        executeJson (.transform pass) options value = .error (.shape fault)) ∧
      ∀ result, ran = .ok result → ∃ changed,
        executeJson (.transform pass) options value = .ok (.tree (encode result) changed) ∧
          (changed = false ↔ result.Alike tree) ∧
          (result.label = input.1.label ↔ result.Alike input.1) := by
  -- The nodes of the input are drawn from the supply first, so each is older than what a pass builds.
  obtain ⟨-, below, -⟩ := tree.fresh_apart 0
  have same : (tree.fresh 0).1.shape = tree.shape := by
    rw [← Expr.shape_unlabel, Expr.unlabel_fresh, Expr.unlabel_tree]
  simp only [executeJson, decoded, executeTree, transform, Bind.bind, Except.bind, Except.mapError]
  generalize tree.fresh 0 = started at below same ⊢
  obtain ⟨node, supply⟩ := started
  dsimp only
  refine ⟨?_, ?_⟩
  · intro fault failed
    rw [failed]
  · intro result done
    have told := (pass.run_tells done).label_eq_iff below.label
    rw [done]
    refine ⟨_, rfl, ?_, told⟩
    -- The answer compares identities, which are those of the node for the very node only.
    simp only [ne_eq, decide_not, Bool.not_eq_false', decide_eq_true_eq]
    rw [told, Expr.Alike, Expr.Alike, same]

/-- A flat map whose element has the name that is invented first, and a lambda of the same parameter. -/
def reboundLambda : Tree :=
  let element : Tree := .path () (Path.ofVariable "transId_0" .anonymous)
  let docs : Tree := .path () (Path.ofVariable "docs" .collection)
  let lambda : Tree := .operation () .lambda .expression [element, docs]
  .operation () .and .boolean
    [.operation () .flatMap .collection
        [docs, .operation () .list .expression [lambda, .path () (Path.ofVariable "c" .string)]],
      lambda]

/-- The lambda beside the flat map is bound anew to what it was bound to, but the flat map is another
expression, and the answer says so. Without a marker, an expansion answers that nothing has changed. -/
theorem executeJson_changed_iff_reboundLambda :
    let value := encode reboundLambda
    decode value = .ok reboundLambda ∧
      (∃ result : Node, ¬ result.Alike reboundLambda ∧
        executeJson (.transform .normalizeFlatMaps) {} value = .ok (.tree (encode result) true)) ∧
      ∃ result : Node, result.Alike reboundLambda ∧
        executeJson (.transform .expandMarkers) {} value = .ok (.tree (encode result) false) := by
  intro value
  have decoded : decode value = .ok reboundLambda := by decide +kernel
  -- The first pass rewrites the lambda, while the second one finds nothing to expand.
  refine ⟨decoded, ?_, ?_⟩
  · have differs : (Pass.normalizeFlatMaps.run {} (reboundLambda.fresh 0).1
        (reboundLambda.fresh 0).2).1.toOption.any (fun result => !result.Alike reboundLambda) =
          true := by
      decide +kernel
    obtain ⟨result, done, different⟩ := exists_of_any differs
    have different : ¬ result.Alike reboundLambda := by simpa using different
    obtain ⟨changed, answered, unchanged, -⟩ :=
      (executeJson_changed_iff decoded .normalizeFlatMaps {}).2 result done
    -- The flag of the answer is decided by whether the trees are alike.
    obtain rfl : changed = true := by
      rw [← Bool.not_eq_false, unchanged]
      exact different
    exact ⟨result, different, answered⟩
  · have agrees : (Pass.expandMarkers.run {} (reboundLambda.fresh 0).1
        (reboundLambda.fresh 0).2).1.toOption.any (fun result => result.Alike reboundLambda) =
          true := by
      decide +kernel
    obtain ⟨result, done, alike⟩ := exists_of_any agrees
    have alike : result.Alike reboundLambda := by simpa using alike
    obtain ⟨changed, answered, unchanged, -⟩ :=
      (executeJson_changed_iff decoded .expandMarkers {}).2 result done
    obtain rfl := unchanged.mpr alike
    exact ⟨result, alike, answered⟩

end Command

end IndexQuery
