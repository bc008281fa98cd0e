import IndexQuery.Command.Execute
import IndexQuery.Proofs.Pass.FlatMapIdentities
import IndexQuery.Proofs.Pass.Reencoding

/-! Passes that are piped through encoded expressions do what they do one after the other in memory. -/

namespace IndexQuery

open Encoding AnyQuantifier

/-- What a chain of passes leaves: the encoding of what each pass made, up to the pass that failed. -/
structure Trail (Fault : Type) where
  written : List Json
  /-- Why the next pass failed; without a fault all passes are done. -/
  fault? : Option Fault

namespace Trail

variable {Fault Other : Type}

/-- The trail of one more pass in front, which made the given value. -/
def behind (value : Json) (trail : Trail Fault) : Trail Fault :=
  { trail with written := value :: trail.written }

/-- The same trail with another account of its fault. -/
def mapFault (view : Fault → Other) (trail : Trail Fault) : Trail Other where
  written := trail.written
  fault? := trail.fault?.map view

end Trail

/-- The trail of passes on a node, each on what the one before made, and from a new state. -/
def Pass.chain (options : Options) : List Pass → Node → NodeId → Trail ShapeError
  | [], _, _ => ⟨[], none⟩
  | pass :: rest, node, supply =>
    match pass.run options node supply with
    | (.error fault, _) => ⟨[], some fault⟩
    | (.ok result, after) => (chain options rest result after.nextNode).behind (encode result)

namespace Command

/-- The trail of passes on an encoded expression, each on what the one before has written. -/
def pipe (options : Options) : List Pass → Json → Trail Failure
  | [], _ => ⟨[], none⟩
  | pass :: rest, value =>
    match executeJson (.transform pass) options value with
    | .error failure => ⟨[], some failure⟩
    | .ok (.tree result _) => (pipe options rest result).behind result
    -- No pass answers with roots or a text.
    | .ok (.roots _) | .ok (.text _) => ⟨[], none⟩

/-- A pass on an encoded expression fails as it fails without labels, or writes its result. -/
theorem executeJson_transform {value : Json} {tree : Tree} (decoded : decode value = .ok tree)
    (pass : Pass) (options : Options) :
    ∃ changed, executeJson (.transform pass) options value =
      match pass.plain options tree with
      | .error fault => .error (.shape fault)
      | .ok result => .ok (.tree (encode result) changed) := by
  -- The nodes of the tree are new, so the pass does what it does without labels.
  have ran := Pass.run_plain (tree.fresh_apart 0).1 pass options (tree.fresh 0).2
  rw [Expr.unlabel_fresh, Expr.unlabel_tree] at ran
  simp only [executeJson, decoded, executeTree, transform, Bind.bind, Except.bind, Except.mapError]
  generalize tree.fresh 0 = started at ran ⊢
  obtain ⟨node, nextNode⟩ := started
  rw [← ran]
  dsimp only
  cases (pass.run options node nextNode).1 with
  | error fault => exact ⟨false, rfl⟩
  | ok result =>
    refine ⟨result.label ≠ node.label, ?_⟩
    simp only [Except.map, encode_unlabel]
    rfl

/-- Piping goes on as in memory from a value that is read as the node in memory would be. -/
theorem pipe_of_readBack {value : Json} {tree : Tree} {node : Node} {supply : NodeId}
    (decoded : decode value = .ok tree) (same : tree.readBack = node.readBack)
    (exact : node.unlabel.decimalFree = true) (apart : OperandsApart node)
    (below : Below supply node) (options : Options) (passes : List Pass) :
    pipe options passes value =
      (Pass.chain options passes node supply).mapFault Failure.shape := by
  -- The induction is on the passes: each leaves a node and a value that go on being read alike.
  induction passes generalizing value tree node supply with
  | nil => rfl
  | cons pass rest ih =>
    obtain ⟨changed, piped⟩ := executeJson_transform decoded pass options
    have ran := Pass.run_plain apart pass options supply
    -- Both trees are read back alike, so the pass does the same with them.
    have alike : (pass.plain options tree).map Expr.readBack =
        (pass.plain options node.unlabel).map Expr.readBack := by
      rw [← Pass.plain_readBack, ← Pass.plain_readBack, Expr.readBack_unlabel, same]
    rw [pipe, Pass.chain, piped]
    rcases done : pass.run options node supply with ⟨fault | result, after⟩
    -- The pass that fails in memory fails here, with the same error.
    · rw [done] at ran
      rw [← ran] at alike
      cases outcome : pass.plain options tree with
      | error fault' =>
        rw [outcome] at alike
        cases alike
        rfl
      | ok other => simp [outcome, Except.map] at alike
    -- The pass that succeeds leaves what the next one needs.
    · rw [done] at ran
      have exactNext := Pass.decimalFree_plain exact ran.symm
      obtain ⟨apartNext, belowNext⟩ := Pass.run_apart apart below done
      rw [← ran] at alike
      cases outcome : pass.plain options tree with
      | error fault => simp [outcome, Except.map] at alike
      | ok other =>
        rw [outcome] at alike
        have sameNext : other.readBack = result.readBack := by
          simpa [Except.map] using alike
        -- Both results are written alike, and what is written has no types left to lose.
        have written : encode other = encode result := by
          rw [← encode_readBack, sameNext, encode_readBack]
        have decodedNext : decode (encode result) = .ok result.readBack := by
          rw [← encode_unlabel, decode_encode_readBack exactNext, Expr.readBack_unlabel]
        have others := ih decodedNext result.readBack_idem exactNext apartNext belowNext
        dsimp only
        rw [written, others]
        rfl

/-- Passes on an encoded expression without decimals, each of which reads what the one before has
written, fail at the same pass with the same error as the passes on the expression in memory, each on
what the one before has made, or they all write the same values. -/
theorem pipe_eq_chain {value : Json} {tree : Tree} (decoded : decode value = .ok tree)
    (exact : tree.decimalFree = true) (options : Options) (passes : List Pass) (first : NodeId) :
    pipe options passes value =
      (Pass.chain options passes (tree.fresh first).1 (tree.fresh first).2).mapFault
        Failure.shape := by
  -- New identities change nothing that is read back or looked for.
  obtain ⟨apart, below, -⟩ := tree.fresh_apart first
  refine pipe_of_readBack decoded ?_ ?_ apart below options passes
  · rw [← Expr.readBack_unlabel (tree.fresh first).1, Expr.unlabel_fresh, Expr.readBack_unlabel]
  · rwa [Expr.unlabel_fresh, Expr.unlabel_tree]

/-- A comparison of the name of any child of a family. -/
def childName : Tree :=
  let family := Path.ofVariable "x" (.object "Family")
  let child := (family.property "Children" .collection).any (.object "Person")
  .operation () .equal .boolean
    [.path () (child.property "Name" .string), .constant () (.string "bob") .string]

/-- An encoded object whose only field declares a type, and a comparison beside it. -/
def typedFieldAndName : Json :=
  let field : Json := .object [("args", .array
    [.object [("constant", .string "X")], .object [("path", .string "x")]]),
    ("op", .string "LIST"), ("type", .string "boolean")]
  .object [("args", .array [.object [("factory", .array [field])], encode childName]),
    ("op", .string "AND")]

/-- Though the first pass writes the field without its type, the second one does as in memory. -/
theorem pipe_eq_chain_typedFieldAndName :
    ∃ tree, decode typedFieldAndName = .ok tree ∧ tree.decimalFree = true ∧ tree.keepsTypes = false ∧
      let passes := [Pass.expandMarkers, Pass.normalizeFlatMaps]
      (pipe {} passes typedFieldAndName).fault? = none ∧
        pipe {} passes typedFieldAndName =
          (Pass.chain {} passes (tree.fresh 0).1 (tree.fresh 0).2).mapFault Failure.shape := by
  -- The declared type is lost at once when the value is decoded, so the passes never see it.
  let tree : Tree := .operation () .and .boolean [singleField .boolean, childName]
  have decoded : decode typedFieldAndName = .ok tree := rfl
  have piped := pipe_eq_chain decoded (by decide) {} [.expandMarkers, .normalizeFlatMaps] 0
  refine ⟨tree, decoded, by decide, by decide, ?_, piped⟩
  decide +kernel

end Command

end IndexQuery
