import IndexQuery.Proofs.Pass.CarriedMarkers
import IndexQuery.Proofs.Pass.QuantifierAcceptance

/-! What an expansion leaves of the state, and of the state it depends on. -/

namespace IndexQuery

open Steps

/-- What is compared with a node is read off the stack, and off nothing else of the state. -/
theorem Context.holder_congr {context other : Context} (same : other.ancestors = context.ancestors)
    (node : Node) : (other.push node).holder node = (context.push node).holder node := by
  simp only [holder, ancestor?, push, same]

namespace AnyQuantifier

/-- A node that is entered has the marked paths of its arguments. -/
theorem markedPaths_of_reaches {node : Node} (entered : reaches node = true) :
    node.markedPaths = node.args.flatMap Expr.markedPaths := by
  -- The two kinds of nodes that are looked into have the marked paths of their arguments.
  cases node with
  | operation label operator type args => exact Expr.markedPaths_operation ..
  | template label text type args => exact Expr.markedPaths_template ..
  | _ => simp [reaches] at entered

/-- The marked paths of a node are the paths through a marker that occur in it. -/
theorem mem_markedPaths {over? : Option Node} {node : Node} {target : Path} :
    target ∈ node.markedPaths ↔
      ∃ above? label, Occurs over? node above? (.path label target) ∧ target.hasMarker = true := by
  -- Both sides take a node apart into its arguments, each of which has this node above it.
  induction node using Expr.induct generalizing over? with
  | path label inner =>
    rw [Expr.markedPaths]
    constructor
    · intro member
      split at member
      · rename_i marked
        obtain rfl := List.mem_singleton.mp member
        exact ⟨over?, label, .itself, marked⟩
      · simp at member
    · rintro ⟨above?, other, occurs, marked⟩
      cases occurs.eq_of_leaf rfl
      simp [marked]
  | operation label operator type args ih | template label text type args ih =>
    rw [markedPaths_of_reaches rfl, List.mem_flatMap]
    constructor
    · rintro ⟨arg, member, marked⟩
      obtain ⟨above?, inner, occurs, marked⟩ := (ih arg member).mp marked
      exact ⟨above?, inner, occurs.of_arg rfl member, marked⟩
    · rintro ⟨above?, inner, occurs, marked⟩
      obtain ⟨-, same⟩ | ⟨-, arg, member, occurs⟩ := occurs_iff.mp occurs
      · cases same
      · exact ⟨arg, member, (ih arg member).mpr ⟨above?, inner, occurs, marked⟩⟩
  | _ =>
    -- What has no marked paths is neither a path nor entered, so that no path occurs in it.
    constructor
    · intro member
      simp [Expr.markedPaths] at member
    · rintro ⟨above?, other, occurs, -⟩
      cases occurs.eq_of_leaf rfl

/-- An expansion gives an equal node only if it gives the very node, which has no marked paths then. -/
theorem Expansion.alike_iff {floor : NodeId} {held : Option Comparison} {node result : Node}
    (expansion : Expansion floor held node result) :
    result.Alike node ↔ node.markedPaths = [] := by
  -- An expansion that looks like the node has replaced nothing.
  constructor
  · exact expansion.unmarked_of_shape
  · intro unmarked
    rw [expansion.eq_of_unmarked unmarked]
    rfl

/-- An expansion leaves the stack, the registrations, the counter and the options, whether it succeeds or
fails. If it succeeds, the flag is raised afterwards if it was before or a path through a marker has been
expanded, and the result is another expression exactly in the second case. The error and, but for labels,
the result depend on nothing in the state but the stack. -/
theorem expand_frame (node : Node) (context : Context) :
    let ran := Pass.expandMarkers.runIn node context
    (ran.2.ancestors = context.ancestors ∧ ran.2.substitutions = context.substitutions ∧
        ran.2.nextTransient = context.nextTransient ∧ ran.2.options = context.options) ∧
      (∀ result, ran.1 = .ok result →
        let expanded := ∃ above? label target,
          Occurs none node above? (.path label target) ∧ target.hasMarker = true
        (ran.2.replaced = true ↔ context.replaced = true ∨ expanded) ∧
          (expanded ↔ ¬ result.Alike node)) ∧
      ∀ other : Context, other.ancestors = context.ancestors →
        (Pass.expandMarkers.runIn node other).1.map Expr.unlabel = ran.1.map Expr.unlabel := by
  intro ran
  refine ⟨?_, ?_, ?_⟩
  -- Every push is matched by its pop, also where a failure ends the walk.
  · have kept : context.Keeps ran.2 := expand_keeps node context
    obtain ⟨replaced, nextNode, same⟩ := kept
    rw [same]
    exact ⟨rfl, rfl, rfl, rfl⟩
  · intro result done expanded
    obtain ⟨expansion, flag⟩ := expansion_of_runIn done
    have marked : expanded ↔ node.markedPaths ≠ [] := by
      constructor
      · rintro ⟨above?, label, target, occurs, marked⟩
        exact List.ne_nil_of_mem (mem_markedPaths.mpr ⟨above?, label, occurs, marked⟩)
      · intro some
        obtain ⟨target, member⟩ := List.exists_mem_of_ne_nil _ some
        obtain ⟨above?, label, occurs, marked⟩ := mem_markedPaths.mp member
        exact ⟨above?, label, target, occurs, marked⟩
    rw [marked, expansion.alike_iff, flag]
    simp
  -- Both runs find the same comparison on the stack.
  · intro other same
    rw [Held.map_unlabel_runIn, Held.map_unlabel_runIn, Context.holder_congr same]

/-- A path that is compared by what is on the stack is expanded in every state with that stack. -/
theorem expand_frame_child :
    let child : Node := .path 2 ((Path.ofVariable "docs" .collection).any (.object "Person"))
    let holder : Node := .operation 4 .equal .boolean [child, .constant 3 (.string "bob") .string]
    let context := (Context.start {} 5).push holder
    let other : Context :=
      { options := { stem := "name" }, replaced := true, substitutions := [(.ofVariable "y" .string, child)]
        nextTransient := 7, ancestors := [holder], nextNode := 30 }
    let ran := Pass.expandMarkers.runIn child context
    ∃ result, ran.1 = .ok result ∧ ran.2.ancestors = [holder] ∧ ran.2.replaced = true ∧
      ¬ result.Alike child ∧
      (Pass.expandMarkers.runIn child other).1.map Expr.unlabel = .ok result.unlabel := by
  intro child holder context other ran
  obtain ⟨⟨ancestors, -⟩, changed, depends⟩ := expand_frame child context
  have succeeds : ran.1.toOption.any (fun _ => true) = true := by decide +kernel
  obtain ⟨result, done, -⟩ := exists_of_any succeeds
  obtain ⟨flag, different⟩ := changed result done
  -- The expression itself is the marked path, so both flag and shape must change.
  have expanded : ∃ above? label target,
      Occurs none child above? (.path label target) ∧ target.hasMarker = true :=
    ⟨none, 2, _, .itself, rfl⟩
  have again := depends other rfl
  rw [show (Pass.expandMarkers.runIn child context).1 = .ok result from done] at again
  exact ⟨result, done, ancestors, flag.mpr (.inr expanded), different.mp expanded, again⟩

end AnyQuantifier

end IndexQuery
