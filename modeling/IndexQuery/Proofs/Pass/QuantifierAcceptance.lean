import IndexQuery.Proofs.Pass.MarkerComparisons
import IndexQuery.Proofs.Pass.QuantifierOutcomes

/-! The expander accepts exactly the nodes whose markers stand where a comparison can be made of them. -/

namespace IndexQuery

open Steps

namespace AnyQuantifier

/-- Occurrences of nodes that an expansion comes to, each with the node directly above it, given what is
above the node at the top. -/
inductive Occurs (over? : Option Node) (top : Node) : (above? : Option Node) → Node → Prop
  | itself : Occurs over? top over? top
  | inside {above? : Option Node} {outer arg : Node} (occurs : Occurs over? top above? outer)
      (entered : reaches outer = true) (member : arg ∈ outer.args) :
      Occurs over? top (some outer) arg

/-- What occurs in an argument occurs in the node whose argument it is. -/
theorem Occurs.of_arg {over? above? : Option Node} {outer arg inner : Node}
    (entered : reaches outer = true) (member : arg ∈ outer.args)
    (occurs : Occurs (some outer) arg above? inner) : Occurs over? outer above? inner := by
  -- The way down from the argument is taken again, one step further from the top.
  induction occurs with
  | itself => exact .inside .itself entered member
  | inside occurs entered member ih => exact .inside ih entered member

/-- What occurs in a node is the node itself, or occurs in an argument of a node that is entered. -/
theorem occurs_iff {over? above? : Option Node} {top inner : Node} :
    Occurs over? top above? inner ↔
      (above? = over? ∧ inner = top) ∨
        (reaches top = true ∧ ∃ arg ∈ top.args, Occurs (some top) arg above? inner) := by
  -- An occurrence grows at its lower end, and this looks at the upper one.
  constructor
  · intro occurs
    induction occurs with
    | itself => exact .inl ⟨rfl, rfl⟩
    | inside occurs entered member ih =>
      obtain ⟨-, rfl⟩ | ⟨outermost, arg, first, below⟩ := ih
      · exact .inr ⟨entered, _, member, .itself⟩
      · exact .inr ⟨outermost, arg, first, .inside below entered member⟩
  · rintro (⟨rfl, rfl⟩ | ⟨entered, arg, member, occurs⟩)
    · exact .itself
    · exact occurs.of_arg entered member

/-- Nothing but the node itself occurs in one that is not entered. -/
theorem Occurs.eq_of_leaf {over? above? : Option Node} {top inner : Node}
    (occurs : Occurs over? top above? inner) (leaf : reaches top = false) : inner = top := by
  -- Nothing below a leaf is looked into.
  obtain ⟨-, same⟩ | ⟨entered, -⟩ := occurs_iff.mp occurs
  · exact same
  · simp [leaf] at entered

/-- Where a path through a marker has to stand, and what it has to be, for a quantifier to be made of
it. -/
structure WellPlaced (above? : Option Node) (label : NodeId) (target : Path) : Prop where
  /-- Directly above it is an operation over two arguments or more, the first of which is the path. -/
  leftOperand : ∃ holder operator type left compared others,
    above? = some (.operation holder operator type (left :: compared :: others)) ∧
      left.label = label
  /-- It goes through one marker only. -/
  single : target.markers = 1
  /-- The marker is not its root, so that it has a collection above it. -/
  rooted : target.rootSegment.kind ≠ .any

/-- What the node directly above another one compares it with. -/
def comparedBy : (above? : Option Node) → Node → Option Comparison
  | some (.operation _ operator type args), node => comparing operator type args node
  | _, _ => none

/-- Only an operation over two arguments or more compares, and only what is its first argument. -/
theorem comparedBy_isSome {above? : Option Node} {node : Node} :
    (comparedBy above? node).isSome = true ↔
      ∃ holder operator type left compared others,
        above? = some (.operation holder operator type (left :: compared :: others)) ∧
          left.label = node.label := by
  -- Each test on the way to the comparison says what the node above looks like.
  constructor
  · intro compares
    unfold comparedBy at compares
    split at compares
    · rename_i holder operator type args
      unfold comparing at compares
      split at compares
      · rename_i left compared others
        split at compares
        · rename_i same
          exact ⟨holder, operator, type, left, compared, others, rfl, same⟩
        · simp at compares
      · simp at compares
    · simp at compares
  · rintro ⟨holder, operator, type, left, compared, others, rfl, same⟩
    simp [comparedBy, comparing, same]

/-- A path can be taken apart exactly if it goes through a single marker, which is not its root. -/
theorem split_isSome {target : Path} :
    (Direct.split? target).isSome = true ↔
      target.markers = 1 ∧ target.rootSegment.kind ≠ .any := by
  -- A path is split at its marker, so there has to be exactly one, with something before it.
  rw [Option.isSome_iff_exists]
  constructor
  · rintro ⟨split, apart⟩
    exact markers_of_split apart
  · rintro ⟨single, rooted⟩
    exact split_of_single single rooted

/-- A path is well placed exactly if it is compared and can be taken apart. -/
theorem wellPlaced_iff {above? : Option Node} {label : NodeId} {target : Path} :
    WellPlaced above? label target ↔
      (comparedBy above? (.path label target)).isSome = true ∧
        (Direct.split? target).isSome = true := by
  -- The first condition is about what holds the path, and the other two are about the path itself.
  rw [comparedBy_isSome, split_isSome]
  constructor
  · intro placed
    exact ⟨placed.leftOperand, placed.single, placed.rooted⟩
  · rintro ⟨leftOperand, single, rooted⟩
    exact ⟨leftOperand, single, rooted⟩

/-- A path through a marker is accepted exactly if it is well placed. -/
theorem accepted_path {above? : Option Node} {label : NodeId} {target : Path}
    (marked : target.hasMarker = true) :
    accepted (comparedBy above? (.path label target)) (.path label target) = true ↔
      WellPlaced above? label target := by
  rw [wellPlaced_iff]
  simp [accepted, marked]

/-- A node that is entered is accepted exactly if its arguments are, by the way it compares them. -/
theorem accepted_of_reaches {node : Node} (entered : reaches node = true)
    (held : Option Comparison) :
    accepted held node = true ↔
      ∀ arg ∈ node.args, accepted (comparedBy (some node) arg) arg = true := by
  -- The two kinds of nodes that are looked into accept what all of their arguments accept.
  cases node with
  | operation label operator type args => exact accepted_operation
  | template label text type args => exact accepted_template
  | _ => simp [reaches] at entered

/-- Whatever occurs in an accepted node is accepted where it occurs. -/
theorem Occurs.accepted {over? above? : Option Node} {top inner : Node}
    (occurs : Occurs over? top above? inner)
    (holds : AnyQuantifier.accepted (comparedBy over? top) top = true) :
    AnyQuantifier.accepted (comparedBy above? inner) inner = true := by
  -- Acceptance goes down from a node to its arguments, as occurrences do.
  induction occurs with
  | itself => exact holds
  | inside occurs entered member ih => exact (accepted_of_reaches entered _).mp ih _ member

/-- A node is accepted exactly if every path through a marker that occurs in it is well placed. -/
theorem accepted_iff {over? : Option Node} {top : Node} :
    accepted (comparedBy over? top) top = true ↔
      ∀ above? label target, Occurs over? top above? (.path label target) →
        target.hasMarker = true → WellPlaced above? label target := by
  constructor
  · intro holds above? label target occurs marked
    exact (accepted_path marked).mp (occurs.accepted holds)
  -- The other way, each argument is a node of its own, with this one above it.
  · intro placed
    induction top using Expr.induct generalizing over? with
    | path label target =>
      cases marked : target.hasMarker with
      | false => simp [accepted, marked]
      | true => exact (accepted_path marked).mpr (placed over? label target .itself marked)
    | operation label operator type args ih | template label text type args ih =>
      rw [accepted_of_reaches rfl]
      intro arg member
      apply ih arg member
      intro above? inner target occurs
      exact placed above? inner target (occurs.of_arg rfl member)
    | _ => rfl

/-- The fault of a marker that no quantifier can be made of. -/
def IsMalformedAny (fault : ShapeError) : Prop :=
  -- Nothing is asked of the path that is quoted, or of the cause.
  ∃ path cause, fault = .malformedAny path cause

/-- A path fails with the fault of a marker. -/
theorem Plain.quantify_malformed {held : Plain.Holder} {whole path : Path} {below : List Segment}
    {fault : ShapeError} (failed : Plain.quantify held whole below path = .error fault) :
    IsMalformedAny fault := by
  -- The walk up the path ends at a marker or at the root, and the collection is a walk of its own.
  induction path generalizing held whole below with
  | root segment =>
    rw [Plain.quantify] at failed
    split at failed
    · cases failed
      exact ⟨_, _, rfl⟩
    · simp at failed
  | member parent segment ih =>
    rw [Plain.quantify] at failed
    split at failed
    -- The collection fails first, and then what the path is compared with.
    · rcases except_bind_error.mp failed with inner | ⟨_, -, failed⟩
      · exact ih inner
      · rcases except_bind_error.mp failed with uncompared | ⟨_, -, failed⟩
        · cases held with
          | error cause =>
            cases uncompared
            exact ⟨_, _, rfl⟩
          | ok compared => simp [Except.mapError] at uncompared
        · cases failed
    · exact ih failed

/-- A list of arguments fails with the fault of one of them. -/
theorem Plain.expandAll_error {Label : Type} {rule : Plain.LeftRule Label}
    {held : Bool → Expr Label → Plain.Holder} {isFirst : Bool} {args : List (Expr Label)}
    {fault : ShapeError} (failed : Plain.expandAll rule held isFirst args = .error fault) :
    ∃ arg ∈ args, ∃ held, Plain.expand rule held arg = .error fault := by
  -- The first one that fails decides, whatever the later ones would do.
  induction args generalizing isFirst with
  | nil => cases failed
  | cons first rest ih =>
    rw [Plain.expandAll] at failed
    rcases except_bind_error.mp failed with head | ⟨_, -, failed⟩
    · exact ⟨first, by simp, _, head⟩
    · rcases except_bind_error.mp failed with tail | ⟨_, -, failed⟩
      · obtain ⟨arg, member, failed⟩ := ih tail
        exact ⟨arg, by simp [member], failed⟩
      · cases failed

/-- An expansion fails with the fault of a marker. -/
theorem Plain.expand_malformed {Label : Type} {rule : Plain.LeftRule Label} {held : Plain.Holder}
    {expr : Expr Label} {fault : ShapeError} (failed : Plain.expand rule held expr = .error fault) :
    IsMalformedAny fault := by
  -- Only paths fail, and every other expression passes on the fault of an argument.
  induction expr using Expr.induct generalizing held with
  | path label target =>
    rw [Plain.expand] at failed
    rcases except_bind_error.mp failed with quantified | ⟨_, -, failed⟩
    · exact Plain.quantify_malformed quantified
    · cases failed
  | operation label operator type args ih | template label text type args ih =>
    rw [Plain.expand] at failed
    rcases except_bind_error.mp failed with inside | ⟨_, -, failed⟩
    · obtain ⟨arg, member, held, failed⟩ := Plain.expandAll_error inside
      exact ih arg member failed
    · cases failed
  | _ => cases failed

/-- From an empty stack, the pass succeeds exactly if every path through a marker that it comes to is
the left operand of the operation directly above it, with something to be compared with, and goes
through a single marker that has a parent. What it fails with otherwise is that a marker is
malformed. -/
theorem expand_succeeds_iff {node : Node} {context : Context}
    (unvisited : context.ancestors = []) :
    let ran := Pass.expandMarkers.runIn node context
    ((∃ result, ran.1 = .ok result) ↔
        ∀ above? label target, Occurs none node above? (.path label target) →
          target.hasMarker = true → WellPlaced above? label target) ∧
      ∀ fault, ran.1 = .error fault → ∃ path cause, fault = .malformedAny path cause := by
  intro ran
  -- The node itself has nothing above it, on the stack as in the tree.
  have uncompared : (context.push node).comparison? node = comparedBy none node := by
    simp [Context.comparison?, Context.ancestor?, Context.push, unvisited, comparedBy]
  refine ⟨?_, ?_⟩
  · rw [runIn_expandMarkers_iff, uncompared]
    exact accepted_iff
  · intro fault failed
    have told := Held.map_unlabel_runIn node context
    rw [show (Pass.expandMarkers.runIn node context).1 = .error fault from failed] at told
    exact Plain.expand_malformed told.symm

/-- Children compared with children, by two nodes of which the first has the identity 2. -/
def childrenCompared (second : NodeId) : Node :=
  let children := (Path.ofVariable "docs" .collection).any (.object "Person")
  .operation 4 .equal .boolean [.path 2 children, .path second children]

/-- A node that stands on both sides of a comparison is its left operand in both places, and an equal
node is not. -/
theorem expand_succeeds_iff_childrenCompared :
    let context := Context.start {} 5
    (∃ result, (Pass.expandMarkers.runIn (childrenCompared 2) context).1 = .ok result) ∧
      ∃ path cause, (Pass.expandMarkers.runIn (childrenCompared 3) context).1 =
        .error (.malformedAny path cause) := by
  intro context
  have placed := accepted_iff.mp
    (show accepted (comparedBy none (childrenCompared 2)) (childrenCompared 2) = true by
      decide +kernel)
  refine ⟨(expand_succeeds_iff rfl).1.mpr placed, ?_⟩
  obtain ⟨accepts, malformed⟩ := @expand_succeeds_iff (childrenCompared 3) context rfl
  cases outcome : (Pass.expandMarkers.runIn (childrenCompared 3) context).1 with
  | error fault =>
    obtain ⟨path, cause, rfl⟩ := malformed fault outcome
    exact ⟨path, cause, rfl⟩
  | ok result =>
    -- The second path would have to be the first argument of the comparison.
    have top : Occurs none (childrenCompared 3) none (childrenCompared 3) := .itself
    have inside := top.inside rfl (List.mem_cons_of_mem _ List.mem_cons_self)
    obtain ⟨⟨holder, operator, type, left, compared, others, above, same⟩, -⟩ :=
      accepts.mp ⟨result, outcome⟩ _ _ _ inside rfl
    cases above
    simp [Expr.label] at same

end AnyQuantifier

end IndexQuery
