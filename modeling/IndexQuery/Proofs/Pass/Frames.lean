import IndexQuery.Pass.Run
import IndexQuery.Proofs.Pass.Steps
import Mathlib.Order.RelClasses

/-! What the passes leave in the state as it was, also when they fail. -/

namespace IndexQuery

open Steps

/-- Steps that end in a state related to the one that they start in, with a failure or without. -/
def Steps.Within {Fault State α : Type} (related : State → State → Prop)
    (steps : ExceptT Fault (StateM State) α) : Prop :=
  ∀ state, related state (run steps state).2

namespace Steps.Within

variable {Fault State α β : Type} {related : State → State → Prop} [IsPreorder State related]

/-- A result alone leaves the state. -/
theorem pure (result : α) :
    Within related (Pure.pure result : ExceptT Fault (StateM State) α) :=
  fun state => refl state

/-- So does the outcome of a check. -/
theorem lift (outcome : Except Fault α) :
    Within related (liftM outcome : ExceptT Fault (StateM State) α) :=
  fun state => refl state

/-- So does a failure. -/
theorem throw (fault : Fault) :
    Within related (MonadExcept.throw fault : ExceptT Fault (StateM State) α) :=
  fun state => refl state

/-- So does a look at the state. -/
theorem get : Within related (MonadState.get : ExceptT Fault (StateM State) State) :=
  fun state => refl state

/-- Steps that stay within a relation can be taken one after the other. -/
theorem bind {first : ExceptT Fault (StateM State) α} {next : α → ExceptT Fault (StateM State) β}
    (head : Within related first) (tail : ∀ result, Within related (next result)) :
    Within related (first >>= next) := by
  intro state
  -- A failure of the first step leaves the state that the first step ends in.
  have between := head state
  rw [run_bind]
  generalize run first state = ran at between ⊢
  rcases ran with ⟨fault | result, after⟩
  · exact between
  · exact IsTrans.trans _ _ _ between (tail result after)

end Steps.Within

namespace PassM

variable {α : Type} {related : Context → Context → Prop}

/-- A change of the state stays within a relation if what it does to every state does. -/
theorem within_change {step : Context → α × Context}
    (each : ∀ context, related context (step context).2) : Within related (change step) :=
  each

/-- Isolated steps stay within a relation that the flag has no part in. -/
theorem within_isolated [IsPreorder Context related] {steps : PassM α}
    (blind : ∀ context flag, related context { context with replaced := flag })
    (inside : Within related steps) : Within related (isolated steps) := by
  -- Entering and leaving only set the flag.
  refine .bind (within_change fun context => blind context false) fun earlier => ?_
  refine .bind inside fun result => ?_
  exact .bind (within_change fun context => blind context _) fun dirty => .pure _

end PassM

namespace Context

/-- A later state with the same nodes on the stack, which still has all earlier registrations where
they were. -/
structure Extends (before after : Context) : Prop where
  ancestors : after.ancestors = before.ancestors
  substitutions : before.substitutions <+: after.substitutions

instance : IsPreorder Context Extends where
  refl _ := ⟨rfl, List.prefix_rfl⟩
  trans _ _ _ first second :=
    ⟨second.ancestors.trans first.ancestors, first.substitutions.trans second.substitutions⟩

/-- A later state that differs in the flag and in the supply of identities alone. -/
def Keeps (before after : Context) : Prop :=
  ∃ replaced nextNode, after = { before with replaced, nextNode }

instance : IsPreorder Context Keeps where
  refl before := ⟨before.replaced, before.nextNode, rfl⟩
  trans := by
    rintro before _ _ ⟨_, _, rfl⟩ ⟨replaced, nextNode, rfl⟩
    exact ⟨replaced, nextNode, rfl⟩

/-- What is registered in a state that is kept stays registered. -/
theorem Keeps.extends {before after : Context} (keeps : Keeps before after) :
    Extends before after := by
  -- Neither the flag nor the supply is part of what is extended.
  obtain ⟨replaced, nextNode, rfl⟩ := keeps
  exact ⟨rfl, List.prefix_rfl⟩

end Context

namespace PassM

/-- New nodes are taken from the supply of identities. -/
theorem keeps_build {α : Type} (nodes : Fresh α) : Within Context.Keeps (build nodes) :=
  within_change fun context => ⟨context.replaced, (nodes context.nextNode).2, rfl⟩

/-- A mark raises the flag. -/
theorem keeps_mark : Within Context.Keeps mark :=
  within_change fun context => ⟨true, context.nextNode, rfl⟩

end PassM

open PassM

namespace FlatMap

/-- New nodes leave the stack and the registrations. -/
theorem extends_build {α : Type} (nodes : Fresh α) : Within Context.Extends (build nodes) :=
  fun context => (keeps_build nodes context).extends

/-- Raising the flag does so too. -/
theorem extends_mark : Within Context.Extends mark :=
  fun context => (keeps_mark context).extends

/-- Renaming a path raises the flag and takes identities at most, even if a parent cannot be renamed. -/
theorem keeps_rename (path : Path) : Within Context.Keeps (rename path) := by
  -- A lookup raises the flag at most, and a new path takes an identity.
  have lookup (path : Path) : Within Context.Keeps (replace path) := by
    refine .bind .get fun context => ?_
    split
    · exact .pure _
    · exact keeps_mark.bind fun _ => .pure _
  induction path with
  | root segment => exact lookup (.root segment)
  | member parent segment ih =>
    rw [rename]
    refine ih.bind fun newParent? => ?_
    split
    · exact lookup (.member parent segment)
    · refine keeps_mark.bind fun _ => ?_
      exact (keeps_build _).bind fun _ => .pure _
    · exact .throw _

/-- A flat map adds registrations behind the earlier ones. -/
theorem extends_canonicalize (node : Node) (type : ValueType) (args : List Node) :
    Within Context.Extends (canonicalize node type args) := by
  -- Only a flat map without a selector registers, and each entry goes to the end.
  have register (transient path : Path) :
      Within Context.Extends (substituteMember transient path) := by
    refine (extends_build _).bind fun member => ?_
    exact within_change fun _ => ⟨rfl, List.prefix_append _ _⟩
  have pair (element partner : Path) : Within Context.Extends (pairSelector element partner) := by
    refine (extends_build _).bind fun selector => ?_
    refine .bind (within_change fun _ => ⟨rfl, List.prefix_rfl⟩) fun name => ?_
    refine (register _ element).bind fun _ => ?_
    exact (register _ partner).bind fun _ => .pure _
  refine .bind (.lift _) fun flatMap => ?_
  dsimp only
  split
  · exact .bind (.pure _) fun selector => extends_build _
  · exact (pair _ _).bind fun selector => extends_build _

/-- An operation with normalized arguments is finished without a look at the stack. -/
theorem extends_rebuild (node : Node) (operator : Operator) (type : ValueType) (args : List Node)
    (dirty : Bool) : Within Context.Extends (rebuild node operator type args dirty) := by
  -- Of the three ways to build an operation only the flat map registers anything, while it is put into
  -- form.
  unfold rebuild
  split
  · exact extends_mark.bind fun _ => extends_build _
  · refine (extends_canonicalize node type args).bind fun result => ?_
    exact extends_mark.bind fun _ => .pure _
  · split
    · exact extends_build _
    · exact .pure _

/-- Arguments are normalized in a row as each of them is. -/
theorem extends_normalizeAll {args : List Node}
    (each : ∀ arg ∈ args, Within Context.Extends (normalize arg)) :
    Within Context.Extends (isolated (normalizeAll args)) := by
  -- The flag that isolation sets and restores is no part of what is compared.
  refine within_isolated (fun _ _ => ⟨rfl, List.prefix_rfl⟩) ?_
  induction args with
  | nil => exact .pure _
  | cons first rest ih =>
    obtain ⟨head, tail⟩ := List.forall_mem_cons.mp each
    exact head.bind fun _ => (ih tail).bind fun _ => .pure _

/-- Normalizing an expression leaves the stack, and the registrations where they were. -/
theorem normalize_extends (node : Node) : Within Context.Extends (normalize node) := by
  -- Every case is a row of steps that have been looked at, so it is put together by `bind`.
  induction node using Expr.induct with
  | operation label operator type args ih =>
    rw [normalize]
    refine (extends_normalizeAll ih).bind fun (normalized, dirty) => ?_
    exact extends_rebuild _ operator type normalized dirty
  | factory label type args ih =>
    rw [normalize]
    refine (extends_normalizeAll ih).bind fun (normalized, dirty) => ?_
    dsimp only
    split
    · exact extends_build _
    · exact .pure _
  | path label target =>
    rw [normalize]
    refine .bind (fun context => (keeps_rename target context).extends) fun _ => ?_
    exact .pure _
  | _ => exact .pure _

end FlatMap

namespace AnyQuantifier

/-- A visited node is off the stack in the end, and the nodes below it are as they were. -/
theorem keeps_visiting {α : Type} (node : Node) {steps : PassM α}
    (inside : Within Context.Keeps steps) : Within Context.Keeps (visiting node steps) := by
  -- The steps keep the stack that they start with, so what is popped is what was pushed.
  intro context
  obtain ⟨replaced, nextNode, same⟩ := inside (context.push node)
  rw [run_visiting, same]
  exact ⟨replaced, nextNode, rfl⟩

/-- Looking for the comparison of a path changes nothing. -/
theorem keeps_comparison (node : Node) (whole : Path) :
    Within Context.Keeps (comparison node whole) := by
  -- A comparison is read off the ancestors, and only a failure ends the steps early.
  refine .bind .get fun context => ?_
  split
  · split
    · exact .pure _
    · exact .throw _
  · exact .throw _

/-- A path through a marker is visited by visiting the collection above the marker. -/
theorem keeps_quantify (node : Node) (whole : Path) (below : List Segment) (path : Path) :
    Within Context.Keeps (quantify node whole below path) := by
  -- The collection is a visit of its own, of another path, so the induction is for any node.
  induction path generalizing node whole below with
  | root segment =>
    rw [quantify]
    split
    · exact .throw _
    · exact .pure _
  | member parent segment ih =>
    rw [quantify]
    split
    · refine (keeps_build _).bind fun source => ?_
      refine .bind (keeps_visiting source ?_) fun collection => ?_
      · exact (ih source parent []).bind fun _ => .pure _
      · refine (keeps_comparison node whole).bind fun (operator, type, compared) => ?_
        refine (keeps_build _).bind fun result => ?_
        exact keeps_mark.bind fun _ => .pure _
    · exact ih node whole (segment :: below)

/-- Arguments are expanded in a row as each of them is. -/
theorem keeps_expandAll {args : List Node}
    (each : ∀ arg ∈ args, Within Context.Keeps (expand arg)) :
    Within Context.Keeps (expandAll args) := by
  -- Each argument is expanded with a flag of its own, which is merged back.
  induction args with
  | nil => exact .pure _
  | cons first rest ih =>
    obtain ⟨head, tail⟩ := List.forall_mem_cons.mp each
    rw [expandAll]
    refine .bind (within_isolated ?_ head) fun (expanded, dirty) => ?_
    · exact fun context flag => ⟨flag, context.nextNode, rfl⟩
    · exact (ih tail).bind fun _ => .pure _

/-- Expanding an expression leaves everything but the flag and the supply of identities. -/
theorem expand_keeps (node : Node) : Within Context.Keeps (expand node) := by
  -- Whatever the arguments push, they pop, and nothing is ever registered.
  induction node using Expr.induct with
  | operation label operator type args ih =>
    rw [expand]
    refine keeps_visiting _ ((keeps_expandAll ih).bind fun (expanded, dirty) => ?_)
    dsimp only
    unfold rebuild
    split
    · exact .pure _
    · split
      · exact .pure _
      · exact keeps_build _
    · exact keeps_build _
  | template label text type args ih =>
    rw [expand]
    refine keeps_visiting _ ((keeps_expandAll ih).bind fun (expanded, dirty) => ?_)
    dsimp only
    split
    · exact keeps_build _
    · exact .pure _
  | path label target =>
    rw [expand]
    exact keeps_visiting _ ((keeps_quantify _ target [] target).bind fun _ => .pure _)
  | _ => exact .pure _

end AnyQuantifier

end IndexQuery
