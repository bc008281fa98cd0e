import IndexQuery.Proofs.Pass.FlatMapParameters

/-! The flat-map pass keeps static types: of every node, of its arguments, and of what it registers. -/

namespace IndexQuery

open Steps PassM

namespace Expr

variable {Label : Type}

/-- Labels have no part in the static type. -/
@[simp] theorem type_unlabel (expr : Expr Label) : expr.unlabel.type = expr.type := by
  -- A query has the type of what it asks for, and every other node its own.
  induction expr with
  | operation | factory | template => simp [type]
  | subquery label query ih => exact ih
  | _ => rfl

/-- The arguments lose their labels one by one. -/
@[simp] theorem args_unlabel (expr : Expr Label) : expr.unlabel.args = expr.args.map unlabel := by
  cases expr <;> simp [args]

end Expr

/-- Whether every registered path is replaced by something of its own static type. -/
def Context.KeepsTypes (context : Context) : Prop :=
  ∀ entry ∈ context.substitutions, entry.2.type = entry.1.type

namespace FlatMap

/-- Arguments of an operation or an object construction that are those of another one by their static
types, but for the parameter of a lambda. -/
structure KeepsArguments {Label : Type} (node built : Expr Label) : Prop where
  entered : Plain.looksInto built = true
  operator : built.operator? = node.operator?
  length : built.args.length = node.args.length
  types : ∀ position, node.operator? ≠ some .lambda ∨ position ≠ 0 →
    built.args[position]?.map Expr.type = node.args[position]?.map Expr.type

namespace Plain

/-- Whether every registered path is replaced by a tree of its own static type. -/
def State.KeepsTypes (state : State) : Prop :=
  ∀ entry ∈ state.substitutions, entry.2.type = entry.1.type

/-- A path keeps its type when it is renamed. -/
theorem State.KeepsTypes.rename {state : State} (keeps : state.KeepsTypes) {path : Path}
    {renamed : Tree} (ran : state.rename path = .ok (some renamed)) : renamed.type = path.type := by
  -- The last segment of a path carries its type, and goes with it wherever the parent moves.
  cases path with
  | root segment => exact keeps _ (mem_of_replacement? (Except.ok.inj ran))
  | member parent segment =>
    unfold State.rename at ran
    split at ran
    · simp at ran
    · exact keeps _ (mem_of_replacement? (Except.ok.inj ran))
    · cases ran
      rfl
    · simp at ran

/-- The members that a flat map registers have the types of its variables. -/
theorem State.KeepsTypes.settle {state : State} (keeps : state.KeepsTypes)
    (flatMap : FlatMap Unit) : (state.settle flatMap).KeepsTypes := by
  unfold State.settle
  split
  · exact keeps
  -- Both members are made with the type of their variable.
  · intro entry registered
    simp only [State.pair, List.mem_append, List.mem_cons, List.not_mem_nil, or_false] at registered
    rcases registered with registered | rfl | rfl
    · exact keeps entry registered
    · rfl
    · rfl

/-- What a walk from a tree to its result does to static types. -/
structure Typed (tree result : Tree) (after : State) : Prop where
  same : result.type = tree.type
  registered : after.KeepsTypes
  arguments : looksInto tree = true → tree.operator? ≠ some .flatMap → KeepsArguments tree result

/-- A walk does that from every state that keeps types. -/
def TypeTracing (tree : Tree) (before : State) (result : Tree) (after : State) : Prop :=
  before.KeepsTypes → Typed tree result after

/-- A walk along arguments gives results of their types, and registers what keeps types. -/
theorem Walked.types {args results : List Tree} {before after : State}
    (walked : Walked TypeTracing args before results after) (keeps : before.KeepsTypes) :
    results.map Expr.type = args.map Expr.type ∧ after.KeepsTypes := by
  -- Each member finds the registrations of those before it.
  induction walked with
  | nil => exact ⟨rfl, keeps⟩
  | cons head tail ih =>
    obtain ⟨same, between, -⟩ := head keeps
    obtain ⟨others, after⟩ := ih between
    exact ⟨by rw [List.map_cons, List.map_cons, same, others], after⟩

/-- Lists of one type after the other have the same type at each position. -/
theorem type_at {args results : List Tree} (same : results.map Expr.type = args.map Expr.type)
    (position : Nat) : results[position]?.map Expr.type = args[position]?.map Expr.type := by
  rw [← List.getElem?_map, same, List.getElem?_map]

/-- Normalizing keeps the type of a tree and of the arguments of an operation in it, and registers
paths of the types of those they replace. -/
theorem normalize_typed {tree result : Tree} {state after : State}
    (ran : run (normalize tree) state = (.ok result, after)) (keeps : state.KeepsTypes) :
    Typed tree result after := by
  refine normalize_induct (motive := TypeTracing) ?still ?path ?factory ?operation ?lambda ?flatMap
    ran keeps
  case still =>
    intro tree state leaf _ keeps
    exact ⟨rfl, keeps, by simp [leaf]⟩
  case path =>
    intro target state renamed? renamed keeps
    refine ⟨?_, keeps, by simp [looksInto]⟩
    cases renamed? with
    | none => rfl
    | some replacement => exact keeps.rename renamed
  -- A node that is built anew carries its type over, whatever its arguments have become.
  case factory =>
    intro type args state results after walked keeps
    obtain ⟨same, registered⟩ := walked.types keeps
    exact ⟨rfl, registered, fun _ _ => ⟨rfl, rfl, walked.length_eq, fun index _ => type_at same index⟩⟩
  case operation =>
    intro operator type args state results after walked _ keeps
    obtain ⟨same, registered⟩ := walked.types keeps
    exact ⟨rfl, registered, fun _ _ => ⟨rfl, rfl, walked.length_eq, fun index _ => type_at same index⟩⟩
  -- Only the parameter gives way to the root of the member that it has become.
  case lambda =>
    intro type args state parent segment bodies after walked keeps
    obtain ⟨same, registered⟩ := walked.types keeps
    refine ⟨rfl, registered, fun _ _ => ⟨rfl, rfl, walked.length_eq, fun position spared => ?_⟩⟩
    cases position with
    | zero => simp [Expr.operator?] at spared
    | succ position => exact type_at same (position + 1)
  case flatMap =>
    intro type args state results between parts walked _ keeps
    exact ⟨rfl, (walked.types keeps).2.settle parts, fun _ other => absurd rfl other⟩

end Plain

/-- The plain state keeps types if and only if the state does. -/
theorem keepsTypes_plain (context : Context) : context.plain.KeepsTypes ↔ context.KeepsTypes := by
  -- The types of the targets do not depend on handles.
  simp only [Plain.State.KeepsTypes, Context.KeepsTypes, Context.plain, List.forall_mem_map,
    Expr.type_unlabel]

/-- Labels have no part in whether arguments are normalized. -/
theorem looksInto_unlabel (node : Node) :
    Plain.looksInto node.unlabel = Plain.looksInto node := by
  cases node <;> simp [Plain.looksInto]

/-- Labels have no part in the types of arguments. -/
theorem KeepsArguments.of_unlabel {node built : Node}
    (keeps : KeepsArguments node.unlabel built.unlabel) : KeepsArguments node built where
  entered := (looksInto_unlabel built).symm.trans keeps.entered
  operator := by
    rw [← (Expr.mirrors_unlabel.head built).1, ← (Expr.mirrors_unlabel.head node).1, keeps.operator]
  length := by simpa using keeps.length
  types position spared := by
    rw [← (Expr.mirrors_unlabel.head node).1] at spared
    simpa [Function.comp_def] using keeps.types position spared

/-- A walk comes to every node in a state that keeps types. -/
theorem Visits.keepsTypes {nodes : List Node} {context state : Context} {node : Node}
    (visits : Visits nodes context node state) (keeps : context.KeepsTypes) : state.KeepsTypes := by
  -- The members that are visited before the node leave a state that keeps types.
  induction visits with
  | here => exact keeps
  | inside _ _ ih => exact ih keeps
  | after ran _ ih =>
    have typed := Plain.normalize_typed (plain_of_runIn (congrArg Prod.fst ran))
      ((keepsTypes_plain _).mpr keeps)
    rw [ran] at typed
    exact ih ((keepsTypes_plain _).mp typed.registered)

/-- A visit from a state that keeps types does what the plain walk beside it does to types. -/
theorem typed_of_run {node result : Node} {context after : Context} (keeps : context.KeepsTypes)
    (ran : Pass.normalizeFlatMaps.runIn node context = (.ok result, after)) :
    Plain.Typed node.unlabel result.unlabel after.plain := by
  -- The pass has the same outcome as the plain walk, up to labels.
  have plainRan := plain_of_runIn (congrArg Prod.fst ran)
  rw [ran] at plainRan
  exact Plain.normalize_typed plainRan ((keepsTypes_plain context).mpr keeps)

/-- Such a visit gives a node that is no flat map the same arguments by position and type, but for the
parameter of a lambda. -/
theorem keepsArguments_of_run {node result : Node} {context after : Context}
    (keeps : context.KeepsTypes)
    (ran : Pass.normalizeFlatMaps.runIn node context = (.ok result, after))
    (entered : Plain.looksInto node = true) (other : node.operator? ≠ some .flatMap) :
    KeepsArguments node result := by
  -- What is said of the plain trees is said of the nodes.
  refine .of_unlabel ((typed_of_run keeps ran).arguments ?_ ?_)
  · exact (looksInto_unlabel node).trans entered
  · rwa [(Expr.mirrors_unlabel.head node).1]

/-- From a new state, and from every other one in which all registrations keep types, a pass that
succeeds keeps the type of the expression and leaves such a state. It comes to everything in its reach,
and what it makes of a node there has the type of the node. What it builds for an operation or an object
construction that is no flat map has the same arguments by position and type, but for the parameter of a
lambda. The same holds in the result of what stands there in the place of a node. -/
theorem normalize_keepsTypes :
    (∀ options supply, (Context.start options supply).KeepsTypes) ∧
      ∀ {node result : Node} {context after : Context}, context.KeepsTypes →
        Pass.normalizeFlatMaps.runIn node context = (.ok result, after) →
          result.type = node.type ∧ after.KeepsTypes ∧
            (∀ inner ∈ node.reached Plain.looksInto, ∃ state, Visits [node] context inner state) ∧
            (∀ inner state, Visits [node] context inner state →
              ∃ built next, Pass.normalizeFlatMaps.runIn inner state = (.ok built, next) ∧
                built.type = inner.type ∧ next.KeepsTypes ∧
                (Plain.looksInto inner = true → inner.operator? ≠ some .flatMap →
                  KeepsArguments inner built)) ∧
            ∀ inner built, Becomes node result inner built →
              VisitedAs [node] context inner built ∧ built.type = inner.type ∧
                (Plain.looksInto inner = true → inner.operator? ≠ some .flatMap →
                  KeepsArguments inner built) := by
  refine ⟨fun options supply => by simp [Context.KeepsTypes, Context.start], ?_⟩
  intro node result context after keeps ran
  have whole := typed_of_run keeps ran
  refine ⟨by simpa using whole.same, (keepsTypes_plain after).mp whole.registered,
    fun inner => exists_visits ran, ?_, ?_⟩
  · intro inner state visits
    have all : run (normalizeAll [node]) context = (.ok [result], after) := by
      rw [normalizeAll, run_bind, show run (normalize node) context = (.ok result, after) from ran]
      rfl
    obtain ⟨built, next, builtRan⟩ := visits.succeeds all
    have here := typed_of_run (visits.keepsTypes keeps) builtRan
    exact ⟨built, next, builtRan, by simpa using here.same,
      (keepsTypes_plain next).mp here.registered,
      keepsArguments_of_run (visits.keepsTypes keeps) builtRan⟩
  -- In each place stands what a visit from there gave.
  · intro inner built becomes
    obtain ⟨state, next, visits, builtRan⟩ := becomes.visited ran
    have here := typed_of_run (visits.keepsTypes keeps) builtRan
    exact ⟨⟨state, next, visits, builtRan⟩, by simpa using here.same,
      keepsArguments_of_run (visits.keepsTypes keeps) builtRan⟩

/-- A lambda over the families of a collection is bound to a new variable after their flat map, and keeps
its type and that of its body. -/
theorem normalize_keepsTypes_lambda :
    let family := Path.ofVariable "x" (.object "Family")
    let lambda : Node := .operation 12 .lambda .expression
      [.path 10 family, .path 11 (family.property "Name" .string)]
    let node := childPairsThen lambda
    let start := Context.start {} 20
    ∃ result after state built next,
      Pass.normalizeFlatMaps.runIn node start = (.ok result, after) ∧
        result.type = .boolean ∧ after.KeepsTypes ∧ Visits [node] start lambda state ∧
        Pass.normalizeFlatMaps.runIn lambda state = (.ok built, next) ∧ built.type = .expression ∧
        KeepsArguments lambda built := by
  intro family lambda node start
  have succeeds : (Pass.normalizeFlatMaps.runIn node start).1.toOption.any (fun _ => true) = true := by
    decide +kernel
  obtain ⟨result, done, -⟩ := exists_of_any succeeds
  rcases ran : Pass.normalizeFlatMaps.runIn node start with ⟨outcome, after⟩
  obtain rfl : outcome = .ok result := by rw [← done, ran]
  obtain ⟨same, registered, visited, each, -⟩ :=
    normalize_keepsTypes.2 (normalize_keepsTypes.1 {} 20) ran
  -- The lambda is an argument of the conjunction, so the walk comes to it.
  have stands : lambda ∈ node.reached Plain.looksInto :=
    Expr.reached_subset rfl (by simp [node, childPairsThen, Expr.args]) (Expr.mem_reached _ lambda)
  obtain ⟨state, visits⟩ := visited lambda stands
  obtain ⟨built, next, builtRan, builtSame, -, arguments⟩ := each lambda state visits
  have arguments := arguments rfl (by simp [lambda, Expr.operator?])
  exact ⟨result, after, state, built, next, rfl, same, registered, visits, builtRan, builtSame,
    arguments⟩

end FlatMap

end IndexQuery
