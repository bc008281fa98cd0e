import IndexQuery.Proofs.Encoding.RoundTrip
import IndexQuery.Proofs.Pass.FlatMapOutlines
import IndexQuery.Proofs.Pass.QuantifierFaults

/-! The types that an encoding leaves out have no part in what the passes do, and no pass makes a
decimal. -/

namespace IndexQuery

open Steps IndexQuery.Expr

namespace FlatMap.Plain

/-- The same run with its result seen through a view. -/
def seen {α β : Type} (view : α → β) (ran : Except ShapeError α × State) :
    Except ShapeError β × State :=
  (ran.1.map view, ran.2)

/-- A list is normalized behind a view if each of its members is. -/
theorem run_normalizeAll_seen {view : Tree → Tree} {args : List Tree} {state : State}
    (each : ∀ arg ∈ args, ∀ before : State, before.ToPaths →
      run (normalize (view arg)) before = seen view (run (normalize arg) before))
    (toPaths : state.ToPaths) :
    run (normalizeAll (args.map view)) state =
      seen (List.map view) (run (normalizeAll args) state) := by
  -- The induction is on the list, and the state goes from each member to the next.
  induction args generalizing state with
  | nil => rfl
  | cons first rest ih =>
    obtain ⟨head, tail⟩ := List.forall_mem_cons.mp each
    rw [List.map_cons, run_normalizeAll_cons, run_normalizeAll_cons, head state toPaths]
    rcases ran : run (normalize first) state with ⟨fault | result, between⟩
    · rfl
    -- What the first one registers is seen by the others.
    · have others := ih tail ((normalize_grown ran).toPaths toPaths)
      dsimp only [seen, Except.map]
      rw [others]
      rcases run (normalizeAll rest) between with ⟨fault | results, after⟩
      · rfl
      · rfl

/-- A list of a literal and another element is normalized by normalizing that element. -/
theorem run_normalize_named (type nameType : ValueType) (name : Literal) (selector : Tree)
    (state : State) :
    run (normalize (.operation () .list type [.constant () name nameType, selector])) state =
      seen (fun result => .operation () .list type [.constant () name nameType, result])
        (run (normalize selector) state) := by
  -- A literal stays what it is, and a list is no operation that is rewritten.
  rw [normalize, run_bind, run_normalizeAll_cons, normalize, run_pure]
  dsimp only
  rw [run_normalizeAll_cons]
  rcases run (normalize selector) state with ⟨fault | result, after⟩
  · rfl
  · rfl

/-- The types of a named selector have no part in how it is normalized. -/
theorem run_normalize_plainField {field : Tree} (named : field.field?.isSome = true)
    (state : State) :
    run (normalize field.plainField) state = seen plainField (run (normalize field) state) := by
  -- With its types and without them, a field holds the same name and the same selector.
  obtain ⟨⟨name, selector⟩, found⟩ := Option.isSome_iff_exists.mp named
  obtain ⟨label, type, inner, nameType, rfl⟩ := field?_eq_some found
  change run (normalize (namedSelector name selector)) state = _
  rw [namedSelector, run_normalize_named, run_normalize_named]
  rcases run (normalize selector) state with ⟨fault | result, after⟩
  · rfl
  · rfl

/-- Normalizing neither makes nor removes texts. -/
theorem text?_normalize {tree result : Tree} {state after : State} (toPaths : state.ToPaths)
    (ran : run (normalize tree) state = (.ok result, after)) : result.text? = tree.text? := by
  -- A literal stays what it is, and nothing else becomes one, since only paths are registered.
  cases tree with
  | path label target =>
    rw [State.run_normalize_path toPaths] at ran
    cases ran
    rfl
  | operation label operator type args =>
    rw [normalize, run_bind_ok] at ran
    obtain ⟨results, between, -, ran⟩ := ran
    obtain ⟨-, rfl, -⟩ | ⟨-, parent, segment, bodies, -, rfl, -⟩ | ⟨-, parts, -, rfl, -⟩ :=
      rebuild_ok ran
    all_goals rfl
  | factory label type args =>
    rw [normalize, run_bind_ok] at ran
    obtain ⟨results, between, -, ran⟩ := ran
    cases ran
    rfl
  | _ =>
    cases ran
    rfl

/-- Normalizing neither makes nor removes named selectors. -/
theorem field?_normalize {tree result : Tree} {state after : State} (toPaths : state.ToPaths)
    (ran : run (normalize tree) state = (.ok result, after)) :
    result.field?.isSome = tree.field?.isSome := by
  cases tree with
  | path label target =>
    rw [State.run_normalize_path toPaths] at ran
    cases ran
    rfl
  | operation label operator type args =>
    rw [normalize, run_bind_ok] at ran
    obtain ⟨results, between, walked, ran⟩ := ran
    obtain ⟨-, rfl, -⟩ | ⟨rfl, parent, segment, bodies, -, rfl, -⟩ | ⟨rfl, parts, -, rfl, -⟩ :=
      rebuild_ok ran
    -- An operation that is not rewritten keeps its operator, and the others are no lists.
    · have walked := walked_of_normalizeAll
        (fun arg before result _ => before.ToPaths → result.text? = arg.text?)
        (fun arg _ before result next ran toPaths => text?_normalize toPaths ran) walked
      -- A list of two stays one, and its first element keeps its text.
      by_cases pair : operator = .list ∧ args.length = 2
      · obtain ⟨rfl, two⟩ := pair
        obtain ⟨first, selector, rfl⟩ := List.length_eq_two.mp two
        cases walked with
        | cons head tail =>
          cases tail with
          | cons next last =>
            cases last
            rw [field?_pair, field?_pair, Option.isSome_map, Option.isSome_map, head toPaths]
      · rw [field?_of_not_pair pair, field?_of_not_pair (by rwa [walked.length_eq])]
    · rw [field?_of_not_pair (by simp), field?_of_not_pair (by simp)]
    · rw [canonical, field?_of_not_pair (by simp), field?_of_not_pair (by simp)]
  | factory label type args =>
    rw [normalize, run_bind_ok] at ran
    obtain ⟨results, between, -, ran⟩ := ran
    cases ran
    rfl
  | _ =>
    cases ran
    rfl

/-- Whether all arguments of an object are named selectors does not change when they are
normalized. -/
theorem all_field?_normalizeAll {fields results : List Tree} {state after : State}
    (toPaths : state.ToPaths) (ran : run (normalizeAll fields) state = (.ok results, after)) :
    (results.all fun field => field.field?.isSome) =
      fields.all fun field => field.field?.isSome := by
  have walked := walked_of_normalizeAll
    (fun arg before result next => Grown before next ∧
      (before.ToPaths → result.field?.isSome = arg.field?.isSome))
    (fun arg _ before result next ran =>
      ⟨normalize_grown ran, fun toPaths => field?_normalize toPaths ran⟩) ran
  clear ran
  -- Each member is normalized in the state that the earlier ones leave.
  induction walked with
  | nil => rfl
  | cons head tail ih =>
    obtain ⟨grown, same⟩ := head
    rw [List.all_cons, List.all_cons, same toPaths, ih (grown.toPaths toPaths)]

/-- The types of the fields of an object have no part in how they are normalized. -/
theorem run_normalizeAll_plainFields (fields : List Tree) {state : State}
    (toPaths : state.ToPaths) :
    run (normalizeAll (plainFields fields)) state =
      seen plainFields (run (normalizeAll fields) state) := by
  -- All fields together decide whether types are lost, and they decide the same after the walk.
  by_cases named : (fields.all fun field => field.field?.isSome) = true
  · have each (field : Tree) (member : field ∈ fields) (before : State) (_ : before.ToPaths) :
        run (normalize field.plainField) before = seen plainField (run (normalize field) before) :=
      run_normalize_plainField (List.all_eq_true.mp named field member) before
    rw [plainFields, if_pos named, run_normalizeAll_seen each toPaths]
    rcases ran : run (normalizeAll fields) state with ⟨fault | results, after⟩
    · rfl
    · have same := all_field?_normalizeAll toPaths ran
      simp [seen, Except.map, plainFields, same, named]
  · rw [plainFields, if_neg named]
    rcases ran : run (normalizeAll fields) state with ⟨fault | results, after⟩
    · rfl
    · have same := all_field?_normalizeAll toPaths ran
      simp [seen, Except.map, plainFields, same, named]

/-- The canonical form of parts that are read back is that of the parts, read back. -/
theorem canonical_readBack (type : ValueType) (parts : FlatMap Unit) :
    canonical type (parts.map readBack) (selectorOf (parts.map readBack)) =
      (canonical type parts (selectorOf parts)).readBack := by
  -- The object that pairs the variables has its fields in the plain form already.
  have pair : (pairObject parts.element parts.partner).readBack =
      pairObject parts.element parts.partner := by
    simp [pairObject, field, readBack, plainFields, plainField, field?, namedSelector]
  rw [selectorOf_map pair]
  simp [canonical, lambda, map, readBack]

/-- An operation of arguments that are read back is built like that of the arguments. -/
theorem run_rebuild_readBack (tree : Tree) (operator : Operator) (type : ValueType)
    (args : List Tree) (state : State) :
    run (rebuild tree.readBack operator type (args.map readBack)) state =
      seen readBack (run (rebuild tree operator type args) state) := by
  have same := rewrites_map (@mirrors_readBack Unit) operator args
  cases rewritten : rewrites operator args with
  | false =>
    rw [rebuild_of_not_rewrites rewritten, rebuild_of_not_rewrites (same.trans rewritten), run_pure,
      run_pure, seen, Except.map, readBack_operation]
  | true =>
    obtain rfl | ⟨rfl, label, parent, segment, bodies, rfl⟩ := rewrites_cases rewritten
    -- Taking the parts apart looks at nothing that is lost, and registers the same variables.
    · rw [rebuild, rebuild, run_canonicalize, run_canonicalize, ofArgs_map mirrors_readBack]
      cases ofArgs tree args with
      | error fault => rfl
      | ok parts => simp only [Except.map, State.settle_map, canonical_readBack, seen]
    -- A lambda binds the root of the parameter, which is read back as it is.
    · simp [rebuild, seen, Except.map, readBack]

/-- An expression that is read back is normalized like the expression. -/
theorem run_normalize_readBack {tree : Tree} {state : State} (toPaths : state.ToPaths) :
    run (normalize tree.readBack) state = seen readBack (run (normalize tree) state) := by
  -- Paths are renamed alike, so the states agree after every argument.
  induction tree using Expr.induct generalizing state with
  | path label target =>
    rw [State.run_normalize_path toPaths]
    exact State.run_normalize_path toPaths target
  | operation label operator type args ih =>
    have all := run_normalizeAll_seen (fun arg member before toPaths => ih arg member toPaths) toPaths
    rw [readBack_operation, normalize, normalize, run_bind, run_bind, all]
    rcases run (normalizeAll args) state with ⟨fault | results, between⟩
    · rfl
    · have built := run_rebuild_readBack (operation label operator type args) operator type results
        between
      rw [readBack_operation] at built
      exact built
  | factory label type args ih =>
    have all := run_normalizeAll_seen (fun arg member before toPaths => ih arg member toPaths) toPaths
    rw [readBack_factory, normalize, normalize, run_bind, run_bind,
      run_normalizeAll_plainFields _ toPaths, all]
    -- Fields lose their types before they are normalized here, and afterwards there.
    rcases run (normalizeAll args) state with ⟨fault | results, between⟩
    · rfl
    · simp [seen, Except.map]
  | _ => rfl

/-- A step of a walk that only adds registrations, and makes no decimal. -/
def AddsNoDecimal (tree : Tree) (state : State) (result : Tree) (after : State) : Prop :=
  Grown state after ∧ (state.ToPaths → tree.decimalFree = true → result.decimalFree = true)

/-- A walk along a list makes no decimal if none of its steps does. -/
theorem Walked.decimalFree {args results : List Tree} {state after : State}
    (walked : Walked AddsNoDecimal args state results after) :
    Grown state after ∧
      (state.ToPaths → args.all Expr.decimalFree = true → results.all Expr.decimalFree = true) := by
  -- Registrations stay paths along the list, so every step may rely on that.
  induction walked with
  | nil => exact ⟨.refl _, fun _ exact => exact⟩
  | cons head tail ih =>
    refine ⟨head.1.trans ih.1, fun toPaths exact => ?_⟩
    rw [List.all_cons, Bool.and_eq_true] at exact ⊢
    exact ⟨head.2 toPaths exact.1, ih.2 (head.1.toPaths toPaths) exact.2⟩

/-- The canonical form of a flat map of arguments without decimals has none. -/
theorem decimalFree_canonical {node : Tree} {args : List Tree} {parts : FlatMap Unit}
    (taken : ofArgs node args = .ok parts) (exact : args.all Expr.decimalFree = true)
    (type : ValueType) : (canonical type parts (selectorOf parts)).decimalFree = true := by
  have inside := holdsOfParts (fun _ _ _ _ _ exact _ member => decimalFree_of_mem_args exact member)
    taken (List.all_eq_true.mp exact)
  -- The object that pairs the variables holds texts and paths.
  have selector := selectorOf_of_parts inside rfl
  simp [canonical, lambda, Expr.decimalFree, inside.source, inside.body, selector]

/-- Normalizing makes no decimal. -/
theorem addsNoDecimal_normalize {tree result : Tree} {state after : State}
    (ran : run (normalize tree) state = (.ok result, after)) :
    AddsNoDecimal tree state result after := by
  -- Of all that a walk puts into a tree only literals could be decimals, and it makes texts only.
  refine normalize_induct (motive := AddsNoDecimal) ?still ?path ?factory ?operation ?lambda
    ?flatMap ran
  case still =>
    intro tree state _ _
    exact ⟨.refl state, fun _ exact => exact⟩
  case path =>
    intro target state renamed? renamed
    refine ⟨.refl state, fun toPaths _ => ?_⟩
    cases renamed? with
    | none => rfl
    | some moved =>
      obtain ⟨new, rfl, -⟩ := State.moves_of_rename toPaths renamed
      rfl
  case factory =>
    intro type args state results after walked
    refine ⟨walked.decimalFree.1, fun toPaths exact => ?_⟩
    rw [Expr.decimalFree, decimalFreeAll_eq_all] at exact ⊢
    exact walked.decimalFree.2 toPaths exact
  case operation =>
    intro operator type args state results after walked _
    refine ⟨walked.decimalFree.1, fun toPaths exact => ?_⟩
    rw [Expr.decimalFree, decimalFreeAll_eq_all] at exact ⊢
    exact walked.decimalFree.2 toPaths exact
  case lambda =>
    intro type args state parent segment bodies after walked
    refine ⟨walked.decimalFree.1, fun toPaths exact => ?_⟩
    rw [Expr.decimalFree, decimalFreeAll_eq_all] at exact ⊢
    -- Another path takes the place of the parameter.
    exact walked.decimalFree.2 toPaths exact
  case flatMap =>
    intro type args state results between parts walked taken
    refine ⟨walked.decimalFree.1.trans (.settle between parts), fun toPaths exact => ?_⟩
    rw [Expr.decimalFree, decimalFreeAll_eq_all] at exact
    exact decimalFree_canonical taken (walked.decimalFree.2 toPaths exact) type

end FlatMap.Plain

namespace AnyQuantifier.Plain

/-- What an expression is compared with, read back. -/
def Holder.readBack (held : Holder) : Holder :=
  held.map fun (operator, type, compared) => (operator, type, compared.readBack)

/-- What is compared with nothing has nothing to read back. -/
theorem Holder.readBack_error (fault : MarkerFault) :
    Holder.readBack (.error fault) = .error fault := rfl

/-- An operation of arguments that are read back compares the first with what is read back of the
second. -/
theorem holder_readBack (operator : Operator) (type : ValueType) (args : List Tree) (isFirst : Bool)
    (arg : Tree) :
    holder byPlace operator type (args.map readBack) isFirst arg.readBack =
      (holder byPlace operator type args isFirst arg).readBack := by
  -- The left operand is told by its place, which the view does not change.
  rcases args with _ | ⟨first, _ | ⟨compared, rest⟩⟩
  · rfl
  · rfl
  · cases isFirst with
    | true => simp [holder, byPlace, Holder.readBack, unlabel_tree, Except.map]
    | false => rfl

/-- A quantifier holds what is read back of the compared operand. -/
theorem quantify_readBack (held : Holder) (whole path : Path) (below : List Segment) :
    quantify held.readBack whole below path =
      (quantify held whole below path).map (Option.map readBack) := by
  -- Paths have nothing to lose, so only the compared operand differs.
  induction path generalizing below with
  | root segment =>
    rw [quantify, quantify]
    split
    · rfl
    · rfl
  | member parent segment ih =>
    rw [quantify, quantify]
    split
    -- The collection is visited for its errors only, and nothing compares it.
    · cases quantify (.error .noComparison) parent [] parent with
      | error fault => rfl
      | ok collection =>
        cases held with
        | error fault => rfl
        | ok found =>
          simp [Holder.readBack, Except.map, Except.mapError, Bind.bind, Except.bind, Pure.pure,
            Except.pure, quantifier, Expr.readBack]
    · exact ih _

/-- A path through a marker is read back as it is. -/
theorem isMarked_readBack (tree : Tree) : tree.readBack.isMarked = tree.isMarked := by
  cases tree <;> rfl

/-- An operation is built of arguments that are read back like of the arguments. -/
theorem rebuild_readBack (operator : Operator) (type : ValueType) (args expanded : List Tree) :
    rebuild operator type (args.map readBack) (expanded.map readBack) =
      (rebuild operator type args expanded).readBack := by
  -- Whether a quantifier takes the operation in is decided by the first argument alone.
  cases args with
  | nil => simp [rebuild]
  | cons first rest =>
    cases expanded with
    | nil => simp [rebuild]
    | cons result others =>
      rw [List.map_cons, List.map_cons, rebuild, rebuild, isMarked_readBack]
      split
      · rfl
      · simp

/-- Arguments are expanded behind the view if each of them is. -/
theorem expandAll_readBack {args : List Tree} {held held' : Bool → Tree → Holder}
    (same : ∀ isFirst arg, held' isFirst arg.readBack = (held isFirst arg).readBack)
    (each : ∀ arg ∈ args, ∀ held : Holder,
      expand byPlace held.readBack arg.readBack = (expand byPlace held arg).map readBack)
    (isFirst : Bool) :
    expandAll byPlace held' isFirst (args.map readBack) =
      (expandAll byPlace held isFirst args).map (List.map readBack) := by
  induction args generalizing isFirst with
  | nil => rfl
  | cons first rest ih =>
    obtain ⟨head, tail⟩ := List.forall_mem_cons.mp each
    rw [List.map_cons, expandAll, expandAll, same, head, ih tail]
    -- Either list stops at the same argument.
    cases expand byPlace (held isFirst first) first with
    | error fault => rfl
    | ok result =>
      cases expandAll byPlace held false rest with
      | error fault => rfl
      | ok results => rfl

/-- An expression that is read back is expanded like the expression. -/
theorem expand_readBack (held : Holder) (tree : Tree) :
    expand byPlace held.readBack tree.readBack = (expand byPlace held tree).map readBack := by
  -- Objects are not looked into, so none of the nodes that lose types is visited.
  induction tree using Expr.induct generalizing held with
  | path label target =>
    rw [Expr.readBack, expand, expand, quantify_readBack]
    cases quantify held target [] target with
    | error fault => rfl
    | ok result? => cases result? <;> rfl
  | operation label operator type args ih =>
    have all := expandAll_readBack (holder_readBack operator type args) ih true
    rw [readBack_operation, expand, expand, all]
    cases expandAll byPlace (holder byPlace operator type args) true args with
    | error fault => rfl
    | ok expanded => exact congrArg Except.ok (rebuild_readBack operator type args expanded)
  | template label text type args ih =>
    have all := @expandAll_readBack args _ (fun _ _ => .error .noComparison)
      (fun _ _ => (Holder.readBack_error .noComparison).symm) ih true
    rw [readBack_template, expand, expand, all]
    cases expandAll byPlace (fun _ _ => .error .noComparison) true args with
    | error fault => rfl
    | ok expanded => exact congrArg Except.ok (readBack_template ..).symm
  | _ =>
    rw [expand_leaf rfl rfl, expand_leaf rfl rfl, unlabel_tree, unlabel_tree]
    rfl

/-- What an expression is compared with has no decimals. -/
def Holder.Exact (held : Holder) : Prop :=
  ∀ found, held = .ok found → found.2.2.decimalFree = true

/-- What is compared with nothing is compared with no decimal. -/
theorem Holder.Exact.error (fault : MarkerFault) : Holder.Exact (.error fault) := by
  rintro found ⟨⟩

/-- An operation of arguments without decimals compares none of them with a decimal. -/
theorem Holder.Exact.operand (operator : Operator) (type : ValueType) {args : List Tree}
    (inside : ∀ arg ∈ args, arg.decimalFree = true) (isFirst : Bool) (arg : Tree) :
    (holder byPlace operator type args isFirst arg).Exact := by
  -- Only the first argument is held, and it is held by the second one.
  rcases args with _ | ⟨first, _ | ⟨compared, rest⟩⟩
  · exact .error _
  · exact .error _
  · cases isFirst with
    | true =>
      rintro _ ⟨⟩
      simpa [unlabel_tree] using inside compared (by simp)
    | false => exact .error _

/-- Expanding arguments makes no decimal if expanding each of them makes none. -/
theorem decimalFree_expandAll {args results : List Tree} {held : Bool → Tree → Holder}
    {isFirst : Bool}
    (each : ∀ arg ∈ args, ∀ (held : Holder) result, held.Exact →
      expand byPlace held arg = .ok result → result.decimalFree = true)
    (exact : ∀ isFirst arg, (held isFirst arg).Exact)
    (done : expandAll byPlace held isFirst args = .ok results) :
    ∀ result ∈ results, result.decimalFree = true := by
  -- What comes after the first argument is a list of later ones, so the induction is for either.
  induction args generalizing isFirst results with
  | nil =>
    cases done
    simp
  | cons first rest ih =>
    obtain ⟨head, tail⟩ := List.forall_mem_cons.mp each
    obtain ⟨result, others, firstDone, restDone, rfl⟩ := expandAll_cons.mp done
    exact List.forall_mem_cons.mpr
      ⟨head _ result (exact isFirst first) firstDone, ih tail restDone⟩

/-- Expanding makes no decimal, as long as there is none in what is compared. -/
theorem decimalFree_expand {tree result : Tree} {held : Holder} (exact : tree.decimalFree = true)
    (heldExact : held.Exact) (done : expand byPlace held tree = .ok result) :
    result.decimalFree = true := by
  -- A quantifier takes in what its path is compared with, so that must have no decimal either.
  induction tree using Expr.induct generalizing held result with
  | path label target =>
    rw [expand, except_bind_ok] at done
    obtain ⟨result?, found, done⟩ := done
    obtain rfl := Except.ok.inj done
    obtain ⟨-, rfl⟩ | ⟨-, split, operator, type, compared, -, same, rfl⟩ := quantify_ok found
    · rfl
    · simpa [quantifier, Expr.decimalFree] using heldExact _ same
  | operation label operator type args ih =>
    have inside (arg : Tree) (member : arg ∈ args) := decimalFree_of_mem_args exact member
    rw [expand, except_bind_ok] at done
    obtain ⟨expanded, ran, done⟩ := done
    obtain rfl := Except.ok.inj done
    have results := decimalFree_expandAll
      (fun arg member held result exact done => ih arg member (inside arg member) exact done)
      (.operand operator type inside) ran
    unfold rebuild
    split
    -- The operation gives way to its first result, or holds all of them.
    · split
      · exact results _ (by simp)
      · simpa [Expr.decimalFree] using results
    · simpa [Expr.decimalFree] using results
  | template label text type args ih =>
    have inside (arg : Tree) (member : arg ∈ args) := decimalFree_of_mem_args exact member
    rw [expand, except_bind_ok] at done
    obtain ⟨expanded, ran, done⟩ := done
    obtain rfl := Except.ok.inj done
    have results := decimalFree_expandAll
      (fun arg member held result exact done => ih arg member (inside arg member) exact done)
      (fun _ _ => .error _) ran
    simpa [Expr.decimalFree] using results
  | _ =>
    rw [expand] at done
    obtain rfl := Except.ok.inj done
    rwa [unlabel_tree]

end AnyQuantifier.Plain

namespace Pass

/-- What a pass makes of an expression without labels, from a new state. -/
def plain (options : Options) : Pass → Tree → Except ShapeError Tree
  | .normalizeFlatMaps, tree =>
    (Steps.run (FlatMap.Plain.normalize tree) ⟨options, [], options.first⟩).1
  | .expandMarkers, tree =>
    AnyQuantifier.Plain.expand AnyQuantifier.Plain.byPlace (.error .noComparison) tree

/-- A pass does what it does without labels, on a node that has its operands apart. -/
theorem run_plain {node : Node} (apart : AnyQuantifier.OperandsApart node) (pass : Pass)
    (options : Options) (supply : NodeId) :
    (pass.run options node supply).1.map unlabel = pass.plain options node.unlabel := by
  -- Both passes refine their plain walks from a new state.
  cases pass with
  | normalizeFlatMaps =>
    have refines := FlatMap.plain_runIn node (Context.start options supply)
    rw [FlatMap.plain_start] at refines
    exact (congrArg Prod.fst refines).symm
  | expandMarkers =>
    exact AnyQuantifier.plain_of_expand apart rfl

/-- The types that an encoding leaves out have no part in what a pass does. -/
theorem plain_readBack (pass : Pass) (options : Options) (tree : Tree) :
    pass.plain options tree.readBack = (pass.plain options tree).map readBack := by
  -- A new state registers nothing, and a tree at the top is compared with nothing.
  cases pass with
  | normalizeFlatMaps =>
    have same := @FlatMap.Plain.run_normalize_readBack tree ⟨options, [], options.first⟩
      (by simp [FlatMap.Plain.State.ToPaths])
    exact congrArg Prod.fst same
  | expandMarkers => exact AnyQuantifier.Plain.expand_readBack (.error .noComparison) tree

/-- A pass makes no decimal. -/
theorem decimalFree_plain {pass : Pass} {options : Options} {tree result : Tree}
    (exact : tree.decimalFree = true) (done : pass.plain options tree = .ok result) :
    result.decimalFree = true := by
  -- Nothing is registered in a new state, and nothing is held at the top.
  cases pass with
  | normalizeFlatMaps =>
    obtain ⟨-, made⟩ := FlatMap.Plain.addsNoDecimal_normalize (Prod.ext done rfl)
    exact made (by simp [FlatMap.Plain.State.ToPaths]) exact
  | expandMarkers =>
    exact AnyQuantifier.Plain.decimalFree_expand exact (.error _) done

end Pass

end IndexQuery
