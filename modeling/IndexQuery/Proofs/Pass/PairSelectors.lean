import IndexQuery.Proofs.Pass.FlatMapOutcomes
import IndexQuery.Proofs.Pass.PathRenaming

/-! A flat map without a selector becomes what it becomes with the pair of its variables as the selector. -/

namespace IndexQuery.FlatMap

open Steps PassM

/-- A flat map over a source, whose lambda maps an element to a body. The second element of its list is a
name or a selector. -/
def Maps (node : Node) (type : ValueType) (source : Node) (element : Path) (body second : Node) :
    Prop :=
  ∃ label list lambda parameter listType lambdaType,
    node = .operation label .flatMap type
      [source, .operation list .list listType
        [.operation lambda .lambda lambdaType [.path parameter element, body], second]]

/-- A selector that makes the object in which two variables are paired. -/
def SelectsPair (selector : Node) (element partner : Path) : Prop :=
  ∃ label parameter type object,
    selector = .operation label .lambda type [.path parameter partner, object] ∧
      object.unlabel = Plain.pairObject element partner

/-- A path that is not registered once a source and then a body are normalized. -/
def LeavesOpen (source body : Node) (context : Context) (path : Path) : Prop :=
  ∀ newSource between newBody after,
    Pass.normalizeFlatMaps.runIn source context = (.ok newSource, between) →
      Pass.normalizeFlatMaps.runIn body between = (.ok newBody, after) →
      ∀ entry ∈ after.substitutions, entry.1 ≠ path

/-- Trees in which nothing is rewritten in a state with the given registrations. -/
inductive Settled (substitutions : List (Path × Node)) : Tree → Prop
  | leaf {tree : Tree} (leaf : Plain.looksInto tree = false) (other : tree.path? = none) :
    Settled substitutions tree
  | root {segment : Segment} (missed : ∀ entry ∈ substitutions, entry.1 ≠ .root segment) :
    Settled substitutions (.path () (.root segment))
  | operation {operator : Operator} {type : ValueType} {args : List Tree}
    (still : Plain.rewrites operator args = false)
    (inside : ∀ arg ∈ args, Settled substitutions arg) :
    Settled substitutions (.operation () operator type args)
  | factory {type : ValueType} {args : List Tree}
    (inside : ∀ arg ∈ args, Settled substitutions arg) :
    Settled substitutions (.factory () type args)

/-- An operation is normalized by normalizing its arguments with a cleared flag. -/
theorem run_normalize_operation (label : NodeId) (operator : Operator) (type : ValueType)
    (args : List Node) (context : Context) :
    run (normalize (.operation label operator type args)) context =
      match run (normalizeAll args) { context with replaced := false } with
      | (.error fault, after) => (.error fault, after)
      | (.ok results, inner) =>
        run (rebuild (.operation label operator type args) operator type results inner.replaced)
          { inner with replaced := context.replaced || inner.replaced } := by
  -- The flag is cleared for the arguments and joined with what it was before.
  rw [normalize, run_bind, run_isolated]
  rcases run (normalizeAll args) { context with replaced := false } with ⟨_ | _, inner⟩ <;> rfl

/-- A list of two is normalized by normalizing the first node and then the second one. -/
theorem run_normalizeAll_pair (first second : Node) (context : Context) :
    run (normalizeAll [first, second]) context =
      match run (normalize first) context with
      | (.error fault, after) => (.error fault, after)
      | (.ok result, between) =>
        match run (normalize second) between with
        | (.error fault, after) => (.error fault, after)
        | (.ok other, after) => (.ok [result, other], after) := by
  -- The second is normalized only if the first has succeeded.
  rw [normalizeAll, run_bind]
  rcases run (normalize first) context with ⟨_ | result, between⟩
  · rfl
  · dsimp only
    rw [run_bind, normalizeAll, run_bind]
    rcases run (normalize second) between with ⟨_ | other, after⟩ <;> rfl

/-- A root is replaced if it is registered, which raises the flag. -/
theorem run_normalize_root (label : NodeId) (segment : Segment) (context : Context) :
    run (normalize (.path label (.root segment))) context =
      (.ok ((context.replacement? (.root segment)).getD (.path label (.root segment))),
        { context with
          replaced := context.replaced || (context.replacement? (.root segment)).isSome }) := by
  -- A root has no parents to ask for.
  rw [normalize, run_bind, rename, run_replace]
  cases context.replacement? (.root segment) with
  | none => simp
  | some replacement => simp [Context.mark]

/-- A path without a registration has no replacement. -/
theorem replacement?_eq_none {context : Context} {path : Path}
    (missed : ∀ entry ∈ context.substitutions, entry.1 ≠ path) :
    context.replacement? path = none := by
  -- An entry that is found would be one for the path.
  obtain ⟨none, -⟩ | ⟨replacement, -, earlier, later, split, -⟩ := context.replacement?_cases path
  · exact none
  · exact absurd rfl (missed (path, replacement) (by simp [split]))

/-- Where nothing is rewritten, a node stays, and so does the state. -/
theorem normalize_settled {node : Node} {context : Context}
    (settled : Settled context.substitutions node.unlabel) :
    run (normalize node) context = (.ok node, context) := by
  -- The arguments are asked for with a cleared flag, which the registrations have no part in.
  have all (args : List Node) (context : Context)
      (each : ∀ arg ∈ args, run (normalize arg) context = (.ok arg, context)) :
      run (normalizeAll args) context = (.ok args, context) := by
    induction args with
    | nil => rfl
    | cons first rest ih =>
      obtain ⟨head, tail⟩ := List.forall_mem_cons.mp each
      rw [normalizeAll, run_bind, head]
      dsimp only
      rw [run_bind, ih tail]
      rfl
  induction node using Expr.induct generalizing context with
  | path label target =>
    cases settled with
    | leaf _ other => simp [Expr.path?] at other
    | root missed => rw [run_normalize_root, replacement?_eq_none missed]; simp
  | operation label operator type args ih =>
    rw [Expr.unlabel_operation] at settled
    cases settled with
    | leaf leaf => simp [Plain.looksInto] at leaf
    | operation still inside =>
      rw [rewrites_unlabel] at still
      have kept := all args { context with replaced := false } fun arg member =>
        ih arg member (inside _ (List.mem_map_of_mem member))
      rw [run_normalize_operation, kept]
      simp [rebuild_of_not_rewrites still]
  | factory label type args ih =>
    rw [Expr.unlabel_factory] at settled
    cases settled with
    | leaf leaf => simp [Plain.looksInto] at leaf
    | factory inside =>
      have kept := all args { context with replaced := false } fun arg member =>
        ih arg member (inside _ (List.mem_map_of_mem member))
      rw [normalize, run_bind, run_isolated, kept]
      simp
  | _ => rfl

/-- An operation that is not rewritten is itself, or is built from its arguments by one new node. -/
theorem run_normalize_kept (label : NodeId) (operator : Operator) (type : ValueType)
    {args results : List Node} (context : Context) {inner : Context}
    (ran : run (normalizeAll args) { context with replaced := false } = (.ok results, inner))
    (still : Plain.rewrites operator results = false) :
    ∃ label', run (normalize (.operation label operator type args)) context =
      (.ok (.operation label' operator type results),
        { inner with
          replaced := context.replaced || inner.replaced
          nextNode := inner.nextNode + inner.replaced.toNat }) := by
  rw [run_normalize_operation, ran]
  dsimp only
  rw [rebuild_of_not_rewrites still]
  -- One more identity is drawn exactly where an argument has changed.
  cases dirty : inner.replaced with
  | false =>
    obtain rfl := normalizeAll_kept ran dirty
    exact ⟨label, rfl⟩
  | true => exact ⟨inner.nextNode, rfl⟩

/-- The selector that pairs two variables stays where neither is registered. -/
theorem SelectsPair.settled {selector : Node} {element partner : Segment}
    {substitutions : List (Path × Node)}
    (selects : SelectsPair selector (.root element) (.root partner))
    (elementFree : ∀ entry ∈ substitutions, entry.1 ≠ .root element)
    (partnerFree : ∀ entry ∈ substitutions, entry.1 ≠ .root partner) :
    Settled substitutions selector.unlabel := by
  obtain ⟨label, parameter, type, object, rfl, pairs⟩ := selects
  -- A field reads one of the variables, and none of them has been registered.
  have field (name : String) {segment : Segment}
      (missed : ∀ entry ∈ substitutions, entry.1 ≠ .root segment) :
      Settled substitutions (Plain.field name (.root segment)) := by
    refine .operation rfl ?_
    simp only [List.forall_mem_cons]
    exact ⟨.leaf rfl rfl, .root missed, by simp⟩
  rw [Expr.unlabel_operation]
  refine .operation rfl ?_
  simp only [List.map_cons, List.map_nil, List.forall_mem_cons, Expr.unlabel_path, pairs]
  refine ⟨.root partnerFree, .factory ?_, by simp⟩
  simp only [List.forall_mem_cons]
  exact ⟨field _ elementFree, field _ partnerFree, by simp⟩

section Runs

variable {node source body second newSource newBody : Node} {element : Segment} {type : ValueType}
  {context between after : Context} {fault : ShapeError}

/-- A source that fails ends the walk over a flat map. -/
theorem Maps.run_source_error (maps : Maps node type source (.root element) body second)
    (sourceRan : run (normalize source) { context with replaced := false } = (.error fault, after)) :
    run (normalize node) context = (.error fault, after) := by
  -- The source is the first argument, and the walk stops there.
  obtain ⟨label, list, lambda, parameter, listType, lambdaType, rfl⟩ := maps
  rw [run_normalize_operation, run_normalizeAll_pair, sourceRan]

/-- A body that fails does so too, whatever stands beside its lambda. -/
theorem Maps.run_body_error (maps : Maps node type source (.root element) body second)
    (sourceRan : run (normalize source) { context with replaced := false } = (.ok newSource, between))
    (bodyRan : run (normalize body) { between with
      replaced := (between.replacement? (.root element)).isSome } = (.error fault, after)) :
    run (normalize node) context = (.error fault, after) := by
  obtain ⟨label, list, lambda, parameter, listType, lambdaType, rfl⟩ := maps
  -- The variable of the lambda is asked for before the body, and only its flag is seen there.
  have lambdaRan : run (normalize (.operation lambda .lambda lambdaType
      [.path parameter (.root element), body])) { between with replaced := false } =
      (.error fault, after) := by
    have cleared : Context.replacement? { between with replaced := false } (.root element) =
        between.replacement? (.root element) := rfl
    rw [run_normalize_operation, run_normalizeAll_pair, run_normalize_root]
    dsimp only
    rw [Bool.false_or, cleared, bodyRan]
  have listRan : run (normalize (.operation list .list listType
      [.operation lambda .lambda lambdaType [.path parameter (.root element), body], second]))
      between = (.error fault, after) := by
    rw [run_normalize_operation, run_normalizeAll_pair, lambdaRan]
  rw [run_normalize_operation, run_normalizeAll_pair, sourceRan]
  dsimp only
  rw [listRan]

/-- A flat map whose source and body can be normalized is put into canonical form with them, if its own
variable and what stands beside its lambda stay. -/
theorem Maps.run_ok (maps : Maps node type source (.root element) body second)
    (sourceRan : run (normalize source) { context with replaced := false } = (.ok newSource, between))
    (bodyRan : run (normalize body) { between with
      replaced := (between.replacement? (.root element)).isSome } = (.ok newBody, after))
    (elementFree : ∀ entry ∈ after.substitutions, entry.1 ≠ .root element)
    (settled : Settled after.substitutions second.unlabel) :
    ∃ args,
      (∀ partner, second.path? = some partner →
        ofArgs node args = .ok ⟨newSource, .root element, newBody, partner, none⟩) ∧
      (∀ partner selector, second.pathLambda? = some (partner, selector) →
        ofArgs node args = .ok ⟨newSource, .root element, newBody, partner, some selector⟩) ∧
      run (normalize node) context =
        run (canonicalize node type args >>= fun result => do mark; return result)
          { after with
            replaced := context.replaced || (between.replaced || after.replaced)
            nextNode := after.nextNode + after.replaced.toNat + after.replaced.toNat } := by
  obtain ⟨label, list, lambda, parameter, listType, lambdaType, rfl⟩ := maps
  -- What the body leaves free was free before it.
  have grown := (normalize_extends body { between with
    replaced := (between.replacement? (.root element)).isSome }).substitutions
  rw [bodyRan] at grown
  have missed : Context.replacement? { between with replaced := false } (.root element) = none :=
    replacement?_eq_none fun entry registered => elementFree entry (grown.subset registered)
  rw [show between.replacement? (.root element) = none from missed, Option.isSome_none] at bodyRan
  have inner : run (normalizeAll [.path parameter (.root element), body])
      { between with replaced := false } =
        (.ok [.path parameter (.root element), newBody], after) := by
    rw [run_normalizeAll_pair, run_normalize_root, missed]
    simp [bodyRan]
  obtain ⟨lambda', lambdaRan⟩ := run_normalize_kept lambda .lambda lambdaType
    { between with replaced := false } inner rfl
  have pair : run (normalizeAll [.operation lambda .lambda lambdaType
      [.path parameter (.root element), body], second]) { between with replaced := false } =
      (.ok [.operation lambda' .lambda lambdaType [.path parameter (.root element), newBody], second],
        { after with nextNode := after.nextNode + after.replaced.toNat }) := by
    have stays : Settled { after with
        nextNode := after.nextNode + after.replaced.toNat }.substitutions second.unlabel := settled
    rw [run_normalizeAll_pair, lambdaRan]
    dsimp only
    rw [Bool.false_or, normalize_settled stays]
  obtain ⟨list', listRan⟩ := run_normalize_kept list .list listType between pair rfl
  refine ⟨[newSource, .operation list' .list listType
    [.operation lambda' .lambda lambdaType [.path parameter (.root element), newBody], second]],
    ?_, ?_, ?_⟩
  · intro partner isPath
    rw [ofArgs_pair, isPath]
    rfl
  · intro partner selector isLambda
    obtain ⟨_, _, _, rfl⟩ := Expr.pathLambda?_eq_some isLambda
    rfl
  · rw [run_normalize_operation, run_normalizeAll_pair, sourceRan]
    dsimp only
    rw [listRan]
    rfl

/-- What is left open is not registered after runs that start from other flags either. -/
theorem LeavesOpen.of_runs {path : Path} {flag flag' : Bool}
    (isOpen : LeavesOpen source body context path)
    (sourceRan : run (normalize source) { context with replaced := flag } = (.ok newSource, between))
    (bodyRan : run (normalize body) { between with replaced := flag' } = (.ok newBody, after)) :
    ∀ entry ∈ after.substitutions, entry.1 ≠ path := by
  -- The flag has no part in outcomes, so both runs have one beside them that starts as asked for.
  obtain ⟨left, same⟩ := flagBlind_normalize source context flag
  rw [sourceRan, Prod.mk.injEq] at same
  obtain ⟨done, rfl⟩ := same
  obtain ⟨left', same⟩ := flagBlind_normalize body (run (normalize source) context).2 flag'
  rw [show run (normalize body) { (run (normalize source) context).2 with replaced := flag' } =
    (.ok newBody, after) from bodyRan, Prod.mk.injEq] at same
  obtain ⟨done', rfl⟩ := same
  exact isOpen newSource (run (normalize source) context).2 newBody
    (run (normalize body) (run (normalize source) context).2).2 (Prod.ext done.symm rfl)
    (Prod.ext done'.symm rfl)

end Runs

section Canonical

variable {node source body : Node} {element partner : Path} {args : List Node}

/-- A flat map with a selector takes eight identities, and registers nothing. -/
theorem run_canonicalize_selector {selector : Node} (type : ValueType) (context : Context)
    (taken : ofArgs node args = .ok ⟨source, element, body, partner, some selector⟩) :
    run (canonicalize node type args >>= fun result => do mark; return result) context =
      (.ok (canonicalNode type ⟨source, element, body, partner, some selector⟩ selector
        context.nextNode),
        { context with replaced := true, nextNode := context.nextNode + 8 }) := by
  rw [canonicalize, taken]
  rfl

/-- A flat map without one takes nine more, for the pair and for the two members that it registers. -/
theorem run_canonicalize_pair (type : ValueType) (context : Context)
    (taken : ofArgs node args = .ok ⟨source, element, body, partner, none⟩) :
    run (canonicalize node type args >>= fun result => do mark; return result) context =
      (.ok (canonicalNode type ⟨source, element, body, partner, none⟩
        (pairNode element partner context.nextNode) (context.nextNode + 9)),
        { context with
          replaced := true
          substitutions := context.substitutions ++
            [(element, .path (context.nextNode + 7) (context.plain.member element))] ++
            [(partner, .path (context.nextNode + 8) (context.plain.member partner))]
          nextTransient := context.nextTransient + 1
          nextNode := context.nextNode + 17 }) := by
  rw [canonicalize, taken]
  rfl

end Canonical

/-- A flat map whose list ends in a lone variable does what it does with the pair of its variables as
the selector: both fail with the same error in the same state, or both give the same tree. The lone
variable registers two members of a new variable behind what is registered then, and that is all by
which the states differ, besides the identities that the pair and the members have taken. -/
theorem lone_variable_pairs {implicit explicit source body selector : Node} {type : ValueType}
    {element partner : Segment} {label : NodeId} {context : Context}
    (alone : Maps implicit type source (.root element) body (.path label (.root partner)))
    (selected : Maps explicit type source (.root element) body selector)
    (selects : SelectsPair selector (.root element) (.root partner))
    (elementOpen : LeavesOpen source body context (.root element))
    (partnerOpen : LeavesOpen source body context (.root partner)) :
    (∃ fault after, Pass.normalizeFlatMaps.runIn implicit context = (.error fault, after) ∧
      Pass.normalizeFlatMaps.runIn explicit context = (.error fault, after)) ∨
    ∃ paired given after first second,
      paired.unlabel = given.unlabel ∧
      first.unlabel = .path () (after.plain.member (.root element)) ∧
      second.unlabel = .path () (after.plain.member (.root partner)) ∧
      Pass.normalizeFlatMaps.runIn explicit context = (.ok given, after) ∧
      Pass.normalizeFlatMaps.runIn implicit context = (.ok paired, { after with
        substitutions := after.substitutions ++
          [(.root element, first), (.root partner, second)]
        nextTransient := after.nextTransient + 1
        nextNode := after.nextNode + 9 }) := by
  simp only [show ∀ node, Pass.normalizeFlatMaps.runIn node context = run (normalize node) context
    from fun _ => rfl]
  rcases sourceRan : run (normalize source) { context with replaced := false } with
    ⟨fault | newSource, between⟩
  · exact .inl ⟨fault, between, alone.run_source_error sourceRan,
      selected.run_source_error sourceRan⟩
  rcases bodyRan : run (normalize body) { between with
      replaced := (between.replacement? (.root element)).isSome } with ⟨fault | newBody, after⟩
  · exact .inl ⟨fault, after, alone.run_body_error sourceRan bodyRan,
      selected.run_body_error sourceRan bodyRan⟩
  right
  have elementFree := elementOpen.of_runs sourceRan bodyRan
  have partnerFree := partnerOpen.of_runs sourceRan bodyRan
  obtain ⟨args, taken, -, aloneRan⟩ := alone.run_ok sourceRan bodyRan elementFree
    (.root partnerFree)
  obtain ⟨args', -, taken', selectedRan⟩ := selected.run_ok sourceRan bodyRan elementFree
    (selects.settled elementFree partnerFree)
  obtain ⟨_, _, _, object, rfl, pairs⟩ := selects
  -- Both are put into canonical form from one state, whatever it has become.
  generalize { after with
    replaced := context.replaced || (between.replaced || after.replaced)
    nextNode := after.nextNode + after.replaced.toNat + after.replaced.toNat } = formed
    at aloneRan selectedRan
  rw [run_canonicalize_pair type formed (taken (.root partner) rfl)] at aloneRan
  rw [run_canonicalize_selector type formed (taken' (.root partner) object rfl)] at selectedRan
  let paired := canonicalNode type ⟨newSource, .root element, newBody, .root partner, none⟩
    (pairNode (.root element) (.root partner) formed.nextNode) (formed.nextNode + 9)
  refine ⟨paired, _, { formed with replaced := true, nextNode := formed.nextNode + 8 },
    .path (formed.nextNode + 7) (formed.plain.member (.root element)),
    .path (formed.nextNode + 8) (formed.plain.member (.root partner)), ?_, rfl, rfl, selectedRan,
    aloneRan.trans ?_⟩
  · simp [paired, canonicalNode, pairs, pairNode, Plain.pairObject, Plain.field]
  · simp [paired]

/-- The families of a collection with their children, paired by a selector that is spelled out. -/
def spelledPairs : Node :=
  let family := Path.ofVariable "x" (.object "Family")
  let child := Path.ofVariable "c" (.object "Person")
  .operation 8 .flatMap .collection
    [.path 1 (.ofVariable "docs" .collection),
      .operation 7 .list .expression
        [.operation 4 .lambda .expression
            [.path 2 family, .path 3 (family.property "Children" .collection)],
          .operation 17 .lambda .expression [.path 9 child, pairNode family child 10]]]

/-- Families and children become the same tree with and without the selector, and only the lone variable
registers. -/
theorem lone_variable_pairs_children :
    let start := Context.start {} 18
    ∃ paired given, (Pass.normalizeFlatMaps.runIn childPairs start).1 = .ok paired ∧
      (Pass.normalizeFlatMaps.runIn spelledPairs start).1 = .ok given ∧
      paired.unlabel = given.unlabel := by
  intro start
  let family : Segment := ⟨"x", .variable, .object "Family"⟩
  let child : Segment := ⟨"c", .variable, .object "Person"⟩
  let source : Node := .path 1 (.ofVariable "docs" .collection)
  let body : Node := .path 3 ((Path.root family).property "Children" .collection)
  let selector : Node :=
    .operation 17 .lambda .expression
      [.path 9 (.root child), pairNode (.root family) (.root child) 10]
  have alone : Maps childPairs .collection source (.root family) body (.path 6 (.root child)) :=
    ⟨8, 7, 4, 2, .expression, .expression, rfl⟩
  have selected : Maps spelledPairs .collection source (.root family) body selector :=
    ⟨8, 7, 4, 2, .expression, .expression, rfl⟩
  have selects : SelectsPair selector (.root family) (.root child) :=
    ⟨17, 9, .expression, pairNode (.root family) (.root child) 10, rfl,
      by simp [pairNode, Plain.pairObject, Plain.field]⟩
  -- From a new state nothing is registered when the source and the body are normalized.
  have isOpen (path : Path) : LeavesOpen source body start path := by
    rintro _ _ _ _ ⟨⟩ ⟨⟩ entry registered
    exact absurd registered (by simp [start, Context.start])
  have succeeds : (Pass.normalizeFlatMaps.runIn childPairs start).1.toOption.isSome = true := by
    decide +kernel
  obtain ⟨fault, after, failed, -⟩ | ⟨paired, given, after, first, second, same, -, -, given', done⟩ :=
    lone_variable_pairs alone selected selects (isOpen _) (isOpen _)
  · simp [failed, Except.toOption] at succeeds
  · exact ⟨paired, given, congrArg Prod.fst done, congrArg Prod.fst given', same⟩

end IndexQuery.FlatMap
