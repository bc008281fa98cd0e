import IndexQuery.Proofs.Pass.FlatMapPlaces

/-! The parameters that canonical flat maps bind: roots, unless an alias has been registered before. -/

namespace IndexQuery

open Steps PassM

namespace Expr

variable {Label : Type}

/-- The parameter of the outer lambda of a canonical flat map, and the two that its selector binds. -/
def canonicalParameters? : Expr Label → Option (Path × Path × Path)
  | .operation _ .canonicalFlatMap _
      [_, .operation _ .lambda _ [.path _ outer, _],
        .operation _ .lambda _
          [.operation _ .wrapped _ [.operation _ .list _ [.path _ element, .path _ partner]], _]] =>
    some (outer, element, partner)
  | _ => none

/-- What a flat map calls an element of the inner collection: a path of its own, or the parameter of its
selector. -/
def alias? : Expr Label → Option Path
  | .operation _ .flatMap _ (_ :: .operation _ .list _ [_, second] :: _) =>
    second.path? <|> second.pathLambda?.map (·.1)
  | _ => none

/-- The alias of a flat map without a selector, and what a walk comes to before it, told by the arguments
of the flat map. -/
def namedAlias? : List (Expr Label) → Option (Path × List (Expr Label))
  | source :: .operation _ .list _ [first, second] :: _ =>
    second.path?.map fun name => (name, [source, first])
  | _ => none

/-- The aliases of the flat maps that normalization comes to. -/
def aliases (expr : Expr Label) : List Path :=
  (expr.reached FlatMap.Plain.looksInto).filterMap alias?

/-- An alias of a flat map without a selector is its alias. -/
theorem alias?_of_namedAlias? {label : Label} {type : ValueType} {args earlier : List (Expr Label)}
    {name : Path} (named : namedAlias? args = some (name, earlier)) :
    (operation label .flatMap type args).alias? = some name := by
  -- Both look at the second member of the list, which is a path here.
  unfold namedAlias? at named
  split at named
  · obtain ⟨path, isPath, same⟩ := Option.map_eq_some_iff.mp named
    cases same
    simp [alias?, isPath]
  · cases named

/-- Only a list of two names an alias. -/
theorem namedAlias?_of_not_pair {source : Expr Label} {rest elements : List (Expr Label)}
    {label : Label} {operator : Operator} {type : ValueType}
    (other : ¬ (operator = .list ∧ elements.length = 2)) :
    namedAlias? (source :: operation label operator type elements :: rest) = none := by
  -- The view matches a list of two only.
  unfold namedAlias?
  split
  · simp_all
  · rfl

/-- Labels have no part in what the alias is. -/
theorem namedAlias?_unlabel (args : List (Expr Label)) :
    namedAlias? (args.map unlabel) =
      (namedAlias? args).map fun (name, earlier) => (name, earlier.map unlabel) := by
  rcases args with _ | ⟨source, _ | ⟨pair, rest⟩⟩
  · rfl
  · rfl
  cases pair with
  | operation label operator type elements =>
    rw [List.map_cons, List.map_cons, unlabel_operation]
    -- Labels have no part in the shape of the list, nor in whether its second member is a path.
    by_cases two : operator = .list ∧ elements.length = 2
    · obtain ⟨rfl, two⟩ := two
      obtain ⟨first, second, rfl⟩ := List.length_eq_two.mp two
      simp only [List.map_cons, List.map_nil, namedAlias?, (mirrors_unlabel.head second).2.1,
        Option.map_map]
      rfl
    · rw [namedAlias?_of_not_pair two, namedAlias?_of_not_pair (by simpa using two)]
      rfl
  | _ => rfl

end Expr

namespace FlatMap

/-- What the alias of a flat map without a selector is replaced by, if a walk comes to the flat map in the
given state. -/
def replacedAlias? (args : List Node) (state : Context) : Option Node :=
  match Expr.namedAlias? args with
  | none => none
  -- The source and the lambda are normalized first, and may register the alias.
  | some (name, earlier) =>
    (run (normalizeAll earlier) { state with replaced := false }).2.replacement? name

namespace Plain

/-- The first of some results is that of the first argument, and the others are those of the others. -/
theorem cons_of_normalizeAll {args results : List Tree} {result : Tree} {state after : State}
    (ran : run (normalizeAll args) state = (.ok (result :: results), after)) :
    ∃ first rest between, args = first :: rest ∧
      run (normalize first) state = (.ok result, between) ∧
      run (normalizeAll rest) between = (.ok results, after) := by
  -- Results are put together in the order of the arguments.
  cases args with
  | nil => cases ran
  | cons first rest =>
    rw [normalizeAll] at ran
    obtain ⟨head, between, headRan, ran⟩ := run_bind_ok.mp ran
    obtain ⟨tail, last, tailRan, ran⟩ := run_bind_ok.mp ran
    cases ran
    exact ⟨first, rest, between, rfl, headRan, tailRan⟩

/-- Without results there are no arguments. -/
theorem nil_of_normalizeAll {args : List Tree} {state after : State}
    (ran : run (normalizeAll args) state = (.ok [], after)) : args = [] ∧ after = state := by
  -- A first argument would have given a first result.
  cases args with
  | nil =>
    cases ran
    exact ⟨rfl, rfl⟩
  | cons first rest =>
    rw [normalizeAll] at ran
    obtain ⟨head, between, -, ran⟩ := run_bind_ok.mp ran
    obtain ⟨tail, last, -, ran⟩ := run_bind_ok.mp ran
    cases ran

/-- What is normalized to a list of two is one, and the first of them is normalized before the second. -/
theorem pair_of_normalize {tree first' second' : Tree} {type : ValueType} {state after : State}
    (toPaths : state.ToPaths)
    (ran : run (normalize tree) state =
      (.ok (.operation () .list type [first', second']), after)) :
    ∃ first second between, tree = .operation () .list type [first, second] ∧
      run (normalize first) state = (.ok first', between) ∧
      run (normalize second) between = (.ok second', after) := by
  cases tree with
  | path label target =>
    rw [State.run_normalize_path toPaths] at ran
    cases ran
  | operation label operator type args =>
    rw [normalize, run_bind_ok] at ran
    obtain ⟨results, between, argsRan, ran⟩ := ran
    -- Of the operations only those that are not rewritten stay lists.
    obtain ⟨-, same, rfl⟩ | ⟨-, parent, segment, bodies, -, same, -⟩ | ⟨-, parts, -, same, -⟩ :=
      rebuild_ok ran
    · cases same
      obtain ⟨first, rest, middle, rfl, firstRan, argsRan⟩ := cons_of_normalizeAll argsRan
      obtain ⟨second, rest, last, rfl, secondRan, argsRan⟩ := cons_of_normalizeAll argsRan
      obtain ⟨rfl, rfl⟩ := nil_of_normalizeAll argsRan
      exact ⟨first, second, middle, rfl, firstRan, secondRan⟩
    · cases same
    · cases same
  | factory label type args =>
    rw [normalize, run_bind_ok] at ran
    obtain ⟨results, between, -, ran⟩ := ran
    cases ran
  | _ => cases ran

/-- What a flat map that is put into canonical form binds: roots, but for what its alias is renamed to. -/
theorem parameters_of_flatMap {type : ValueType} {args : List Tree} {state after : State}
    {result : Tree} (toPaths : state.ToPaths)
    (ran : run (normalize (.operation () .flatMap type args)) state = (.ok result, after)) :
    ∃ outer element partner, result.canonicalParameters? = some (outer, element, partner) ∧
      outer.isRoot = true ∧ element.isRoot = true ∧
      match Expr.namedAlias? args with
      | none => partner.isRoot = true
      | some (name, earlier) => partner = (run (normalizeAll earlier) state).2.renamed name := by
  rw [normalize, run_bind_ok] at ran
  obtain ⟨results, between, argsRan, ran⟩ := ran
  obtain ⟨settled, -, -⟩ | ⟨isLambda, -⟩ | ⟨-, parts, taken, rfl, rfl⟩ := rebuild_ok ran
  · simp [rewrites] at settled
  · cases isLambda
  obtain ⟨_, listType, first', second', rest, rfl, isLambda, partner⟩ := ofArgs_ok taken
  -- The results say what the arguments are, and in which states they were visited.
  obtain ⟨source, rest, middle, rfl, sourceRan, argsRan⟩ := cons_of_normalizeAll argsRan
  obtain ⟨pair, rest, last, rfl, pairRan, -⟩ := cons_of_normalizeAll argsRan
  have toPathsMiddle := (normalize_grown sourceRan).toPaths toPaths
  obtain ⟨first, second, before, rfl, firstRan, secondRan⟩ :=
    pair_of_normalize toPathsMiddle pairRan
  have toPathsBefore := (normalize_grown firstRan).toPaths toPathsMiddle
  have renamed := path?_normalize toPathsBefore secondRan
  refine ⟨_, _, _, rfl, rfl, rfl, ?_⟩
  obtain ⟨inner, rfl, -⟩ | ⟨selector, isSelector, -⟩ := partner
  · cases second with
    | path label name =>
      -- What is visited before the alias is the source and the lambda.
      have earlier : run (normalizeAll [source, first]) state =
          (.ok [parts.source, first'], before) := by
        rw [run_normalizeAll_cons, sourceRan]
        dsimp only
        rw [run_normalizeAll_cons, firstRan]
        rfl
      dsimp only [Expr.namedAlias?, Expr.path?, Option.map]
      rw [earlier]
      exact Option.some.inj renamed
    | _ => simp [Expr.path?] at renamed
  -- A selector is a lambda, and what has been normalized has lambdas bound to roots only.
  · have other : second.path? = none := by
      obtain ⟨_, _, _, rfl⟩ := Expr.pathLambda?_eq_some isSelector
      exact Option.map_eq_none_iff.mp renamed.symm
    obtain ⟨canonical, -⟩ := normalize_isCanonical secondRan toPathsBefore.isCanonical
    obtain ⟨segment, root⟩ := canonical.parameter isSelector
    rw [Expr.namedAlias?, other, root]
    rfl

/-- What has been registered since a state without registrations replaces paths by members. -/
theorem Paired.members {earlier state : State} (paired : Paired earlier state)
    (fresh : earlier.substitutions = []) :
    ∀ entry ∈ state.substitutions, ∃ parent segment,
      entry.2 = .path () (Path.member parent segment) := by
  induction paired with
  | refl => simp [fresh]
  | pair before element partner ih =>
    -- The two entries that are added stand for members of the invented variable.
    intro entry registered
    simp only [State.pair, List.mem_append, List.mem_cons, List.not_mem_nil, or_false] at registered
    rcases registered with registered | rfl | rfl
    · exact ih entry registered
    · exact ⟨_, _, rfl⟩
    · exact ⟨_, _, rfl⟩

/-- A root keeps its name unless it is registered, and becomes a member if it is. -/
theorem Paired.renamed_root {earlier state : State} (paired : Paired earlier state)
    (fresh : earlier.substitutions = []) {name : Path} (root : name.isRoot = true) :
    match state.replacement? name with
    | none => state.renamed name = name
    | some replacement =>
      replacement = .path () (state.renamed name) ∧ (state.renamed name).isRoot = false := by
  -- A root has no parents to ask for, and what is registered for it is a member.
  cases name with
  | root segment =>
    unfold State.renamed State.rename
    cases found : state.replacement? (.root segment) with
    | none => rfl
    | some replacement =>
      obtain ⟨parent, last, rfl⟩ := paired.members fresh _ (State.mem_of_replacement? found)
      exact ⟨rfl, rfl⟩
  | member parent segment => cases root

end Plain

/-- The arguments that are normalized before another have a plain walk beside them. -/
theorem plain_normalizeAll (args : List Node) (context : Context) :
    (run (normalizeAll args) context).2.plain =
      (run (Plain.normalizeAll (args.map Expr.unlabel)) context.plain).2 := by
  -- The states agree whether the run succeeds or fails.
  have follows := follows_normalizeAll
    (fun (arg : Node) (_ : arg ∈ args) context => (normalize_effect arg context).1) context
  rw [Follows] at follows
  generalize run (normalizeAll args) context = ran at follows ⊢
  rcases ran with ⟨fault | results, after⟩
  · rw [follows]
  · rw [follows.1]

/-- What a canonical form binds that is made of a flat map with the given arguments, where a walk has come
to it in the given state: roots, but for an alias that has been replaced by then. -/
def Binds (args : List Node) (state : Context) (built : Node) : Prop :=
  ∃ outer element partner, built.canonicalParameters? = some (outer, element, partner) ∧
    outer.isRoot = true ∧ element.isRoot = true ∧
    match replacedAlias? args state with
    | none => partner.isRoot = true
    | some replacement => replacement.path? = some partner ∧ partner.isRoot = false

/-- Where a walk comes to a flat map whose alias is a root, it makes a canonical form that binds what it
should. -/
theorem binds_of_run {label : NodeId} {type : ValueType} {args : List Node} {built : Node}
    {start state last : Context} (fresh : start.plain.substitutions = [])
    (paired : Plain.Paired start.plain state.plain)
    (ran : Pass.normalizeFlatMaps.runIn (.operation label .flatMap type args) state =
      (.ok built, last))
    (root : ∀ name earlier, Expr.namedAlias? args = some (name, earlier) → name.isRoot = true) :
    Binds args state built := by
  have toPaths : start.plain.ToPaths := by simp [Plain.State.ToPaths, fresh]
  -- The plain walk beside the run of this flat map says what it binds.
  have plainRan := plain_of_runIn (congrArg Prod.fst ran)
  rw [Expr.unlabel_operation] at plainRan
  obtain ⟨outer, element, partner, found, outerRoot, elementRoot, partnerIs⟩ :=
    Plain.parameters_of_flatMap (paired.toPaths toPaths) plainRan
  obtain ⟨results, inner, -, made⟩ := made_of_run rfl (Nat.zero_le _) ran
  obtain _ | settled | _ | _ := made
  · cases settled
  refine ⟨outer, element, partner, found, outerRoot, elementRoot, ?_⟩
  -- Without an alias of that kind there is a selector, whose parameter is a root by now.
  rw [Expr.namedAlias?_unlabel] at partnerIs
  rw [replacedAlias?]
  cases named : Expr.namedAlias? args with
  | none => simpa [named] using partnerIs
  | some known =>
    obtain ⟨name, earlier⟩ := known
    rw [named] at partnerIs
    dsimp only [Option.map] at partnerIs ⊢
    -- The alias is looked up in the state that the source and the lambda leave.
    have before := plain_normalizeAll earlier { state with replaced := false }
    change _ = (run (Plain.normalizeAll (earlier.map Expr.unlabel)) state.plain).2 at before
    have pairedBefore := paired.trans (Plain.paired_normalizeAll (paired.toPaths toPaths)
      fun arg (_ : arg ∈ earlier.map Expr.unlabel) _ => Plain.paired_normalize arg)
    rw [← before] at partnerIs pairedBefore
    have isRoot := root name earlier named
    have renamed := pairedBefore.renamed_root fresh isRoot
    rw [← partnerIs, replacement?_plain] at renamed
    generalize Context.replacement? _ _ = replacement? at renamed ⊢
    cases replacement? with
    | none => rwa [show partner = name from renamed]
    | some replacement =>
      obtain ⟨same, member⟩ := renamed
      have isPath := congrArg Expr.path? same
      rw [(Expr.mirrors_unlabel.head replacement).2.1] at isPath
      exact ⟨isPath, member⟩

/-- A canonical form is made of a flat map, or has been one before. -/
theorem source_of_canonical {inner built : Node} {state last : Context}
    (toPaths : state.plain.ToPaths) (ran : run (normalize inner) state = (.ok built, last))
    (form : built.operator? = some .canonicalFlatMap) :
    inner.operator? = some .canonicalFlatMap ∨
      ∃ label type args, inner = .operation label .flatMap type args := by
  have entered : Plain.looksInto built = true := by
    cases built with
    | operation => rfl
    | _ => cases form
  obtain ⟨results, between, -, made⟩ :=
    made_of_run (entered_of_run toPaths ran entered) (Nat.zero_le _) ran
  -- An operation keeps its operator, unless it is a flat map.
  cases made with
  | factory => cases form
  | operation => exact .inl form
  | lambda => cases form
  | flatMap => exact .inr ⟨_, _, _, rfl⟩

/-- Where all aliases are roots and the pass succeeds, it comes to every flat map that is in its reach,
and builds a canonical form for it whose lambdas bind roots. Only the second parameter of a selector
can be something else, and it is exactly where a flat map has an alias without a selector that has been
registered before: it is what that alias is replaced by. Every canonical form in the result is one that
was built so in its place, unless there was a canonical form in that place before. -/
theorem parameters_normalize {node result : Node} {options : Options} {supply : NodeId}
    (rooted : ∀ name ∈ node.aliases, name.isRoot = true)
    (done : (Pass.normalizeFlatMaps.run options node supply).1 = .ok result) :
    (∀ inner ∈ node.reached Plain.looksInto,
        ∃ state, Visits [node] (Context.start options supply) inner state) ∧
      (∀ label type args state,
        Visits [node] (Context.start options supply) (.operation label .flatMap type args) state →
          ∃ built last,
            Pass.normalizeFlatMaps.runIn (.operation label .flatMap type args) state =
              (.ok built, last) ∧ Binds args state built) ∧
      ∀ built ∈ result.reached Plain.looksInto, built.operator? = some .canonicalFlatMap →
        ∃ inner state last, Becomes node result inner built ∧
          Visits [node] (Context.start options supply) inner state ∧
          Pass.normalizeFlatMaps.runIn inner state = (.ok built, last) ∧
          (inner.operator? = some .canonicalFlatMap ∨
            ∃ label type args, inner = .operation label .flatMap type args ∧
              Binds args state built) := by
  have ran : run (normalize node) (Context.start options supply) =
      (.ok result, (Pass.normalizeFlatMaps.run options node supply).2) := Prod.ext done rfl
  have toPaths := Pass.toPaths_start options supply
  -- The aliases in question are those of the flat maps that the walk comes to.
  have binds {label : NodeId} {type : ValueType} {args : List Node} {state last : Context}
      {built : Node}
      (visits : Visits [node] (Context.start options supply) (.operation label .flatMap type args)
        state)
      (ran : Pass.normalizeFlatMaps.runIn (.operation label .flatMap type args) state =
        (.ok built, last)) : Binds args state built := by
    refine binds_of_run rfl (visits.paired toPaths) ran fun name earlier named => ?_
    obtain ⟨top, member, stands⟩ := visits.reached
    obtain rfl := List.mem_singleton.mp member
    exact rooted name (List.mem_filterMap.mpr ⟨_, stands, Expr.alias?_of_namedAlias? named⟩)
  refine ⟨fun inner => exists_visits ran, ?_, ?_⟩
  · intro label type args state visits
    have all : run (normalizeAll [node]) (Context.start options supply) =
        (.ok [result], (Pass.normalizeFlatMaps.run options node supply).2) := by
      rw [normalizeAll, run_bind, ran]
      rfl
    obtain ⟨built, last, builtRan⟩ := visits.succeeds all
    exact ⟨built, last, builtRan, binds visits builtRan⟩
  -- What stands in the result was built where the walk came to the place.
  · intro built stands form
    obtain ⟨inner, becomes⟩ := exists_becomes toPaths ran stands form
    obtain ⟨state, last, visits, builtRan⟩ := becomes.visited ran
    refine ⟨inner, state, last, becomes, visits, builtRan, ?_⟩
    obtain before | ⟨label, type, args, rfl⟩ :=
      source_of_canonical ((visits.paired toPaths).toPaths toPaths) builtRan form
    · exact .inl before
    · exact .inr ⟨label, type, args, rfl, binds visits builtRan⟩

/-- A flat map that stands beside itself has registered its alias where it is visited again, so that its
second canonical form binds a member. All that the canonical forms in the result bind besides are roots. -/
theorem parameters_normalize_repeated :
    let node := childPairsThen childPairs
    let between := (Pass.normalizeFlatMaps.runIn childPairs (Context.start {} 10)).2
    (∀ name ∈ node.aliases, name.isRoot = true) ∧
      Visits [node] (Context.start {} 10) childPairs between ∧
      (∃ built last outer element partner,
        Pass.normalizeFlatMaps.runIn childPairs between = (.ok built, last) ∧
          built.canonicalParameters? = some (outer, element, partner) ∧
          outer.isRoot = true ∧ element.isRoot = true ∧ partner.isRoot = false) ∧
      ∃ result, (Pass.normalizeFlatMaps.run {} node 10).1 = .ok result ∧
        ∀ built ∈ result.reached Plain.looksInto, built.operator? = some .canonicalFlatMap →
          ∃ outer element partner, built.canonicalParameters? = some (outer, element, partner) ∧
            outer.isRoot = true ∧ element.isRoot = true := by
  intro node between
  have rooted : ∀ name ∈ node.aliases, name.isRoot = true := by decide +kernel
  have none : ∀ inner ∈ node.reached Plain.looksInto,
      inner.operator? ≠ some .canonicalFlatMap := by decide +kernel
  have succeeds : (Pass.normalizeFlatMaps.run {} node 10).1.toOption.any (fun _ => true) = true := by
    decide +kernel
  obtain ⟨result, done, -⟩ := exists_of_any succeeds
  have first : (Pass.normalizeFlatMaps.runIn childPairs (Context.start {} 10)).1.toOption.any
      (fun _ => true) = true := by decide +kernel
  obtain ⟨form, formed, -⟩ := exists_of_any first
  have formRan : Pass.normalizeFlatMaps.runIn childPairs (Context.start {} 10) =
      (.ok form, between) := Prod.ext formed rfl
  have visits : Visits [node] (Context.start {} 10) childPairs between :=
    .inside rfl (.after formRan .here)
  obtain ⟨-, visited, all⟩ := parameters_normalize rooted done
  obtain ⟨built, last, ran, outer, element, partner, found, outerRoot, elementRoot, replaced⟩ :=
    visited 8 .collection childPairs.args between visits
  have registered : (replacedAlias? childPairs.args between).isSome = true := by decide +kernel
  obtain ⟨replacement, registered⟩ := Option.isSome_iff_exists.mp registered
  rw [registered] at replaced
  refine ⟨rooted, visits, ⟨built, last, outer, element, partner, ran, found, outerRoot, elementRoot,
    replaced.2⟩, result, done, ?_⟩
  intro built stands form
  obtain ⟨inner, state, last, -, visits, -, before | ⟨label, type, args, -, binds⟩⟩ :=
    all built stands form
  -- There was no canonical form before.
  · obtain ⟨top, member, inside⟩ := visits.reached
    obtain rfl := List.mem_singleton.mp member
    exact absurd before (none inner inside)
  · obtain ⟨outer, element, partner, found, outerRoot, elementRoot, -⟩ := binds
    exact ⟨outer, element, partner, found, outerRoot, elementRoot⟩

/-- A selector can bind a member also where all aliases are roots. -/
theorem parameters_normalize_not_roots :
    let node := childPairsThen childPairs
    (∀ name ∈ node.aliases, name.isRoot = true) ∧
      (∀ inner ∈ node.reached Plain.looksInto, inner.canonicalParameters? = none) ∧
      ∃ result, (Pass.normalizeFlatMaps.run {} node 10).1 = .ok result ∧
        ∃ built ∈ result.reached Plain.looksInto, ∃ parameters ∈ built.canonicalParameters?,
          parameters.2.2.isRoot = false := by
  -- The second of two equal flat maps finds its alias registered by the first.
  intro node
  have binds : (Pass.normalizeFlatMaps.run {} node 10).1.toOption.any (fun result =>
      decide (∃ built ∈ result.reached Plain.looksInto, ∃ parameters ∈ built.canonicalParameters?,
        parameters.2.2.isRoot = false)) = true := by decide +kernel
  obtain ⟨result, done, bound⟩ := exists_of_any binds
  exact ⟨by decide +kernel, by decide +kernel, result, done, of_decide_eq_true bound⟩

end FlatMap

end IndexQuery
