import IndexQuery.Proofs.Pass.FlatMapRefinement

/-! What a normalized node is made of: the very nodes that its arguments have become. -/

namespace IndexQuery.FlatMap

open Steps PassM

/-- The object that pairs two variables, and the identities of its nodes. -/
def pairNode (element partner : Path) (next : NodeId) : Node :=
  .factory (next + 6) .anonymous
    [.operation (next + 3) .list .expression
      [.constant (next + 2) (.string (Text.capitalize element.name)) .string, .path next element],
      .operation (next + 5) .list .expression
        [.constant (next + 4) (.string (Text.capitalize partner.name)) .string,
          .path (next + 1) partner]]

/-- The canonical form of a flat map over its own parts, and the identities of its other nodes. -/
def canonicalNode (type : ValueType) (parts : FlatMap NodeId) (selector : Node) (next : NodeId) :
    Node :=
  .operation (next + 7) .canonicalFlatMap type
    [parts.source,
      .operation (next + 4) .lambda .expression
        [.path (next + 3) parts.element.rootPath, parts.body],
      .operation (next + 6) .lambda .expression
        [.operation (next + 5) .wrapped .expression
          [.operation (next + 2) .list .expression
            [.path next parts.element.rootPath, .path (next + 1) parts.partner]],
          selector]]

/-- The selector of a canonical form: that of the flat map, or a new object that pairs its variables. -/
inductive SelectorOf (floor : NodeId) (parts : FlatMap NodeId) : Node → Prop
  | own {selector : Node} (found : parts.selector? = some selector) :
    SelectorOf floor parts selector
  | pair {next : NodeId} (missing : parts.selector? = none) (drawn : floor ≤ next) :
    SelectorOf floor parts (pairNode parts.element parts.partner next)

/-- What is made of a node when its arguments have become the given nodes: these are its arguments or the
parts of a canonical form, as the nodes that they are. What else is new gets its identity from a floor
on. -/
inductive MadeOf (floor : NodeId) : (node : Node) → (results : List Node) → (made : Node) → Prop
  | factory {label label' : NodeId} {type : ValueType} {args results : List Node} :
    MadeOf floor (.factory label type args) results (.factory label' type results)
  | operation {label label' : NodeId} {operator : Operator} {type : ValueType}
    {args results : List Node} (settled : Plain.rewrites operator results = false) :
    MadeOf floor (.operation label operator type args) results
      (.operation label' operator type results)
  /-- A lambda whose parameter has become a member is bound to the root of the member. -/
  | lambda {label inner next : NodeId} {type : ValueType} {args bodies : List Node} {parent : Path}
    {segment : Segment} (drawn : floor ≤ next) :
    MadeOf floor (.operation label .lambda type args)
      (.path inner (.member parent segment) :: bodies)
      (.operation (next + 1) .lambda type (.path next parent.rootPath :: bodies))
  | flatMap {label next : NodeId} {type : ValueType} {args results : List Node}
    {parts : FlatMap NodeId} {selector : Node}
    (taken : ofArgs (.operation label .flatMap type args) results = .ok parts)
    (selects : SelectorOf floor parts selector) (drawn : floor ≤ next) :
    MadeOf floor (.operation label .flatMap type args) results
      (canonicalNode type parts selector next)

mutual

/-- How a visit makes its result. Where nothing is rewritten the result is the node itself, and where
something is, an operation or an object construction is a new node made of what its arguments have
become. -/
inductive Makes : (node : Node) → (before : Context) → (result : Node) → (after : Context) → Prop
  | kept {node : Node} {before after : Context}
    (quiet : Plain.fires node.unlabel before.plain = false) : Makes node before node after
  | renamed {label : NodeId} {target : Path} {before after : Context} {result : Node}
    (hit : before.plain.hits target = true) : Makes (.path label target) before result after
  | rebuilt {node result : Node} {before between after : Context} {results : List Node}
    (entered : Plain.looksInto node = true)
    (fired : Plain.fires node.unlabel before.plain = true)
    (inside : MakesAll node.args { before with replaced := false } results between)
    (made : MadeOf before.nextNode node results result)
    (drawn : Drawn before after result.label) : Makes node before result after

/-- Visits of nodes one after the other, each in the state that the one before has left. -/
inductive MakesAll : (nodes : List Node) → (before : Context) → (results : List Node) →
    (after : Context) → Prop
  | nil {context : Context} : MakesAll [] context [] context
  | cons {first result : Node} {rest results : List Node} {before between after : Context}
    (ran : Pass.normalizeFlatMaps.runIn first before = (.ok result, between))
    (head : Makes first before result between) (tail : MakesAll rest between results after) :
    MakesAll (first :: rest) before (result :: results) after

end

/-- Pairing two variables makes the object, and registers a member for each of them. -/
theorem run_pairSelector (element partner : Path) (context : Context) :
    run (pairSelector element partner) context =
      (.ok (pairNode element partner context.nextNode),
        { context with
          substitutions := context.substitutions
            ++ [(element, .path (context.nextNode + 7) (context.plain.member element))]
            ++ [(partner, .path (context.nextNode + 8) (context.plain.member partner))]
          nextTransient := context.nextTransient + 1
          nextNode := context.nextNode + 9 }) := rfl

/-- Steps that have canonicalized a flat map have taken it apart and built its form. -/
theorem made_of_canonicalize {floor label : NodeId} {type : ValueType} {args results : List Node}
    {result : Node} {context after : Context} (atLeast : floor ≤ context.nextNode)
    (ran : run (canonicalize (.operation label .flatMap type args) type results) context =
      (.ok result, after)) :
    MadeOf floor (.operation label .flatMap type args) results result := by
  rw [canonicalize] at ran
  obtain ⟨parts, between, checked, formed⟩ := run_bind_ok.mp ran
  rw [run_lift, Prod.mk.injEq] at checked
  obtain ⟨taken, rfl⟩ := checked
  dsimp only at formed
  split at formed
  -- A selector of its own is taken over, and only the form around it is new.
  · rename_i selector found
    cases formed
    exact .flatMap taken (.own found) atLeast
  -- The form is numbered after the pair object.
  · rename_i missing
    obtain ⟨selector, last, paired, formed⟩ := run_bind_ok.mp formed
    rw [run_pairSelector] at paired
    cases paired
    cases formed
    exact .flatMap taken (.pair missing atLeast) (Nat.le_add_right_of_le atLeast)

/-- An operation with normalized arguments is made of them, also where it stays as it is. -/
theorem made_of_rebuild {floor label : NodeId} {operator : Operator} {type : ValueType}
    {args results : List Node} {dirty : Bool} {result : Node} {context after : Context}
    (kept : dirty = false → results = args) (atLeast : floor ≤ context.nextNode)
    (ran : run (rebuild (.operation label operator type args) operator type results dirty) context =
      (.ok result, after)) :
    MadeOf floor (.operation label operator type args) results result := by
  cases rewritten : Plain.rewrites operator results with
  | false =>
    rw [rebuild_of_not_rewrites rewritten] at ran
    cases dirty with
    | true =>
      cases ran
      exact .operation rewritten
    | false =>
      obtain rfl := kept rfl
      cases ran
      exact .operation rewritten
  | true =>
    obtain rfl | ⟨rfl, inner, parent, segment, bodies, rfl⟩ := rewrites_cases rewritten
    · rw [rebuild] at ran
      obtain ⟨form, between, built, ran⟩ := run_bind_ok.mp ran
      cases ran
      exact made_of_canonicalize atLeast built
    -- The new parameter and the lambda around it are drawn one after the other.
    · cases ran
      exact .lambda atLeast

/-- Arguments that raise no flag are the results. -/
theorem normalizeAll_kept {args results : List Node} {context inner : Context}
    (ran : run (normalizeAll args) { context with replaced := false } = (.ok results, inner))
    (quiet : inner.replaced = false) : results = args := by
  -- The flag was cleared before, so it is raised exactly if something in the arguments has fired.
  have follows := follows_normalizeAll
    (fun (arg : Node) (_ : arg ∈ args) context => (normalize_effect arg context).1)
    { context with replaced := false }
  rw [Follows, ran] at follows
  obtain ⟨-, flag, kept, -⟩ := follows
  rw [quiet] at flag
  exact kept (by simpa using flag.symm)

/-- Identities are drawn one after the other. -/
theorem normalizeAll_grown {args results : List Node} {context inner : Context}
    (ran : run (normalizeAll args) context = (.ok results, inner)) :
    context.nextNode ≤ inner.nextNode := by
  -- Every visit follows the plain walk, and none of them gives identities back.
  have follows := follows_normalizeAll
    (fun (arg : Node) (_ : arg ∈ args) context => (normalize_effect arg context).1) context
  rw [Follows, ran] at follows
  exact follows.2.2.2

/-- A node that is entered is made of what its arguments become, which are visited with a cleared
flag. -/
theorem made_of_run {floor : NodeId} {node result : Node} {context after : Context}
    (entered : Plain.looksInto node = true) (atLeast : floor ≤ context.nextNode)
    (ran : run (normalize node) context = (.ok result, after)) :
    ∃ results inner,
      run (normalizeAll node.args) { context with replaced := false } = (.ok results, inner) ∧
        MadeOf floor node results result := by
  cases node with
  | operation label operator type args =>
    rw [normalize] at ran
    obtain ⟨⟨results, dirty⟩, between, isolatedRan, ran⟩ := run_bind_ok.mp ran
    obtain ⟨inner, argsRan, rfl, rfl⟩ := run_isolated_ok.mp isolatedRan
    -- The arguments have drawn their identities first.
    have grown : context.nextNode ≤ inner.nextNode :=
      @normalizeAll_grown _ _ { context with replaced := false } _ argsRan
    refine ⟨results, inner, argsRan, made_of_rebuild (normalizeAll_kept argsRan) ?_ ran⟩
    exact Nat.le_trans atLeast grown
  | factory label type args =>
    rw [normalize] at ran
    obtain ⟨⟨results, dirty⟩, between, isolatedRan, ran⟩ := run_bind_ok.mp ran
    obtain ⟨inner, argsRan, rfl, rfl⟩ := run_isolated_ok.mp isolatedRan
    refine ⟨results, inner, argsRan, ?_⟩
    dsimp only at ran
    split at ran
    · cases ran
      exact .factory
    -- Without a change the construction stays, and so do its arguments.
    · rename_i quiet
      cases ran
      obtain rfl := normalizeAll_kept argsRan (by simpa using quiet)
      exact .factory
  | _ => cases entered

/-- A row of visits makes its results one by one. -/
theorem makesAll_of_normalizeAll {args results : List Node} {context after : Context}
    (each : ∀ arg ∈ args, ∀ (before : Context) (result : Node) (next : Context),
      run (normalize arg) before = (.ok result, next) → Makes arg before result next)
    (ran : run (normalizeAll args) context = (.ok results, after)) :
    MakesAll args context results after := by
  induction args generalizing context results with
  | nil =>
    cases ran
    exact .nil
  -- The first visit leaves the state in which the others begin.
  | cons first rest ih =>
    obtain ⟨head, tail⟩ := List.forall_mem_cons.mp each
    obtain ⟨result, others, between, rfl, firstRan, restRan⟩ := run_normalizeAll_cons_ok ran
    exact .cons firstRan (head context result between firstRan) (ih tail restRan)

/-- A visit that succeeds makes its result out of what is visited inside. -/
theorem makes_of_normalize {node result : Node} {context after : Context}
    (ran : run (normalize node) context = (.ok result, after)) : Makes node context result after := by
  -- What is rewritten is asked of the node as it is visited, so the state stays quantified over.
  induction node using Expr.induct generalizing context result after with
  | path label target =>
    have follows := follows_path label target context
    rw [Follows, ran] at follows
    obtain ⟨-, -, kept, -⟩ := follows
    cases hit : context.plain.hits target with
    | true => exact .renamed hit
    | false =>
      obtain rfl := kept hit
      exact .kept hit
  | operation _ _ _ args ih | factory _ _ args ih =>
    obtain ⟨effect, drawn⟩ := normalize_effect _ context
    rw [Follows, ran] at effect
    obtain ⟨-, -, kept, -⟩ := effect
    cases fired : Plain.fires _ context.plain with
    | true =>
      obtain ⟨results, inner, argsRan, made⟩ := made_of_run rfl (Nat.le_refl _) ran
      have inside := makesAll_of_normalizeAll
        (fun arg member _ _ _ ran => ih arg member ran) argsRan
      exact .rebuilt rfl fired inside made (drawn result after ran fired rfl)
    | false =>
      obtain rfl := kept fired
      exact .kept fired
  | template label text type args =>
    cases ran
    exact .kept (by rw [Expr.unlabel_template]; rfl)
  | _ =>
    cases ran
    exact .kept rfl

/-- An operation in which something is rewritten is a new one over what its arguments have become, unless
it is a flat map or a lambda itself. -/
theorem Makes.operation {label : NodeId} {operator : Operator} {type : ValueType} {args : List Node}
    {result : Node} {before after : Context}
    (makes : Makes (.operation label operator type args) before result after)
    (fired : Plain.fires (Expr.operation label operator type args).unlabel before.plain = true)
    (noFlatMap : operator ≠ .flatMap) (noLambda : operator ≠ .lambda) :
    ∃ label' results between, result = .operation label' operator type results ∧
      Drawn before after label' ∧
      MakesAll args { before with replaced := false } results between := by
  -- It is not kept, and of what can be made of an operation two cases are excluded.
  cases makes with
  | kept quiet => exact absurd (fired.symm.trans quiet) (by decide)
  | rebuilt entered fired inside made drawn =>
    cases made with
    | operation => exact ⟨_, _, _, rfl, drawn, inside⟩
    | lambda => exact absurd rfl noLambda
    | flatMap => exact absurd rfl noFlatMap

/-- The pass refines the plain walk, from every state: it fails with the same error or gives the same
tree, and leaves the same registrations and the same next number. Where nothing is rewritten an
expression is the very node it was, where something is an operation or an object construction is a
new node, and the flag is raised exactly then. That holds at every depth: a new node is made of the
nodes that the visits of its arguments gave, so that one in which nothing is rewritten stands in it as
the node that it was. Which of these happens does not depend on the flag that the pass starts with. -/
theorem normalize_refines_plain (node : Node) (context : Context) :
    let ran := Pass.normalizeFlatMaps.runIn node context
    let fired := Plain.fires node.unlabel context.plain
    run (Plain.normalize node.unlabel) context.plain = (ran.1.map Expr.unlabel, ran.2.plain) ∧
      (∀ result, ran.1 = .ok result →
        ran.2.replaced = (context.replaced || fired) ∧
          (fired = false → result = node) ∧
          (fired = true → Plain.looksInto node = true → Drawn context ran.2 result.label) ∧
          Makes node context result ran.2) ∧
      ∀ flag,
        let again := Pass.normalizeFlatMaps.runIn node { context with replaced := flag }
        again.1 = ran.1 ∧ again.2.plain = ran.2.plain := by
  obtain ⟨follows, built⟩ := normalize_effect node context
  have blind (flag : Bool) := flagBlind_normalize node context flag
  simp only [show ∀ state, Pass.normalizeFlatMaps.runIn node state = run (normalize node) state
    from fun _ => rfl]
  have makes (result : Node) (after : Context) :=
    @makes_of_normalize node result context after
  rw [Follows] at follows
  generalize run (normalize node) context = ran at follows built blind makes ⊢
  refine ⟨?_, ?_, ?_⟩
  -- The outcome and the state are those of the plain walk, whether it fails or not.
  · rcases ran with ⟨fault | result, after⟩
    · exact follows
    · exact follows.1
  · rintro result found
    obtain ⟨outcome, after⟩ := ran
    subst found
    obtain ⟨-, flag, kept, -⟩ := follows
    exact ⟨flag, kept, built result after rfl, makes result after rfl⟩
  -- From another flag the state differs in its flag only, which the plain state does not have.
  · intro flag
    obtain ⟨left, same⟩ := blind flag
    rw [same]
    exact ⟨rfl, rfl⟩

/-- The flat map beside a path is rewritten, so the conjunction is a new node, and the path stands in it
as the node that it was. -/
theorem normalize_refines_plain_childPairs :
    let sibling : Node := .path 10 (.ofVariable "docs" .collection)
    let start := Context.start {} 11
    ∃ form label after,
      Pass.normalizeFlatMaps.runIn (childPairsThen sibling) start =
          (.ok (.operation label .and .boolean [form, sibling]), after) ∧
        after.replaced = true ∧ Drawn start after label := by
  intro sibling start
  have fired : Plain.fires (childPairsThen sibling).unlabel start.plain = true := by decide +kernel
  have missed : Plain.fires sibling.unlabel
      (Pass.normalizeFlatMaps.runIn childPairs { start with replaced := false }).2.plain = false := by
    decide +kernel
  have succeeds : (Pass.normalizeFlatMaps.runIn (childPairsThen sibling) start).1.toOption.any
      (fun _ => true) = true := by decide +kernel
  obtain ⟨result, done, -⟩ := exists_of_any succeeds
  have effect := (normalize_refines_plain (childPairsThen sibling) start).2.1 result done
  rcases ran : Pass.normalizeFlatMaps.runIn (childPairsThen sibling) start with ⟨outcome, after⟩
  obtain rfl : outcome = .ok result := by rw [← done, ran]
  rw [ran, fired] at effect
  obtain ⟨raised, -, -, makes⟩ := effect
  obtain ⟨label, results, last, rfl, drawn, inside⟩ := makes.operation fired (by decide) (by decide)
  -- The path is visited where the flat map has left its registrations, none of which is for it.
  obtain _ | ⟨formRan, -, rest⟩ := inside
  obtain _ | ⟨siblingRan, -, nothing⟩ := rest
  cases nothing
  rw [formRan] at missed
  have kept := ((normalize_refines_plain sibling _).2.1 _ (congrArg Prod.fst siblingRan)).2.1
  obtain rfl := kept missed
  exact ⟨_, label, after, rfl, by simpa using raised, drawn⟩

end IndexQuery.FlatMap
