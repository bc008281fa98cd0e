import IndexQuery.Proofs.Expr.Reached
import IndexQuery.Proofs.Pass.FlatMapAssembly
import IndexQuery.Proofs.Pass.FlatMapOutlines
import IndexQuery.Proofs.Pass.Registrations

/-! What the flat-map pass comes to, and where what it makes of that stands in the result. -/

namespace IndexQuery.FlatMap

open Steps PassM

/-- A walk that comes to a node in a list, from one state to another. -/
inductive Visits : List Node → Context → Node → Context → Prop
  | here {node : Node} {rest : List Node} {context : Context} :
    Visits (node :: rest) context node context
  | inside {outer node : Node} {rest : List Node} {context state : Context}
    (entered : Plain.looksInto outer = true)
    (visits : Visits outer.args { context with replaced := false } node state) :
    Visits (outer :: rest) context node state
  | after {first result node : Node} {rest : List Node} {context between state : Context}
    (ran : Pass.normalizeFlatMaps.runIn first context = (.ok result, between))
    (visits : Visits rest between node state) : Visits (first :: rest) context node state

namespace Visits

variable {nodes : List Node} {context state : Context} {node inner : Node}

/-- A walk comes to nodes that are reached from those in the list. -/
theorem reached (visits : Visits nodes context node state) :
    ∃ top ∈ nodes, node ∈ top.reached Plain.looksInto := by
  -- Where the walk goes on inside a node, the node is entered.
  induction visits with
  | here => exact ⟨_, List.mem_cons_self, Expr.mem_reached _ _⟩
  | inside entered _ ih =>
    obtain ⟨arg, member, stands⟩ := ih
    exact ⟨_, List.mem_cons_self, Expr.reached_subset entered member stands⟩
  | after _ _ ih =>
    obtain ⟨top, member, stands⟩ := ih
    exact ⟨top, List.mem_cons_of_mem _ member, stands⟩

/-- A walk pairs root variables with paths until it comes to a node. -/
theorem paired (visits : Visits nodes context node state) (toPaths : context.plain.ToPaths) :
    Plain.Paired context.plain state.plain := by
  -- Clearing the flag leaves the plain state, so only the members before the node count.
  induction visits with
  | here => exact .refl
  | inside _ _ ih => exact ih toPaths
  | @after first _ _ _ _ _ _ ran _ ih =>
    have head := Pass.normalizeFlatMaps.paired_runIn first toPaths
    rw [ran] at head
    exact head.trans (ih (head.toPaths toPaths))

/-- If a walk succeeds, so does normalizing each node that it comes to. -/
theorem succeeds (visits : Visits nodes context node state) {results : List Node} {after : Context}
    (ran : run (normalizeAll nodes) context = (.ok results, after)) :
    ∃ built last, run (normalize node) state = (.ok built, last) := by
  induction visits generalizing results after with
  | here =>
    obtain ⟨result, -, between, -, headRan, -⟩ := run_normalizeAll_cons_ok ran
    exact ⟨result, between, headRan⟩
  | inside entered _ ih =>
    obtain ⟨result, -, between, -, headRan, -⟩ := run_normalizeAll_cons_ok ran
    obtain ⟨inner, last, argsRan, -⟩ := made_of_run entered (Nat.zero_le _) headRan
    exact ih argsRan
  | after firstRan _ ih =>
    -- The walk and the run go on from the same state, since normalizing is a function.
    obtain ⟨result, others, between, -, headRan, tailRan⟩ := run_normalizeAll_cons_ok ran
    cases firstRan.symm.trans headRan
    exact ih tailRan

/-- A walk over a node is one over a list that starts with it. -/
theorem of_singleton (visits : Visits [node] context inner state) (rest : List Node) :
    Visits (node :: rest) context inner state := by
  -- A walk over one node never goes on to another.
  cases visits with
  | here => exact .here
  | inside entered visits => exact .inside entered visits
  | after ran visits => cases visits

/-- A walk that comes to a node comes to what the node is walked to from there. -/
theorem trans {last : Context} (visits : Visits nodes context node state)
    (more : Visits [node] state inner last) : Visits nodes context inner last := by
  -- The second walk begins where the first one ends, inside the same nodes.
  induction visits with
  | here => exact more.of_singleton _
  | inside entered _ ih => exact .inside entered (ih more)
  | after ran _ ih => exact .after ran (ih more)

end Visits

/-- What a walk comes to in an argument, it comes to along the arguments. -/
theorem exists_visits_of_mem {args results : List Node} {inner arg : Node} {context after : Context}
    (each : ∀ arg ∈ args, ∀ {context after : Context} {result : Node},
      run (normalize arg) context = (.ok result, after) → inner ∈ arg.reached Plain.looksInto →
        ∃ state, Visits [arg] context inner state)
    (ran : run (normalizeAll args) context = (.ok results, after)) (member : arg ∈ args)
    (stands : inner ∈ arg.reached Plain.looksInto) : ∃ state, Visits args context inner state := by
  induction args generalizing results context after with
  | nil => cases member
  | cons first rest ih =>
    obtain ⟨head, tail⟩ := List.forall_mem_cons.mp each
    obtain ⟨result, others, between, -, headRan, tailRan⟩ := run_normalizeAll_cons_ok ran
    rcases List.mem_cons.mp member with rfl | member
    · obtain ⟨state, visits⟩ := head headRan stands
      exact ⟨state, visits.of_singleton rest⟩
    -- The arguments before the one in question have been normalized.
    · obtain ⟨state, visits⟩ := ih tail tailRan member
      exact ⟨state, .after headRan visits⟩

/-- A walk that succeeds comes to everything that is reached. -/
theorem exists_visits {node inner result : Node} {context after : Context}
    (ran : run (normalize node) context = (.ok result, after))
    (stands : inner ∈ node.reached Plain.looksInto) : ∃ state, Visits [node] context inner state := by
  -- An argument is visited in whatever state the earlier ones leave, so the state is general.
  induction node using Expr.induct generalizing context result after with
  | operation _ _ _ _ ih | factory _ _ _ ih =>
    rw [Expr.reached_eq] at stands
    rcases List.mem_cons.mp stands with rfl | inside
    · exact ⟨context, .here⟩
    · obtain ⟨arg, member, stands⟩ := List.mem_flatMap.mp inside
      obtain ⟨results, last, argsRan, -⟩ := made_of_run rfl (Nat.zero_le _) ran
      obtain ⟨state, visits⟩ := exists_visits_of_mem
        (fun arg member _ _ _ ran stands => ih arg member ran stands) argsRan member stands
      exact ⟨state, .inside rfl visits⟩
  | _ =>
    obtain rfl := List.mem_singleton.mp stands
    exact ⟨context, .here⟩

/-- A node that a walk comes to, and what a visit from there gives. -/
def VisitedAs (nodes : List Node) (context : Context) (inner built : Node) : Prop :=
  ∃ state next, Visits nodes context inner state ∧
    Pass.normalizeFlatMaps.runIn inner state = (.ok built, next)

/-- What is visited inside a node is visited in every walk that comes to the node. -/
theorem VisitedAs.inside {node inner built : Node} {context : Context}
    (entered : Plain.looksInto node = true)
    (visited : VisitedAs node.args { context with replaced := false } inner built) :
    VisitedAs [node] context inner built := by
  -- The node is looked into with the flag cleared, and the visit goes on from there.
  obtain ⟨state, next, visits, ran⟩ := visited
  exact ⟨state, next, .inside entered visits, ran⟩

/-- The members of a list are visited one by one. -/
theorem visitedAs_of_zip {args results : List Node} {arg part : Node} {context after : Context}
    (ran : run (normalizeAll args) context = (.ok results, after))
    (together : (arg, part) ∈ args.zip results) : VisitedAs args context arg part := by
  induction args generalizing context results with
  | nil => simp at together
  | cons first rest ih =>
    obtain ⟨result, others, between, rfl, firstRan, restRan⟩ := run_normalizeAll_cons_ok ran
    rw [List.zip_cons_cons, List.mem_cons] at together
    rcases together with same | together
    · cases same
      exact ⟨context, between, .here, firstRan⟩
    -- The first one has been visited by then.
    · obtain ⟨state, next, visits, builtRan⟩ := ih restRan together
      exact ⟨state, next, .after firstRan visits, builtRan⟩

/-- As many results as there are arguments. -/
theorem length_of_normalizeAll {args results : List Node} {context after : Context}
    (ran : run (normalizeAll args) context = (.ok results, after)) :
    args.length = results.length := by
  -- Each visit gives one result.
  induction args generalizing context results with
  | nil =>
    cases ran
    rfl
  | cons first rest ih =>
    obtain ⟨result, others, between, rfl, -, restRan⟩ := run_normalizeAll_cons_ok ran
    exact congrArg (· + 1) (ih restRan)

/-- The body of a lambda with any parameter. -/
def body? : Node → Option Node
  | .operation _ .lambda _ [_, body] => some body
  | _ => none

/-- The body of a lambda and that of another one which has taken its place. -/
def placedBody (lambda result : Node) : List (Node × Node) :=
  match body? lambda, body? result with
  | some body, some body' => [(body, body')]
  | _, _ => []

/-- The parts of a flat map with the given arguments, each with what stands in its place in a canonical
form. -/
def placedParts : (args : List Node) → (form : Node) → List (Node × Node)
  | source :: .operation _ .list _ [first, second] :: _,
    .operation _ .canonicalFlatMap _ [source', outer, selector] =>
    (source, source') :: (placedBody first outer ++ placedBody second selector)
  | _, _ => []

/-- What stands directly inside a node, each with what stands in its place in what has become of the node.
The parameter of a lambda has no place, as another path can have taken it. -/
def placed (node result : Node) : List (Node × Node) :=
  match node with
  | .operation _ .flatMap _ args => placedParts args result
  | .operation _ .lambda _ (.path _ _ :: bodies) => bodies.zip result.args.tail
  | _ => node.args.zip result.args

/-- Nodes that stand in one place of a node and of what the pass has made of it. -/
inductive Becomes : (node result inner built : Node) → Prop
  | here {node result : Node} : Becomes node result node result
  | inside {node result arg part inner built : Node} (entered : Plain.looksInto node = true)
    (together : (arg, part) ∈ placed node result) (becomes : Becomes arg part inner built) :
    Becomes node result inner built

/-- What is walked to from a node that a walk comes to is walked to in all. -/
theorem VisitedAs.after {nodes : List Node} {node inner built : Node} {context state : Context}
    (visits : Visits nodes context node state) (visited : VisitedAs [node] state inner built) :
    VisitedAs nodes context inner built := by
  -- The visit of the node leads on to the one inside it.
  obtain ⟨last, next, more, ran⟩ := visited
  exact ⟨last, next, visits.trans more, ran⟩

/-- Only a path becomes a path. -/
theorem path_of_run {node : Node} {label : NodeId} {target : Path} {context after : Context}
    (ran : run (normalize node) context = (.ok (.path label target), after)) :
    ∃ label target, node = .path label target := by
  cases node with
  | path label target => exact ⟨label, target, rfl⟩
  | operation | factory =>
    -- What is entered is made anew as an operation or an object construction.
    obtain ⟨results, inner, -, made⟩ := made_of_run rfl (Nat.zero_le _) ran
    cases made
  | _ => cases ran

/-- Behind the first members, the members of two lists belong together as they do in all. -/
theorem mem_zip_of_tail {args results : List Node} {pair : Node × Node}
    (together : pair ∈ args.tail.zip results.tail) : pair ∈ args.zip results := by
  -- Taking off the first members takes off the first pair.
  cases args with
  | nil => simp at together
  | cons first rest =>
    cases results with
    | nil => simp at together
    | cons result others => exact List.mem_cons_of_mem _ together

/-- A node has a body if it is a lambda with one parameter and one body. -/
theorem body?_eq_some {node body : Node} (found : body? node = some body) :
    ∃ label type parameter, node = .operation label .lambda type [parameter, body] := by
  -- The one match that succeeds says what the lambda looks like.
  unfold body? at found
  split at found
  · cases found
    exact ⟨_, _, _, rfl⟩
  · cases found

/-- Two bodies have the same place if both are the bodies of their lambdas. -/
theorem mem_placedBody {lambda result arg part : Node} :
    (arg, part) ∈ placedBody lambda result ↔ body? lambda = some arg ∧ body? result = some part := by
  -- There is a pair exactly if both have a body.
  unfold placedBody
  cases body? lambda with
  | none => simp
  | some body =>
    cases body? result with
    | none => simp
    | some body' => simp [eq_comm]

/-- The body of a lambda is visited inside it. -/
theorem visitedAs_of_body {lambda result arg part : Node} {context after : Context}
    (ran : run (normalize lambda) context = (.ok result, after))
    (original : body? lambda = some arg) (built : body? result = some part) :
    VisitedAs [lambda] context arg part := by
  obtain ⟨label, type, parameter, rfl⟩ := body?_eq_some original
  obtain ⟨label', type', parameter', rfl⟩ := body?_eq_some built
  obtain ⟨results, inner, argsRan, made⟩ := made_of_run rfl (Nat.zero_le _) ran
  -- Also a lambda that is bound to another root keeps what its body has become.
  cases made with
  | operation => exact .inside rfl (visitedAs_of_zip argsRan (by simp [Expr.args]))
  | lambda => exact .inside rfl (visitedAs_of_zip argsRan (by simp [Expr.args]))

/-- The two members of the list of a flat map are visited in its arguments. -/
theorem visitedAs_of_pair {source source' first second first' second' : Node}
    {others rest : List Node} {label label' : NodeId} {type type' : ValueType}
    {context after : Context}
    (ran : run (normalizeAll (source :: .operation label .list type [first, second] :: others))
        context =
      (.ok (source' :: .operation label' .list type' [first', second'] :: rest), after)) :
    let args := source :: .operation label .list type [first, second] :: others
    VisitedAs args context first first' ∧ VisitedAs args context second second' := by
  intro args
  obtain ⟨state, last, visits, pairRan⟩ :=
    @visitedAs_of_zip _ _ (.operation label .list type [first, second])
      (.operation label' .list type' [first', second']) _ _ ran (by simp)
  -- A list stays a list, made of what its members have become.
  obtain ⟨results, between, pairArgsRan, made⟩ := made_of_run rfl (Nat.zero_le _) pairRan
  obtain _ | _ := made
  exact ⟨.after visits (.inside rfl (visitedAs_of_zip pairArgsRan (by simp [Expr.args]))),
    .after visits (.inside rfl (visitedAs_of_zip pairArgsRan (by simp [Expr.args])))⟩

/-- The source of a flat map and the bodies of its lambdas are visited in its arguments. -/
theorem visitedAs_of_placedParts {floor label next : NodeId} {type : ValueType}
    {args results : List Node} {parts : FlatMap NodeId} {selector arg part : Node}
    {context after : Context} (ran : run (normalizeAll args) context = (.ok results, after))
    (taken : ofArgs (.operation label .flatMap type args) results = .ok parts)
    (selects : SelectorOf floor parts selector)
    (together : (arg, part) ∈ placedParts args (canonicalNode type parts selector next)) :
    VisitedAs args context arg part := by
  obtain ⟨_, _, first', second', rest, rfl, isLambda, partner⟩ := ofArgs_ok taken
  unfold placedParts at together
  split at together
  · rename_i same
    cases same
    rcases List.mem_cons.mp together with same | together
    · cases same
      exact visitedAs_of_zip ran (by simp)
    obtain ⟨⟨_, _, outerVisits, outerRan⟩, _, _, innerVisits, innerRan⟩ := visitedAs_of_pair ran
    rcases List.mem_append.mp together with inOuter | inSelector
    · obtain ⟨original, same⟩ := mem_placedBody.mp inOuter
      cases same
      obtain ⟨_, _, _, rfl⟩ := Expr.pathLambda?_eq_some isLambda
      exact .after outerVisits (visitedAs_of_body outerRan original rfl)
    · obtain ⟨original, same⟩ := mem_placedBody.mp inSelector
      cases same
      obtain ⟨inner, rfl, -⟩ | ⟨found, isSelector, known⟩ := partner
      -- A lone variable has no body.
      · obtain ⟨_, _, rfl⟩ := path_of_run innerRan
        cases original
      · obtain ⟨_, _, _, rfl⟩ := Expr.pathLambda?_eq_some isSelector
        cases selects with
        | own same =>
          cases known.symm.trans same
          exact .after innerVisits (visitedAs_of_body innerRan original rfl)
        | pair missing => exact absurd (missing.symm.trans known) (by simp)
  · simp at together

/-- What stands in a place of a node has been visited, and what stands in that place of the result is
what the visit gave. -/
theorem visitedAs_of_placed {node result arg part : Node} {context after : Context}
    (entered : Plain.looksInto node = true)
    (ran : run (normalize node) context = (.ok result, after))
    (together : (arg, part) ∈ placed node result) :
    VisitedAs node.args { context with replaced := false } arg part := by
  obtain ⟨results, inner, argsRan, made⟩ := made_of_run entered (Nat.zero_le _) ran
  cases made with
  | factory => exact visitedAs_of_zip argsRan together
  | flatMap taken selects => exact visitedAs_of_placedParts argsRan taken selects together
  -- The parameter that gave way was a path, so only the bodies have places.
  | @lambda _ _ _ _ args =>
    cases args with
    | nil => cases argsRan
    | cons first rest =>
      obtain ⟨result, others, between, same, firstRan, -⟩ := run_normalizeAll_cons_ok argsRan
      cases same
      obtain ⟨_, _, rfl⟩ := path_of_run firstRan
      exact visitedAs_of_zip argsRan (List.mem_cons_of_mem _ together)
  | operation settled =>
    refine visitedAs_of_zip argsRan ?_
    unfold placed at together
    split at together
    -- A flat map never stays one.
    · rename_i same
      cases same
      cases settled
    · rename_i same
      cases same
      exact mem_zip_of_tail together
    · exact together

/-- In each place inside a node the walk has made a visit, and what stands in that place of the result is
the very node that the visit gave. -/
theorem Becomes.visited {node result inner built : Node} (becomes : Becomes node result inner built)
    {context after : Context} (ran : run (normalize node) context = (.ok result, after)) :
    VisitedAs [node] context inner built := by
  -- The induction follows the places down, and each part is visited in the state that the visit of the
  -- whole leads to.
  induction becomes generalizing context after with
  | here => exact ⟨context, after, .here, ran⟩
  | inside entered together _ ih =>
    obtain ⟨state, next, visits, partRan⟩ := visitedAs_of_placed entered ran together
    exact .inside entered (.after visits (ih partRan))

/-- A walk neither makes nor removes paths, but renames them. -/
theorem Plain.path?_normalize {tree result : Tree} {state after : State} (toPaths : state.ToPaths)
    (ran : run (normalize tree) state = (.ok result, after)) :
    result.path? = tree.path?.map state.renamed := by
  cases tree with
  | path label target =>
    rw [State.run_normalize_path toPaths] at ran
    cases ran
    rfl
  | operation label operator type args =>
    rw [normalize, run_bind_ok] at ran
    obtain ⟨results, between, -, ran⟩ := ran
    -- Built anew, rebound or canonical, an operation is no path.
    obtain ⟨-, rfl, -⟩ | ⟨-, parent, segment, bodies, -, rfl, -⟩ | ⟨-, parts, -, rfl, -⟩ :=
      rebuild_ok ran
    all_goals rfl
  | factory label type args =>
    rw [normalize, run_bind_ok] at ran
    obtain ⟨results, between, -, ran⟩ := ran
    cases ran
    rfl
  | _ =>
    cases ran
    rfl

/-- Where replacements are paths, normalizing neither makes nor removes paths, but renames them. -/
theorem path?_of_run {node result : Node} {context after : Context}
    (toPaths : context.plain.ToPaths)
    (ran : run (normalize node) context = (.ok result, after)) :
    result.path? = node.path?.map context.plain.renamed := by
  -- The same holds of the run without handles, and neither result shows any.
  have plainRan := Plain.path?_normalize toPaths (plain_of_runIn (congrArg Prod.fst ran))
  rwa [(Expr.mirrors_unlabel.head result).2.1, (Expr.mirrors_unlabel.head node).2.1] at plainRan

/-- What becomes an operation or an object construction is one. -/
theorem entered_of_run {node result : Node} {context after : Context}
    (toPaths : context.plain.ToPaths) (ran : run (normalize node) context = (.ok result, after))
    (entered : Plain.looksInto result = true) : Plain.looksInto node = true := by
  cases node with
  | operation | factory => rfl
  -- A path stays a path, and the others stay what they are.
  | path label target =>
    have isPath := path?_of_run toPaths ran
    cases result with
    | path => cases entered
    | _ => simp [Expr.path?] at isPath
  | _ =>
    cases ran
    cases entered

/-- What becomes a lambda with a body has been one. -/
theorem body?_of_run {lambda result part : Node} {context after : Context}
    (toPaths : context.plain.ToPaths)
    (ran : run (normalize lambda) context = (.ok result, after)) (built : body? result = some part) :
    ∃ arg, body? lambda = some arg := by
  obtain ⟨label, type, parameter, rfl⟩ := body?_eq_some built
  obtain ⟨results, inner, argsRan, made⟩ :=
    made_of_run (entered_of_run toPaths ran rfl) (Nat.zero_le _) ran
  have length := length_of_normalizeAll argsRan
  -- Built anew or bound to another root, a lambda has as many arguments as before.
  cases made with
  | operation | lambda =>
    obtain ⟨_, arg, rfl⟩ := List.length_eq_two.mp length
    exact ⟨arg, rfl⟩

/-- No canonical form is reached in a path. -/
theorem not_reached_path {node built : Node} {target : Path} (isPath : node.path? = some target)
    (form : built.operator? = some .canonicalFlatMap) : built ∉ node.reached Plain.looksInto := by
  -- Nothing but the path itself is reached in it.
  cases node with
  | path =>
    intro stands
    obtain rfl := List.mem_singleton.mp stands
    cases form
  | _ => cases isPath

/-- No canonical form is reached in a pair object. -/
theorem not_reached_pairNode {element partner : Path} {next : NodeId} {built : Node}
    (form : built.operator? = some .canonicalFlatMap) :
    built ∉ (pairNode element partner next).reached Plain.looksInto := by
  -- Of its operations both are lists.
  have others : ∀ inner ∈ (pairNode element partner next).reached Plain.looksInto,
      inner.operator? ≠ some .canonicalFlatMap := by
    simp [pairNode, Expr.reached, Plain.looksInto, Expr.operator?]
  exact fun stands => others built stands form

/-- No canonical form is reached in the parameters of a selector. -/
theorem not_reached_wrapped {element partner : Path} {label label' first second : NodeId}
    {type type' : ValueType} {built : Node} (form : built.operator? = some .canonicalFlatMap) :
    built ∉ (Expr.operation label .wrapped type
      [.operation label' .list type' [.path first element, .path second partner]]).reached
        Plain.looksInto := by
  -- What is reached are a wrapper, a list and two paths.
  have others : ∀ inner ∈ (Expr.operation label .wrapped type
      [.operation label' .list type' [.path first element, .path second partner]]).reached
        Plain.looksInto, inner.operator? ≠ some .canonicalFlatMap := by
    simp [Expr.reached, Plain.looksInto, Expr.operator?]
  exact fun stands => others built stands form

/-- A canonical form that is reached inside a lambda is reached in the parameter or in the body. -/
theorem reached_lambda {built parameter body : Node} {label : NodeId} {type : ValueType}
    (form : built.operator? = some .canonicalFlatMap)
    (stands : built ∈
      (Expr.operation label .lambda type [parameter, body]).reached Plain.looksInto) :
    built ∈ parameter.reached Plain.looksInto ∨ built ∈ body.reached Plain.looksInto := by
  -- The lambda itself is no canonical form, and both of its arguments are entered.
  rw [Expr.reached_eq] at stands
  rcases List.mem_cons.mp stands with rfl | inside
  · cases form
  · simpa [Plain.looksInto, Expr.args] using inside

/-- Every canonical form inside that of a flat map stands in the source or in the body of a lambda. -/
theorem exists_placedParts {floor label next : NodeId} {type : ValueType}
    {args results : List Node} {parts : FlatMap NodeId} {selector part built : Node}
    {context after : Context} (toPaths : context.plain.ToPaths)
    (ran : run (normalizeAll args) context = (.ok results, after))
    (taken : ofArgs (.operation label .flatMap type args) results = .ok parts)
    (selects : SelectorOf floor parts selector)
    (member : part ∈ (canonicalNode type parts selector next).args)
    (stands : built ∈ part.reached Plain.looksInto)
    (form : built.operator? = some .canonicalFlatMap) :
    ∃ arg part, (arg, part) ∈ placedParts args (canonicalNode type parts selector next) ∧
      built ∈ part.reached Plain.looksInto := by
  obtain ⟨pairLabel, pairType, first', second', rest, rfl, isLambda, partner⟩ := ofArgs_ok taken
  -- The results say what the arguments have been.
  rcases args with _ | ⟨source, _ | ⟨pair, others⟩⟩
  · cases length_of_normalizeAll ran
  · cases length_of_normalizeAll ran
  obtain ⟨state, last, visits, pairRan⟩ :=
    @visitedAs_of_zip _ _ pair (.operation pairLabel .list pairType [first', second']) _ _ ran
      (by simp)
  have statePaths := (visits.paired toPaths).toPaths toPaths
  obtain ⟨results, between, pairArgsRan, made⟩ :=
    made_of_run (entered_of_run statePaths pairRan rfl) (Nat.zero_le _) pairRan
  have two := length_of_normalizeAll pairArgsRan
  obtain _ | _ := made
  obtain ⟨first, second, rfl⟩ := List.length_eq_two.mp two
  obtain ⟨⟨_, _, outerVisits, outerRan⟩, _, _, innerVisits, innerRan⟩ := visitedAs_of_pair ran
  have outerPaths := (outerVisits.paired toPaths).toPaths toPaths
  have innerPaths := (innerVisits.paired toPaths).toPaths toPaths
  rcases List.mem_cons.mp member with rfl | member
  · exact ⟨source, parts.source, List.mem_cons_self, stands⟩
  rcases List.mem_cons.mp member with rfl | member
  · rcases reached_lambda form stands with inParameter | inBody
    · exact absurd inParameter (not_reached_path rfl form)
    · obtain ⟨_, _, _, rfl⟩ := Expr.pathLambda?_eq_some isLambda
      obtain ⟨arg, original⟩ := body?_of_run outerPaths outerRan rfl
      refine ⟨arg, parts.body, List.mem_cons_of_mem _ (List.mem_append_left _ ?_), inBody⟩
      exact mem_placedBody.mpr ⟨original, rfl⟩
  obtain rfl := List.mem_singleton.mp member
  rcases reached_lambda form stands with inParameters | inSelector
  · exact absurd inParameters (not_reached_wrapped form)
  · cases selects with
    | pair => exact absurd inSelector (not_reached_pairNode form)
    | own found =>
      obtain ⟨_, _, missing⟩ | ⟨_, isSelector, known⟩ := partner
      · exact absurd (missing.symm.trans found) (by simp)
      cases known.symm.trans found
      obtain ⟨_, _, _, rfl⟩ := Expr.pathLambda?_eq_some isSelector
      obtain ⟨arg, original⟩ := body?_of_run innerPaths innerRan rfl
      refine ⟨arg, _, List.mem_cons_of_mem _ (List.mem_append_right _ ?_), inSelector⟩
      exact mem_placedBody.mpr ⟨original, rfl⟩

/-- Every canonical form inside what is made of a node stands in what has a place there. -/
theorem exists_placed {floor : NodeId} {node result part built : Node} {results : List Node}
    {context after : Context} (toPaths : context.plain.ToPaths)
    (ran : run (normalizeAll node.args) context = (.ok results, after))
    (made : MadeOf floor node results result) (member : part ∈ result.args)
    (stands : built ∈ part.reached Plain.looksInto)
    (form : built.operator? = some .canonicalFlatMap) :
    ∃ arg part, (arg, part) ∈ placed node result ∧ built ∈ part.reached Plain.looksInto := by
  have length := length_of_normalizeAll ran
  cases made with
  | factory =>
    obtain ⟨arg, together⟩ := exists_pair_of_result length member
    exact ⟨arg, part, together, stands⟩
  | @operation label label' operator type args _ settled =>
    unfold placed
    split
    -- A flat map never stays one.
    · rename_i same
      cases same
      cases settled
    -- The parameter of a lambda is a path, in which nothing else stands.
    · rename_i same
      cases same
      obtain ⟨first, others, between, rfl, firstRan, -⟩ := run_normalizeAll_cons_ok ran
      have isPath := path?_of_run toPaths firstRan
      rcases List.mem_cons.mp member with rfl | member
      · exact absurd stands (not_reached_path isPath form)
      · obtain ⟨arg, together⟩ := exists_pair_of_result (Nat.succ.inj length) member
        exact ⟨arg, part, together, stands⟩
    · obtain ⟨arg, together⟩ := exists_pair_of_result length member
      exact ⟨arg, part, together, stands⟩
  | @lambda _ _ _ _ args bodies _ _ _ =>
    cases args with
    | nil => cases ran
    | cons first rest =>
      obtain ⟨result, others, between, same, firstRan, -⟩ := run_normalizeAll_cons_ok ran
      cases same
      obtain ⟨_, _, rfl⟩ := path_of_run firstRan
      rcases List.mem_cons.mp member with rfl | member
      · exact absurd stands (not_reached_path rfl form)
      · obtain ⟨arg, together⟩ := exists_pair_of_result (Nat.succ.inj length) member
        exact ⟨arg, part, together, stands⟩
  | flatMap taken selects => exact exists_placedParts toPaths ran taken selects member stands form

/-- Every canonical form in what a node becomes has its place there. -/
theorem exists_becomes {node result built : Node} {context after : Context}
    (toPaths : context.plain.ToPaths)
    (ran : run (normalize node) context = (.ok result, after))
    (stands : built ∈ result.reached Plain.looksInto)
    (form : built.operator? = some .canonicalFlatMap) : ∃ inner, Becomes node result inner built := by
  -- The body of a lambda of a flat map is no argument, but it is reached in one.
  induction node using Expr.reached_induct Plain.looksInto generalizing context result after with
  | step node ih =>
    rw [Expr.reached_eq] at stands
    rcases List.mem_cons.mp stands with rfl | inside
    · exact ⟨node, .here⟩
    split at inside
    · rename_i resultEntered
      obtain ⟨part, member, stands⟩ := List.mem_flatMap.mp inside
      have entered := entered_of_run toPaths ran resultEntered
      obtain ⟨results, inner, argsRan, made⟩ := made_of_run entered (Nat.zero_le _) ran
      have cleared : ({ context with replaced := false } : Context).plain.ToPaths := toPaths
      obtain ⟨arg, part, together, stands⟩ := exists_placed cleared argsRan made member stands form
      obtain ⟨state, next, visits, partRan⟩ := visitedAs_of_placed entered ran together
      obtain ⟨top, member, inArg⟩ := visits.reached
      have statePaths := (visits.paired toPaths).toPaths toPaths
      obtain ⟨inner, becomes⟩ := ih top member arg inArg statePaths partRan stands
      exact ⟨inner, .inside entered together becomes⟩
    · cases inside

end IndexQuery.FlatMap
