import IndexQuery.Proofs.Pass.Sightings

/-! What the flat-map pass does to scopes: where every path that its result reads comes from. -/

namespace IndexQuery

/-- The same path read inside lambdas that bind at least the same names. -/
def Reading.Under (inner outer : Reading) : Prop :=
  outer.target = inner.target ∧
    ∀ parameter ∈ inner.parameters,
      ∃ binder ∈ outer.parameters, binder.rootName = parameter.rootName

/-- What is free inside more lambdas is free inside fewer. -/
theorem Reading.Under.isFree {inner outer : Reading} (under : inner.Under outer)
    (free : outer.IsFree) : inner.IsFree := by
  -- A parameter that bound the root inside would have one beside it that binds it outside.
  intro parameter member same
  obtain ⟨binder, among, bound⟩ := under.2 parameter member
  exact free binder among (by rw [bound, same, under.1])

namespace FlatMap

open Steps

namespace Plain

/-- Where a path that is read after a walk comes from: the walk has seen it, and called it what it is
called now. In place of each parameter around it stands one that binds the root of what that parameter was
called after its own visit. -/
structure Traces (seen : Sighted) (moved : Reading) : Prop where
  target : moved.target = seen.target.renamed
  bound : ∀ parameter ∈ seen.parameters,
    ∃ binder ∈ moved.parameters, binder.rootName = parameter.renamed.rootName

namespace Traces

variable {seen : Sighted} {inner outer : Reading}

/-- More lambdas around the result change nothing about where it comes from. -/
theorem under (traces : Traces seen inner) (under : inner.Under outer) : Traces seen outer := by
  -- The binder that stands for a parameter has one of the same name around the result.
  obtain ⟨target, binders⟩ := under
  refine ⟨target.trans traces.target, fun parameter member => ?_⟩
  obtain ⟨binder, among, same⟩ := traces.bound parameter member
  obtain ⟨outerBinder, among, kept⟩ := binders binder among
  exact ⟨outerBinder, among, kept.trans same⟩

/-- A lambda whose parameters are bound again stays around what its bodies read. -/
theorem inside (traces : Traces seen inner) {parameters : List Sighting} {binders : List Path}
    (rebound : ∀ parameter ∈ parameters,
      ∃ binder ∈ binders, binder.rootName = parameter.renamed.rootName) :
    Traces (seen.inside parameters) (inner.inside binders) := by
  -- The parameters of the lambda come before those that stood around the reading already.
  refine ⟨traces.target, fun parameter member => ?_⟩
  rcases List.mem_append.mp member with isNew | isOld
  · obtain ⟨binder, among, same⟩ := rebound parameter isNew
    exact ⟨binder, List.mem_append_left _ among, same⟩
  · obtain ⟨binder, among, same⟩ := traces.bound parameter isOld
    exact ⟨binder, List.mem_append_right _ among, same⟩

end Traces

/-- A walk keeps track of scopes between what it sees and what its results bind and read: for each
parameter the root of its new name is bound, and every free reading of a result comes from one that has
been seen. -/
structure KeepsScopes (before : State) (parameters : List Sighting) (sighted : List Sighted)
    (binders : List Path) (readings : List Reading) (after : State) : Prop where
  grown : Grown before after
  earlier : ∀ parameter ∈ parameters, Grown parameter.state after
  rebound : ∀ parameter ∈ parameters,
    ∃ binder ∈ binders, binder.rootName = parameter.renamed.rootName
  within : ∀ seen ∈ sighted, seen.Within before after
  traced : ∀ moved ∈ readings, moved.IsFree → ∃ seen ∈ sighted, Traces seen moved

namespace KeepsScopes

variable {before between after : State} {parameters parameters' : List Sighting}
  {sighted sighted' : List Sighted} {binders binders' : List Path}
  {readings readings' : List Reading}

/-- A walk that sees nothing keeps track of scopes, whatever it registers. -/
theorem nil (grown : Grown before after) : KeepsScopes before [] [] [] [] after :=
  ⟨grown, by simp, by simp, by simp, by simp⟩

/-- Two walks, one after the other, are a walk. -/
theorem append (first : KeepsScopes before parameters sighted binders readings between)
    (second : KeepsScopes between parameters' sighted' binders' readings' after) :
    KeepsScopes before (parameters ++ parameters') (sighted ++ sighted') (binders ++ binders')
      (readings ++ readings') after := by
  -- Every sighting keeps its state, so that only the states at the ends are widened.
  refine ⟨first.grown.trans second.grown, ?_, ?_, ?_, ?_⟩
  · intro parameter member
    rcases List.mem_append.mp member with member | member
    · exact (first.earlier parameter member).trans second.grown
    · exact second.earlier parameter member
  · intro parameter member
    rcases List.mem_append.mp member with member | member
    · obtain ⟨binder, among, same⟩ := first.rebound parameter member
      exact ⟨binder, List.mem_append_left _ among, same⟩
    · obtain ⟨binder, among, same⟩ := second.rebound parameter member
      exact ⟨binder, List.mem_append_right _ among, same⟩
  · intro seen member
    rcases List.mem_append.mp member with member | member
    · exact (first.within seen member).widen (.refl _) second.grown
    · exact (second.within seen member).widen first.grown (.refl _)
  · intro moved member free
    rcases List.mem_append.mp member with member | member
    · obtain ⟨seen, among, traces⟩ := first.traced moved member free
      exact ⟨seen, List.mem_append_left _ among, traces⟩
    · obtain ⟨seen, among, traces⟩ := second.traced moved member free
      exact ⟨seen, List.mem_append_right _ among, traces⟩

/-- An expression that binds nothing as a parameter keeps track of scopes in what it reads. -/
theorem bindsNothing (keeps : KeepsScopes before parameters sighted binders readings after) :
    KeepsScopes before [] sighted [] readings after :=
  ⟨keeps.grown, by simp, by simp, keeps.within, keeps.traced⟩

/-- A lambda keeps track of scopes in its bodies, which are visited after its parameter. -/
theorem lambda (head : KeepsScopes before parameters sighted binders readings between)
    (tail : KeepsScopes between parameters' sighted' binders' readings' after) :
    KeepsScopes before [] (sighted'.map (.inside parameters)) []
      (readings'.map (.inside binders)) after := by
  refine ⟨head.grown.trans tail.grown, by simp, by simp, ?_, ?_⟩
  -- The parameters have been seen before the bodies.
  · intro seen member
    obtain ⟨inner, among, rfl⟩ := List.mem_map.mp member
    exact ((tail.within inner among).inside head.earlier).widen head.grown (.refl _)
  -- What is free inside the lambda is free in the body that reads it.
  · intro moved member free
    obtain ⟨inner, read, rfl⟩ := List.mem_map.mp member
    obtain ⟨-, innerFree⟩ := (inner.isFree_inside _).mp free
    obtain ⟨seen, among, traces⟩ := tail.traced inner read innerFree
    exact ⟨_, List.mem_map.mpr ⟨seen, among, rfl⟩, traces.inside head.rebound⟩

/-- What is read freely can be put under more lambdas. -/
theorem under (keeps : KeepsScopes before [] sighted [] readings after)
    (inner : ∀ outer ∈ readings', outer.IsFree → ∃ inner ∈ readings, inner.Under outer) :
    KeepsScopes before [] sighted [] readings' after := by
  -- A reading that is free under more lambdas is free under fewer.
  refine ⟨keeps.grown, by simp, by simp, keeps.within, ?_⟩
  intro outer read free
  obtain ⟨inner, among, under⟩ := inner outer read free
  obtain ⟨seen, wasSeen, traces⟩ := keeps.traced inner among (under.isFree free)
  exact ⟨seen, wasSeen, traces.under under⟩

end KeepsScopes

/-- What a walk does to scopes, if replacements are paths at its start. -/
abbrev Scoping (tree : Tree) (before : State) (result : Tree) (after : State) : Prop :=
  before.ToPaths → KeepsScopes before (seenParameters tree before) (sightings tree before)
    result.parameters result.readings after

/-- Along a list, scopes are kept track of from expression to expression. -/
theorem Walked.keepsScopes {args results : List Tree} {before after : State}
    (walked : Walked (Ran Scoping) args before results after) (toPaths : before.ToPaths) :
    KeepsScopes before (seenParametersAll args before) (sightingsAll args before)
      (results.flatMap Expr.parameters) (results.flatMap Expr.readings) after := by
  induction walked with
  | nil => exact .nil (.refl _)
  | cons head tail ih =>
    obtain ⟨ran, first⟩ := head
    have first := first toPaths
    -- The others are seen from the state that the run of the first one has left.
    rw [seenParametersAll, sightingsAll, ran, List.flatMap_cons, List.flatMap_cons]
    exact first.append (ih (first.grown.toPaths toPaths))

/-- An operation keeps track of scopes if the walk along its arguments does. -/
theorem Walked.keepsScopes_operation {args results : List Tree} {before after : State}
    (walked : Walked (Ran Scoping) args before results after) (toPaths : before.ToPaths)
    (operator : Operator) (type : ValueType) :
    KeepsScopes before (seenParameters (.operation () operator type args) before)
      (sightings (.operation () operator type args) before)
      (Expr.operation () operator type results).parameters
      (Expr.operation () operator type results).readings after := by
  -- A lambda and a sum take their first arguments apart, and any other operation reads them all.
  obtain ⟨parameter, bodies, rfl, rfl⟩ | ⟨source, summed, rest, rfl, rfl⟩ | all :=
    Expr.operation_cases operator args
  · obtain _ | ⟨⟨ran, head⟩, tail⟩ := walked
    have first := head toPaths
    rw [sightings, Expr.readings_lambda, ran]
    exact first.lambda (tail.keepsScopes (first.grown.toPaths toPaths))
  · obtain _ | ⟨⟨ran, head⟩, _ | ⟨⟨skippedRan, skipped⟩, tail⟩⟩ := walked
    have first := head toPaths
    have toPaths := first.grown.toPaths toPaths
    have second := skipped toPaths
    have third := tail.keepsScopes (second.grown.toPaths toPaths)
    -- The walk goes through what is summed between the source and the rest.
    rw [sightings, Expr.readings_sum, ran, skippedRan, List.flatMap_cons]
    have read := ((first.append (.nil second.grown)).append third).bindsNothing
    rwa [List.append_nil, List.append_nil] at read
  · have keeps := walked.keepsScopes toPaths
    rw [sightings_operation all, Expr.readings_operation (by rwa [walked.length_eq])]
    -- As a parameter it binds nothing, unless it wraps or lists what does.
    cases operator with
    | wrapped | list =>
      rw [seenParameters, Expr.parameters, Expr.parametersAll_eq_flatMap]
      exact keeps
    | _ => exact keeps.bindsNothing

/-- A path that is read is called what it is called after its renaming. -/
theorem keepsScopes_path (target : Path) (state : State) :
    KeepsScopes state (seenParameters (.path () target) state) (sightings (.path () target) state)
      [state.renamed target] [⟨state.renamed target, []⟩] state := by
  -- The path is visited in this state, and there are no lambdas around it yet.
  have traces : Traces ⟨⟨target, state⟩, []⟩ ⟨state.renamed target, []⟩ := ⟨rfl, by simp⟩
  have within : Sighted.Within state ⟨⟨target, state⟩, []⟩ state := ⟨.refl _, .refl _, by simp⟩
  rw [seenParameters, sightings]
  refine ⟨.refl _, ?_, ?_, ?_, ?_⟩
  · simpa using Grown.refl state
  · simp [Sighting.renamed]
  · simpa using within
  · simpa using fun _ => traces

/-- A lambda that binds a single path reads its body inside that path. -/
theorem readings_of_pathLambda {tree body : Tree} {parameter : Path}
    (isLambda : tree.pathLambda? = some (parameter, body)) :
    tree.readings = body.readings.map (.inside [parameter]) := by
  obtain ⟨label, type, inner, rfl⟩ := Expr.pathLambda?_eq_some isLambda
  simp [Expr.readings, Expr.parameters]

/-- The canonical form of a flat map reads its source, its body inside the root of its variable, and
its selector inside both variables. -/
theorem mem_readings_canonical {type : ValueType} {flatMap : FlatMap Unit} {selector : Tree}
    {reading : Reading} :
    reading ∈ (canonical type flatMap selector).readings ↔
      reading ∈ flatMap.source.readings ∨
        (∃ inner ∈ flatMap.body.readings, inner.inside [flatMap.element.rootPath] = reading) ∨
          ∃ inner ∈ selector.readings,
            inner.inside [flatMap.element.rootPath, flatMap.partner] = reading := by
  simp [canonical, lambda, Expr.readings, Expr.parameters]

/-- A reading inside a parameter is under one inside more parameters that bind its name too. -/
theorem under_inside {reading : Reading} {parameter : Path} {binders : List Path}
    (bound : ∃ binder ∈ binders, binder.rootName = parameter.rootName) :
    (reading.inside [parameter]).Under (reading.inside binders) := by
  -- Only the parameter of the one lambda has to be found among the binders.
  refine ⟨rfl, fun inner member => ?_⟩
  rcases List.mem_cons.mp member with rfl | member
  · obtain ⟨binder, among, same⟩ := bound
    exact ⟨binder, List.mem_append_left _ among, same⟩
  · exact ⟨inner, List.mem_append_right _ member, rfl⟩

/-- The canonical form of a flat map reads freely only what the flat map reads. -/
theorem readings_canonicalize {tree : Tree} {type : ValueType} {args : List Tree}
    {flatMap : FlatMap Unit} (parts : ofArgs tree args = .ok flatMap) :
    ∀ outer ∈ (canonical type flatMap (selectorOf flatMap)).readings, outer.IsFree →
      ∃ inner ∈ args.flatMap Expr.readings, inner.Under outer := by
  obtain ⟨label, pairType, first, second, rest, rfl, isLambda, partner⟩ := ofArgs_ok parts
  let pair : Tree := .operation label .list pairType [first, second]
  have fromFirst (reading : Reading) (read : reading ∈ first.readings) :
      reading ∈ (flatMap.source :: pair :: rest).flatMap Expr.readings := by
    simp [pair, Expr.readings, read]
  have fromSecond (reading : Reading) (read : reading ∈ second.readings) :
      reading ∈ (flatMap.source :: pair :: rest).flatMap Expr.readings := by
    simp [pair, Expr.readings, read]
  intro outer read free
  obtain source | ⟨inner, body, rfl⟩ | ⟨inner, selector, rfl⟩ := mem_readings_canonical.mp read
  · exact ⟨outer, by simp [source], rfl, fun parameter member => ⟨parameter, member, rfl⟩⟩
  -- The body was below the first lambda, whose parameter has the root that is bound now.
  · refine ⟨inner.inside [flatMap.element], fromFirst _ ?_, under_inside ⟨_, .head _, rfl⟩⟩
    rw [readings_of_pathLambda isLambda]
    exact List.mem_map.mpr ⟨inner, body, rfl⟩
  · obtain ⟨_, rfl, missing⟩ | ⟨given, isSelector, found⟩ := partner
    -- The pair reads the two variables only, and the selector binds both.
    · obtain ⟨unbound, -⟩ := (inner.isFree_inside _).mp free
      rw [selectorOf, missing] at selector
      have isVariable : inner.target = flatMap.element ∨ inner.target = flatMap.partner := by
        simp only [Option.getD_none, pairObject, field, Expr.readings, Expr.readingsAll,
          List.append_nil, List.nil_append, List.cons_append, List.mem_cons, List.not_mem_nil,
          or_false] at selector
        rcases selector with rfl | rfl <;> simp
      rcases isVariable with same | same
      · simp [same, Path.rootPath, Path.rootName, Path.rootSegment] at unbound
      · simp [same] at unbound
    -- A selector of its own was below the second lambda, and both variables are bound now.
    · rw [selectorOf, found] at selector
      refine ⟨inner.inside [flatMap.partner], fromSecond _ ?_,
        under_inside ⟨_, .tail _ (.head _), rfl⟩⟩
      rw [readings_of_pathLambda isSelector]
      exact List.mem_map.mpr ⟨inner, selector, rfl⟩

/-- A walk that succeeds keeps track of scopes. -/
theorem normalize_keepsScopes {tree result : Tree} {state after : State}
    (ran : run (normalize tree) state = (.ok result, after)) (toPaths : state.ToPaths) :
    KeepsScopes state (seenParameters tree state) (sightings tree state) result.parameters
      result.readings after := by
  -- Only flat maps and lambdas are more than their arguments, and both bind at least what they did.
  refine normalize_induct_ran (motive := Scoping) ?still ?path ?factory ?operation ?lambda ?flatMap
    ran toPaths
  case still =>
    intro tree state leaf noPath _
    cases tree with
    | path => cases noPath
    | operation | factory => cases leaf
    | _ => exact .nil (.refl state)
  case path =>
    intro target state renamed? renamed toPaths
    rw [State.getD_rename toPaths renamed]
    exact keepsScopes_path target state
  case factory =>
    intro type args state results after walked toPaths
    rw [sightings, Expr.readings, Expr.readingsAll_eq_flatMap]
    exact (walked.keepsScopes toPaths).bindsNothing
  case operation =>
    intro operator type args state results after walked _ toPaths
    exact walked.keepsScopes_operation toPaths operator type
  case lambda =>
    intro type args state parent segment bodies after walked toPaths
    -- The root of the parameter binds the name that the parameter bound.
    refine (walked.keepsScopes_operation toPaths .lambda type).under ?_
    simp only [Expr.readings_lambda, List.mem_map]
    rintro outer ⟨reading, read, rfl⟩ _
    exact ⟨_, ⟨reading, read, rfl⟩, under_inside ⟨_, .head _, rfl⟩⟩
  case flatMap =>
    intro type args state results between parts walked taken toPaths
    have keeps := (walked.keepsScopes_operation toPaths .flatMap type).append
      (.nil (.settle between parts))
    simp only [List.append_nil] at keeps
    refine keeps.under ?_
    rw [Expr.readings_operation rfl]
    exact readings_canonicalize taken

/-- A path keeps its name, since it is not registered when it is visited, although a lambda around it has
bound its root. Every lambda that has done so is bound to something else, since its parameter is registered
when it is visited: a registered path covers the parameter, but not the path. -/
structure Sighted.LosesBinder (seen : Sighted) : Prop where
  missed : seen.target.state.Misses seen.target.path
  wasBound : ∃ parameter ∈ seen.parameters, parameter.path.rootName = seen.target.path.rootName
  rebound : ∀ parameter ∈ seen.parameters, parameter.path.rootName = seen.target.path.rootName →
    ∃ entry ∈ parameter.state.substitutions,
      entry.1.Covers parameter.path ∧ ¬ entry.1.Covers seen.target.path

/-- A path is registered when it is visited, and moves to a member of a variable to which no parameter
around it is renamed. -/
structure Sighted.Escapes (seen : Sighted) (moved : Path) : Prop where
  moves : seen.target.state.Moves seen.target.path moved
  unbound : ∀ parameter ∈ seen.parameters, parameter.renamed.rootName ≠ moved.rootName

/-- What is read freely after a walk was free before, or one of the two things has happened to it. -/
theorem Traces.free {seen : Sighted} {moved : Reading} {before after : State}
    (traces : Traces seen moved) (within : seen.Within before after) (toPaths : before.ToPaths)
    (free : moved.IsFree) :
    (seen.reading.IsFree ∧ seen.target.path = moved.target) ∨
      (seen.target.path = moved.target ∧ seen.LosesBinder) ∨ seen.Escapes moved.target := by
  have targetPaths := within.first.toPaths toPaths
  have target := traces.target
  -- No binder around the path now has its root, and there is one for each parameter around it before.
  have different : ∀ parameter ∈ seen.parameters,
      parameter.renamed.rootName ≠ moved.target.rootName := by
    intro parameter member
    obtain ⟨binder, among, same⟩ := traces.bound parameter member
    rw [← same]
    exact free binder among
  obtain ⟨kept, same⟩ | ⟨-, moves⟩ := State.rename_eq targetPaths seen.target.path
  · have missed := State.misses_of_rename kept
    rw [Sighting.renamed, same] at target
    by_cases wasBound : ∃ parameter ∈ seen.parameters,
        parameter.path.rootName = seen.target.path.rootName
    · refine .inr (.inl ⟨target.symm, missed, wasBound, fun parameter member binds => ?_⟩)
      have earlier := within.around parameter member
      have parameterPaths : parameter.state.ToPaths := fun entry registered =>
        targetPaths entry (earlier.mem registered)
      obtain ⟨-, same⟩ | ⟨-, key, replacement, segments, registered, covered, -⟩ :=
        State.rename_eq parameterPaths parameter.path
      -- Had the parameter kept its name, it would still bind the path.
      · refine absurd ?_ (different parameter member)
        rw [Sighting.renamed, same, binds, target]
      · exact ⟨_, registered, ⟨segments, covered⟩, missed _ (earlier.mem registered)⟩
    · refine .inl ⟨fun parameter member binds => wasBound ?_, target.symm⟩
      obtain ⟨sighting, among, rfl⟩ := List.mem_map.mp member
      exact ⟨sighting, among, binds⟩
  · rw [← Sighting.renamed, ← target] at moves
    exact .inr (.inr ⟨moves, different⟩)

end Plain

/-- A name that the result of the pass reads freely is free before, or a path explains it that has been
read and is read freely now. In place of each lambda around that path stands one that binds the root of
its parameter, unless the parameter was registered when the lambda was visited: then it binds the root of
what the parameter has moved to. Either lambdas that have bound the name are bound to something else in
this way, and the path was not registered when it was visited and is left behind. Or it was, and has moved
to a member of an invented variable, the name of which is in question and which none of these lambdas
binds. -/
theorem freeRoots_normalize {node result : Node} {options : Options} {supply : NodeId} {name : String}
    (done : (Pass.normalizeFlatMaps.run options node supply).1 = .ok result)
    (free : name ∈ result.freeRoots) :
    let start := (Context.start options supply).plain
    let after := (Pass.normalizeFlatMaps.run options node supply).2.plain
    name ∈ node.freeRoots ∨
      ∃ seen ∈ Plain.sightings node.unlabel start, ∃ moved ∈ result.readings,
        moved.IsFree ∧ moved.target.rootName = name ∧ Plain.Traces seen moved ∧
          ((seen.target.path.rootName = name ∧ seen.LosesBinder) ∨
            seen.Escapes moved.target ∧
              ∃ number, options.first ≤ number ∧ number < after.nextTransient ∧
                name = Context.transientName options number) := by
  intro start after
  have startPaths : start.ToPaths := by simp [start, plain_start, Plain.State.ToPaths]
  -- The plain walk beside the pass keeps track of scopes, and labels have no part in them.
  have keeps := Plain.normalize_keepsScopes (plain_of_runIn done) startPaths
  have traced := keeps.traced
  simp only [Expr.readings_unlabel] at traced
  obtain ⟨moved, read, isFree, rfl⟩ := Expr.mem_freeRoots.mp free
  obtain ⟨seen, wasSeen, traces⟩ := traced moved read isFree
  have within := keeps.within seen wasSeen
  obtain ⟨wasFree, same⟩ | ⟨same, loses⟩ | escapes := traces.free within startPaths isFree
  · have wasRead := Plain.reading_of_sighting wasSeen
    exact .inl (Expr.mem_freeRoots.mpr ⟨_, wasRead, wasFree, congrArg Path.rootName same⟩)
  · exact .inr ⟨seen, wasSeen, moved, read, isFree, rfl, traces, .inl ⟨by rw [same], loses⟩⟩
  -- At the start nothing is registered, so the registration is that of an invented variable.
  · obtain ⟨key, target, segments, registered, -, below⟩ := escapes.moves
    obtain ⟨added, extended, invented⟩ := keeps.grown.registered
    have registered := within.last.mem registered
    rw [extended] at registered
    obtain ⟨number, member, type, first, last, same⟩ :=
      invented _ (by simpa [start, plain_start] using registered)
    cases same
    refine .inr ⟨seen, wasSeen, moved, read, isFree, rfl, traces,
      .inr ⟨escapes, number, first, last, ?_⟩⟩
    rw [below, Path.rootName_extend]
    rfl

/-- A path visited after a flat map that registers its root. -/
def escaping : Node :=
  childPairsThen (.path 10 ((Path.ofVariable "x" (.object "Family")).property "Name" .string))

/-- A lambda visited after a flat map that registers its parameter, with a body that reads a variable
of the same name and another type. -/
def unbinding : Node :=
  childPairsThen (.operation 12 .lambda .expression
    [.path 10 (.ofVariable "x" (.object "Family")),
      .path 11 ((Path.ofVariable "x" (.object "Person")).property "Name" .string)])

/-- The result of the pass on the path reads the invented variable freely. -/
theorem normalize_escaping :
    ∃ result, (Pass.normalizeFlatMaps.run {} escaping 11).1 = .ok result ∧
      "transId_0" ∈ result.freeRoots := by
  -- The path below the registered root has moved to the invented variable.
  have reads : (Pass.normalizeFlatMaps.run {} escaping 11).1.toOption.any
      (fun result => decide ("transId_0" ∈ result.freeRoots)) = true := by decide +kernel
  obtain ⟨result, done, free⟩ := exists_of_any reads
  exact ⟨result, done, of_decide_eq_true free⟩

/-- The path has been registered when it is visited, and has moved to a member of the invented variable,
which no lambda binds. -/
theorem freeRoots_normalize_escaping :
    ∃ result, (Pass.normalizeFlatMaps.run {} escaping 11).1 = .ok result ∧
      ∃ seen ∈ Plain.sightings escaping.unlabel (Context.start {} 11).plain,
        ∃ moved ∈ result.readings, moved.IsFree ∧ moved.target.rootName = "transId_0" ∧
          Plain.Traces seen moved ∧ seen.Escapes moved.target := by
  obtain ⟨result, done, free⟩ := normalize_escaping
  have unread : ∀ reading ∈ escaping.readings, reading.target.rootName ≠ "transId_0" := by
    decide +kernel
  -- The name is invented, so nothing in the expression reads it, bound or free.
  obtain isFree | ⟨seen, wasSeen, moved, read, isFree, same, traces, ⟨kept, -⟩ | ⟨escapes, -⟩⟩ :=
    freeRoots_normalize done free
  · exact absurd isFree (by decide +kernel)
  · exact absurd kept (unread _ (Plain.reading_of_sighting wasSeen))
  · exact ⟨result, done, seen, wasSeen, moved, read, isFree, same, traces, escapes⟩

/-- The pass can make names free that are not free before: that of an invented variable, and that of
a variable that a lambda binds. -/
theorem freeRoots_normalize_not_subset :
    (∃ result, (Pass.normalizeFlatMaps.run {} escaping 11).1 = .ok result ∧
      "transId_0" ∈ result.freeRoots ∧ "transId_0" ∉ escaping.freeRoots) ∧
    ∃ result, (Pass.normalizeFlatMaps.run {} unbinding 13).1 = .ok result ∧
      "x" ∈ result.freeRoots ∧ "x" ∉ unbinding.freeRoots := by
  refine ⟨?_, ?_⟩
  · obtain ⟨result, done, free⟩ := normalize_escaping
    exact ⟨result, done, free, by decide +kernel⟩
  -- The lambda is bound to the invented variable, and the path of another type is left behind.
  · have reads : (Pass.normalizeFlatMaps.run {} unbinding 13).1.toOption.any
        (fun result => decide ("x" ∈ result.freeRoots)) = true := by decide +kernel
    obtain ⟨result, done, free⟩ := exists_of_any reads
    exact ⟨result, done, of_decide_eq_true free, by decide +kernel⟩

end FlatMap

end IndexQuery
