import IndexQuery.Proofs.Pass.FlatMapOutlines
import IndexQuery.Proofs.Pass.QuantifierFaults

/-! The passes commute: markers can be expanded before flat maps are normalized, or afterwards. -/

namespace IndexQuery

open Steps AnyQuantifier

namespace FlatMap.Plain

/-- A walk over what expansion makes of something, beside a walk over the thing itself: it fails in the
same state, or gives the expansion of the result, in which all markers are compared. -/
def Beside {α : Type} (ran expanded : Except ShapeError α × State) (view : α → α)
    (compared : α → Prop) : Prop :=
  match ran with
  | (.error _, after) => ∃ fault, expanded = (.error fault, after)
  | (.ok result, after) => expanded = (.ok (view result), after) ∧ compared result

/-- Normalizing a tree commutes with expanding its markers. -/
def Commutes (tree : Tree) (state : State) : Prop :=
  Beside (run (normalize tree) state) (run (normalize (quantified tree)) state) quantified
    MarkersCompared

/-- An operation that is not rewritten, over a path and another operand, is normalized by renaming the
path and normalizing the operand. -/
theorem run_normalize_pair {state : State} (toPaths : state.ToPaths) {operator : Operator}
    (notLambda : operator ≠ .lambda) (notFlatMap : operator ≠ .flatMap) (type : ValueType)
    (target : Path) (operand : Tree) :
    run (normalize (.operation () operator type [.path () target, operand])) state =
      match run (normalize operand) state with
      | (.error fault, after) => (.error fault, after)
      | (.ok result, after) =>
        (.ok (.operation () operator type [.path () (state.renamed target), result]), after) := by
  -- The path comes first and leaves the state, so the operand is visited in the same one.
  rw [normalize, run_bind, run_normalizeAll_cons, State.run_normalize_path toPaths]
  dsimp only
  rw [run_normalizeAll_cons]
  rcases run (normalize operand) state with ⟨fault | result, after⟩
  · rfl
  · have settled : rewrites operator [.path () (state.renamed target), result] = false := by
      cases operator <;> simp_all [rewrites]
    change run (rebuild _ operator type [_, result]) after = _
    rw [rebuild_of_not_rewrites settled]
    rfl

/-- A comparison of a path through a marker commutes if its other operand does. -/
theorem commutes_comparison {state : State} (tame : state.Tame) {operator : Operator}
    (compares : operator.compares = true) (type : ValueType) {target : Path}
    (single : target.markers = 1) (rooted : target.rootSegment.kind ≠ .any) {compared : Tree}
    (commutes : Commutes compared state) :
    Commutes (.operation () operator type [.path () target, compared]) state := by
  -- Either order renames the path in front first, and then normalizes the other operand.
  have toPaths := tame.toMembers.toPaths
  have notLambda : operator ≠ .lambda := by
    rintro rfl
    simp [Operator.compares] at compares
  have notFlatMap : operator ≠ .flatMap := by
    rintro rfl
    simp [Operator.compares] at compares
  obtain ⟨split, apart⟩ := split_of_single single rooted
  have apart' := tame.split_renamed apart
  -- The variable of the quantifier keeps its name, and the collection is renamed as in the path.
  have element : state.renamed split.element = split.element :=
    tame.renamed_element (rootName_of_split apart).2
  rw [Commutes, quantified_comparison apart, Plain.quantifier,
    run_normalize_pair toPaths notLambda notFlatMap,
    run_normalize_pair toPaths (by decide) (by decide),
    run_normalize_pair toPaths notLambda notFlatMap, element]
  rw [Commutes] at commutes
  generalize run (normalize compared) state = ran at commutes ⊢
  rcases ran with ⟨fault | result, after⟩
  · exact ⟨fault, rfl⟩
  · obtain ⟨-, inside⟩ := commutes
    obtain ⟨single, rooted⟩ := markers_of_split apart'
    refine ⟨?_, .comparison compares single rooted inside⟩
    rw [quantified_comparison apart']
    rfl

/-- A list commutes if its members do, each in the state that the earlier ones leave. -/
theorem commutes_normalizeAll {args : List Tree} {state : State}
    (each : ∀ arg ∈ args, ∀ before : State, before.Tame → Commutes arg before)
    (apart : ∀ arg ∈ args, AliasesApart arg) (tame : state.Tame) :
    Beside (run (normalizeAll args) state) (run (normalizeAll (args.map quantified)) state)
      (List.map quantified) (fun results => ∀ result ∈ results, MarkersCompared result) := by
  -- Both walks end in the same state after each member, which stays apart from quantifiers.
  induction args generalizing state with
  | nil => exact ⟨rfl, by simp⟩
  | cons first rest ih =>
    obtain ⟨head, tail⟩ := List.forall_mem_cons.mp each
    obtain ⟨firstApart, restApart⟩ := List.forall_mem_cons.mp apart
    have commutes := head state tame
    rw [Commutes] at commutes
    rw [List.map_cons, run_normalizeAll_cons, run_normalizeAll_cons]
    rcases ran : run (normalize first) state with ⟨fault | result, between⟩
    · rw [ran] at commutes
      obtain ⟨fault', same⟩ := commutes
      exact ⟨fault', by rw [same]⟩
    · rw [ran] at commutes
      obtain ⟨same, compared⟩ := commutes
      have others := ih tail restApart (normalize_tame ran firstApart tame).2
      rw [same]
      dsimp only
      generalize run (normalizeAll rest) between = ran at others ⊢
      rcases ran with ⟨fault | results, after⟩
      · obtain ⟨fault', same⟩ := others
        exact ⟨fault', by rw [same]⟩
      · obtain ⟨same, allCompared⟩ := others
        exact ⟨by rw [same]; rfl, List.forall_mem_cons.mpr ⟨compared, allCompared⟩⟩

/-- Whether an operation is rewritten does not change with the expansion of its arguments. -/
theorem rewrites_quantified (operator : Operator) (args : List Tree) :
    rewrites operator (args.map quantified) = rewrites operator args := by
  cases args with
  | nil => rfl
  | cons first rest =>
    -- Of the arguments only a path matters, and only the first one.
    cases first with
    | operation label inner type args =>
      rw [List.map_cons, quantified]
      split
      all_goals cases operator <;> rfl
    | _ =>
      rw [List.map_cons, quantified]
      cases operator <;> rfl

/-- Putting a flat map into canonical form commutes with expanding its parts. -/
theorem commutes_canonicalize {args : List Tree} (inside : ∀ arg ∈ args, MarkersCompared arg)
    (tree tree' : Tree) (type : ValueType) (state : State) :
    Beside (run (canonicalize tree type args) state)
      (run (canonicalize tree' type (args.map quantified)) state) quantified MarkersCompared := by
  -- The arguments are taken apart on both sides or on neither, and then into the same parts.
  have same := ofArgs_quantified inside tree tree'
  rw [run_canonicalize, run_canonicalize]
  cases taken : ofArgs tree args with
  | error fault =>
    rw [taken] at same
    cases taken' : ofArgs tree' (args.map quantified) with
    | error fault' => exact ⟨fault', rfl⟩
    | ok parts' => simp [taken', Except.toOption] at same
  | ok parts =>
    rw [taken] at same
    cases taken' : ofArgs tree' (args.map quantified) with
    | error fault' => simp [taken', Except.toOption] at same
    | ok parts' =>
      obtain rfl : parts' = parts.map quantified := by simpa [taken', Except.toOption] using same
      -- The variables are the same, and so is what is registered for them.
      refine ⟨?_, canonical_compared (partsCompared taken inside) type⟩
      dsimp only
      rw [State.settle_map, canonical_quantified]

/-- Building an operation commutes with expanding its arguments. -/
theorem commutes_rebuild {results : List Tree}
    (inside : ∀ result ∈ results, MarkersCompared result) (tree tree' : Tree) (operator : Operator)
    (type : ValueType) (state : State) :
    Beside (run (rebuild tree operator type results) state)
      (run (rebuild tree' operator type (results.map quantified)) state) quantified
      MarkersCompared := by
  -- Which of the three ways an operation is built is decided by a path in front, which stays.
  cases rewritten : rewrites operator results with
  | false =>
    rw [rebuild_of_not_rewrites rewritten,
      rebuild_of_not_rewrites (by rw [rewrites_quantified, rewritten])]
    exact ⟨by rw [quantified_operation inside]; rfl, .operation inside⟩
  | true =>
    obtain rfl | ⟨rfl, label, parent, segment, bodies, rfl⟩ := rewrites_cases rewritten
    · exact commutes_canonicalize inside tree tree' type state
    -- The lambda is bound to the root of its parameter, which has no marker.
    · obtain ⟨parameter, bodiesCompared⟩ := List.forall_mem_cons.mp inside
      have compared : ∀ result ∈ .path () (Path.member parent segment).rootPath :: bodies,
          MarkersCompared result :=
        List.forall_mem_cons.mpr
          ⟨.path (Path.hasMarker_rootPath parameter.unmarked), bodiesCompared⟩
      refine ⟨?_, .operation compared⟩
      rw [quantified_operation compared]
      rfl

/-- Normalizing a tree whose markers are compared commutes with expanding them, as long as
registrations have nothing to do with markers and quantifiers. -/
theorem commutes_of_compared {tree : Tree} (compared : MarkersCompared tree)
    (apart : AliasesApart tree) {state : State} (tame : state.Tame) : Commutes tree state := by
  -- The quantifier keeps the second operand as it was, so the induction is on unexpanded trees.
  induction compared generalizing state with
  | @leaf tree leaf unmarked =>
    rw [Commutes, quantified_of_leaf leaf]
    cases tree with
    | operation | template => simp [reaches] at leaf
    | path label target =>
      rw [State.run_normalize_path tame.toMembers.toPaths]
      exact ⟨rfl, .path ((State.inherits_renamed tame.toMembers target).unmarked unmarked)⟩
    | factory label type args =>
      -- An object is normalized inside, and left alone by an expansion.
      rw [normalize, run_bind]
      rcases run (normalizeAll args) state with ⟨fault | results, after⟩
      · exact ⟨fault, rfl⟩
      · exact ⟨rfl, .leaf rfl rfl⟩
    | _ => exact ⟨rfl, .leaf rfl rfl⟩
  | @comparison operator type target operand compares single rooted inside ih =>
    have apart := apart.operation_inside.2 operand (by simp)
    exact commutes_comparison tame compares type single rooted (ih apart tame)
  | @operation operator type args inside ih =>
    have apart := apart.operation_inside.2
    have all := commutes_normalizeAll
      (fun arg member before tame => ih arg member (apart arg member) tame) apart tame
    rw [Commutes, quantified_operation inside, normalize, normalize, run_bind, run_bind]
    generalize run (normalizeAll args) state = ran at all ⊢
    rcases ran with ⟨fault | results, between⟩
    · obtain ⟨fault', same⟩ := all
      exact ⟨fault', by rw [same]⟩
    · obtain ⟨same, allCompared⟩ := all
      rw [same]
      exact commutes_rebuild allCompared _ _ operator type between
  | @template text type args inside ih =>
    -- A template is expanded inside, and left alone by the flat-map pass.
    rw [Commutes, quantified]
    exact ⟨rfl, .template inside⟩

end FlatMap.Plain

open FlatMap.Plain

/-- Where all markers are compared, the arguments of an operation are either such trees themselves or
the left operand. -/
theorem AnyQuantifier.MarkersCompared.cases_args {operator : Operator} {type : ValueType}
    {args : List Tree} (compared : MarkersCompared (.operation () operator type args)) :
    (∀ arg ∈ args.tail, MarkersCompared arg) ∧
      ∀ arg ∈ args, MarkersCompared arg ∨ reaches arg = false := by
  -- A marked path can only be the first argument, and it is not looked into.
  cases compared with
  | leaf leaf => simp [reaches] at leaf
  | comparison compares single rooted inside => simp [inside, reaches]
  | operation inside =>
    exact ⟨fun arg member => inside arg (List.mem_of_mem_tail member),
      fun arg member => .inl (inside arg member)⟩

/-- Where all markers are compared, no operation holds a path through a marker twice. -/
theorem AnyQuantifier.OperandsApart.of_compared {node : Node}
    (compared : MarkersCompared node.unlabel) : OperandsApart node := by
  -- Only the first argument can be a path through a marker, so there is nothing to tell apart.
  induction node using Expr.induct with
  | operation label operator type args ih =>
    rw [Expr.unlabel_operation] at compared
    obtain ⟨later, each⟩ := compared.cases_args
    refine .operation ?_ ?_
    · cases args with
      | nil => trivial
      | cons first rest =>
        -- None but the first is a path through a marker.
        intro arg member marked
        have unmarked := (later arg.unlabel (List.mem_map_of_mem member)).isMarked
        simp [marked] at unmarked
    · intro arg member
      rcases each arg.unlabel (List.mem_map_of_mem member) with compared | leaf
      · exact ih arg member compared
      · exact .leaf (by cases arg <;> simp_all [reaches])
  | template label text type args ih =>
    rw [Expr.unlabel_template] at compared
    refine .template ?_
    intro arg member
    cases compared with
    | leaf leaf => simp [reaches] at leaf
    | template inside => exact ih arg member (inside _ (List.mem_map_of_mem member))
  | _ => exact .leaf rfl

/-- A node whose markers are compared is expanded to what its tree is. -/
theorem expanded_of_compared {node : Node} (compared : MarkersCompared node.unlabel)
    (options : Options) (supply : NodeId) :
    ∃ result, (Pass.expandMarkers.run options node supply).1 = .ok result ∧
      result.unlabel = quantified node.unlabel := by
  -- The plain expansion of such a tree does not fail, and the pass has the same outcome.
  have follows := @plain_of_expand node (.of_compared compared) (Context.start options supply) rfl
  rw [expand_of_compared compared] at follows
  change ((Pass.expandMarkers.run options node supply).1).map Expr.unlabel = _ at follows
  cases outcome : (Pass.expandMarkers.run options node supply).1 with
  | error fault => simp [outcome, Except.map] at follows
  | ok result => exact ⟨result, rfl, by simpa [outcome, Except.map] using follows⟩

/-- On a query in which every path through a marker has one marker, is compared and is apart from flat
maps, markers can be expanded before or after flat maps are normalized, each pass in a new state. Both
orders fail, since the flat maps are malformed, or both give the same expression but for labels; and
both times the flat-map pass registers the same paths and gives away the same numbers. -/
theorem passes_commute {node : Node} (compared : MarkersCompared node.unlabel)
    (apart : AliasesApart node.unlabel) (options : Options) (first second third fourth : NodeId) :
    let normalized := Pass.normalizeFlatMaps.run options node first
    ∃ expanded, (Pass.expandMarkers.run options node second).1 = .ok expanded ∧
      let renormalized := Pass.normalizeFlatMaps.run options expanded third
      renormalized.2.plain = normalized.2.plain ∧
        match normalized.1 with
        | .error _ => ∃ fault, renormalized.1 = .error fault
        | .ok result => ∃ last final, (Pass.expandMarkers.run options result fourth).1 = .ok last ∧
          renormalized.1 = .ok final ∧ last.unlabel = final.unlabel := by
  intro normalized
  obtain ⟨expanded, done, same⟩ := expanded_of_compared compared options second
  refine ⟨expanded, done, ?_⟩
  intro renormalized
  -- Both runs of the flat-map pass follow plain walks from the same state, which commute.
  have tame : (Context.start options first).plain.Tame := by
    rw [FlatMap.plain_start]
    exact ⟨by simp [State.ToMembers], by simp⟩
  have commutes := commutes_of_compared compared apart tame
  have follows := FlatMap.plain_runIn node (Context.start options first)
  have follows' := FlatMap.plain_runIn expanded (Context.start options third)
  change _ = (normalized.1.map Expr.unlabel, normalized.2.plain) at follows
  change _ = (renormalized.1.map Expr.unlabel, renormalized.2.plain) at follows'
  have restart : (Context.start options third).plain = (Context.start options first).plain := rfl
  rw [same, restart] at follows'
  rw [Commutes, follows, follows'] at commutes
  generalize normalized = ran at commutes ⊢
  generalize renormalized = again at commutes ⊢
  obtain ⟨outcome, after⟩ := ran
  obtain ⟨outcome', after'⟩ := again
  cases outcome with
  | error fault =>
    obtain ⟨fault', commutes⟩ := commutes
    obtain ⟨failed, state⟩ := Prod.mk.inj commutes
    refine ⟨state, ?_⟩
    cases outcome' with
    | error fault' => exact ⟨fault', rfl⟩
    | ok result => simp [Except.map] at failed
  | ok result =>
    obtain ⟨commutes, resultCompared⟩ := commutes
    obtain ⟨succeeded, state⟩ := Prod.mk.inj commutes
    refine ⟨state, ?_⟩
    -- The result of the first order has its markers compared, so it can be expanded.
    obtain ⟨last, done, same⟩ := expanded_of_compared resultCompared options fourth
    cases outcome' with
    | error fault => simp [Except.map] at succeeded
    | ok final =>
      refine ⟨last, final, done, rfl, ?_⟩
      rw [same]
      exact (Except.ok.inj succeeded).symm

/-- A flat map over families, and a comparison of the name of any child of a family. -/
def childPairsAndName : Node :=
  let family := Path.ofVariable "x" (.object "Family")
  let child := (family.property "Children" .collection).any (.object "Person")
  FlatMap.childPairsThen (.operation 12 .equal .boolean
    [.path 10 (child.property "Name" .string), .constant 11 (.string "bob") .string])

/-- The collection of children is renamed by the flat map in front of it, whether it stands above a
marker or has become an operand of a quantifier. -/
theorem passes_commute_childPairsAndName :
    ∃ normalized expanded last final,
      (Pass.normalizeFlatMaps.run {} childPairsAndName 13).1 = .ok normalized ∧
      (Pass.expandMarkers.run {} childPairsAndName 13).1 = .ok expanded ∧
      (Pass.expandMarkers.run {} normalized 60).1 = .ok last ∧
      (Pass.normalizeFlatMaps.run {} expanded 60).1 = .ok final ∧
      last.unlabel = final.unlabel := by
  have compared : MarkersCompared childPairsAndName.unlabel := by
    simp only [childPairsAndName, FlatMap.childPairsThen, FlatMap.childPairs,
      Expr.unlabel_operation, List.map_cons, List.map_nil, Expr.unlabel_path,
      Expr.unlabel_constant]
    refine .pair (.pair (.path ?_) (.pair (.pair (.path ?_) (.path ?_) _ _) (.path ?_) _ _) _ _)
      (.comparison rfl ?_ ?_ (.leaf rfl rfl)) _ _
    all_goals decide
  have apart : AliasesApart childPairsAndName.unlabel := by
    simp only [childPairsAndName, FlatMap.childPairsThen, FlatMap.childPairs,
      Expr.unlabel_operation, List.map_cons, List.map_nil, Expr.unlabel_path,
      Expr.unlabel_constant]
    refine .pair (by decide) _ (.operation ?_ ?_) (.pair (by decide) _ (.leaf rfl) (.leaf rfl))
    -- The variables of the only flat map are called x and c.
    · intro _ parts taken
      cases taken
      decide
    · simp only [List.forall_mem_cons]
      refine ⟨.leaf rfl, .pair (by decide) _ (.pair (by decide) _ ?_ ?_) ?_, by simp⟩
      all_goals exact .leaf rfl
  have succeeds : (Pass.normalizeFlatMaps.run {} childPairsAndName 13).1.toOption.any
      (fun _ => true) = true := by decide +kernel
  obtain ⟨normalized, done, -⟩ := exists_of_any succeeds
  have commutes := passes_commute compared apart {} 13 13 60 60
  dsimp only at commutes
  rw [done] at commutes
  obtain ⟨expanded, expands, -, last, final, lastDone, finalDone, same⟩ := commutes
  exact ⟨normalized, expanded, last, final, done, expands, lastDone, finalDone, same⟩

end IndexQuery
