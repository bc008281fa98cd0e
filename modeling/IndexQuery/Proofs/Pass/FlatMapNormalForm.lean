import IndexQuery.Proofs.Pass.FlatMapRefinement
import IndexQuery.Proofs.Pass.Renaming

/-! The flat-map pass leaves nothing to rewrite, so a second run gives back what it is given. -/

namespace IndexQuery.FlatMap

open Steps

/-- Expressions in which the pass finds neither a flat map nor a lambda bound to a member. -/
inductive IsCanonical : Tree → Prop
  | leaf {tree : Tree} (leaf : Plain.looksInto tree = false) : IsCanonical tree
  | operation {operator : Operator} {type : ValueType} {args : List Tree}
      (settled : Plain.rewrites operator args = false) (inside : ∀ arg ∈ args, IsCanonical arg) :
      IsCanonical (.operation () operator type args)
  | factory {type : ValueType} {args : List Tree} (inside : ∀ arg ∈ args, IsCanonical arg) :
      IsCanonical (.factory () type args)

namespace IsCanonical

/-- A path is canonical, whatever it reads. -/
theorem path (target : Path) : IsCanonical (.path () target) := .leaf rfl

/-- The arguments of a canonical operation are canonical. -/
theorem args {operator : Operator} {type : ValueType} {args : List Tree}
    (canonical : IsCanonical (.operation () operator type args)) :
    ∀ arg ∈ args, IsCanonical arg := by
  -- An operation is no leaf, so it stands over canonical arguments.
  cases canonical with
  | leaf leaf => simp [Plain.looksInto] at leaf
  | operation settled inside => exact inside

/-- The object that pairs two variables is canonical. -/
theorem pairObject (element partner : Path) : IsCanonical (Plain.pairObject element partner) := by
  -- It holds lists of a name and a path, and nothing that the pass looks for.
  have field (name : String) (target : Path) : IsCanonical (Plain.field name target) := by
    refine .operation rfl ?_
    simp only [List.forall_mem_cons]
    exact ⟨.leaf rfl, path target, by simp⟩
  refine .factory ?_
  simp only [List.forall_mem_cons]
  exact ⟨field _ _, field _ _, by simp⟩

/-- A flat map in canonical form is canonical if its parts are. -/
theorem canonical {type : ValueType} {flatMap : FlatMap Unit} {selector : Tree}
    (source : IsCanonical flatMap.source) (body : IsCanonical flatMap.body)
    (isSelector : IsCanonical selector) : IsCanonical (Plain.canonical type flatMap selector) := by
  -- Both lambdas are new: one is bound to the root of the element, the other to a wrapped list.
  have list : IsCanonical (.operation () .list .expression
      [.path () flatMap.element.rootPath, .path () flatMap.partner]) := by
    refine .operation rfl ?_
    simp only [List.forall_mem_cons]
    exact ⟨path _, path _, by simp⟩
  have parameters := @operation .wrapped .expression _ rfl (List.forall_mem_singleton.mpr list)
  have outer : IsCanonical (Plain.lambda (.path () flatMap.element.rootPath) flatMap.body) := by
    refine .operation rfl ?_
    simp only [List.forall_mem_cons]
    exact ⟨path _, body, by simp⟩
  have inner := @operation .lambda .expression _ rfl
    (List.forall_mem_cons.mpr ⟨parameters, List.forall_mem_singleton.mpr isSelector⟩)
  refine .operation rfl ?_
  simp only [List.forall_mem_cons]
  exact ⟨source, outer, inner, by simp⟩

/-- The canonical form of a flat map with canonical arguments is canonical. -/
theorem canonicalize {node : Tree} {args : List Tree} {flatMap : FlatMap Unit}
    (parts : ofArgs node args = .ok flatMap) (inside : ∀ arg ∈ args, IsCanonical arg)
    (type : ValueType) : IsCanonical (Plain.canonical type flatMap (Plain.selectorOf flatMap)) := by
  -- The body and the selector stand below the lambdas of the pair, which are canonical like it.
  have parts := holdsOfParts (fun _ _ _ _ _ canonical => canonical.args) parts inside
  exact canonical parts.source parts.body (Plain.selectorOf_of_parts parts (pairObject _ _))

end IsCanonical

namespace Plain

namespace State

/-- Every registered replacement is canonical. -/
def IsCanonical (state : State) : Prop :=
  ∀ entry ∈ state.substitutions, FlatMap.IsCanonical entry.2

/-- What a path is renamed to is canonical. -/
theorem IsCanonical.rename {state : State} {path : Path} {renamed : Tree}
    (canonical : state.IsCanonical) (ran : state.rename path = .ok (some renamed)) :
    FlatMap.IsCanonical renamed := by
  -- A renamed parent is a path with one more segment, and anything else is registered.
  cases path with
  | root segment => exact canonical _ (mem_of_replacement? (Except.ok.inj ran))
  | member parent segment =>
    unfold State.rename at ran
    split at ran
    · simp at ran
    · exact canonical _ (mem_of_replacement? (Except.ok.inj ran))
    · cases ran
      exact .path _
    · simp at ran

/-- A flat map registers paths only. -/
theorem IsCanonical.settle {state : State} (canonical : state.IsCanonical)
    (flatMap : FlatMap Unit) : (state.settle flatMap).IsCanonical := by
  unfold State.settle
  split
  · exact canonical
  · intro entry registered
    rcases List.mem_append.mp registered with earlier | added
    · exact canonical entry earlier
    -- What is added are two members of the next invented variable.
    · simp only [List.mem_cons, List.not_mem_nil, or_false] at added
      rcases added with rfl | rfl
      · exact .path _
      · exact .path _

end State

/-- Along a list, canonical registrations make every result canonical. -/
theorem Walked.isCanonical {args results : List Tree} {state after : State}
    (walked : Walked (fun _ state result after =>
      state.IsCanonical → IsCanonical result ∧ after.IsCanonical) args state results after)
    (canonical : state.IsCanonical) :
    (∀ result ∈ results, IsCanonical result) ∧ after.IsCanonical := by
  -- What a member leaves is canonical, so the next one starts from a canonical state.
  induction walked with
  | nil => exact ⟨by simp, canonical⟩
  | cons head tail ih =>
    obtain ⟨first, between⟩ := head canonical
    obtain ⟨rest, after⟩ := ih between
    exact ⟨List.forall_mem_cons.mpr ⟨first, rest⟩, after⟩

/-- Canonical registrations make what a walk gives canonical, and stay so. -/
theorem normalize_isCanonical {tree result : Tree} {state after : State}
    (ran : run (normalize tree) state = (.ok result, after)) (canonical : state.IsCanonical) :
    IsCanonical result ∧ after.IsCanonical := by
  -- The two are proved together: a later path may be renamed to what an earlier flat map registered.
  refine normalize_induct (motive := fun _ state result after =>
    state.IsCanonical → IsCanonical result ∧ after.IsCanonical)
    ?still ?path ?factory ?operation ?lambda ?flatMap ran canonical
  case still =>
    intro tree state leaf _ canonical
    exact ⟨.leaf leaf, canonical⟩
  case path =>
    intro target state renamed? renamed canonical
    refine ⟨?_, canonical⟩
    cases renamed? with
    | none => exact .path target
    | some renamedPath => exact canonical.rename renamed
  case factory =>
    intro type args state results after walked canonical
    obtain ⟨inside, after⟩ := walked.isCanonical canonical
    exact ⟨.factory inside, after⟩
  case operation =>
    intro operator type args state results after walked settled canonical
    obtain ⟨inside, after⟩ := walked.isCanonical canonical
    exact ⟨.operation settled inside, after⟩
  case lambda =>
    intro type args state parent segment bodies after walked canonical
    obtain ⟨inside, after⟩ := walked.isCanonical canonical
    -- The parameter may have been renamed to a member, and is a root now.
    obtain ⟨-, bodies⟩ := List.forall_mem_cons.mp inside
    exact ⟨.operation rfl (List.forall_mem_cons.mpr ⟨.path _, bodies⟩), after⟩
  case flatMap =>
    intro type args state results between parts walked taken canonical
    obtain ⟨inside, after⟩ := walked.isCanonical canonical
    exact ⟨.canonicalize taken inside type, after.settle parts⟩

/-- Without registrations a path keeps its name. -/
theorem State.rename_of_nil {state : State} (fresh : state.substitutions = []) (path : Path) :
    state.rename path = .ok none ∧ state.hits path = false := by
  -- Nothing is found for any part of the path, from the root down.
  have missing (path : Path) : state.replacement? path = none := by
    simp [State.replacement?, fresh]
  induction path with
  | root segment => simp [State.rename, State.hits, missing]
  | member parent segment ih => simp [State.rename, State.hits, missing, ih]

/-- Without registrations a list of expressions that normalize to themselves does so too. -/
theorem normalizeAll_of_fixed {args : List Tree} {state : State}
    (fixed : ∀ arg ∈ args, run (normalize arg) state = (.ok arg, state) ∧ fires arg state = false) :
    run (normalizeAll args) state = (.ok args, state) ∧ firesAll args state = false := by
  induction args with
  | nil => exact ⟨rfl, rfl⟩
  | cons first rest ih =>
    obtain ⟨head, tail⟩ := List.forall_mem_cons.mp fixed
    obtain ⟨ran, still⟩ := ih tail
    -- The first one leaves the state, so the others are where they would be without it.
    rw [normalizeAll, run_bind, head.1, firesAll, head.1, head.2]
    dsimp only
    rw [run_bind, ran, still]
    exact ⟨rfl, rfl⟩

/-- Without registrations a canonical expression normalizes to itself, and nothing is rewritten. -/
theorem normalize_of_isCanonical {tree : Tree} {state : State} (canonical : IsCanonical tree)
    (fresh : state.substitutions = []) :
    run (normalize tree) state = (.ok tree, state) ∧ fires tree state = false := by
  -- Nothing is registered on the way either, so the hypothesis on the state carries the induction.
  induction canonical with
  | leaf leaf =>
    rename_i tree
    cases tree with
    | path label target =>
      obtain ⟨renamed, missed⟩ := State.rename_of_nil fresh target
      rw [normalize, run_bind, run_get]
      dsimp only
      rw [run_bind, run_lift, renamed, fires, missed]
      exact ⟨rfl, rfl⟩
    | operation => simp [looksInto] at leaf
    | factory => simp [looksInto] at leaf
    | _ => exact ⟨by rw [normalize, run_pure], by rw [fires]⟩
  | operation settled inside ih =>
    rename_i operator type args
    obtain ⟨ran, still⟩ := normalizeAll_of_fixed ih
    rw [normalize, run_bind, ran, fires, ran, still]
    dsimp only
    rw [settled, rebuild_of_not_rewrites settled]
    exact ⟨rfl, rfl⟩
  | factory inside ih =>
    obtain ⟨ran, still⟩ := normalizeAll_of_fixed ih
    rw [normalize, run_bind, ran, fires, still]
    exact ⟨rfl, rfl⟩

end Plain

/-- What the pass gives from a new state, it gives back from any new state: the same node, without a
registration and without an invented name. -/
theorem normalize_idempotent {node result : Node} {options : Options} {supply : NodeId}
    (done : (Pass.normalizeFlatMaps.run options node supply).1 = .ok result)
    (options' : Options) (supply' : NodeId) :
    let again := Pass.normalizeFlatMaps.run options' result supply'
    again.1 = .ok result ∧ again.2.substitutions = [] ∧ again.2.nextTransient = options'.first := by
  -- The first result is canonical, so the plain walk over it rewrites nothing.
  have canonical : IsCanonical result.unlabel := by
    have fresh : (Context.start options supply).plain.IsCanonical := by
      simp [plain_start, Plain.State.IsCanonical]
    exact (Plain.normalize_isCanonical (plain_of_runIn done) fresh).1
  have unregistered : (Context.start options' supply').plain.substitutions = [] := rfl
  obtain ⟨fixed, still⟩ := Plain.normalize_of_isCanonical canonical unregistered
  -- A run in which nothing is rewritten gives back the node, in the plain state of the walk.
  have follows := (normalize_effect result (Context.start options' supply')).1
  show let again := run (normalize result) (Context.start options' supply')
    again.1 = .ok result ∧ again.2.substitutions = [] ∧ again.2.nextTransient = options'.first
  rw [Follows, fixed, still] at follows
  generalize run (normalize result) (Context.start options' supply') = again at follows ⊢
  rcases again with ⟨fault | kept, after⟩
  · simp at follows
  · obtain ⟨same, -, kept, -⟩ := follows
    have same : after.plain = (Context.start options' supply').plain := (Prod.mk.inj same).2.symm
    rw [plain_start] at same
    have registered := congrArg Plain.State.substitutions same
    have invented := congrArg Plain.State.nextTransient same
    exact ⟨congrArg Except.ok (kept rfl), List.map_eq_nil_iff.mp registered, invented⟩

/-- The canonical form of a flat map, with a lambda bound to the invented variable beside it, is left
alone by a second run that would invent other names. -/
theorem normalize_idempotent_childPairs :
    let family := Path.ofVariable "x" (.object "Family")
    let node := childPairsThen (.operation 12 .lambda .expression
      [.path 10 family, .path 11 (family.property "Name" .string)])
    ∃ result, (Pass.normalizeFlatMaps.run {} node 13).1 = .ok result ∧
      (Pass.normalizeFlatMaps.run { stem := "t", first := 5 } result 50).1 = .ok result := by
  -- The lambda is bound to an invented variable by the first pass, and the second one finds it so.
  intro family node
  have succeeds : (Pass.normalizeFlatMaps.run {} node 13).1.toOption.any (fun _ => true) = true := by
    decide +kernel
  obtain ⟨result, done, -⟩ := exists_of_any succeeds
  obtain ⟨again, -⟩ := normalize_idempotent done { stem := "t", first := 5 } 50
  exact ⟨result, done, again⟩

end FlatMap

end IndexQuery
