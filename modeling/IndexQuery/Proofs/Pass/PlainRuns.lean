import IndexQuery.Proofs.Pass.FlatMapParts
import IndexQuery.Proofs.Pass.PlainFlatMap

/-! What a plain walk that succeeds has done at each expression, and how the state has grown. -/

namespace IndexQuery.FlatMap

open Steps

namespace Plain

/-- The selector of a flat map: its own, or the object that pairs the variables. -/
def selectorOf (flatMap : FlatMap Unit) : Tree :=
  flatMap.selector?.getD (pairObject flatMap.element flatMap.partner)

/-- What holds of the parts of a flat map, and of the object that pairs its variables, holds of the
selector. -/
theorem selectorOf_of_parts {holds : Tree → Prop} {parts : FlatMap Unit}
    (inside : HoldsOfParts holds parts) (pair : holds (pairObject parts.element parts.partner)) :
    holds (selectorOf parts) := by
  -- A flat map without a selector selects the pair.
  rw [selectorOf]
  cases found : parts.selector? with
  | none => exact pair
  | some selector => exact inside.selector selector found

/-- A view that leaves the object for a pair shows the selector of a flat map as that of its view. -/
theorem selectorOf_map {view : Tree → Tree} {parts : FlatMap Unit}
    (kept : view (pairObject parts.element parts.partner) =
      pairObject parts.element parts.partner) :
    selectorOf (parts.map view) = view (selectorOf parts) := by
  -- A selector is viewed as it is, and the object for a pair is left by the view.
  rcases parts with ⟨source, element, body, partner, _ | selector⟩
  · exact kept.symm
  · rfl

/-- The state after a flat map, which registers its variables if it has no selector. -/
def State.settle (state : State) (flatMap : FlatMap Unit) : State :=
  if flatMap.selector?.isSome then state else state.pair flatMap.element flatMap.partner

/-- A view of the parts registers the same variables. -/
theorem State.settle_map (state : State) (view : Tree → Tree) (parts : FlatMap Unit) :
    state.settle (parts.map view) = state.settle parts := by
  -- Neither the variables nor whether there is a selector is changed by a view.
  simp [settle, map]

/-- A flat map that can be taken apart is put into canonical form, and any other one fails. -/
theorem run_canonicalize (tree : Tree) (type : ValueType) (args : List Tree) (state : State) :
    run (canonicalize tree type args) state =
      match ofArgs tree args with
      | .error fault => (.error fault, state)
      | .ok flatMap => (.ok (canonical type flatMap (selectorOf flatMap)), state.settle flatMap) := by
  rw [canonicalize, run_bind, run_lift]
  cases ofArgs tree args with
  | error fault => rfl
  | ok flatMap =>
    -- Both ways to come by a selector end in the same form, and only one of them registers anything.
    rcases flatMap with ⟨source, element, body, partner, _ | selector⟩
    · rfl
    · rfl

/-- A list of trees is normalized by normalizing the first one and then the others. -/
theorem run_normalizeAll_cons (first : Tree) (rest : List Tree) (state : State) :
    run (normalizeAll (first :: rest)) state =
      match run (normalize first) state with
      | (.error fault, after) => (.error fault, after)
      | (.ok result, between) =>
        match run (normalizeAll rest) between with
        | (.error fault, after) => (.error fault, after)
        | (.ok results, after) => (.ok (result :: results), after) := by
  -- The walk ends at the first failure, in the state that it leaves.
  rw [normalizeAll, run_bind]
  rcases run (normalize first) state with ⟨fault | result, between⟩
  · rfl
  · dsimp only
    rw [run_bind]
    rcases run (normalizeAll rest) between with ⟨fault | results, after⟩
    · rfl
    · rfl

/-- A relation between expressions and states before and after, from member to member of a list. -/
inductive Walked (step : Tree → State → Tree → State → Prop) :
    List Tree → State → List Tree → State → Prop
  | nil {state : State} : Walked step [] state [] state
  | cons {first result : Tree} {rest results : List Tree} {state between after : State}
      (head : step first state result between) (tail : Walked step rest between results after) :
      Walked step (first :: rest) state (result :: results) after

/-- A walk gives as many results as it is given expressions. -/
theorem Walked.length_eq {step : Tree → State → Tree → State → Prop} {args results : List Tree}
    {before after : State} (walked : Walked step args before results after) :
    results.length = args.length := by
  induction walked with
  | nil => rfl
  | cons head tail ih => exact congrArg (· + 1) ih

/-- A list of expressions is normalized by normalizing its members, from state to state. -/
theorem walked_of_normalizeAll (step : Tree → State → Tree → State → Prop)
    {args results : List Tree} {state after : State}
    (each : ∀ arg ∈ args, ∀ before result next, run (normalize arg) before = (.ok result, next) →
      step arg before result next)
    (ran : run (normalizeAll args) state = (.ok results, after)) :
    Walked step args state results after := by
  induction args generalizing state results with
  | nil =>
    rw [normalizeAll, run_pure] at ran
    cases ran
    exact .nil
  -- A list that is normalized as a whole has been normalized member by member.
  | cons first rest ih =>
    rw [normalizeAll, run_bind_ok] at ran
    obtain ⟨head, between, headRan, ran⟩ := ran
    rw [run_bind_ok] at ran
    obtain ⟨tail, last, tailRan, ran⟩ := ran
    rw [run_pure] at ran
    cases ran
    have firstStep := each first (by simp) _ _ _ headRan
    exact .cons firstStep (ih (fun arg member => each arg (by simp [member])) tailRan)

/-- An operation with normalized arguments is built from them, bound to a root, or a canonical flat
map. -/
theorem rebuild_ok {tree result : Tree} {operator : Operator} {type : ValueType} {args : List Tree}
    {state after : State}
    (ran : run (rebuild tree operator type args) state = (.ok result, after)) :
    (rewrites operator args = false ∧ result = .operation () operator type args ∧ after = state) ∨
      (operator = .lambda ∧ ∃ parent segment bodies,
        args = .path () (.member parent segment) :: bodies ∧
        result = .operation () .lambda type
          (.path () (Path.member parent segment).rootPath :: bodies) ∧ after = state) ∨
      (operator = .flatMap ∧ ∃ flatMap, ofArgs tree args = .ok flatMap ∧
        result = canonical type flatMap (selectorOf flatMap) ∧ after = state.settle flatMap) := by
  unfold rebuild at ran
  split at ran
  · rename_i label parent segment bodies
    cases ran
    exact .inr (.inl ⟨rfl, parent, segment, bodies, rfl, rfl, rfl⟩)
  · rw [run_canonicalize] at ran
    cases parts : ofArgs tree args with
    | error fault => simp [parts] at ran
    | ok flatMap =>
      rw [parts] at ran
      cases ran
      exact .inr (.inr ⟨rfl, flatMap, rfl, rfl, rfl⟩)
  · rename_i notFlatMap notLambda
    cases ran
    refine .inl ⟨?_, rfl, rfl⟩
    -- What is rewritten has been matched by the first two cases.
    unfold rewrites
    split
    · exact absurd rfl notFlatMap
    · rename_i label parameter bodies
      cases parameter with
      | root => rfl
      | member parent segment => exact (notLambda label parent segment bodies rfl rfl).elim
    · rfl

/-- A walk of one kind is one of a more general kind. -/
theorem Walked.mono {step general : Tree → State → Tree → State → Prop} {args results : List Tree}
    {state after : State} (walked : Walked step args state results after)
    (each : ∀ {arg before result next}, step arg before result next →
      general arg before result next) : Walked general args state results after := by
  -- The states between the steps stay the same.
  induction walked with
  | nil => exact .nil
  | cons head tail ih => exact .cons (each head) ih

/-- A step that a run has made, and of which something holds. -/
def Ran (motive : Tree → State → Tree → State → Prop) (tree : Tree) (before : State) (result : Tree)
    (after : State) : Prop :=
  run (normalize tree) before = (.ok result, after) ∧ motive tree before result after

/-- What holds of every way in which a walk can succeed holds of every walk that succeeds. Each case may
use what the runs of the arguments are. -/
theorem normalize_induct_ran {motive : Tree → State → Tree → State → Prop}
    (still : ∀ tree state, looksInto tree = false → tree.path? = none → motive tree state tree state)
    (path : ∀ target state renamed?, state.rename target = .ok renamed? →
      motive (.path () target) state (renamed?.getD (.path () target)) state)
    (factory : ∀ type args state results after, Walked (Ran motive) args state results after →
      motive (.factory () type args) state (.factory () type results) after)
    (operation : ∀ operator type args state results after,
      Walked (Ran motive) args state results after → rewrites operator results = false →
      motive (.operation () operator type args) state (.operation () operator type results) after)
    (lambda : ∀ type args state parent segment bodies after,
      Walked (Ran motive) args state (.path () (.member parent segment) :: bodies) after →
      motive (.operation () .lambda type args) state
        (.operation () .lambda type (.path () (Path.member parent segment).rootPath :: bodies)) after)
    (flatMap : ∀ type args state results between parts,
      Walked (Ran motive) args state results between →
      ofArgs (.operation () .flatMap type args) results = .ok parts →
      motive (.operation () .flatMap type args) state (canonical type parts (selectorOf parts))
        (between.settle parts))
    {tree result : Tree} {state after : State}
    (ran : run (normalize tree) state = (.ok result, after)) : motive tree state result after := by
  -- Arguments come first, so each case may use that the motive holds from one argument to the next.
  induction tree using Expr.induct generalizing state result after with
  | path label target =>
    rw [normalize, run_bind_ok] at ran
    obtain ⟨_, _, got, ran⟩ := ran
    cases got
    rw [run_bind_ok] at ran
    obtain ⟨renamed?, _, renamed, ran⟩ := ran
    rw [run_lift, Prod.mk.injEq] at renamed
    obtain ⟨renamed, rfl⟩ := renamed
    cases ran
    exact path target state renamed? renamed
  | operation label operator type args ih =>
    rw [normalize, run_bind_ok] at ran
    obtain ⟨results, between, walked, ran⟩ := ran
    have walked := walked_of_normalizeAll (Ran motive)
      (fun arg member before result next ran => ⟨ran, ih arg member ran⟩) walked
    -- The three ways to build an operation are the three cases that are given for it.
    obtain ⟨still, rfl, rfl⟩ | ⟨rfl, parent, segment, bodies, rfl, rfl, rfl⟩ |
      ⟨rfl, parts, taken, rfl, rfl⟩ := rebuild_ok ran
    · exact operation operator type args state results after walked still
    · exact lambda type args state parent segment bodies after walked
    · exact flatMap type args state results between parts walked taken
  | factory label type args ih =>
    rw [normalize, run_bind_ok] at ran
    obtain ⟨results, between, walked, ran⟩ := ran
    cases ran
    have walked := walked_of_normalizeAll (Ran motive)
      (fun arg member before result next ran => ⟨ran, ih arg member ran⟩) walked
    exact factory type args state results _ walked
  | _ =>
    rw [normalize, run_pure] at ran
    cases ran
    exact still _ _ rfl rfl

/-- The same where what the runs of the arguments are is not of interest. -/
theorem normalize_induct {motive : Tree → State → Tree → State → Prop}
    (still : ∀ tree state, looksInto tree = false → tree.path? = none → motive tree state tree state)
    (path : ∀ target state renamed?, state.rename target = .ok renamed? →
      motive (.path () target) state (renamed?.getD (.path () target)) state)
    (factory : ∀ type args state results after, Walked motive args state results after →
      motive (.factory () type args) state (.factory () type results) after)
    (operation : ∀ operator type args state results after, Walked motive args state results after →
      rewrites operator results = false →
      motive (.operation () operator type args) state (.operation () operator type results) after)
    (lambda : ∀ type args state parent segment bodies after,
      Walked motive args state (.path () (.member parent segment) :: bodies) after →
      motive (.operation () .lambda type args) state
        (.operation () .lambda type (.path () (Path.member parent segment).rootPath :: bodies)) after)
    (flatMap : ∀ type args state results between parts, Walked motive args state results between →
      ofArgs (.operation () .flatMap type args) results = .ok parts →
      motive (.operation () .flatMap type args) state (canonical type parts (selectorOf parts))
        (between.settle parts))
    {tree result : Tree} {state after : State}
    (ran : run (normalize tree) state = (.ok result, after)) : motive tree state result after := by
  -- Of each step only what holds of it is handed on.
  have forget {args results : List Tree} {state after : State}
      (walked : Walked (Ran motive) args state results after) :
      Walked motive args state results after := walked.mono And.right
  refine normalize_induct_ran still path ?_ ?_ ?_ ?_ ran
  · exact fun type args state results after walked => factory _ _ _ _ _ (forget walked)
  · exact fun operator type args state results after walked => operation _ _ _ _ _ _ (forget walked)
  · exact fun type args state parent segment bodies after walked =>
      lambda _ _ _ _ _ _ _ (forget walked)
  · exact fun type args state results between parts walked => flatMap _ _ _ _ _ _ (forget walked)

end Plain

end IndexQuery.FlatMap
