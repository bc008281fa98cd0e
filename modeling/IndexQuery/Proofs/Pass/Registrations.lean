import IndexQuery.Proofs.Pass.FlatMapNormalForm
import IndexQuery.Proofs.Pass.Frames

/-! What passes leave registered: two entries for each variable that was invented, and no others. -/

namespace IndexQuery

open Steps

namespace Expr

variable {Label : Type}

/-- Whether an argument of a flat map names a variable instead of a selector: it is a list whose
second element is a path. -/
def namesPartner : Expr Label → Bool
  | .operation _ operator _ elements => operator = .list && elements[1]?.any (·.path?.isSome)
  | _ => false

mutual

/-- How many flat maps without a selector the pass finds in an expression. -/
def pairings : Expr Label → Nat
  | .operation _ operator _ args =>
    pairingsAll args + if operator = .flatMap && args[1]?.any namesPartner then 1 else 0
  | .factory _ _ args => pairingsAll args
  | .constant .. | .path .. | .param .. | .subquery .. | .template .. => 0

/-- How many of them it finds in a list of expressions. -/
def pairingsAll : List (Expr Label) → Nat
  | [] => 0
  | first :: rest => pairings first + pairingsAll rest

end

/-- What is asked of the second of some expressions depends on what it says of each of them. -/
theorem any_second_congr {Other : Type} {exprs : List (Expr Label)} {others : List (Expr Other)}
    {holds : Expr Label → Bool} {holds' : Expr Other → Bool}
    (same : exprs.map holds = others.map holds') :
    exprs[1]?.any holds = others[1]?.any holds' := by
  -- The answers agree at every position, hence at the second.
  have second := congrArg (fun answers => answers[1]?.any id) same
  simpa [Option.any_map] using second

/-- Labels have no part in whether an expression is a path. -/
theorem isPath_unlabel (expr : Expr Label) :
    expr.unlabel.path?.isSome = expr.path?.isSome := by
  cases expr <;> simp [path?]

/-- Labels have no part in whether a variable is named. -/
theorem namesPartner_unlabel (expr : Expr Label) :
    expr.unlabel.namesPartner = expr.namesPartner := by
  -- Of the elements of a list only their kinds are asked for.
  cases expr with
  | operation label operator type elements =>
    have same : (elements.map unlabel).map (·.path?.isSome) = elements.map (·.path?.isSome) := by
      simp [isPath_unlabel]
    rw [unlabel_operation, namesPartner, namesPartner, any_second_congr same]
  | _ => simp [namesPartner]

/-- Labels have no part in how many flat maps have no selector. -/
theorem pairings_unlabel (expr : Expr Label) : expr.unlabel.pairings = expr.pairings := by
  -- What is counted is the look of the second argument, which has no labels.
  have all {args : List (Expr Label)} (each : ∀ arg ∈ args, arg.unlabel.pairings = arg.pairings) :
      pairingsAll (args.map unlabel) = pairingsAll args := by
    induction args with
    | nil => rfl
    | cons first rest ih =>
      obtain ⟨head, tail⟩ := List.forall_mem_cons.mp each
      rw [List.map_cons, pairingsAll, pairingsAll, head, ih tail]
  induction expr with
  | operation label operator type args ih =>
    have same : (args.map unlabel).map namesPartner = args.map namesPartner := by
      simp [namesPartner_unlabel]
    rw [unlabel_operation, pairings, pairings, all ih, any_second_congr same]
  | factory label type args ih => rw [unlabel_factory, pairings, pairings, all ih]
  | _ => simp [pairings]

end Expr

namespace FlatMap

/-- The parameter of a canonical lambda is a root. -/
theorem IsCanonical.parameter {tree body : Tree} {parameter : Path} (canonical : IsCanonical tree)
    (isLambda : tree.pathLambda? = some (parameter, body)) :
    ∃ segment, parameter = .root segment := by
  obtain ⟨label, type, inner, rfl⟩ := Expr.pathLambda?_eq_some isLambda
  cases canonical with
  | leaf leaf => simp [Plain.looksInto] at leaf
  | operation settled inside =>
    -- A lambda bound to a member would be rewritten.
    cases parameter with
    | root segment => exact ⟨segment, rfl⟩
    | member parent segment => simp [Plain.rewrites, Path.isRoot] at settled

namespace Plain

/-- Registered paths are canonical. -/
theorem State.ToPaths.isCanonical {state : State} (toPaths : state.ToPaths) :
    state.IsCanonical := by
  -- A path is canonical.
  intro entry registered
  obtain ⟨target, same⟩ := toPaths entry registered
  rw [same]
  exact .path target

/-- States that differ from an earlier one by root variables that were paired with paths since. -/
inductive Paired (earlier : State) : State → Prop
  | refl : Paired earlier earlier
  | pair {state : State} (before : Paired earlier state) (element : Segment) (partner : Path) :
      Paired earlier (state.pair (.root element) partner)

namespace Paired

variable {earlier between state : State}

/-- Variables that were paired after others were paired. -/
theorem trans (first : Paired earlier between) (second : Paired between state) :
    Paired earlier state := by
  -- The second row of pairs goes on where the first one ends.
  induction second with
  | refl => exact first
  | pair before element partner ih => exact .pair ih element partner

/-- Pairing registers paths only. -/
theorem toPaths (paired : Paired earlier state) (toPaths : earlier.ToPaths) : state.ToPaths := by
  -- Each step adds two members behind what is registered.
  induction paired with
  | refl => exact toPaths
  | pair before element partner ih =>
    intro entry registered
    simp only [State.pair, List.mem_append, List.mem_cons, List.not_mem_nil, or_false] at registered
    rcases registered with registered | rfl | rfl
    · exact ih entry registered
    · exact ⟨_, rfl⟩
    · exact ⟨_, rfl⟩

/-- Pairing leaves how variables are named. -/
theorem options (paired : Paired earlier state) : state.options = earlier.options := by
  -- Pairing variables leaves the options.
  induction paired with
  | refl => rfl
  | pair before element partner ih => exact ih

/-- Numbers are given away upwards, and for each there are two registrations. -/
theorem length (paired : Paired earlier state) (fresh : earlier.substitutions = []) :
    earlier.nextTransient ≤ state.nextTransient ∧
      state.substitutions.length = 2 * (state.nextTransient - earlier.nextTransient) := by
  -- Each pair takes one number and adds two entries.
  induction paired with
  | refl => simp [fresh]
  | pair before element partner ih =>
    obtain ⟨atLeast, twice⟩ := ih
    simp only [State.pair, List.length_append, List.length_cons, List.length_nil, twice]
    omega

/-- The two registrations for a number: a root and a path, as members of the variable with that
number. -/
theorem entries (paired : Paired earlier state) (fresh : earlier.substitutions = []) {i : Nat}
    (given : earlier.nextTransient + i < state.nextTransient) :
    let transient := Path.ofVariable
      (Context.transientName earlier.options (earlier.nextTransient + i)) .anonymous
    ∃ element partner,
      state.substitutions[2 * i]? = some (.root element,
        .path () (transient.property (Path.root element).memberName (Path.root element).type)) ∧
      state.substitutions[2 * i + 1]? = some (partner,
        .path () (transient.property partner.memberName partner.type)) := by
  intro transient
  -- The entries of earlier numbers stay where they are, so only the last number is new.
  induction paired with
  | refl => omega
  | @pair state before element partner ih =>
    obtain ⟨atLeast, twice⟩ := before.length fresh
    by_cases last : earlier.nextTransient + i = state.nextTransient
    -- The last number is that of the two entries that were added behind the others.
    · have first : state.substitutions.length = 2 * i := by omega
      refine ⟨element, partner, ?_⟩
      simp only [State.pair, State.member, State.transient, before.options, ← last, ← first,
        List.getElem?_append_right, Nat.le_refl, Nat.le_succ, Nat.sub_self]
      simp [transient]
    · have given : earlier.nextTransient + i < state.nextTransient := by
        simp only [State.pair] at given
        omega
      obtain ⟨element, partner, first, second⟩ := ih given
      refine ⟨element, partner, ?_⟩
      simp only [State.pair]
      rw [List.getElem?_append_left (by omega), List.getElem?_append_left (by omega)]
      exact ⟨first, second⟩

end Paired

/-- A flat map with canonical arguments pairs a root variable, if it pairs anything. -/
theorem paired_settle {tree : Tree} {args : List Tree} {flatMap : FlatMap Unit} (state : State)
    (parts : ofArgs tree args = .ok flatMap) (inside : ∀ arg ∈ args, IsCanonical arg) :
    Paired state (state.settle flatMap) := by
  -- The arguments have been normalized, so the lambda among them binds a root.
  obtain ⟨label, type, first, second, rest, rfl, isLambda, -⟩ := ofArgs_ok parts
  have pair := (inside (.operation label .list type [first, second]) (by simp)).args
  obtain ⟨segment, isRoot⟩ := (pair first (by simp)).parameter isLambda
  unfold State.settle
  split
  · exact .refl
  · rw [isRoot]
    exact .pair .refl segment flatMap.partner

/-- Arguments are normalized one after the other, up to the first that fails. -/
theorem paired_normalizeAll {args : List Tree} {state : State} (toPaths : state.ToPaths)
    (each : ∀ arg ∈ args, ∀ before : State, before.ToPaths →
      Paired before (run (normalize arg) before).2) :
    Paired state (run (normalizeAll args) state).2 := by
  -- What a failing member has paired stays paired, so both outcomes go the same way.
  induction args generalizing state with
  | nil => exact .refl
  | cons first rest ih =>
    obtain ⟨head, tail⟩ := List.forall_mem_cons.mp each
    have head := head state toPaths
    rw [normalizeAll, run_bind]
    generalize run (normalize first) state = ran at head ⊢
    rcases ran with ⟨fault | result, between⟩
    · exact head
    · have others := ih (head.toPaths toPaths) tail
      dsimp only
      rw [run_bind]
      generalize run (normalizeAll rest) between = ran at others ⊢
      rcases ran with ⟨fault | results, after⟩
      · exact head.trans others
      · exact head.trans others

/-- A walk pairs root variables with paths, also if it fails later. -/
theorem paired_normalize (tree : Tree) {state : State} (toPaths : state.ToPaths) :
    Paired state (run (normalize tree) state).2 := by
  -- What fails is not in reach of the cases of a walk that succeeds, so this is an induction of its own.
  induction tree using Expr.induct generalizing state with
  | path label target =>
    -- Renaming reads the state.
    rw [normalize, run_bind, run_get]
    dsimp only
    rw [run_bind, run_lift]
    cases state.rename target with
    | error fault => exact .refl
    | ok renamed? => exact .refl
  | operation label operator type args ih =>
    have inside := paired_normalizeAll toPaths fun arg member before => ih arg member
    rw [normalize, run_bind]
    cases ran : run (normalizeAll args) state with
    | mk outcome between =>
      rw [ran] at inside
      cases outcome with
      | error fault => exact inside
      | ok results =>
        have walked := walked_of_normalizeAll _
          (fun arg _ before result next ran => normalize_isCanonical ran) ran
        obtain ⟨canonical, -⟩ := walked.isCanonical toPaths.isCanonical
        refine inside.trans ?_
        dsimp only
        unfold rebuild
        split
        · exact .refl
        -- Of the operations, only a flat map that can be taken apart registers anything.
        · rw [run_canonicalize]
          split
          · exact .refl
          · rename_i parts
            exact paired_settle between parts canonical
        · exact .refl
  | factory label type args ih =>
    have inside := paired_normalizeAll toPaths fun arg member before => ih arg member
    rw [normalize, run_bind]
    generalize run (normalizeAll args) state = ran at inside ⊢
    rcases ran with ⟨fault | results, between⟩
    · exact inside
    · exact inside
  | _ => exact .refl

/-- What normalizing an expression does to the counter, and what it leaves as it looked. -/
structure Counts (tree : Tree) (state : State) (result : Tree) (after : State) : Prop where
  counted : after.nextTransient = state.nextTransient + tree.pairings
  isPath : result.path?.isSome = tree.path?.isSome
  namesPartner : result.namesPartner = tree.namesPartner
  toPaths : after.ToPaths

/-- What normalizing a list of expressions does to the counter, and what it leaves as it looked. -/
structure CountsAll (args : List Tree) (state : State) (results : List Tree) (after : State) :
    Prop where
  counted : after.nextTransient = state.nextTransient + Expr.pairingsAll args
  isPath : results.map (·.path?.isSome) = args.map (·.path?.isSome)
  namesPartner : results.map Expr.namesPartner = args.map Expr.namesPartner
  toPaths : after.ToPaths

/-- Along a list, what the members count adds up. -/
theorem Walked.counts {args results : List Tree} {state after : State}
    (walked : Walked (fun tree state result after => state.ToPaths → Counts tree state result after)
      args state results after) (toPaths : state.ToPaths) : CountsAll args state results after := by
  -- The counter goes from member to member, and so does what is registered.
  induction walked with
  | nil => exact ⟨rfl, rfl, rfl, toPaths⟩
  | cons head tail ih =>
    obtain ⟨counted, isPath, partner, between⟩ := head toPaths
    obtain ⟨others, arePaths, partners, after⟩ := ih between
    refine ⟨?_, by simp [isPath, arePaths], by simp [partner, partners], after⟩
    rw [others, counted, Expr.pairingsAll, Nat.add_assoc]

/-- The argument of a flat map that can be taken apart names a variable exactly if there is no
selector. -/
theorem namesPartner_of_ofArgs {tree : Tree} {args : List Tree} {flatMap : FlatMap Unit}
    (parts : ofArgs tree args = .ok flatMap) :
    args[1]?.any Expr.namesPartner = !flatMap.selector?.isSome := by
  obtain ⟨label, type, first, second, rest, rfl, -, partner⟩ := ofArgs_ok parts
  obtain ⟨inner, rfl, missing⟩ | ⟨selector, isSelector, found⟩ := partner
  · simp [Expr.namesPartner, Expr.path?, missing]
  -- A selector is an operation, which is no path.
  · cases second with
    | operation => simp [Expr.namesPartner, Expr.path?, found]
    | _ => simp [Expr.pathLambda?] at isSelector

/-- A walk that succeeds gives away as many numbers as there are flat maps without a selector. -/
theorem normalize_counts {tree result : Tree} {state after : State}
    (ran : run (normalize tree) state = (.ok result, after)) (toPaths : state.ToPaths) :
    Counts tree state result after := by
  -- The flat maps are counted before the walk, so it must not make or lose a path in a list.
  refine normalize_induct (motive := fun tree state result after =>
    state.ToPaths → Counts tree state result after)
    ?still ?path ?factory ?operation ?lambda ?flatMap ran toPaths
  case still =>
    intro tree state leaf _ toPaths
    refine ⟨?_, rfl, rfl, toPaths⟩
    cases tree <;> simp_all [looksInto, Expr.pairings]
  case path =>
    intro target state renamed? renamed toPaths
    cases renamed? with
    | none => exact ⟨rfl, rfl, rfl, toPaths⟩
    | some renamedPath =>
      obtain ⟨newTarget, rfl, -⟩ := State.moves_of_rename toPaths renamed
      exact ⟨rfl, rfl, rfl, toPaths⟩
  case factory =>
    intro type args state results after walked toPaths
    have counts := walked.counts toPaths
    exact ⟨by rw [counts.counted, Expr.pairings], rfl, rfl, counts.toPaths⟩
  case operation =>
    intro operator type args state results after walked settled toPaths
    have counts := walked.counts toPaths
    have other : operator ≠ .flatMap := by
      rintro rfl
      simp [rewrites] at settled
    refine ⟨?_, rfl, ?_, counts.toPaths⟩
    · simp [counts.counted, Expr.pairings, other]
    · rw [Expr.namesPartner, Expr.namesPartner, Expr.any_second_congr counts.isPath]
  case lambda =>
    intro type args state parent segment bodies after walked toPaths
    have counts := walked.counts toPaths
    exact ⟨by simp [counts.counted, Expr.pairings], rfl, rfl, counts.toPaths⟩
  case flatMap =>
    intro type args state results between parts walked taken toPaths
    have counts := walked.counts toPaths
    refine ⟨?_, rfl, rfl, (Grown.settle between parts).toPaths counts.toPaths⟩
    have partner := namesPartner_of_ofArgs taken
    rw [Expr.any_second_congr counts.namesPartner] at partner
    rw [Expr.pairings, partner, ← Nat.add_assoc, ← counts.counted, State.settle]
    cases parts.selector?.isSome <;> rfl

end Plain

end FlatMap

/-- States that a pass after another leads to, each on some expression, with success or without. -/
inductive Pass.Leads (earlier : Context) : Context → Prop
  | refl : Leads earlier earlier
  | run {context : Context} (before : Leads earlier context) (pass : Pass) (node : Node)
      (supply : NodeId) : Leads earlier (pass.runIn node { context with nextNode := supply }).2

/-- What a state that passes lead to has registered since it was new. -/
structure Context.Registered (options : Options) (context : Context) : Prop where
  /-- No node is being visited. -/
  unvisited : context.ancestors = []
  /-- The names that were given away start with the first one. -/
  atLeast : options.first ≤ context.nextTransient
  /-- There are two entries for each of them. -/
  length : context.substitutions.length = 2 * (context.nextTransient - options.first)
  /-- They replace a root and a path by members of the same invented variable. -/
  entries : ∀ i, options.first + i < context.nextTransient →
    let transient := Path.ofVariable (transientName options (options.first + i)) .anonymous
    ∃ element partner first second, element.isRoot = true ∧
      context.substitutions[2 * i]? = some (element,
        .path first (transient.property element.memberName element.type)) ∧
      context.substitutions[2 * i + 1]? = some (partner,
        .path second (transient.property partner.memberName partner.type))

namespace Pass

/-- A pass leaves the stack, and the registrations where they were. -/
theorem runIn_extends (pass : Pass) (node : Node) (context : Context) :
    context.Extends (pass.runIn node context).2 := by
  -- Neither pass removes a registration or leaves a node on the stack.
  cases pass with
  | normalizeFlatMaps => exact FlatMap.normalize_extends node context
  | expandMarkers => exact (AnyQuantifier.expand_keeps node context).extends

/-- A pass pairs root variables with paths, also if it fails later. -/
theorem paired_runIn (pass : Pass) (node : Node) {context : Context}
    (toPaths : context.plain.ToPaths) :
    FlatMap.Plain.Paired context.plain (pass.runIn node context).2.plain := by
  -- The plain walk ends in the plain state of the pass, and an expansion leaves that state.
  cases pass with
  | normalizeFlatMaps =>
    have paired := FlatMap.Plain.paired_normalize node.unlabel toPaths
    rwa [FlatMap.plain_runIn node context] at paired
  | expandMarkers =>
    obtain ⟨replaced, nextNode, same⟩ := AnyQuantifier.expand_keeps node context
    change FlatMap.Plain.Paired _ (Steps.run (AnyQuantifier.expand node) context).2.plain
    rw [same]
    exact .refl

/-- A new state has nothing registered, so that its replacements are paths. -/
theorem toPaths_start (options : Options) (supply : NodeId) :
    (Context.start options supply).plain.ToPaths := by
  simp [FlatMap.plain_start, FlatMap.Plain.State.ToPaths]

/-- What the plain state replaces by a path, the state replaces by a node that is this path. -/
theorem exists_label_of_plain {context : Context} {i : Nat} {path target : Path}
    (found : context.plain.substitutions[i]? = some (path, .path () target)) :
    ∃ label, context.substitutions[i]? = some (path, .path label target) := by
  -- The plain table is the table without labels, entry by entry.
  simp only [Context.plain, List.getElem?_map, Option.map_eq_some_iff, Prod.mk.injEq] at found
  obtain ⟨⟨key, replacement⟩, entry, rfl, same⟩ := found
  cases replacement with
  | path label replaced =>
    cases same
    exact ⟨label, entry⟩
  | _ => simp at same

namespace Leads

variable {earlier context : Context}

/-- Passes leave the stack, and the registrations where they were. -/
theorem extended (led : Leads earlier context) : earlier.Extends context := by
  -- Each pass begins in the state that the one before has left.
  induction led with
  | refl => exact ⟨rfl, List.prefix_rfl⟩
  | @run context before pass node supply ih =>
    obtain ⟨ancestors, substitutions⟩ := pass.runIn_extends node { context with nextNode := supply }
    exact ⟨ancestors.trans ih.ancestors, ih.substitutions.trans substitutions⟩

/-- Passes pair root variables with paths, one after the other. -/
theorem paired (led : Leads earlier context) (toPaths : earlier.plain.ToPaths) :
    FlatMap.Plain.Paired earlier.plain context.plain := by
  -- A new supply of identities has no part in the plain state.
  induction led with
  | refl => exact .refl
  | @run context before pass node supply ih =>
    have toPaths : Context.plain { context with nextNode := supply } |>.ToPaths := ih.toPaths toPaths
    exact ih.trans (pass.paired_runIn node toPaths)

/-- From a new state, passes lead to states in which variables are registered in pairs. -/
theorem registered {options : Options} {supply : NodeId} {context : Context}
    (led : Leads (Context.start options supply) context) : context.Registered options := by
  -- All that is known of the plain state is read off how it was paired, and then labelled.
  have paired := led.paired (toPaths_start options supply)
  have fresh : (Context.start options supply).plain.substitutions = [] := rfl
  obtain ⟨atLeast, length⟩ := paired.length fresh
  refine ⟨led.extended.ancestors, atLeast, ?_, ?_⟩
  · simp only [Context.plain, List.length_map] at length
    exact length
  · intro i given transient
    obtain ⟨element, partner, first, second⟩ := paired.entries fresh given
    obtain ⟨firstLabel, first⟩ := exists_label_of_plain first
    obtain ⟨secondLabel, second⟩ := exists_label_of_plain second
    exact ⟨.root element, partner, firstLabel, secondLabel, rfl, first, second⟩

end Leads

/-- The counter is not bounded here, and a counter of 64 bits gives the same numbers where the last one
fits: started at the first number and advanced for each flat map that takes a number, it does not overflow,
and every number that has been given away fits too. -/
theorem nextTransient_eq_toNat {node result : Node} {options : Options} {supply : NodeId}
    (done : (normalizeFlatMaps.run options node supply).1 = .ok result)
    (fits : options.first + node.pairings < UInt64.size) :
    let after := (normalizeFlatMaps.run options node supply).2
    (UInt64.ofNat options.first + UInt64.ofNat node.pairings).toNat = after.nextTransient ∧
      ∀ number < after.nextTransient, (UInt64.ofNat number).toNat = number := by
  intro after
  -- A run that succeeds takes one number for each flat map without a selector.
  have counts := FlatMap.Plain.normalize_counts (FlatMap.plain_of_runIn done)
    (toPaths_start options supply)
  have counted : after.nextTransient = options.first + node.pairings := by
    rw [← node.pairings_unlabel]
    exact counts.counted
  rw [counted, ← UInt64.ofNat_add, UInt64.toNat_ofNat_of_lt' fits]
  exact ⟨rfl, fun number below => UInt64.toNat_ofNat_of_lt' (Nat.lt_trans below fits)⟩

end Pass

end IndexQuery
