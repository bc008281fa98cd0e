import IndexQuery.Proofs.Expr.Reached
import IndexQuery.Proofs.Pass.FlatMapOutlines
import IndexQuery.Proofs.Pass.Registrations

/-! The flat-map pass accepts exactly the expressions whose flat maps have their parts as written. -/

namespace IndexQuery

open Steps

namespace Expr

variable {Label Other : Type}

/-- Whether an argument of a flat map pairs its lambda with a name or with a selector. -/
def isPairing : Expr Label → Bool
  | .operation _ .list _ [first, second] =>
    first.pathLambda?.isSome && (second.path?.isSome || second.pathLambda?.isSome)
  | _ => false

/-- What a flat map looks for in an expression that stands below it. -/
structure Form where
  isPath : Bool
  isLambda : Bool
  isPairing : Bool
deriving DecidableEq

/-- The form in which a flat map above an expression finds it. -/
def form (expr : Expr Label) : Form where
  isPath := expr.path?.isSome
  isLambda := expr.pathLambda?.isSome
  isPairing := expr.isPairing

/-- Only a list of two pairs anything. -/
theorem isPairing_of_not_pair {label : Label} {operator : Operator} {type : ValueType}
    {args : List (Expr Label)} (other : ¬ (operator = .list ∧ args.length = 2)) :
    (operation label operator type args).isPairing = false := by
  -- The first equation asks for both, and every other expression falls through to the second.
  unfold isPairing
  split
  · simp_all
  · rfl

/-- What pairs a lambda with a name or a selector is a list of the two. -/
theorem eq_of_isPairing {expr : Expr Label} (pairs : expr.isPairing = true) :
    ∃ label type first second, expr = operation label .list type [first, second] ∧
      first.pathLambda?.isSome = true ∧
        (second.path?.isSome = true ∨ second.pathLambda?.isSome = true) := by
  -- The last equation answers no, so the first one has matched.
  unfold isPairing at pairs
  split at pairs
  · rw [Bool.and_eq_true, Bool.or_eq_true] at pairs
    exact ⟨_, _, _, _, rfl, pairs⟩
  · simp at pairs

/-- An operation is no path. -/
theorem path?_operation (label : Label) (operator : Operator) (type : ValueType)
    (args : List (Expr Label)) : (operation label operator type args).path? = none := rfl

/-- The form of an operation is that of its operator and of the forms of its arguments. -/
theorem form_operation {args : List (Expr Label)} {others : List (Expr Other)}
    (same : args.map form = others.map form) (label : Label) (label' : Other)
    (operator : Operator) (type type' : ValueType) :
    (operation label operator type args).form = (operation label' operator type' others).form := by
  -- Lambdas and lists are looked into only if they hold two arguments.
  have length : args.length = others.length := by
    simpa using congrArg List.length same
  by_cases two : args.length = 2
  · obtain ⟨first, second, rfl⟩ := List.length_eq_two.mp two
    obtain ⟨first', second', rfl⟩ := List.length_eq_two.mp (length ▸ two)
    simp only [List.map_cons, List.map_nil, List.cons.injEq, and_true, form, Form.mk.injEq] at same
    obtain ⟨⟨firstPath, firstLambda, -⟩, secondPath, secondLambda, -⟩ := same
    by_cases lambda : operator = .lambda
    · subst lambda
      simp [form, path?_operation, isPairing, pathLambda?_pair, firstPath]
    · by_cases list : operator = .list
      · subst list
        simp [form, path?_operation, isPairing, pathLambda?_of_not_pair, firstLambda, secondPath,
          secondLambda]
      · simp [form, path?_operation, isPairing_of_not_pair, pathLambda?_of_not_pair, lambda, list]
  -- With any other number of arguments, an operation has none of the forms.
  · have two' : others.length ≠ 2 := by omega
    simp [form, path?_operation, isPairing_of_not_pair, pathLambda?_of_not_pair, two, two']

/-- Labels have no part in the form. -/
theorem form_unlabel (expr : Expr Label) : expr.unlabel.form = expr.form := by
  -- Two levels of arguments are looked into, so the forms of all arguments are kept first.
  induction expr with
  | operation label operator type args ih =>
    rw [unlabel_operation]
    apply form_operation
    rw [List.map_map]
    exact List.map_congr_left ih
  | factory label type args => rw [unlabel_factory]; rfl
  | template label text type args => rw [unlabel_template]; rfl
  | _ => rfl

end Expr

/-- States whose registered replacements are paths. -/
def Context.ReplacesByPaths (context : Context) : Prop :=
  ∀ entry ∈ context.substitutions, ∃ label target, entry.2 = .path label target

/-- Without labels, the replacements are paths as well. -/
theorem Context.ReplacesByPaths.toPaths {context : Context} (paths : context.ReplacesByPaths) :
    context.plain.ToPaths := by
  -- Every entry of the plain table is one of the table, without the label of its replacement.
  intro entry registered
  obtain ⟨⟨path, replacement⟩, found, rfl⟩ := List.mem_map.mp registered
  obtain ⟨label, target, same⟩ := paths _ found
  exact ⟨target, congrArg Expr.unlabel same⟩

namespace FlatMap

variable {Label Other : Type}

/-- Lambdas of a parameter and one body, with a path for their parameter. -/
inductive BindsPath : Expr Label → Prop
  | lambda {label inner : Label} {type : ValueType} {parameter : Path} {body : Expr Label} :
    BindsPath (.operation label .lambda type [.path inner parameter, body])

/-- Arguments of a flat map that name its parts: behind the source stands a list of two, a lambda and
either the alias of an element or a second lambda, and whatever follows is not asked for. -/
inductive NamesParts : List (Expr Label) → Prop
  | named {source first : Expr Label} {rest : List (Expr Label)} {label inner : Label}
    {type : ValueType} {name : Path} (binds : BindsPath first) :
    NamesParts (source :: .operation label .list type [first, .path inner name] :: rest)
  | selected {source first second : Expr Label} {rest : List (Expr Label)} {label : Label}
    {type : ValueType} (binds : BindsPath first) (selects : BindsPath second) :
    NamesParts (source :: .operation label .list type [first, second] :: rest)

/-- Such a lambda is what is read off as one. -/
theorem bindsPath_iff {expr : Expr Label} : BindsPath expr ↔ expr.pathLambda?.isSome = true := by
  -- The reader asks for the operator, the number of arguments and the parameter, and nothing else.
  constructor
  · rintro ⟨⟩
    rfl
  · intro found
    obtain ⟨⟨parameter, body⟩, found⟩ := Option.isSome_iff_exists.mp found
    obtain ⟨label, type, inner, rfl⟩ := Expr.pathLambda?_eq_some found
    exact .lambda

/-- Whether arguments name the parts of a flat map is decided by the second one. -/
theorem namesParts_iff {args : List (Expr Label)} :
    NamesParts args ↔ args[1]?.any Expr.isPairing = true := by
  -- The source is not looked at, and neither is what follows the pair.
  constructor
  · intro named
    cases named with
    | named binds => simp [Expr.isPairing, Expr.path?, bindsPath_iff.mp binds]
    | selected binds selects =>
      simp [Expr.isPairing, bindsPath_iff.mp binds, bindsPath_iff.mp selects]
  · intro pairs
    rcases args with _ | ⟨source, _ | ⟨pair, rest⟩⟩
    · simp at pairs
    · simp at pairs
    · obtain ⟨label, type, first, second, rfl, binds, isPath | selects⟩ :=
        Expr.eq_of_isPairing (by simpa using pairs)
      -- A path is an alias, and what else there may be is a selector.
      · cases second with
        | path inner name => exact .named (bindsPath_iff.mpr binds)
        | _ => simp [Expr.path?] at isPath
      · exact .selected (bindsPath_iff.mpr binds) (bindsPath_iff.mpr selects)

/-- Arguments of the same forms name the parts of a flat map or do not. -/
theorem namesParts_congr {args : List (Expr Label)} {others : List (Expr Other)}
    (same : args.map Expr.form = others.map Expr.form) : NamesParts args ↔ NamesParts others := by
  -- The second argument has the form of the second one on the other side, if there is one.
  have pairings : args.map Expr.isPairing = others.map Expr.isPairing := by
    have views := congrArg (List.map Expr.Form.isPairing) same
    simpa [Function.comp_def, Expr.form] using views
  rw [namesParts_iff, namesParts_iff, Expr.any_second_congr pairings]

/-- The fault of a flat map whose parts are not what they have to be. -/
def IsUnexpectedShape (fault : ShapeError) : Prop :=
  -- Nothing is asked of the part or of the text that is quoted.
  ∃ part found, fault = .unexpectedShape part found

/-- An outcome that is a success exactly if something was formed, with a result that kept something,
and that is otherwise the fault of a flat map. -/
def Settles {α : Type} (outcome : Except ShapeError α) (formed : Prop) (kept : α → Prop) : Prop :=
  -- The failure says why, so that success and form decide each other.
  match outcome with
  | .ok result => formed ∧ kept result
  | .error fault => ¬ formed ∧ IsUnexpectedShape fault

/-- What is formed may be said in another way. -/
theorem Settles.of_iff {α : Type} {outcome : Except ShapeError α} {formed formed' : Prop}
    {kept : α → Prop} (settles : Settles outcome formed kept) (same : formed ↔ formed') :
    Settles outcome formed' kept := by
  rwa [propext same] at settles

/-- Steps in a row settle what both of them settle, the second one on what the first one kept. -/
theorem Settles.bind {State α β : Type} {first : ExceptT ShapeError (StateM State) α}
    {next : α → ExceptT ShapeError (StateM State) β} {state : State} {formed formed' : Prop}
    {kept : α → Prop} {kept' : β → Prop} (settles : Settles (run first state).1 formed kept)
    (nextSettles : ∀ result after, run first state = (.ok result, after) → kept result →
      Settles (run (next result) after).1 formed' kept') :
    Settles (run (first >>= next) state).1 (formed ∧ formed') kept' := by
  rw [run_bind]
  cases ran : run first state with
  | mk outcome after =>
    rw [ran] at settles
    cases outcome with
    -- A fault of the first step ends the run.
    | error fault =>
      obtain ⟨malformed, unexpected⟩ := settles
      exact ⟨fun both => malformed both.1, unexpected⟩
    | ok result =>
      obtain ⟨holds, keeps⟩ := settles
      apply (nextSettles result after ran keeps).of_iff
      simp [holds]

/-- What is made of the result afterwards settles the same. -/
theorem Settles.map {State α β : Type} {steps : ExceptT ShapeError (StateM State) α} {make : α → β}
    {state : State} {formed : Prop} {kept : α → Prop} {kept' : β → Prop}
    (settles : Settles (run steps state).1 formed kept)
    (keeps : ∀ result, kept result → kept' (make result)) :
    Settles (run (do return make (← steps)) state).1 formed kept' := by
  -- The last step cannot fail, so there is nothing for it to settle.
  have both := settles.bind fun result after _ held =>
    show Settles (run (pure (make result)) after).1 True kept' from ⟨trivial, keeps result held⟩
  exact both.of_iff (by simp)

/-- A flat map is taken apart exactly if its arguments name its parts. -/
theorem settles_ofArgs (node : Expr Label) (args : List (Expr Label)) :
    Settles (ofArgs node args) (NamesParts args) fun _ => True := by
  -- The arguments are checked one after the other, and each check has an error of its own.
  rcases args with _ | ⟨source, _ | ⟨pair, rest⟩⟩
  · exact ⟨by simp [namesParts_iff], _, _, rfl⟩
  · exact ⟨by simp [namesParts_iff], _, _, rfl⟩
  · cases found : pair.operator? with
    | none =>
      rw [ofArgs_of_operator? found]
      refine ⟨?_, _, _, rfl⟩
      rintro ⟨⟩ <;> simp [Expr.operator?] at found
    | some operator =>
      cases pair with
      | operation label operator type elements =>
        by_cases two : operator = .list ∧ elements.length = 2
        · obtain ⟨rfl, two⟩ := two
          obtain ⟨first, second, rfl⟩ := List.length_eq_two.mp two
          have pairs : (source :: Expr.operation label .list type [first, second] :: rest)[1]?.any
              Expr.isPairing =
                (first.pathLambda?.isSome && (second.path?.isSome || second.pathLambda?.isSome)) :=
            rfl
          rw [ofArgs_pair, namesParts_iff, pairs]
          -- What the lambda and the second element are is all that is left to ask.
          cases first.pathLambda? with
          | none => exact ⟨by simp, _, _, rfl⟩
          | some lambda =>
            cases second.path? with
            | some partner => exact ⟨rfl, trivial⟩
            | none =>
              cases second.pathLambda? with
              | none => exact ⟨by simp, _, _, rfl⟩
              | some selector => exact ⟨rfl, trivial⟩
        · rw [ofArgs_of_not_pair two]
          refine ⟨?_, _, _, rfl⟩
          rw [namesParts_iff]
          simp [Expr.isPairing_of_not_pair two]
      | _ => simp [Expr.operator?] at found

/-- Expressions in which every flat map that the pass comes to names its parts. -/
def Formed (expr : Expr Label) : Prop :=
  -- The pass comes to what stands in operations and objects, however deep.
  ∀ label type args,
    .operation label .flatMap type args ∈ expr.reached Plain.looksInto → NamesParts args

/-- An expression is formed if it is itself, and the arguments are that the pass looks into. -/
theorem formed_iff {expr : Expr Label} :
    Formed expr ↔
      (∀ label type args, .operation label .flatMap type args = expr → NamesParts args) ∧
        (Plain.looksInto expr = true → ∀ arg ∈ expr.args, Formed arg) := by
  -- The walk comes to the expression first, and from there to its arguments.
  unfold Formed
  rw [Expr.reached_eq]
  constructor
  · intro formed
    refine ⟨?_, ?_⟩
    · intro label type args same
      apply formed label type args
      rw [same]
      exact List.mem_cons_self
    · intro entered arg member label type args inside
      apply formed label type args
      rw [if_pos entered]
      exact List.mem_cons_of_mem _ (List.mem_flatMap.mpr ⟨arg, member, inside⟩)
  · rintro ⟨itself, inside⟩ label type args reached
    rcases List.mem_cons.mp reached with same | below
    · exact itself label type args same
    · split at below
      · rename_i entered
        obtain ⟨arg, member, reached⟩ := List.mem_flatMap.mp below
        exact inside entered arg member label type args reached
      · simp at below

/-- An operation is formed if it names its parts, should it be a flat map, and its arguments are. -/
theorem formed_operation {label : Label} {operator : Operator} {type : ValueType}
    {args : List (Expr Label)} :
    Formed (.operation label operator type args) ↔
      (∀ arg ∈ args, Formed arg) ∧ (operator = .flatMap → NamesParts args) := by
  -- The condition on the operation itself says something about flat maps only.
  rw [formed_iff, and_comm]
  apply and_congr
  · simp [Plain.looksInto, Expr.args]
  · constructor
    · rintro named rfl
      exact named label type args rfl
    · rintro named _ _ _ ⟨⟩
      exact named rfl

/-- An object construction is formed if its arguments are. -/
theorem formed_factory {label : Label} {type : ValueType} {args : List (Expr Label)} :
    Formed (.factory label type args) ↔ ∀ arg ∈ args, Formed arg := by
  -- A factory is looked into and names no parts of its own.
  rw [formed_iff]
  simp [Plain.looksInto, Expr.args]

/-- What the pass does not look into is formed. -/
theorem formed_of_leaf {expr : Expr Label} (leaf : Plain.looksInto expr = false) : Formed expr := by
  -- A leaf is no operation, and nothing below it is looked into.
  rw [formed_iff]
  refine ⟨?_, by simp [leaf]⟩
  rintro label type args rfl
  simp [Plain.looksInto] at leaf

/-- Labels have no part in whether an expression is formed. -/
theorem formed_unlabel (expr : Expr Label) : Formed expr.unlabel ↔ Formed expr := by
  -- The parts are named by forms, and forms have no labels.
  induction expr with
  | operation label operator type args ih =>
    have same : (args.map Expr.unlabel).map Expr.form = args.map Expr.form := by
      simp [Expr.form_unlabel]
    rw [Expr.unlabel_operation, formed_operation, formed_operation, namesParts_congr same,
      List.forall_mem_map]
    apply and_congr_left
    intro _
    exact forall₂_congr ih
  | factory label type args ih =>
    rw [Expr.unlabel_factory, formed_factory, formed_factory, List.forall_mem_map]
    exact forall₂_congr ih
  | template label text type args =>
    rw [Expr.unlabel_template]
    exact iff_of_true (formed_of_leaf rfl) (formed_of_leaf rfl)
  | _ => exact iff_of_true (formed_of_leaf rfl) (formed_of_leaf rfl)

namespace Plain

/-- A walk over an expression settles whether it is formed, and keeps its form. -/
def SettlesForm (tree : Tree) (state : State) : Prop :=
  Settles (run (normalize tree) state).1 (Formed tree) fun result => result.form = tree.form

/-- A walk over a list settles whether its members are formed, if the walks over them do. -/
theorem settles_normalizeAll {args : List Tree}
    (each : ∀ arg ∈ args, ∀ state : State, state.ToPaths → SettlesForm arg state) {state : State}
    (toPaths : state.ToPaths) :
    Settles (run (normalizeAll args) state).1 (∀ arg ∈ args, Formed arg) fun results =>
      results.map Expr.form = args.map Expr.form := by
  induction args generalizing state with
  | nil => exact ⟨by simp, rfl⟩
  | cons first rest ih =>
    obtain ⟨head, tail⟩ := List.forall_mem_cons.mp each
    rw [normalizeAll, List.forall_mem_cons]
    refine (head state toPaths).bind ?_
    -- What the first member registers are paths again, so the others are walked over like it.
    intro result between ran same
    have between := (normalize_grown ran).toPaths toPaths
    refine (ih tail between).map ?_
    intro results others
    simp [same, others]

/-- What is made of an operation settles whether it names its parts, should it be a flat map. -/
theorem settles_rebuild (tree : Tree) (operator : Operator) (type : ValueType) (args : List Tree)
    (state : State) :
    Settles (run (rebuild tree operator type args) state).1 (operator = .flatMap → NamesParts args)
      fun result => result.form = (Expr.operation () operator type args).form := by
  -- An operation that is not rewritten is no flat map, and keeps its operator and its arguments.
  cases rewritten : rewrites operator args with
  | false =>
    rw [rebuild_of_not_rewrites rewritten]
    refine ⟨?_, rfl⟩
    rintro rfl
    simp [rewrites] at rewritten
  | true =>
    obtain rfl | ⟨rfl, label, parent, segment, bodies, rfl⟩ := rewrites_cases rewritten
    -- A flat map is taken apart, and its canonical form is no more of a part than it was.
    · have settles := settles_ofArgs tree args
      rw [rebuild, run_canonicalize]
      cases taken : ofArgs tree args with
      | error fault =>
        rw [taken] at settles
        obtain ⟨unnamed, unexpected⟩ := settles
        exact ⟨fun named => unnamed (named rfl), unexpected⟩
      | ok parts =>
        rw [taken] at settles
        exact ⟨fun _ => settles.1, by
          simp [canonical, Expr.form, Expr.path?_operation, Expr.isPairing_of_not_pair,
            Expr.pathLambda?_of_not_pair]⟩
    -- A lambda that is bound to a member binds its root, which is a path as well.
    · refine ⟨by simp, ?_⟩
      apply Expr.form_operation
      rfl

/-- A walk settles whether a tree is formed, where the registered replacements are paths. -/
theorem settles_normalize (tree : Tree) {state : State} (toPaths : state.ToPaths) :
    SettlesForm tree state := by
  -- The parts of a flat map are looked at after they are normalized, so their forms are carried along.
  induction tree using Expr.induct generalizing state with
  | path label target =>
    -- A path keeps its name or moves to another path, and never fails.
    rw [SettlesForm, State.run_normalize_path toPaths]
    exact ⟨formed_of_leaf rfl, rfl⟩
  | operation label operator type args ih =>
    have inside := settles_normalizeAll (fun arg member state => ih arg member) toPaths
    rw [SettlesForm, normalize, formed_operation]
    refine inside.bind ?_
    -- The arguments have kept their forms, so that the same flat maps can be taken apart.
    intro results after _ same
    have settles := settles_rebuild (.operation label operator type args) operator type results after
    rwa [Expr.form_operation same () label operator type type, namesParts_congr same] at settles
  | factory label type args ih =>
    have inside := settles_normalizeAll (fun arg member state => ih arg member) toPaths
    rw [SettlesForm, normalize, formed_factory]
    refine inside.map ?_
    intro results _
    rfl
  | _ => exact ⟨formed_of_leaf rfl, rfl⟩

end Plain

/-- The parts are named in every flat map of an expression that the pass comes to, if it succeeds. -/
theorem settles_runIn (node : Node) {context : Context} (paths : context.ReplacesByPaths) :
    Settles (Pass.normalizeFlatMaps.runIn node context).1 (Formed node) fun _ => True := by
  -- The plain walk beside the pass succeeds where the pass does, and its trees have the same forms.
  have settles := Plain.settles_normalize node.unlabel paths.toPaths
  rw [Plain.SettlesForm, plain_runIn, formed_unlabel] at settles
  cases outcome : (Pass.normalizeFlatMaps.runIn node context).1 with
  | ok result =>
    rw [outcome] at settles
    exact ⟨settles.1, trivial⟩
  | error fault =>
    rw [outcome] at settles
    exact settles

/-- Every new state replaces by paths. From a state that does, the pass succeeds exactly if every flat
map that it comes to names its parts, and what it fails with otherwise is that a flat map has an
unexpected shape. -/
theorem normalize_succeeds_iff :
    (∀ options supply, (Context.start options supply).ReplacesByPaths) ∧
      ∀ (node : Node) (context : Context), context.ReplacesByPaths →
        let ran := Pass.normalizeFlatMaps.runIn node context
        ((∃ result, ran.1 = .ok result) ↔
            ∀ label type args,
              .operation label .flatMap type args ∈ node.reached Plain.looksInto → NamesParts args) ∧
          ∀ fault, ran.1 = .error fault →
            (∃ part found, fault = .unexpectedShape part found) ∧ fault.operator = .flatMap := by
  refine ⟨?_, ?_⟩
  -- Nothing is registered in a new state.
  · intro options supply entry registered
    simp [Context.start] at registered
  · intro node context paths ran
    have settles : Settles ran.1 (Formed node) fun _ => True := settles_runIn node paths
    -- Both outcomes are settled by the form, so success and failure exclude each other.
    cases outcome : ran.1 with
    | ok result =>
      rw [outcome] at settles
      exact ⟨iff_of_true ⟨result, rfl⟩ settles.1, by simp⟩
    | error fault =>
      rw [outcome] at settles
      obtain ⟨malformed, part, found, same⟩ := settles
      refine ⟨iff_of_false (by simp) malformed, ?_⟩
      rintro _ ⟨⟩
      exact ⟨⟨part, found, same⟩, by rw [same]; rfl⟩

/-- Where a path is registered, a flat map over children is accepted, and one without a pair behind it
is not. -/
theorem normalize_succeeds_iff_childPairs :
    let docs := Path.ofVariable "docs" .collection
    let context := (Context.start {} 12).substitute (.ofVariable "y" .collection) (.path 11 docs)
    let malformed := childPairsThen (.operation 10 .flatMap .collection [.path 11 docs])
    context.ReplacesByPaths ∧
      (∃ result, (Pass.normalizeFlatMaps.runIn childPairs context).1 = .ok result) ∧
      ∃ part found, (Pass.normalizeFlatMaps.runIn malformed context).1 =
        .error (.unexpectedShape part found) := by
  intro docs context malformed
  have paths : context.ReplacesByPaths := by
    intro entry registered
    obtain rfl : entry = (.ofVariable "y" .collection, .path 11 docs) := by
      simpa [context, Context.substitute, Context.start] using registered
    exact ⟨11, docs, rfl⟩
  -- All arguments are paths and a lambda, so only the flat map has a condition to meet.
  have formed : Formed childPairs := by
    have named (label : NodeId) (target : Path) : Formed (.path label target) := formed_of_leaf rfl
    simp only [childPairs, formed_operation, List.forall_mem_cons, named, List.not_mem_nil,
      IsEmpty.forall_iff, implies_true, and_self, reduceCtorEq, forall_const, true_and]
    exact .named .lambda
  have unformed : ¬ Formed malformed := by
    simp [malformed, childPairsThen, formed_operation, namesParts_iff]
  refine ⟨paths, (normalize_succeeds_iff.2 childPairs context paths).1.mpr formed, ?_⟩
  -- With the malformed one beside it the conjunction has to fail, and the error says of what kind.
  have rejected := normalize_succeeds_iff.2 malformed context paths
  cases outcome : (Pass.normalizeFlatMaps.runIn malformed context).1 with
  | ok result => exact absurd (rejected.1.mp ⟨result, outcome⟩) unformed
  | error fault =>
    obtain ⟨⟨part, found, rfl⟩, -⟩ := rejected.2 fault outcome
    exact ⟨part, found, rfl⟩

end FlatMap

end IndexQuery
