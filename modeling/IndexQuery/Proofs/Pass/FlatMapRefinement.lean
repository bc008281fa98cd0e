import IndexQuery.Proofs.Expr.Unlabel
import IndexQuery.Proofs.Pass.FlatMapParts
import IndexQuery.Proofs.Pass.PlainFlatMap
import IndexQuery.Pass.Run

/-! The flat-map pass does what the plain recursion does, and keeps every node it need not build. -/

namespace IndexQuery

open Steps

/-- What a plain walk sees of the state of a pass: neither flag, ancestors nor labels. -/
def Context.plain (context : Context) : FlatMap.Plain.State where
  options := context.options
  substitutions := context.substitutions.map fun (path, replacement) => (path, replacement.unlabel)
  nextTransient := context.nextTransient

namespace FlatMap

/-- The parts of a flat map without labels. -/
def unlabel (flatMap : FlatMap NodeId) : FlatMap Unit where
  source := flatMap.source.unlabel
  element := flatMap.element
  body := flatMap.body.unlabel
  partner := flatMap.partner
  selector? := flatMap.selector?.map Expr.unlabel

/-- Labels have no part in whether a flat map is well formed. -/
theorem ofArgs_unlabel (node : Node) (args : List Node) :
    ofArgs node.unlabel (args.map Expr.unlabel) = (ofArgs node args).map unlabel :=
  ofArgs_map Expr.mirrors_unlabel node args

/-- A path has the same replacement with and without labels. -/
theorem replacement?_plain (context : Context) (path : Path) :
    context.plain.replacement? path = (context.replacement? path).map Expr.unlabel := by
  -- Labels are no part of the keys, so the same entry is found in both tables.
  simp only [Plain.State.replacement?, Context.plain, Context.replacement?]
  induction context.substitutions with
  | nil => rfl
  | cons entry rest ih =>
    rw [List.map_cons, List.lookup_cons, List.lookup_cons]
    cases path == entry.1 with
    | true => rfl
    | false => exact ih

/-- A path is replaced as it is registered, and the flag is raised where it is. -/
theorem run_replace (path : Path) (context : Context) :
    run (replace path) context =
      (.ok (context.replacement? path),
        if (context.replacement? path).isSome then context.mark else context) := by
  -- The flag is raised in the one case in which a replacement is found.
  rw [replace, run_bind, run_get]
  dsimp only
  cases context.replacement? path with
  | none => rfl
  | some replacement => rfl

/-- Replacing a path is invisible in the plain state. -/
theorem replace_plain (path : Path) (context : Context) :
    ((run (replace path) context).1.map (Option.map Expr.unlabel),
      (run (replace path) context).2.plain) =
      (.ok (context.plain.replacement? path), context.plain) := by
  -- Only the flag can differ, and the plain state has none.
  rw [run_replace, replacement?_plain]
  cases context.replacement? path with
  | none => rfl
  | some replacement => rfl

/-- A path is renamed as without labels, which is invisible in the plain state. -/
theorem rename_plain (path : Path) (context : Context) :
    ((run (rename path) context).1.map (Option.map Expr.unlabel),
      (run (rename path) context).2.plain) = (context.plain.rename path, context.plain) := by
  -- The parent is renamed first, and the path itself is looked up only if that changed nothing.
  induction path with
  | root segment => exact replace_plain (.root segment) context
  | member parent segment ih =>
    rw [rename, run_bind, Plain.State.rename]
    generalize run (rename parent) context = ran at ih ⊢
    rcases ran with ⟨fault | newParent?, after⟩
    -- A parent that cannot be renamed fails in both.
    · obtain ⟨fails, same⟩ := Prod.mk.inj ih
      rw [← fails]
      exact congrArg (Prod.mk _) same
    · obtain ⟨renamed, same⟩ := Prod.mk.inj ih
      rw [← renamed, ← same]
      cases newParent? with
      | none => exact replace_plain (.member parent segment) after
      | some newParent =>
        -- Below a path the segment is added, and anything else is quoted in the error.
        have text := newParent.render_unlabel
        cases newParent with
        | path => rfl
        | _ => simpa [Except.map] using text.symm

/-- What a run has to do with the plain walk beside it: the same outcome and the same state, a flag
raised exactly where something was rewritten, and otherwise the original as it was. -/
def Follows {α β : Type} (steps : PassM α) (walk : Plain.Walk β) (view : α → β) (fired : Bool)
    (original : α) (context : Context) : Prop :=
  match run steps context with
  | (.error fault, after) => run walk context.plain = (.error fault, after.plain)
  | (.ok result, after) =>
    run walk context.plain = (.ok (view result), after.plain) ∧
      after.replaced = (context.replaced || fired) ∧ (fired = false → result = original) ∧
      context.nextNode ≤ after.nextNode

/-- A path that is not registered changes nothing, and any other one raises the flag. -/
theorem rename_effect (path : Path) (context : Context) :
    match run (rename path) context with
    | (.error _, _) => True
    | (.ok none, after) => context.plain.hits path = false ∧ after = context
    | (.ok (some _), after) =>
      context.plain.hits path = true ∧ after.replaced = true ∧
        context.nextNode ≤ after.nextNode := by
  -- The first segment from the root whose path is registered decides.
  induction path with
  | root segment =>
    rw [rename, run_replace, Plain.State.hits, replacement?_plain]
    cases context.replacement? (.root segment) with
    | none => exact ⟨rfl, rfl⟩
    | some replacement => exact ⟨rfl, rfl, Nat.le_refl _⟩
  | member parent segment ih =>
    rw [rename, run_bind, Plain.State.hits]
    generalize run (rename parent) context = ran at ih ⊢
    rcases ran with ⟨fault | _ | newParent, after⟩
    · trivial
    -- The parent kept its name, so the path itself is looked up in the same state.
    · obtain ⟨missed, rfl⟩ := ih
      dsimp only
      rw [run_replace, replacement?_plain, missed]
      cases after.replacement? (.member parent segment) with
      | none => exact ⟨rfl, rfl⟩
      | some replacement => exact ⟨rfl, rfl, Nat.le_refl _⟩
    -- The parent was replaced, which has raised the flag already.
    · obtain ⟨hit, raised, grown⟩ := ih
      rw [hit]
      cases newParent with
      | path label target => exact ⟨rfl, rfl, Nat.le_succ_of_le grown⟩
      | _ => trivial

/-- Normalizing a path follows the plain walk. -/
theorem follows_path (label : NodeId) (target : Path) (context : Context) :
    Follows (normalize (.path label target)) (Plain.normalize (.path () target)) Expr.unlabel
      (context.plain.hits target) (.path label target) context := by
  -- Renaming says what the result is, and its effect whether that is the path itself.
  have renamed := rename_plain target context
  have effect := rename_effect target context
  rw [Follows, normalize, Plain.normalize, run_bind, run_bind, run_get]
  dsimp only
  rw [run_bind, run_lift]
  generalize run (rename target) context = ran at renamed effect ⊢
  rcases ran with ⟨fault | _ | replacement, after⟩
  · obtain ⟨fails, same⟩ := Prod.mk.inj renamed
    rw [← fails, ← same]
    rfl
  -- A path that is missed is kept, and leaves the state as it was.
  · obtain ⟨missed, rfl⟩ := effect
    obtain ⟨same, -⟩ := Prod.mk.inj renamed
    rw [← same, missed]
    simp [Except.map]
  -- A path that is hit gives way to its replacement.
  · obtain ⟨hit, raised, grown⟩ := effect
    obtain ⟨found, same⟩ := Prod.mk.inj renamed
    rw [← found, hit]
    simp [Except.map, raised, grown, same]

/-- Pairing two variables builds the plain pair object and registers both. -/
theorem pairSelector_plain (element partner : Path) (context : Context) :
    ∃ selector after, run (pairSelector element partner) context = (.ok selector, after) ∧
      selector.unlabel = Plain.pairObject element partner ∧
      after.plain = context.plain.pair element partner ∧ context.nextNode ≤ after.nextNode := by
  -- Seven nodes make the object, and the two members come after them.
  let member (path : Path) : Path := context.plain.member path
  refine ⟨_, { context with
    substitutions := context.substitutions
      ++ [(element, .path (context.nextNode + 7) (member element))]
      ++ [(partner, .path (context.nextNode + 8) (member partner))]
    nextTransient := context.nextTransient + 1
    nextNode := context.nextNode + 9 }, rfl, rfl, ?_, Nat.le_add_right ..⟩
  simp [Context.plain, Plain.State.pair, member]

/-- The canonical form is the last node that is built for it. -/
theorem canonical_label (type : ValueType) (flatMap : FlatMap NodeId) (selector : Node)
    (next : NodeId) :
    next ≤ (canonical type flatMap selector next).1.label ∧
      (canonical type flatMap selector next).1.label < (canonical type flatMap selector next).2 :=
  ⟨Nat.le_add_right next 7, Nat.lt_add_one (next + 7)⟩

/-- An identity drawn from the supply between two states. -/
def Drawn (before after : Context) (label : NodeId) : Prop :=
  before.nextNode ≤ label ∧ label < after.nextNode

/-- Canonical forms are made as in the plain walk, and are new nodes. -/
theorem canonicalize_effect (node : Node) (type : ValueType) (args : List Node)
    (context : Context) :
    match run (canonicalize node type args) context with
    | (.error fault, after) =>
      run (Plain.canonicalize node.unlabel type (args.map Expr.unlabel)) context.plain =
        (.error fault, after.plain)
    | (.ok result, after) =>
      run (Plain.canonicalize node.unlabel type (args.map Expr.unlabel)) context.plain =
        (.ok result.unlabel, after.plain) ∧ Drawn context after result.label := by
  rw [canonicalize, Plain.canonicalize, run_bind, run_bind, run_lift, run_lift, ofArgs_unlabel]
  cases ofArgs node args with
  | error fault => rfl
  | ok flatMap =>
    dsimp only [Except.map]
    rcases flatMap with ⟨source, element, body, partner, selector?⟩
    cases selector? with
    | some selector => exact ⟨rfl, canonical_label ..⟩
    | none =>
      -- The selector is made first, so the canonical form is numbered after the pair object.
      obtain ⟨selector, after, ran, same, paired, grown⟩ :=
        pairSelector_plain element partner context
      dsimp only [unlabel, Option.map_none]
      rw [run_bind, run_bind, ran, run_modify]
      dsimp only
      rw [← same, ← paired]
      obtain ⟨above, below⟩ := canonical_label type ⟨source, element, body, partner, none⟩ selector
        after.nextNode
      exact ⟨rfl, Nat.le_trans grown above, below⟩

/-- Of the arguments only a path in front decides whether an operation is rewritten. -/
theorem rewrites_eq {Label : Type} (operator : Operator) (args : List (Expr Label)) :
    Plain.rewrites operator args =
      (operator == .flatMap || (operator == .lambda &&
        (args.head?.bind Expr.path?).any fun parameter => !parameter.isRoot)) := by
  -- Of the first argument only its path matters.
  rcases args with _ | ⟨first, rest⟩
  · cases operator <;> rfl
  · cases first <;> cases operator <;> rfl

/-- A view that keeps every node has no part in whether an operation is rewritten. -/
theorem rewrites_map {Label Other : Type} {view : Expr Label → Expr Other}
    (mirrors : Expr.Mirrors view) (operator : Operator) (args : List (Expr Label)) :
    Plain.rewrites operator (args.map view) = Plain.rewrites operator args := by
  -- The view keeps operators, and the path of the first argument.
  have same : (args.map view).head?.bind Expr.path? = args.head?.bind Expr.path? := by
    cases args with
    | nil => rfl
    | cons first rest => exact (mirrors.head first).2.1
  rw [rewrites_eq, rewrites_eq, same]

/-- Labels have no part in whether an operation is rewritten. -/
theorem rewrites_unlabel (operator : Operator) (args : List Node) :
    Plain.rewrites operator (args.map Expr.unlabel) = Plain.rewrites operator args :=
  rewrites_map Expr.mirrors_unlabel operator args

/-- The operations that are rewritten are flat maps and lambdas bound to a member. -/
theorem rewrites_cases {Label : Type} {operator : Operator} {args : List (Expr Label)}
    (rewritten : Plain.rewrites operator args = true) :
    operator = .flatMap ∨ operator = .lambda ∧
      ∃ label parent segment bodies, args = .path label (.member parent segment) :: bodies := by
  -- A root as the parameter is left alone.
  unfold Plain.rewrites at rewritten
  split at rewritten
  · exact .inl rfl
  · rename_i label parameter bodies
    cases parameter with
    | root => simp [Path.isRoot] at rewritten
    | member parent segment => exact .inr ⟨rfl, label, parent, segment, bodies, rfl⟩
  · simp at rewritten

/-- An operation that is not rewritten is built anew exactly if its arguments changed. -/
theorem rebuild_of_not_rewrites {node : Node} {operator : Operator} {type : ValueType}
    {args : List Node} {dirty : Bool} (other : Plain.rewrites operator args = false) :
    rebuild node operator type args dirty =
      if dirty then PassM.build (Fresh.operation operator type args) else pure node := by
  -- The two cases in which a node is rewritten are excluded.
  unfold rebuild
  split
  · simp [Plain.rewrites, Path.isRoot] at other
  · simp [Plain.rewrites] at other
  · rfl

/-- A plain walk builds an operation that is not rewritten from its arguments. -/
theorem Plain.rebuild_of_not_rewrites {tree : Tree} {operator : Operator} {type : ValueType}
    {args : List Tree} (other : Plain.rewrites operator args = false) :
    Plain.rebuild tree operator type args = pure (.operation () operator type args) := by
  -- The two cases in which a tree is rewritten are excluded.
  unfold Plain.rebuild
  split
  · simp [Plain.rewrites, Path.isRoot] at other
  · simp [Plain.rewrites] at other
  · rfl

/-- What finishing a node with normalized arguments has to do with the plain walk: the same outcome and
the same state, a flag raised if the node itself is rewritten, and a new node exactly if it is or its
arguments changed. -/
def Finishes (steps : PassM Node) (walk : Plain.Walk Tree) (dirty rewritten : Bool) (original : Node)
    (context : Context) : Prop :=
  match run steps context with
  | (.error fault, after) => run walk context.plain = (.error fault, after.plain)
  | (.ok result, after) =>
    run walk context.plain = (.ok result.unlabel, after.plain) ∧
      after.replaced = (context.replaced || rewritten) ∧
      ((dirty || rewritten) = false → result = original) ∧
      ((dirty || rewritten) = true → Drawn context after result.label) ∧
      context.nextNode ≤ after.nextNode

/-- An operation is built as in the plain walk, and is itself if there was nothing to rewrite. -/
theorem finishes_operation (node : Node) (operator : Operator) (type : ValueType) (args : List Node)
    {dirty : Bool} (context : Context)
    (kept : dirty = false → node.unlabel = .operation () operator type (args.map Expr.unlabel)) :
    Finishes (rebuild node operator type args dirty)
      (Plain.rebuild node.unlabel operator type (args.map Expr.unlabel)) dirty
      (Plain.rewrites operator args) node context := by
  cases rewritten : Plain.rewrites operator args with
  | false =>
    -- The node changes with its arguments only.
    rw [rebuild_of_not_rewrites rewritten,
      Plain.rebuild_of_not_rewrites (by rw [rewrites_unlabel, rewritten])]
    cases dirty with
    | false => simp [Finishes, kept rfl]
    | true =>
      refine ⟨?_, (Bool.or_false _).symm, by simp, fun _ => ⟨Nat.le_refl _, Nat.lt_succ_self _⟩,
        Nat.le_succ _⟩
      exact congrArg (fun tree => (Except.ok tree, context.plain)) (Expr.unlabel_operation ..).symm
  | true =>
    obtain rfl | ⟨rfl, label, parent, segment, bodies, rfl⟩ := rewrites_cases rewritten
    -- A flat map is new whether its arguments changed or not.
    · have made := canonicalize_effect node type args context
      rw [Finishes, rebuild, run_bind, Plain.rebuild]
      generalize run (canonicalize node type args) context = ran at made ⊢
      rcases ran with ⟨fault | result, after⟩
      · exact made
      · obtain ⟨same, drawn⟩ := made
        refine ⟨same, (Bool.or_true _).symm, by simp, fun _ => drawn, ?_⟩
        exact Nat.le_trans drawn.1 (Nat.le_of_lt drawn.2)
    -- A lambda that is bound to a member is bound to the root of the member instead.
    · have same : (Expr.operation (context.nextNode + 1) .lambda type
          (.path context.nextNode (parent.member segment).rootPath :: bodies)).unlabel =
          .operation () .lambda type
            (.path () (parent.member segment).rootPath :: bodies.map Expr.unlabel) := by simp
      refine ⟨?_, (Bool.or_true _).symm, by simp, fun _ => ⟨Nat.le_succ _, Nat.lt_succ_self _⟩,
        Nat.le_add_right _ 2⟩
      exact congrArg (fun tree => (Except.ok tree, context.plain)) same.symm

/-- A list is normalized if its first member is, and then the others. -/
theorem run_normalizeAll_cons_ok {first : Node} {rest results : List Node} {context after : Context}
    (ran : run (normalizeAll (first :: rest)) context = (.ok results, after)) :
    ∃ result others between, results = result :: others ∧
      run (normalize first) context = (.ok result, between) ∧
      run (normalizeAll rest) between = (.ok others, after) := by
  -- The run of a list is that of its first member and, from the state after it, that of the others.
  rw [normalizeAll] at ran
  obtain ⟨result, between, firstRan, ran⟩ := run_bind_ok.mp ran
  obtain ⟨others, last, restRan, ran⟩ := run_bind_ok.mp ran
  cases ran
  exact ⟨result, others, between, rfl, firstRan, restRan⟩

/-- Normalizing the arguments one by one follows the plain walk over them. -/
theorem follows_normalizeAll {args : List Node}
    (each : ∀ arg ∈ args, ∀ context, Follows (normalize arg) (Plain.normalize arg.unlabel)
      Expr.unlabel (Plain.fires arg.unlabel context.plain) arg context) (context : Context) :
    Follows (normalizeAll args) (Plain.normalizeAll (args.map Expr.unlabel)) (·.map Expr.unlabel)
      (Plain.firesAll (args.map Expr.unlabel) context.plain) args context := by
  -- The state that the first argument leaves is where the others start, in both walks.
  induction args generalizing context with
  | nil => exact ⟨rfl, by simp [Plain.firesAll], fun _ => rfl, Nat.le_refl _⟩
  | cons first rest ih =>
    have head := each first (by simp) context
    have tail := ih fun arg member => each arg (by simp [member])
    rw [Follows, normalizeAll, run_bind]
    rw [List.map_cons, Plain.normalizeAll, run_bind, Plain.firesAll]
    rw [Follows] at head
    generalize run (normalize first) context = ran at head ⊢
    rcases ran with ⟨fault | result, between⟩
    · dsimp only at head ⊢
      rw [head]
    · obtain ⟨headSame, headFlag, headKept, headGrown⟩ := head
      have others := tail between
      rw [Follows] at others
      rw [headSame]
      dsimp only
      rw [run_bind, run_bind]
      generalize run (normalizeAll rest) between = ran at others ⊢
      rcases ran with ⟨fault | results, after⟩
      · dsimp only at others ⊢
        rw [others]
      · obtain ⟨tailSame, tailFlag, tailKept, tailGrown⟩ := others
        rw [tailSame]
        refine ⟨rfl, ?_, ?_, Nat.le_trans headGrown tailGrown⟩
        · simp [tailFlag, headFlag, Bool.or_assoc]
        · intro quiet
          obtain ⟨headQuiet, tailQuiet⟩ := Bool.or_eq_false_iff.mp quiet
          rw [headKept headQuiet, tailKept tailQuiet]

/-- Isolated steps tell whether something was rewritten, and do not lose an earlier flag. -/
theorem isolated_effect {α β : Type} {steps : PassM α} {walk : Plain.Walk β} {view : α → β}
    {fired : Bool} {original : α} (context : Context)
    (follows : ∀ context', context'.plain = context.plain →
      Follows steps walk view fired original context') :
    match run (PassM.isolated steps) context with
    | (.error fault, after) => run walk context.plain = (.error fault, after.plain)
    | (.ok (result, dirty), after) =>
      run walk context.plain = (.ok (view result), after.plain) ∧ dirty = fired ∧
        after.replaced = (context.replaced || fired) ∧ (fired = false → result = original) ∧
        context.nextNode ≤ after.nextNode := by
  -- Inside, the flag starts cleared, so in the end it tells of these steps only.
  have inner := follows { context with replaced := false } rfl
  rw [Follows] at inner
  rw [PassM.run_isolated]
  generalize run steps { context with replaced := false } = ran at inner ⊢
  rcases ran with ⟨fault | result, after⟩
  · exact inner
  · obtain ⟨same, flag, kept, grown⟩ := inner
    have raised : after.replaced = fired := by simpa using flag
    exact ⟨same, raised, congrArg (context.replaced || ·) raised, kept, grown⟩

/-- A node with normalized arguments follows the plain walk if the normalized arguments do and the node
is finished as there, and it is a new node if something in it was rewritten. -/
theorem effect_of_args {args : List Node} {original : Node} {walk : List Tree → Plain.Walk Tree}
    {fired : Bool} (finish : List Node → Bool → PassM Node) (rewritten : List Node → Bool)
    (context : Context)
    (follows : ∀ context, Follows (normalizeAll args) (Plain.normalizeAll (args.map Expr.unlabel))
      (·.map Expr.unlabel) (Plain.firesAll (args.map Expr.unlabel) context.plain) args context)
    (fires : ∀ normalized after, run (Plain.normalizeAll (args.map Expr.unlabel)) context.plain =
      (.ok (normalized.map Expr.unlabel), after) →
      fired = (Plain.firesAll (args.map Expr.unlabel) context.plain || rewritten normalized))
    (finishes : ∀ normalized dirty between, (dirty = false → normalized = args) →
      Finishes (finish normalized dirty) (walk (normalized.map Expr.unlabel)) dirty
        (rewritten normalized) original between) :
    Follows (PassM.isolated (normalizeAll args) >>= fun ran => finish ran.1 ran.2)
        (Plain.normalizeAll (args.map Expr.unlabel) >>= walk) Expr.unlabel fired original context ∧
      ∀ result after, run (PassM.isolated (normalizeAll args) >>= fun ran => finish ran.1 ran.2)
          context = (.ok result, after) →
        fired = true → Drawn context after result.label := by
  -- The arguments are normalized with a flag of their own, so an earlier flag has no part in it.
  have inner := isolated_effect context fun context' same => same ▸ follows context'
  rw [Follows, run_bind, run_bind]
  generalize Plain.firesAll (args.map Expr.unlabel) context.plain = argsFired at inner fires
  generalize run (PassM.isolated (normalizeAll args)) context = ran at inner ⊢
  rcases ran with ⟨fault | ⟨normalized, dirty⟩, between⟩
  -- An argument that fails ends both walks with its own error.
  · dsimp only at inner ⊢
    rw [inner]
    exact ⟨rfl, by simp⟩
  · obtain ⟨same, raised, flag, kept, grown⟩ := inner
    subst raised
    rw [same]
    dsimp only
    -- What happened in the arguments and what happens to the node add up to what happened in all.
    rw [fires normalized between.plain same]
    have last := finishes normalized dirty between kept
    rw [Finishes] at last
    generalize run (finish normalized dirty) between = ran at last ⊢
    rcases ran with ⟨fault | result, after⟩
    · exact ⟨last, by simp⟩
    · obtain ⟨same, raised, itself, drawn, more⟩ := last
      refine ⟨⟨same, ?_, itself, Nat.le_trans grown more⟩, ?_⟩
      · rw [raised, flag, Bool.or_assoc]
      · intro _ _ ran changed
        cases ran
        obtain ⟨above, below⟩ := drawn changed
        exact ⟨Nat.le_trans grown above, below⟩

/-- An object construction is built anew exactly if its arguments changed. -/
theorem finishes_factory {label : NodeId} {type : ValueType} {args normalized : List Node}
    {dirty : Bool} {context : Context} (kept : dirty = false → normalized = args) :
    Finishes (if dirty then PassM.build (Fresh.factory type normalized)
        else pure (.factory label type args))
      (pure (.factory () type (normalized.map Expr.unlabel))) dirty false
      (.factory label type args) context := by
  -- A construction with changed fields is one more node, which loses its identity in the plain tree.
  cases dirty with
  | false => simp [Finishes, kept rfl]
  | true =>
    have built : (Expr.factory context.nextNode type normalized).unlabel =
        .factory () type (normalized.map Expr.unlabel) := Expr.unlabel_factory ..
    refine ⟨?_, (Bool.or_false _).symm, by simp, fun _ => ⟨Nat.le_refl _, Nat.lt_succ_self _⟩,
      Nat.le_succ _⟩
    exact congrArg (fun tree => (Except.ok tree, context.plain)) built.symm

/-- Normalizing follows the plain walk, and gives a new operation or object construction if
something in it was rewritten. -/
theorem normalize_effect (node : Node) (context : Context) :
    Follows (normalize node) (Plain.normalize node.unlabel) Expr.unlabel
        (Plain.fires node.unlabel context.plain) node context ∧
      ∀ result after, run (normalize node) context = (.ok result, after) →
        Plain.fires node.unlabel context.plain = true → Plain.looksInto node = true →
        Drawn context after result.label := by
  -- The state stays quantified over: every argument is visited in what the earlier ones leave.
  induction node using Expr.induct generalizing context with
  | path label target => exact ⟨follows_path label target context, by simp [Plain.looksInto]⟩
  | operation label operator type args ih =>
    let node : Node := .operation label operator type args
    let tree : Tree := .operation () operator type (args.map Expr.unlabel)
    have same : node.unlabel = tree := Expr.unlabel_operation ..
    have follows := follows_normalizeAll fun arg member context => (ih arg member context).1
    have effect : Follows (normalize node) (Plain.normalize tree) Expr.unlabel
          (Plain.fires tree context.plain) node context ∧
        ∀ result after, run (normalize node) context = (.ok result, after) →
          Plain.fires tree context.plain = true → Drawn context after result.label := by
      rw [normalize, Plain.normalize]
      refine effect_of_args (rebuild node operator type) (Plain.rewrites operator) context follows ?_ ?_
      -- Whether the node itself is rewritten is asked of its normalized arguments.
      · intro normalized after ran
        rw [Plain.fires, ran, ← rewrites_unlabel]
      · intro normalized dirty between kept
        have finished := finishes_operation node operator type normalized between
          fun quiet => by rw [kept quiet, same]
        rwa [same] at finished
    rw [same]
    exact ⟨effect.1, fun result after ran fired _ => effect.2 result after ran fired⟩
  | factory label type args ih =>
    let node : Node := .factory label type args
    let tree : Tree := .factory () type (args.map Expr.unlabel)
    let finish (normalized : List Node) (dirty : Bool) : PassM Node :=
      if dirty then PassM.build (Fresh.factory type normalized) else pure node
    have same : node.unlabel = tree := Expr.unlabel_factory ..
    have follows := follows_normalizeAll fun arg member context => (ih arg member context).1
    have effect : Follows (normalize node) (Plain.normalize tree) Expr.unlabel
          (Plain.fires tree context.plain) node context ∧
        ∀ result after, run (normalize node) context = (.ok result, after) →
          Plain.fires tree context.plain = true → Drawn context after result.label := by
      rw [normalize, Plain.normalize]
      refine effect_of_args finish (fun _ => false) context follows ?_ ?_
      · intro normalized after ran
        rw [Plain.fires, Bool.or_false]
      · intro normalized dirty between kept
        exact finishes_factory kept
    rw [same]
    exact ⟨effect.1, fun result after ran fired _ => effect.2 result after ran fired⟩
  | template label text type args =>
    rw [Expr.unlabel_template]
    exact ⟨⟨by rw [Expr.unlabel_template]; rfl, (Bool.or_false _).symm, fun _ => rfl, Nat.le_refl _⟩,
      by simp [Plain.looksInto]⟩
  | _ =>
    exact ⟨⟨rfl, (Bool.or_false _).symm, fun _ => rfl, Nat.le_refl _⟩, by simp [Plain.looksInto]⟩

/-- A pass has a plain walk beside it, which ends in the same error or result and in the same state. -/
theorem plain_runIn (node : Node) (context : Context) :
    run (Plain.normalize node.unlabel) context.plain =
      ((Pass.normalizeFlatMaps.runIn node context).1.map Expr.unlabel,
        (Pass.normalizeFlatMaps.runIn node context).2.plain) := by
  -- The pass is the run of the walk, so its outcome and its state are those that the walk follows.
  have follows := (normalize_effect node context).1
  rw [Follows] at follows
  change _ = ((run (normalize node) context).1.map Expr.unlabel,
    (run (normalize node) context).2.plain)
  generalize run (normalize node) context = ran at follows ⊢
  rcases ran with ⟨fault | result, after⟩
  · exact follows
  · exact follows.1

/-- A pass that succeeds has a plain walk beside it that succeeds. -/
theorem plain_of_runIn {node result : Node} {context : Context}
    (done : (Pass.normalizeFlatMaps.runIn node context).1 = .ok result) :
    run (Plain.normalize node.unlabel) context.plain =
      (.ok result.unlabel, (Pass.normalizeFlatMaps.runIn node context).2.plain) := by
  rw [plain_runIn, done, Except.map]

/-- The plain state at the start of a pass has no registrations. -/
theorem plain_start (options : Options) (supply : NodeId) :
    (Context.start options supply).plain =
      { options, substitutions := [], nextTransient := options.first } := rfl

/-- Steps that read no flag: from another flag they have the same outcome and leave the same state,
flag aside. -/
def FlagBlind {α : Type} (steps : PassM α) : Prop :=
  ∀ context flag, ∃ left, run steps { context with replaced := flag } =
    ((run steps context).1, { (run steps context).2 with replaced := left })

namespace FlagBlind

variable {α β : Type}

/-- A result alone leaves the flag. -/
theorem pure (result : α) : FlagBlind (Pure.pure result) := by
  intro context flag
  exact ⟨flag, rfl⟩

/-- So does the outcome of a check. -/
theorem lift (outcome : Except ShapeError α) : FlagBlind (liftM outcome) := by
  intro context flag
  exact ⟨flag, rfl⟩

/-- So do new nodes. -/
theorem build (nodes : Fresh α) : FlagBlind (PassM.build nodes) := by
  intro context flag
  exact ⟨flag, rfl⟩

/-- Raising the flag does not read it. -/
theorem mark : FlagBlind PassM.mark := by
  intro context flag
  exact ⟨true, rfl⟩

/-- Steps that read no flag can be taken one after the other. -/
theorem bind {first : PassM α} {next : α → PassM β} (blind : FlagBlind first)
    (blindNext : ∀ result, FlagBlind (next result)) : FlagBlind (first >>= next) := by
  intro context flag
  obtain ⟨left, same⟩ := blind context flag
  rw [run_bind, run_bind, same]
  rcases run first context with ⟨fault | result, after⟩
  · exact ⟨left, rfl⟩
  -- The second step starts from what the first one left, up to the flag.
  · exact blindNext result after left

/-- Isolated steps start from a cleared flag, whatever it was before. -/
theorem isolated (steps : PassM α) : FlagBlind (PassM.isolated steps) := by
  -- The flag is cleared before the steps, which therefore cannot see it.
  intro context flag
  rw [PassM.run_isolated, PassM.run_isolated]
  rcases run steps { context with replaced := false } with ⟨fault | result, after⟩
  · exact ⟨after.replaced, rfl⟩
  · exact ⟨flag || after.replaced, rfl⟩

/-- Renaming looks at the registered paths only. -/
theorem rename (path : Path) : FlagBlind (rename path) := by
  have lookup (path : Path) : FlagBlind (replace path) := by
    intro context flag
    have same : { context with replaced := flag }.replacement? path = context.replacement? path :=
      rfl
    rw [run_replace, run_replace, same]
    cases context.replacement? path with
    | none => exact ⟨flag, rfl⟩
    | some replacement => exact ⟨true, rfl⟩
  -- A parent that is replaced raises the flag once more, which reads nothing either.
  induction path with
  | root segment => exact lookup (.root segment)
  | member parent segment ih =>
    rw [FlatMap.rename]
    refine ih.bind ?_
    intro newParent?
    split
    · exact lookup (.member parent segment)
    · refine mark.bind ?_
      intro _
      exact (build _).bind fun _ => pure _
    · exact lift (.error _)

/-- Changes of anything else in the state read no flag. -/
theorem change {step : Context → α × Context}
    (blind : ∀ context flag, step { context with replaced := flag } =
      ((step context).1, { (step context).2 with replaced := flag })) :
    FlagBlind (PassM.change step) := by
  -- A change that hands the flag through leaves it as it was given.
  intro context flag
  refine ⟨flag, ?_⟩
  rw [PassM.run_change, PassM.run_change, blind]

/-- Putting a flat map into canonical form reads no flag. -/
theorem canonicalize (node : Node) (type : ValueType) (args : List Node) :
    FlagBlind (canonicalize node type args) := by
  have member (transient path : Path) : FlagBlind (substituteMember transient path) := by
    refine (build _).bind ?_
    intro replacement
    exact change fun _ _ => rfl
  have pair (element partner : Path) : FlagBlind (pairSelector element partner) := by
    refine (build _).bind ?_
    intro object
    refine (change fun _ _ => rfl).bind ?_
    intro transient
    refine (member _ _).bind ?_
    intro _
    exact (member _ _).bind fun _ => pure _
  -- Only a flat map without a selector registers anything.
  refine (lift _).bind ?_
  intro flatMap
  dsimp only
  split
  · exact (pure _).bind fun _ => build _
  · exact (pair _ _).bind fun _ => build _

/-- An operation is built whatever the flag is. -/
theorem rebuild (node : Node) (operator : Operator) (type : ValueType) (args : List Node)
    (dirty : Bool) : FlagBlind (rebuild node operator type args dirty) := by
  unfold FlatMap.rebuild
  split
  · exact mark.bind fun _ => build _
  · refine (canonicalize node type args).bind ?_
    intro result
    exact mark.bind fun _ => pure _
  -- Whether the arguments changed is known by now, and is no part of the state.
  · split
    · exact build _
    · exact pure _

end FlagBlind

/-- Normalizing reads no flag but those that it has cleared itself. -/
theorem flagBlind_normalize (node : Node) : FlagBlind (normalize node) := by
  -- The arguments are isolated, so no induction is needed: what they do with the flag is undone.
  cases node with
  | operation label operator type args =>
    refine (FlagBlind.isolated _).bind fun (normalized, dirty) => ?_
    exact FlagBlind.rebuild (.operation label operator type args) operator type normalized dirty
  | factory label type args =>
    refine (FlagBlind.isolated _).bind fun (normalized, dirty) => ?_
    dsimp only
    split
    · exact FlagBlind.build _
    · exact FlagBlind.pure _
  | path label target => exact (FlagBlind.rename target).bind fun _ => FlagBlind.pure _
  | _ => exact FlagBlind.pure _

/-- The families of a collection, each paired with its children. -/
def childPairs : Node :=
  let family := Path.ofVariable "x" (.object "Family")
  .operation 8 .flatMap .collection
    [.path 1 (.ofVariable "docs" .collection),
      .operation 7 .list .expression
        [.operation 4 .lambda .expression
            [.path 2 family, .path 3 (family.property "Children" .collection)],
          .path 6 (.ofVariable "c" (.object "Person"))]]

/-- A flat map and an expression that is visited after it. -/
def childPairsThen (sibling : Node) : Node := .operation 9 .and .boolean [childPairs, sibling]

end FlatMap

end IndexQuery
