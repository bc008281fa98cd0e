import IndexQuery.Proofs.Pass.FlatMapAssembly
import IndexQuery.Proofs.Pass.Identities
import IndexQuery.Proofs.Pass.PlainRuns

/-! The flat-map pass shares nodes from its registrations, but none that is a path through a marker. -/

namespace IndexQuery

open Steps PassM AnyQuantifier

/-- States whose registrations replace paths by paths without a marker, with identities from a given one
on. -/
def Context.MembersFrom (floor : NodeId) (context : Context) : Prop :=
  ∀ entry ∈ context.substitutions, ∃ label target, entry.2 = .path label target ∧
    target.hasMarker = false ∧ floor ≤ label ∧ label < context.nextNode

/-- More identities that are given away leave the registrations as they are. -/
theorem Context.MembersFrom.draw {floor : NodeId} {context : Context}
    (members : context.MembersFrom floor) (replaced : Bool) {next : NodeId}
    (grown : context.nextNode ≤ next) :
    MembersFrom floor { context with replaced := replaced, nextNode := next } := by
  -- Drawing identities leaves the table, and what was drawn before stays below the supply.
  intro entry registered
  obtain ⟨label, target, same, unmarked, atLeast, drawn⟩ := members entry registered
  exact ⟨label, target, same, unmarked, atLeast, Nat.lt_of_lt_of_le drawn grown⟩

namespace FlatMap

/-- What normalizing a node leaves, if all identities in the node come before a given one and all
registered ones do not: a path through a marker is the node that it was, or new. -/
structure Traced (floor : NodeId) (node : Node) (before : Context) (result : Node)
    (after : Context) : Prop where
  grown : before.nextNode ≤ after.nextNode
  members : after.MembersFrom floor
  below : Below after.nextNode result
  apart : OperandsApart node → OperandsApart result
  kept : result = node ∨ floor ≤ result.label
  marked : result.isMarked = true → result = node ∨ before.nextNode ≤ result.label

/-- What normalizing a list of nodes leaves. -/
structure TracedAll (floor : NodeId) (args : List Node) (before : Context) (results : List Node)
    (after : Context) : Prop where
  grown : before.nextNode ≤ after.nextNode
  members : after.MembersFrom floor
  below : ∀ result ∈ results, Below after.nextNode result
  apart : (∀ arg ∈ args, OperandsApart arg) → ∀ result ∈ results, OperandsApart result
  first : FirstApart args → FirstApart results
  marked : ∀ result ∈ results, result.isMarked = true →
    result ∈ args ∨ before.nextNode ≤ result.label

variable {floor : NodeId}

/-- A list leaves its operands apart if its members do. -/
theorem tracedAll_of_normalizeAll {args results : List Node} {context after : Context}
    (each : ∀ arg ∈ args, ∀ before : Context, before.MembersFrom floor → floor ≤ before.nextNode →
      ∀ result next, run (normalize arg) before = (.ok result, next) →
        Traced floor arg before result next)
    (below : ∀ arg ∈ args, Below floor arg) (members : context.MembersFrom floor)
    (atLeast : floor ≤ context.nextNode)
    (ran : run (normalizeAll args) context = (.ok results, after)) :
    TracedAll floor args context results after := by
  -- Each member starts where the one before ended, with more registrations and identities.
  induction args generalizing context results with
  | nil =>
    cases ran
    exact ⟨Nat.le_refl _, members, by simp, by simp, fun _ => trivial, by simp⟩
  | cons first rest ih =>
    obtain ⟨head, tail⟩ := List.forall_mem_cons.mp each
    obtain ⟨firstBelow, restBelow⟩ := List.forall_mem_cons.mp below
    obtain ⟨result, others, between, rfl, firstRan, restRan⟩ := run_normalizeAll_cons_ok ran
    have traced := head context members atLeast _ _ firstRan
    have rests := ih tail restBelow traced.members (Nat.le_trans atLeast traced.grown) restRan
    refine ⟨Nat.le_trans traced.grown rests.grown, rests.members, ?_, ?_, ?_, ?_⟩
    · simp only [List.forall_mem_cons]
      exact ⟨traced.below.mono rests.grown, rests.below⟩
    · intro apart
      obtain ⟨firstApart, restApart⟩ := List.forall_mem_cons.mp apart
      simp only [List.forall_mem_cons]
      exact ⟨traced.apart firstApart, rests.apart restApart⟩
    -- A marked one is old or newer than the first result, which is old, registered or new.
    · intro firstApart arg member marked
      rcases rests.marked arg member marked with old | new
      · rcases traced.kept with same | registered
        · rw [same]
          exact firstApart arg old marked
        · exact Nat.ne_of_lt (Nat.lt_of_lt_of_le (restBelow arg old).label registered)
      · exact Nat.ne_of_gt (Nat.lt_of_lt_of_le traced.below.label new)
    · intro arg member marked
      rcases List.mem_cons.mp member with rfl | member
      · rcases traced.marked marked with same | new
        · exact .inl (List.mem_cons.mpr (.inl same))
        · exact .inr new
      · rcases rests.marked arg member marked with old | new
        · exact .inl (List.mem_cons_of_mem _ old)
        · exact .inr (Nat.le_trans traced.grown new)

/-- What looking for the replacement of a path leaves: a path without a marker that is registered, or a
new one. -/
structure Replaces (floor : NodeId) (before : Context) (replacement? : Option Node)
    (after : Context) : Prop where
  grown : before.nextNode ≤ after.nextNode
  members : after.MembersFrom floor
  found : ∀ result, replacement? = some result → ∃ label target, result = .path label target ∧
    floor ≤ label ∧ label < after.nextNode ∧ (target.hasMarker = true → before.nextNode ≤ label)

/-- A path that is registered is replaced by one without a marker. -/
theorem replaces_of_replace {path : Path} {context after : Context} {replacement? : Option Node}
    (members : context.MembersFrom floor)
    (ran : run (replace path) context = (.ok replacement?, after)) :
    Replaces floor context replacement? after := by
  -- What is found is an entry of the table, and all entries are such paths.
  rw [run_replace] at ran
  cases found : context.replacement? path with
  | none =>
    rw [found] at ran
    cases ran
    exact ⟨Nat.le_refl _, members, by simp⟩
  | some result =>
    rw [found] at ran
    cases ran
    refine ⟨Nat.le_refl _, members.draw true (Nat.le_refl _), ?_⟩
    rintro _ ⟨⟩
    obtain ⟨before, after, split, -⟩ := List.lookup_eq_some_iff.mp found
    obtain ⟨label, target, same, unmarked, atLeast, drawn⟩ :=
      members (path, result) (by rw [split]; simp)
    exact ⟨label, target, same, atLeast, drawn, fun marked => by simp [marked] at unmarked⟩

/-- A path whose parent is replaced becomes a new one. -/
theorem replaces_of_rename {path : Path} {context after : Context} {renamed? : Option Node}
    (members : context.MembersFrom floor) (atLeast : floor ≤ context.nextNode)
    (ran : run (rename path) context = (.ok renamed?, after)) :
    Replaces floor context renamed? after := by
  -- A path below a replaced one may have a marker, but then it is a new node.
  induction path generalizing after renamed? with
  | root segment => exact replaces_of_replace members ran
  | member parent segment ih =>
    rw [rename] at ran
    obtain ⟨parent?, between, parentRan, ran⟩ := run_bind_ok.mp ran
    have parents := ih parentRan
    split at ran
    · have replaces := replaces_of_replace parents.members ran
      refine ⟨Nat.le_trans parents.grown replaces.grown, replaces.members, ?_⟩
      intro result found
      obtain ⟨label, target, same, registered, drawn, new⟩ := replaces.found result found
      exact ⟨label, target, same, registered, drawn,
        fun marked => Nat.le_trans parents.grown (new marked)⟩
    -- The identity of the new path comes after all those that were given away.
    · cases ran
      refine ⟨Nat.le_succ_of_le parents.grown,
        parents.members.draw true (Nat.le_succ _), ?_⟩
      rintro _ ⟨⟩
      exact ⟨_, _, rfl, Nat.le_trans atLeast parents.grown, Nat.lt_succ_self _,
        fun _ => parents.grown⟩
    · cases ran

/-- Normalizing a path leaves it, a registered path without a marker, or a new path. -/
theorem traced_path {label : NodeId} {target : Path} {context after : Context} {result : Node}
    (below : Below floor (.path label target)) (members : context.MembersFrom floor)
    (atLeast : floor ≤ context.nextNode)
    (ran : run (normalize (.path label target)) context = (.ok result, after)) :
    Traced floor (.path label target) context result after := by
  rw [normalize] at ran
  obtain ⟨renamed?, between, renamed, ran⟩ := run_bind_ok.mp ran
  cases ran
  have replaces := replaces_of_rename members atLeast renamed
  refine ⟨replaces.grown, replaces.members, ?_, ?_, ?_, ?_⟩
  -- Without a replacement the path stays the node that it was.
  all_goals cases renamed? with
  | none => first
    | exact below.mono (Nat.le_trans atLeast replaces.grown)
    | exact id
    | exact .inl rfl
    | exact fun _ => .inl rfl
  | some replacement =>
    obtain ⟨label, target, rfl, registered, drawn, new⟩ := replaces.found replacement rfl
    first
    | exact .path drawn target
    | exact fun _ => .leaf rfl
    | exact .inr registered
    | exact fun marked => .inr (new marked)

/-- A canonical form has its operands apart if its parts have. -/
theorem canonical_apart {flatMap : FlatMap NodeId} {selector : Node} {next : NodeId}
    (type : ValueType) (source : OperandsApart flatMap.source) (body : OperandsApart flatMap.body)
    (bodyBelow : Below next flatMap.body) (isSelector : OperandsApart selector)
    (selectorBelow : Below next selector) :
    OperandsApart (canonicalNode type flatMap selector next) := by
  -- The parameters are new, so that they are told from bodies that are paths.
  have list : OperandsApart (.operation (next + 2) .list .expression
      [.path next flatMap.element.rootPath, .path (next + 1) flatMap.partner]) := by
    refine .pair (.leaf rfl) (.leaf rfl) ?_ _ _
    exact fun _ => Nat.succ_ne_self next
  have parameters : OperandsApart (.operation (next + 5) .wrapped .expression
      [.operation (next + 2) .list .expression
        [.path next flatMap.element.rootPath, .path (next + 1) flatMap.partner]]) :=
    .operation (by simp [FirstApart]) (List.forall_mem_singleton.mpr list)
  have outer : OperandsApart (.operation (next + 4) .lambda .expression
      [.path (next + 3) flatMap.element.rootPath, flatMap.body]) := by
    refine .pair (.leaf rfl) body ?_ _ _
    exact fun _ => Nat.ne_of_lt (Nat.lt_add_right 3 bodyBelow.label)
  have inner : OperandsApart (.operation (next + 6) .lambda .expression
      [.operation (next + 5) .wrapped .expression
        [.operation (next + 2) .list .expression
          [.path next flatMap.element.rootPath, .path (next + 1) flatMap.partner]],
        selector]) := by
    refine .pair parameters isSelector ?_ _ _
    exact fun _ => Nat.ne_of_lt (Nat.lt_add_right 5 selectorBelow.label)
  rw [canonicalNode]
  refine .operation ?_ ?_
  · simp [FirstApart, Expr.isMarked]
  · simp only [List.forall_mem_cons]
    exact ⟨source, outer, inner, by simp⟩

/-- The identities in a canonical form come before the next one. -/
theorem canonical_below {flatMap : FlatMap NodeId} {selector : Node} {next : NodeId}
    (type : ValueType) (source : Below next flatMap.source) (body : Below next flatMap.body)
    (isSelector : Below next selector) :
    Below (next + 8) (canonicalNode type flatMap selector next) := by
  -- Eight nodes are new, and everything else was there before them.
  have drawn (offset : Nat) (small : offset < 8) : next + offset < next + 8 :=
    Nat.add_lt_add_left small next
  have old {node : Node} (below : Below next node) : Below (next + 8) node :=
    below.mono (Nat.le_add_right next 8)
  have list := Below.pair (drawn 2 (by decide))
    (.path (drawn 0 (by decide)) flatMap.element.rootPath)
    (.path (drawn 1 (by decide)) flatMap.partner) .list .expression
  have parameters : Below (next + 8) (.operation (next + 5) .wrapped .expression [_]) :=
    .intro (drawn 5 (by decide)) (List.forall_mem_singleton.mpr list)
  have outer := Below.pair (drawn 4 (by decide))
    (.path (drawn 3 (by decide)) flatMap.element.rootPath) (old body) .lambda .expression
  have inner := parameters.pair (drawn 6 (by decide)) (old isSelector) .lambda .expression
  rw [canonicalNode]
  refine .intro (drawn 7 (by decide)) ?_
  simp only [Expr.args, List.forall_mem_cons]
  exact ⟨old source, outer, inner, by simp⟩

/-- What building a node that is no path leaves. -/
structure Built (floor : NodeId) (parts : List Node) (before : Context) (result : Node)
    (after : Context) : Prop where
  grown : before.nextNode ≤ after.nextNode
  members : after.MembersFrom floor
  below : Below after.nextNode result
  apart : (∀ part ∈ parts, OperandsApart part) → OperandsApart result
  drawn : before.nextNode ≤ result.label
  unmarked : result.isMarked = false

/-- The identities in the object come before the next one. -/
theorem pairNode_below (element partner : Path) (next : NodeId) :
    Below (next + 9) (pairNode element partner next) := by
  -- Nine identities are drawn, two of them for the members that are registered.
  have drawn (offset : Nat) (small : offset < 9) : next + offset < next + 9 :=
    Nat.add_lt_add_left small next
  have name (offset : Nat) (small : offset < 9) (text : String) :
      Below (next + 9) (.constant (next + offset) (.string text) .string) :=
    .intro (drawn offset small) (by simp [Expr.args])
  have first := (name 2 (by decide) (Text.capitalize element.name)).pair (drawn 3 (by decide))
    (.path (drawn 0 (by decide)) element) .list .expression
  have second := (name 4 (by decide) (Text.capitalize partner.name)).pair (drawn 5 (by decide))
    (.path (drawn 1 (by decide)) partner) .list .expression
  refine .intro (drawn 6 (by decide)) ?_
  simp only [pairNode, Expr.args, List.forall_mem_cons]
  exact ⟨first, second, by simp⟩

/-- Pairing two variables registers members without markers, after seven nodes for the object. -/
theorem membersFrom_pairSelector {element partner : Path} {context : Context}
    (members : context.MembersFrom floor) (atLeast : floor ≤ context.nextNode) :
    (run (pairSelector element partner) context).2.MembersFrom floor := by
  have drawn (offset : Nat) (small : offset < 9) :
      context.nextNode + offset < context.nextNode + 9 :=
    Nat.add_lt_add_left small context.nextNode
  rw [run_pairSelector]
  -- An entry is an old one, or one of the two members that are registered.
  intro entry registered
  simp only [List.append_assoc, List.mem_append, List.mem_singleton] at registered
  rcases registered with registered | rfl | rfl
  · exact members.draw context.replaced (Nat.le_add_right _ 9) entry registered
  · exact ⟨_, _, rfl, rfl, Nat.le_add_right_of_le atLeast, drawn 7 (by decide)⟩
  · exact ⟨_, _, rfl, rfl, Nat.le_add_right_of_le atLeast, drawn 8 (by decide)⟩

/-- The parts of a flat map have their identities where its arguments have theirs. -/
theorem partsBelow {node : Node} {args : List Node} {parts : FlatMap NodeId} {bound : NodeId}
    (taken : ofArgs node args = .ok parts) (below : ∀ arg ∈ args, Below bound arg) :
    HoldsOfParts (Below bound) parts :=
  holdsOfParts (fun _ _ _ _ _ below => below.args) taken below

/-- The parts of a flat map have their operands apart if its arguments have. -/
theorem partsApart {node : Node} {args : List Node} {parts : FlatMap NodeId}
    (taken : ofArgs node args = .ok parts) (apart : ∀ arg ∈ args, OperandsApart arg) :
    HoldsOfParts OperandsApart parts :=
  holdsOfParts (fun _ _ _ _ _ apart => apart.operation_inside.2) taken apart

/-- A canonical form is built of the parts of its arguments, and of a selector that is made of them or
for them. -/
theorem built_of_selector {node selector result : Node} {type : ValueType} {args : List Node}
    {parts : FlatMap NodeId} {context last after : Context} (taken : ofArgs node args = .ok parts)
    (below : ∀ arg ∈ args, Below context.nextNode arg) (grown : context.nextNode ≤ last.nextNode)
    (members : last.MembersFrom floor) (selectorBelow : Below last.nextNode selector)
    (selectorApart : (∀ arg ∈ args, OperandsApart arg) → OperandsApart selector)
    (ran : run (build (canonical type parts selector)) last = (.ok result, after)) :
    Built floor args context result after := by
  -- The parts are older than all that is built now, the selector included.
  have source := (partsBelow taken below).source
  have body := (partsBelow taken below).body
  cases ran
  refine ⟨Nat.le_trans grown (Nat.le_add_right _ 8), members.draw last.replaced
    (Nat.le_add_right _ 8), ?_, ?_, Nat.le_trans grown (Nat.le_add_right _ 7), rfl⟩
  · exact canonical_below type (source.mono grown) (body.mono grown) selectorBelow
  · intro apart
    have parts := partsApart taken apart
    exact canonical_apart type parts.source parts.body (body.mono grown) (selectorApart apart)
      selectorBelow

/-- A canonical form is built of what is left of its arguments. -/
theorem canonicalize_built {node result : Node} {type : ValueType} {args : List Node}
    {context after : Context} (below : ∀ arg ∈ args, Below context.nextNode arg)
    (members : context.MembersFrom floor) (atLeast : floor ≤ context.nextNode)
    (ran : run (canonicalize node type args) context = (.ok result, after)) :
    Built floor args context result after := by
  rw [canonicalize] at ran
  obtain ⟨parts, between, checked, formed⟩ := run_bind_ok.mp ran
  rw [run_lift, Prod.mk.injEq] at checked
  obtain ⟨taken, rfl⟩ := checked
  dsimp only at formed
  split at formed
  -- The selector of its own is the body of the second lambda.
  · rename_i selector found
    have selectorBelow := (partsBelow taken below).selector selector found
    refine built_of_selector taken below (Nat.le_refl _) members selectorBelow ?_ formed
    exact fun apart => (partsApart taken apart).selector selector found
  -- Without one, the object that pairs the variables is made.
  · obtain ⟨selector, last, paired, formed⟩ := run_bind_ok.mp formed
    have pairedMembers :=
      @membersFrom_pairSelector _ parts.element parts.partner _ members atLeast
    rw [paired] at pairedMembers
    rw [run_pairSelector] at paired
    cases paired
    exact built_of_selector taken below (Nat.le_add_right _ 9) pairedMembers
      (pairNode_below ..) (fun _ => .leaf rfl) formed

/-- An operation is what it was, or is built of what is left of its arguments. -/
theorem traced_operation {label : NodeId} {operator : Operator} {type : ValueType}
    {args normalized : List Node} {dirty : Bool} {before context after : Context} {result : Node}
    (below : Below floor (.operation label operator type args))
    (all : TracedAll floor args before normalized context) (atLeast : floor ≤ before.nextNode)
    (ran : run (rebuild (.operation label operator type args) operator type normalized dirty) context =
      (.ok result, after)) :
    Traced floor (.operation label operator type args) before result after := by
  -- The operation stays, is built anew, is a lambda bound to a root, or becomes a canonical form.
  have atLeastNow : floor ≤ context.nextNode := Nat.le_trans atLeast all.grown
  cases rewritten : Plain.rewrites operator normalized with
  | false =>
    rw [rebuild_of_not_rewrites rewritten] at ran
    split at ran
    · cases ran
      refine ⟨Nat.le_succ_of_le all.grown, all.members.draw _ (Nat.le_succ _), ?_, ?_,
        .inr atLeastNow, by rintro ⟨⟩⟩
      · refine .intro (Nat.lt_succ_self _) fun arg member => ?_
        exact (all.below arg member).mono (Nat.le_succ _)
      · intro apart
        obtain ⟨first, inside⟩ := apart.operation_inside
        exact .operation (all.first first) (all.apart inside)
    · cases ran
      exact ⟨all.grown, all.members, below.mono atLeastNow, id, .inl rfl, fun _ => .inl rfl⟩
  | true =>
    obtain rfl | ⟨rfl, inner, parent, segment, bodies, rfl⟩ := rewrites_cases rewritten
    · rw [rebuild] at ran
      obtain ⟨canonicalForm, between, built, ran⟩ := run_bind_ok.mp ran
      cases ran
      have form := canonicalize_built all.below all.members atLeastNow built
      refine ⟨Nat.le_trans all.grown form.grown, form.members.draw true (Nat.le_refl _), form.below,
        ?_, .inr (Nat.le_trans atLeastNow form.drawn), fun marked => ?_⟩
      · exact fun apart => form.apart (all.apart apart.operation_inside.2)
      · simp [form.unmarked] at marked
    · cases ran
      refine ⟨Nat.le_trans all.grown (Nat.le_add_right _ 2),
        all.members.draw true (Nat.le_add_right _ 2), ?_, ?_,
        .inr (Nat.le_succ_of_le atLeastNow), by rintro ⟨⟩⟩
      · refine .intro (Nat.lt_succ_self _) ?_
        simp only [Expr.args, List.forall_mem_cons]
        refine ⟨.path (Nat.lt_add_of_pos_right (Nat.succ_pos 1)) _, fun arg member => ?_⟩
        exact (all.below arg (by simp [member])).mono (Nat.le_add_right _ 2)
      · intro apart
        have inside := all.apart apart.operation_inside.2
        refine .operation ?_ ?_
        -- The new parameter is told from the bodies by its identity.
        · intro arg member _
          exact Nat.ne_of_lt (all.below arg (by simp [member])).label
        · simp only [List.forall_mem_cons]
          exact ⟨.leaf rfl, fun arg member => inside arg (by simp [member])⟩

/-- Normalizing leaves operands apart, as it shares registered nodes only. -/
theorem normalize_traced {node result : Node} {context after : Context} (below : Below floor node)
    (members : context.MembersFrom floor) (atLeast : floor ≤ context.nextNode)
    (ran : run (normalize node) context = (.ok result, after)) :
    Traced floor node context result after := by
  -- The floor stays where it is while more identities are drawn, so it can be fixed from the start.
  induction node using Expr.induct generalizing context result after with
  | path label target => exact traced_path below members atLeast ran
  | operation label operator type args ih =>
    rw [normalize] at ran
    obtain ⟨⟨normalized, dirty⟩, between, isolatedRan, ran⟩ := run_bind_ok.mp ran
    obtain ⟨inner, argsRan, -, rfl⟩ := run_isolated_ok.mp isolatedRan
    have all := tracedAll_of_normalizeAll
      (fun arg member before members atLeast result next ran =>
        ih arg member (below.args arg member) members atLeast ran)
      below.args (members.draw false (Nat.le_refl _)) atLeast argsRan
    have merged : TracedAll floor args context normalized
        { inner with replaced := context.replaced || inner.replaced } :=
      ⟨all.grown, all.members.draw _ (Nat.le_refl _), all.below, all.apart, all.first, all.marked⟩
    exact traced_operation below merged atLeast ran
  | factory label type args ih =>
    rw [normalize] at ran
    obtain ⟨⟨normalized, dirty⟩, between, isolatedRan, ran⟩ := run_bind_ok.mp ran
    obtain ⟨inner, argsRan, -, rfl⟩ := run_isolated_ok.mp isolatedRan
    have all := tracedAll_of_normalizeAll
      (fun arg member before members atLeast result next ran =>
        ih arg member (below.args arg member) members atLeast ran)
      below.args (members.draw false (Nat.le_refl _)) atLeast argsRan
    have atLeastNow : floor ≤ inner.nextNode := Nat.le_trans atLeast all.grown
    dsimp only at ran
    split at ran
    · cases ran
      refine ⟨Nat.le_succ_of_le all.grown, all.members.draw _ (Nat.le_succ _), ?_, fun _ => .leaf rfl,
        .inr atLeastNow, by rintro ⟨⟩⟩
      refine .intro (Nat.lt_succ_self _) fun arg member => ?_
      exact (all.below arg member).mono (Nat.le_succ _)
    · cases ran
      exact ⟨all.grown, all.members.draw _ (Nat.le_refl _), below.mono atLeastNow, id, .inl rfl,
        fun _ => .inl rfl⟩
  | _ =>
    cases ran
    exact ⟨Nat.le_refl _, members, below.mono atLeast, id, .inl rfl, fun _ => .inl rfl⟩

end FlatMap

/-- A pass that starts in a new state, on a node that has its operands apart, leaves such a node. -/
theorem Pass.run_apart {pass : Pass} {options : Options} {node result : Node} {supply : NodeId}
    {after : Context} (apart : OperandsApart node) (below : Below supply node)
    (ran : pass.run options node supply = (.ok result, after)) :
    OperandsApart result ∧ Below after.nextNode result := by
  -- From a new state nothing is registered and no node is being visited.
  cases pass with
  | normalizeFlatMaps =>
    have unregistered : (Context.start options supply).MembersFrom supply := by
      simp [Context.MembersFrom, Context.start]
    have traced := FlatMap.normalize_traced below unregistered (Nat.le_refl _) ran
    exact ⟨traced.apart apart, traced.below⟩
  | expandMarkers =>
    have unvisited : (Context.start options supply).StackApart := by
      simp [Context.StackApart, Context.start]
    exact (expand_apart apart below unvisited ran).2 result rfl

end IndexQuery
