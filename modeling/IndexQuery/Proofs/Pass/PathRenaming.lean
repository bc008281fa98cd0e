import IndexQuery.Proofs.Pass.FlatMapRefinement
import IndexQuery.Proofs.Pass.Frames
import IndexQuery.Proofs.Pass.Renaming

/-! How the flat-map pass renames a path: the outermost registered one among its parents and itself
decides. -/

namespace IndexQuery

open Steps PassM

namespace Context

/-- No registration is one of a path or of a parent of it. -/
def Misses (context : Context) (path : Path) : Prop :=
  ∀ entry ∈ context.substitutions, ¬ entry.1.Covers path

/-- The registration that decides on a path which consists of a key and some segments below it. -/
structure Decides (context : Context) (path key : Path) (below : List Segment) (replacement : Node) :
    Prop where
  parts : path = key.extend below
  /-- No parent of the key is registered, whatever is registered of the longer paths. -/
  outermost : ∀ entry ∈ context.substitutions, entry.1.Covers key → entry.1 = key
  /-- It is the first one of the key. -/
  first : ∃ earlier later, context.substitutions = earlier ++ (key, replacement) :: later ∧
    ∀ entry ∈ earlier, entry.1 ≠ key

end Context

namespace FlatMap

/-- What a registration makes of a path with some segments below its key. -/
inductive Carries (before after : Context) : List Segment → (replacement result : Node) → Prop
  /-- The key itself becomes the node that is registered. -/
  | whole {replacement : Node} : Carries before after [] replacement replacement
  /-- Otherwise the segments are added to the path that is registered, whether or not the path that
  they make is registered too. -/
  | below {first : Segment} {rest : List Segment} {label new : NodeId} {base : Path}
      (drawn : Drawn before after new) :
      Carries before after (first :: rest) (.path label base)
        (.path new (base.extend (first :: rest)))

/-- What becomes of a path node from a state to a later one. -/
inductive Renamed (before after : Context) (label : NodeId) (path : Path) :
    Except ShapeError Node → Prop
  | kept (missed : before.Misses path) : Renamed before after label path (.ok (.path label path))
  | moved {key : Path} {below : List Segment} {replacement result : Node}
      (decides : before.Decides path key below replacement)
      (carries : Carries before after below replacement result) :
      Renamed before after label path (.ok result)
  | stuck {key : Path} {first : Segment} {rest : List Segment} {replacement : Node}
      (decides : before.Decides path key (first :: rest) replacement)
      (noPath : replacement.path? = none) :
      Renamed before after label path
        (.error (.nonPathParent (key.member first).dotted replacement.render))

end FlatMap

namespace Context

variable {context : Context} {path parent key : Path} {segment : Segment} {below : List Segment}
  {replacement : Node}

/-- The first registration of a path is found, and none is found only if there is none. -/
theorem replacement?_cases (context : Context) (path : Path) :
    (context.replacement? path = none ∧ ∀ entry ∈ context.substitutions, entry.1 ≠ path) ∨
      ∃ replacement, context.replacement? path = some replacement ∧
        ∃ earlier later, context.substitutions = earlier ++ (path, replacement) :: later ∧
          ∀ entry ∈ earlier, entry.1 ≠ path := by
  -- The table is searched from its start, so that the entries before the one that is found are for
  -- other paths.
  cases found : context.replacement? path with
  | none =>
    refine .inl ⟨rfl, fun entry registered same => ?_⟩
    have other := List.lookup_eq_none_iff.mp found entry registered
    simp [same] at other
  | some replacement =>
    obtain ⟨earlier, later, split, others⟩ := List.lookup_eq_some_iff.mp found
    refine .inr ⟨replacement, rfl, earlier, later, split, fun entry among same => ?_⟩
    have other := others entry among
    simp [same] at other

/-- What decides on a path decides on what is below it. -/
theorem Decides.member (decides : context.Decides parent key below replacement)
    (segment : Segment) :
    context.Decides (.member parent segment) key (below.concat segment) replacement where
  parts := by rw [Path.extend_concat, ← decides.parts]
  outermost := decides.outermost
  first := decides.first

/-- A registered path decides on itself if its parents are missed. -/
theorem Decides.of_parent (missed : context.Misses parent)
    (first : ∃ earlier later,
      context.substitutions = earlier ++ (.member parent segment, replacement) :: later ∧
        ∀ entry ∈ earlier, entry.1 ≠ .member parent segment) :
    context.Decides (.member parent segment) (.member parent segment) [] replacement where
  parts := rfl
  outermost entry registered covers := by
    -- An entry that covers the path covers its parent too, unless it is one for the path itself.
    rcases Path.covers_member.mp covers with same | above
    · exact same
    · exact absurd above (missed entry registered)
  first := first

end Context

namespace FlatMap

/-- Renaming a path gives a replacement where a registration decides on it, and fails where it would
have to add segments to something that is no path. -/
theorem rename_cases (path : Path) (context : Context) :
    match run (rename path) context with
    | (.ok none, _) => context.Misses path
    | (.ok (some result), after) =>
      context.nextNode ≤ after.nextNode ∧ ∃ key below replacement,
        context.Decides path key below replacement ∧
          Carries context after below replacement result
    | (.error fault, _) => ∃ key first rest replacement,
        context.Decides path key (first :: rest) replacement ∧ replacement.path? = none ∧
          fault = .nonPathParent (key.member first).dotted replacement.render := by
  -- The path is asked for from the root down, so a parent that is registered is found before it.
  induction path with
  | root segment =>
    rw [rename, run_replace]
    obtain ⟨missing, none⟩ | ⟨replacement, found, first⟩ :=
      context.replacement?_cases (.root segment)
    · rw [missing]
      intro entry registered covers
      exact none entry registered (Path.covers_root.mp covers)
    · rw [found]
      refine ⟨Nat.le_refl _, .root segment, [], replacement, ⟨rfl, ?_, first⟩, .whole⟩
      intro entry _ covers
      exact Path.covers_root.mp covers
  | member parent segment ih =>
    have keeps := keeps_rename parent context
    have effect := rename_effect parent context
    rw [rename, run_bind]
    generalize run (rename parent) context = ran at ih keeps effect ⊢
    rcases ran with ⟨fault | _ | newParent, after⟩
    -- A parent that is stuck keeps the whole path from moving, for the same reason.
    · obtain ⟨key, first, rest, replacement, decides, noPath, rfl⟩ := ih
      exact ⟨key, first, _, replacement, decides.member segment, noPath, rfl⟩
    -- The parents are missed, so that only the path itself may be registered.
    · obtain ⟨-, rfl⟩ := effect
      dsimp only
      rw [run_replace]
      obtain ⟨missing, none⟩ | ⟨replacement, found, first⟩ :=
        after.replacement?_cases (.member parent segment)
      · rw [missing]
        intro entry registered covers
        rcases Path.covers_member.mp covers with same | above
        · exact none entry registered same
        · exact ih entry registered above
      · rw [found]
        exact ⟨Nat.le_refl _, _, [], replacement, .of_parent ih first, .whole⟩
    -- The parent has moved, and the path goes with it.
    · obtain ⟨grown, key, below, replacement, decides, carries⟩ := ih
      cases newParent with
      | path label base =>
        refine ⟨Nat.le_succ_of_le grown, key, _, replacement, decides.member segment, ?_⟩
        have drawn : Drawn context { after.mark with nextNode := after.nextNode + 1 }
            after.nextNode := ⟨grown, Nat.lt_succ_self _⟩
        cases carries with
        | whole => exact .below drawn
        | @below first rest label _ base _ =>
          rw [← Path.extend_concat]
          exact .below drawn
      | _ =>
        -- Something that is no path can only be the replacement of the parent itself.
        cases carries
        obtain rfl := decides.parts
        exact ⟨_, segment, [], _, decides.member segment, rfl, rfl⟩

/-- A path is renamed by the outermost registered one among its parents and itself, and by the first
registration of that. Without one the node stays. The registrations and the counter stay in any case. -/
theorem normalize_path_renamed (context : Context) (label : NodeId) (path : Path) :
    let ran := Pass.normalizeFlatMaps.runIn (.path label path) context
    Renamed context ran.2 label path ran.1 ∧ ran.2.substitutions = context.substitutions ∧
      ran.2.nextTransient = context.nextTransient := by
  intro ran
  have keeps : Within Context.Keeps (normalize (.path label path)) :=
    (keeps_rename path).bind fun _ => .pure _
  obtain ⟨replaced, nextNode, same⟩ := keeps context
  have same : ran.2 = { context with replaced, nextNode } := same
  -- The pass on a path node is a renaming, and the node itself where nothing is found.
  have cases := rename_cases path context
  have renamed : Renamed context ran.2 label path ran.1 := by
    show Renamed context (run (normalize (.path label path)) context).2 label path
      (run (normalize (.path label path)) context).1
    rw [normalize, run_bind]
    generalize run (rename path) context = outcome at cases ⊢
    rcases outcome with ⟨fault | _ | result, after⟩
    · obtain ⟨key, first, rest, replacement, decides, noPath, rfl⟩ := cases
      exact .stuck decides noPath
    · exact .kept cases
    · obtain ⟨-, key, below, replacement, decides, carries⟩ := cases
      exact .moved decides carries
  exact ⟨renamed, by rw [same], by rw [same]⟩

/-- A registered parent wins over the path itself, even if it was registered later. -/
example :
    let family := Path.ofVariable "x" (.object "Family")
    let name := family.property "Name" .string
    let context := (Context.start {} 2).substitute name (.path 0 (.ofVariable "n" .string))
      |>.substitute family (.path 1 (.ofVariable "y" (.object "Family")))
    (Pass.normalizeFlatMaps.runIn (.path 5 name) context).1.toOption =
      some (.path 2 ((Path.ofVariable "y" (.object "Family")).property "Name" .string)) := by
  decide +kernel

end FlatMap

end IndexQuery
