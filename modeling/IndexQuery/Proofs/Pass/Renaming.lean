import IndexQuery.Proofs.Pass.PlainRuns

/-! How registrations rename paths, and how a walk adds to them. -/

namespace IndexQuery

namespace Path

/-- A path is another one, or some segments below it. -/
def Covers (key path : Path) : Prop := ∃ segments, path = key.extend segments

/-- Segments added below a path leave its root. -/
@[simp] theorem rootName_extend (path : Path) (segments : List Segment) :
    (path.extend segments).rootName = path.rootName := by
  -- Segments are put behind the path, one at a time.
  induction segments generalizing path with
  | nil => rfl
  | cons segment rest ih => exact ih (.member path segment)

/-- The segments below a path that end in a member are those of what has the member, and one more. -/
theorem extend_concat (path : Path) (segments : List Segment) (segment : Segment) :
    path.extend (segments.concat segment) = .member (path.extend segments) segment := by
  simp [extend]

/-- Only a root covers the root. -/
theorem covers_root {key : Path} {segment : Segment} :
    key.Covers (.root segment) ↔ key = .root segment := by
  constructor
  -- Whatever is below another path ends in a member.
  · rintro ⟨segments, same⟩
    obtain rfl | ⟨before, last, rfl⟩ := List.eq_nil_or_concat segments
    · exact same.symm
    · rw [extend_concat] at same
      cases same
  · rintro rfl
    exact ⟨[], rfl⟩

/-- What covers a member is the member itself or covers what has it. -/
theorem covers_member {key parent : Path} {segment : Segment} :
    key.Covers (.member parent segment) ↔ key = .member parent segment ∨ key.Covers parent := by
  constructor
  · rintro ⟨segments, same⟩
    -- The last of the segments is the one of the member.
    obtain rfl | ⟨before, last, rfl⟩ := List.eq_nil_or_concat segments
    · exact .inl same.symm
    · rw [extend_concat] at same
      cases same
      exact .inr ⟨before, rfl⟩
  · rintro (rfl | ⟨segments, rfl⟩)
    · exact ⟨[], rfl⟩
    · exact ⟨segments.concat segment, (extend_concat ..).symm⟩

end Path

namespace FlatMap.Plain

open Steps

namespace State

/-- A registered path moves to its replacement, with whatever is below it. -/
def Moves (state : State) (old new : Path) : Prop :=
  ∃ key target segments, (key, .path () target) ∈ state.substitutions ∧
    old = key.extend segments ∧ new = target.extend segments

/-- No registered path covers a path. -/
def Misses (state : State) (path : Path) : Prop :=
  ∀ entry ∈ state.substitutions, ¬ entry.1.Covers path

/-- Every registered replacement is a path. -/
def ToPaths (state : State) : Prop :=
  ∀ entry ∈ state.substitutions, ∃ target, entry.2 = .path () target

/-- A replacement is one of those that are registered. -/
theorem mem_of_replacement? {state : State} {path : Path} {replacement : Tree}
    (found : state.replacement? path = some replacement) :
    (path, replacement) ∈ state.substitutions := by
  -- The table is split where the entry is found.
  obtain ⟨before, after, split, -⟩ := List.lookup_eq_some_iff.mp found
  rw [split]
  simp

/-- A path without a replacement is not registered. -/
theorem ne_of_replacement?_none {state : State} {path : Path}
    (missing : state.replacement? path = none) {entry : Path × Tree}
    (registered : entry ∈ state.substitutions) : entry.1 ≠ path := by
  -- An entry for the path would have been found.
  rintro rfl
  have different := List.lookup_eq_none_iff.mp missing entry registered
  simp at different

/-- A path that keeps its name is missed by every registration, and so are its parents. -/
theorem misses_of_rename {state : State} {path : Path} (kept : state.rename path = .ok none) :
    state.Misses path := by
  -- Renaming asks for the parents first, from the root down, and stops at the first that is found.
  induction path with
  | root segment =>
    intro entry registered covers
    rw [rename, Except.ok.injEq] at kept
    exact ne_of_replacement?_none kept registered (Path.covers_root.mp covers)
  | member parent segment ih =>
    intro entry registered covers
    rw [rename] at kept
    split at kept
    · simp at kept
    -- What covers the path is the path, which is not found, or covers the parent.
    · rename_i parentKept
      rcases Path.covers_member.mp covers with same | above
      · exact ne_of_replacement?_none (Except.ok.inj kept) registered same
      · exact ih parentKept entry registered above
    · simp at kept
    · simp at kept

/-- Where replacements are paths, a renamed path moves to a path. -/
theorem moves_of_rename {state : State} {path : Path} {renamed : Tree} (toPaths : state.ToPaths)
    (ran : state.rename path = .ok (some renamed)) :
    ∃ target, renamed = .path () target ∧ state.Moves path target := by
  have registered {path : Path} {replacement : Tree}
      (found : state.replacement? path = some replacement) :
      ∃ target, replacement = .path () target ∧ state.Moves path target := by
    have entry := mem_of_replacement? found
    obtain ⟨target, rfl⟩ := toPaths _ entry
    exact ⟨target, rfl, path, target, [], entry, rfl, rfl⟩
  -- The rest of the segments is added to what the parent moves to.
  induction path generalizing renamed with
  | root segment => exact registered (Except.ok.inj ran)
  | member parent segment ih =>
    rw [rename] at ran
    split at ran
    · simp at ran
    · exact registered (Except.ok.inj ran)
    · rename_i newParent parentRan
      cases ran
      obtain ⟨target, same, key, replacement, segments, entry, rfl, rfl⟩ := ih parentRan
      cases same
      exact ⟨_, rfl, key, replacement, segments.concat segment, entry, (Path.extend_concat ..).symm,
        (Path.extend_concat ..).symm⟩
    · simp at ran

end State

/-- A walk only adds registrations: those of members of the variables that it invents. -/
structure Grown (before after : State) : Prop where
  options : after.options = before.options
  invented : before.nextTransient ≤ after.nextTransient
  registered : ∃ added, after.substitutions = before.substitutions ++ added ∧
    ∀ entry ∈ added, ∃ number name type,
      before.nextTransient ≤ number ∧ number < after.nextTransient ∧
        entry.2 = .path () ((Path.ofVariable (Context.transientName before.options number)
          .anonymous).property name type)

namespace Grown

variable {before between after : State}

/-- A step that changes nothing adds nothing. -/
theorem refl (state : State) : Grown state state :=
  ⟨rfl, Nat.le_refl _, [], by simp, by simp⟩

/-- What two steps add, they add one after the other. -/
theorem trans (first : Grown before between) (second : Grown between after) :
    Grown before after := by
  obtain ⟨added, extended, members⟩ := first.registered
  obtain ⟨others, extendedFurther, otherMembers⟩ := second.registered
  refine ⟨second.options.trans first.options, Nat.le_trans first.invented second.invented,
    added ++ others, by rw [extendedFurther, extended, List.append_assoc], ?_⟩
  -- The numbers of the first step end where those of the second begin.
  intro entry member
  rcases List.mem_append.mp member with earlier | later
  · obtain ⟨number, name, type, atLeast, below, same⟩ := members entry earlier
    exact ⟨number, name, type, atLeast, Nat.lt_of_lt_of_le below second.invented, same⟩
  · obtain ⟨number, name, type, atLeast, below, same⟩ := otherMembers entry later
    exact ⟨number, name, type, Nat.le_trans first.invented atLeast, below, first.options ▸ same⟩

/-- What was registered stays registered. -/
theorem mem (grown : Grown before after) {entry : Path × Tree}
    (registered : entry ∈ before.substitutions) : entry ∈ after.substitutions := by
  -- What is added comes behind what was registered before.
  obtain ⟨added, extended, -⟩ := grown.registered
  rw [extended]
  exact List.mem_append_left added registered

/-- What a path moved to, it still moves to. -/
theorem moves (grown : Grown before after) {old new : Path} (moves : before.Moves old new) :
    after.Moves old new := by
  obtain ⟨key, target, segments, registered, same⟩ := moves
  exact ⟨key, target, segments, grown.mem registered, same⟩

/-- What is missed in the end was missed all the time. -/
theorem misses (grown : Grown before after) {path : Path} (misses : after.Misses path) :
    before.Misses path := by
  intro entry registered
  exact misses entry (grown.mem registered)

/-- Replacements stay paths. -/
theorem toPaths (grown : Grown before after) (toPaths : before.ToPaths) : after.ToPaths := by
  obtain ⟨added, extended, invented⟩ := grown.registered
  intro entry registered
  rw [extended] at registered
  rcases List.mem_append.mp registered with earlier | later
  · exact toPaths entry earlier
  -- What is added are members of invented variables, which are paths.
  · obtain ⟨number, name, type, -, -, same⟩ := invented entry later
    exact ⟨_, same⟩

/-- A flat map without a selector registers its variables, and any other one nothing. -/
theorem settle (state : State) (flatMap : FlatMap Unit) : Grown state (state.settle flatMap) := by
  unfold State.settle
  split
  · exact refl state
  -- Both variables are registered for the same number, which is used up by that.
  · refine ⟨rfl, Nat.le_succ _, _, rfl, ?_⟩
    intro entry added
    simp only [List.mem_cons, List.not_mem_nil, or_false] at added
    rcases added with rfl | rfl
    all_goals exact ⟨state.nextTransient, _, _, Nat.le_refl _, Nat.lt_succ_self _, rfl⟩

end Grown

/-- Along a list, states grow from step to step. -/
theorem Walked.grown {args results : List Tree} {state after : State}
    (walked : Walked (fun _ state _ after => Grown state after) args state results after) :
    Grown state after := by
  induction walked with
  | nil => exact .refl _
  | cons head tail ih => exact head.trans ih

/-- A walk that succeeds only adds registrations. -/
theorem normalize_grown {tree result : Tree} {state after : State}
    (ran : run (normalize tree) state = (.ok result, after)) : Grown state after := by
  -- The only step of its own is that of a flat map, after those of its arguments.
  refine normalize_induct (motive := fun _ state _ after => Grown state after)
    ?still ?path ?factory ?operation ?lambda ?flatMap ran
  case still =>
    intro tree state _ _
    exact .refl state
  case path =>
    intro target state renamed? _
    exact .refl state
  case factory =>
    intro type args state results after walked
    exact walked.grown
  case operation =>
    intro operator type args state results after walked _
    exact walked.grown
  case lambda =>
    intro type args state parent segment bodies after walked
    exact walked.grown
  case flatMap =>
    intro type args state results between parts walked _
    exact walked.grown.trans (.settle between parts)

end FlatMap.Plain

end IndexQuery
