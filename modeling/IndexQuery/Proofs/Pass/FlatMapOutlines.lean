import IndexQuery.Proofs.Pass.MarkerComparisons
import IndexQuery.Proofs.Pass.Renaming
import Mathlib.Data.List.Forall2

/-! What the flat-map pass leaves of paths, lists and lambdas, and how far its registrations stay apart
from the variable of quantifiers. -/

namespace IndexQuery

open Steps AnyQuantifier

/-- A path that has neither a marker nor the name of the variable of quantifiers, if another one has
neither. -/
structure Path.Inherits (old new : Path) : Prop where
  unmarked : old.hasMarker = false → new.hasMarker = false
  named : old.rootName ≠ elementName → new.rootName ≠ elementName

namespace Path.Inherits

/-- A path inherits from itself. -/
theorem refl (path : Path) : path.Inherits path := ⟨id, id⟩

/-- What inherits from an heir inherits from the first. -/
theorem trans {old between new : Path} (first : old.Inherits between) (second : between.Inherits new) :
    old.Inherits new := ⟨second.unmarked ∘ first.unmarked, second.named ∘ first.named⟩

/-- A root inherits from every path below it. -/
theorem rootPath (path : Path) : path.Inherits path.rootPath :=
  ⟨Path.hasMarker_rootPath, id⟩

end Path.Inherits

/-- An invented name is not that of the variable of quantifiers. -/
theorem Context.transientName_ne (options : Options) (number : Nat) :
    transientName options number ≠ elementName := by
  -- It ends in a digit, and that name does not.
  intro same
  have characters := congrArg String.toList same
  rw [transientName, String.toList_append, Nat.toList_repr] at characters
  obtain ⟨digit, member⟩ := List.exists_mem_of_ne_nil _ (Nat.toDigits_ne_nil (n := number) (b := 10))
  have isDigit := Nat.isDigit_of_mem_toDigits (by decide) (by decide) member
  have isR : digit ∈ elementName.toList := by
    rw [← characters]
    exact List.mem_append_right _ member
  simp [elementName] at isR
  simp [isR] at isDigit

namespace FlatMap.Plain

namespace State

/-- States in which registered paths are moved to members of invented variables. -/
def ToMembers (state : State) : Prop :=
  ∀ entry ∈ state.substitutions, ∃ target : Path,
    entry.2 = .path () target ∧ target.hasMarker = false ∧ target.rootName ≠ elementName

/-- States whose registrations have nothing to do with markers and quantifiers. -/
structure Tame (state : State) : Prop where
  toMembers : state.ToMembers
  keys : ∀ entry ∈ state.substitutions, entry.1.rootName ≠ elementName ∧
    (entry.1.isRoot = true ∨ entry.1.hasMarker = false)

variable {state : State}

/-- Members are paths. -/
theorem ToMembers.toPaths (toMembers : state.ToMembers) : state.ToPaths := by
  -- A member is a path in particular.
  intro entry registered
  obtain ⟨target, same, -⟩ := toMembers entry registered
  exact ⟨target, same⟩

/-- What a path is called after its renaming. -/
def renamed (state : State) (path : Path) : Path :=
  match state.rename path with
  | .ok (some (.path _ target)) => target
  | _ => path

/-- Where replacements are paths, a path keeps its name or moves to a path. -/
theorem rename_eq (toPaths : state.ToPaths) (path : Path) :
    (state.rename path = .ok none ∧ state.renamed path = path) ∨
      (state.rename path = .ok (some (.path () (state.renamed path))) ∧
        state.Moves path (state.renamed path)) := by
  -- Renaming fails only where a parent is replaced by something that is no path.
  have total : ∃ renamed?, state.rename path = .ok renamed? := by
    induction path with
    | root segment => exact ⟨_, rfl⟩
    | member parent segment ih =>
      obtain ⟨renamed?, found⟩ := ih
      rw [rename, found]
      cases renamed? with
      | none => exact ⟨_, rfl⟩
      | some renamed =>
        obtain ⟨target, rfl, -⟩ := moves_of_rename toPaths found
        exact ⟨_, rfl⟩
  obtain ⟨renamed?, found⟩ := total
  cases renamed? with
  | none => exact .inl ⟨found, by rw [renamed, found]⟩
  | some moved =>
    obtain ⟨target, rfl, moves⟩ := moves_of_rename toPaths found
    have same : state.renamed path = target := by rw [renamed, found]
    rw [same]
    exact .inr ⟨found, moves⟩

/-- A renaming that succeeds leaves the path under its name afterwards. -/
theorem getD_rename (toPaths : state.ToPaths) {path : Path} {renamed? : Option Tree}
    (done : state.rename path = .ok renamed?) :
    renamed?.getD (.path () path) = .path () (state.renamed path) := by
  -- A path that is kept keeps its name, and one that is moved has a new one.
  obtain ⟨kept, same⟩ | ⟨moved, -⟩ := rename_eq toPaths path
  · rw [same, Except.ok.inj (done.symm.trans kept), Option.getD_none]
  · rw [Except.ok.inj (done.symm.trans moved), Option.getD_some]

/-- A path is normalized to what it is called after its renaming. -/
theorem run_normalize_path (toPaths : state.ToPaths) (path : Path) :
    run (normalize (.path () path)) state = (.ok (.path () (state.renamed path)), state) := by
  -- Renaming does not fail where replacements are paths, and leaves the state.
  rw [normalize, run_bind, run_get]
  dsimp only
  rw [run_bind, run_lift]
  obtain ⟨kept, same⟩ | ⟨moved, -⟩ := rename_eq toPaths path
  · rw [kept, same]
    rfl
  · rw [moved]
    rfl

/-- A renamed path inherits from the path. -/
theorem inherits_renamed (toMembers : state.ToMembers) (path : Path) :
    path.Inherits (state.renamed path) := by
  obtain ⟨-, same⟩ | ⟨-, key, target, segments, registered, old, new⟩ :=
    rename_eq toMembers.toPaths path
  · rw [same]
    exact .refl path
  -- The segments below the registered path stay, and a member takes its place.
  · obtain ⟨member, same, unmarked, named⟩ := toMembers _ registered
    cases same
    rw [new, old]
    refine ⟨?_, fun _ => by rwa [Path.rootName_extend]⟩
    rw [Path.hasMarker_extend, Path.hasMarker_extend, unmarked, Bool.false_or]
    intro none
    exact (Bool.or_eq_false_iff.mp none).2

/-- What is below the variable of a quantifier is not renamed. -/
theorem Tame.renamed_element (tame : state.Tame) {path : Path}
    (element : path.rootName = elementName) : state.renamed path = path := by
  -- No registered path has the name of the element, so none covers a path of that name.
  obtain ⟨-, same⟩ | ⟨-, key, target, segments, registered, old, -⟩ :=
    rename_eq tame.toMembers.toPaths path
  · exact same
  · have other := (tame.keys _ registered).1
    rw [old, Path.rootName_extend] at element
    exact absurd element other

/-- No path through a marker is registered as a whole, so that a parent of it decides. -/
theorem Tame.renamed_member (tame : state.Tame) {parent : Path} {segment : Segment}
    (marked : (Path.member parent segment).hasMarker = true) :
    state.renamed (.member parent segment) = .member (state.renamed parent) segment := by
  -- A key is a root or has no marker, and this path is neither.
  have missing : state.replacement? (.member parent segment) = none := by
    cases found : state.replacement? (.member parent segment) with
    | none => rfl
    | some replacement =>
      obtain ⟨-, root | unmarked⟩ := tame.keys _ (mem_of_replacement? found)
      · simp [Path.isRoot] at root
      · simp [marked] at unmarked
  obtain ⟨kept, same⟩ | ⟨moved, -⟩ := rename_eq tame.toMembers.toPaths parent
  · rw [same, renamed, rename, kept]
    simp [missing]
  · rw [renamed, rename, moved]

/-- Renaming a path that can be taken apart renames the collection, and leaves the rest. -/
theorem Tame.split_renamed (tame : state.Tame) {path : Path} {split : Direct.Split}
    (apart : Direct.split? path = some split) :
    Direct.split? (state.renamed path) =
      some { split with collection := state.renamed split.collection } := by
  -- The path is taken apart from its last segment upwards, and renaming keeps the last segments.
  induction path, split, apart using Direct.split_induct with
  | marker parent segment apart isAny unmarked =>
    rw [tame.renamed_member (hasMarker_of_split apart), Direct.split?, if_pos isAny,
      (inherits_renamed tame.toMembers parent).unmarked unmarked]
    rfl
  | member parent segment split _ apart other ih =>
    rw [tame.renamed_member (hasMarker_of_split apart), Direct.split?, if_neg other, ih]
    rfl

end State

/-- What is left of a tree where a flat map above it would look: paths, lists and lambdas. -/
inductive Outlines : Tree → Tree → Prop
  | path {old new : Path} (inherits : old.Inherits new) : Outlines (.path () old) (.path () new)
  | operation {operator : Operator} {type : ValueType} {args results : List Tree}
      (settled : rewrites operator results = false) (inside : List.Forall₂ Outlines args results) :
      Outlines (.operation () operator type args) (.operation () operator type results)
  | other {tree result : Tree} (noPath : result.path? = none)
      (noList : result.operator? ≠ some .list) (noLambda : result.operator? ≠ some .lambda) :
      Outlines tree result

namespace Outlines

/-- A path is left of a path. -/
theorem of_path {tree : Tree} {new : Path} (outlines : Outlines tree (.path () new)) :
    ∃ old, tree = .path () old ∧ old.Inherits new := by
  -- Only paths become paths.
  cases outlines with
  | path inherits => exact ⟨_, rfl, inherits⟩
  | other noPath => simp [Expr.path?] at noPath

/-- A lambda is left of a lambda, and binds a root that inherits from the path that it bound. -/
theorem of_pathLambda {tree result body : Tree} {new : Path} (outlines : Outlines tree result)
    (isLambda : result.pathLambda? = some (new, body)) :
    ∃ old original, tree.pathLambda? = some (old, original) ∧ old.Inherits new ∧
      new.isRoot = true := by
  obtain ⟨label, type, inner, rfl⟩ := Expr.pathLambda?_eq_some isLambda
  cases outlines with
  | operation settled inside =>
    obtain ⟨first, rest, head, tail, rfl⟩ := List.forall₂_cons_right_iff.mp inside
    obtain ⟨second, others, -, last, rfl⟩ := List.forall₂_cons_right_iff.mp tail
    obtain rfl := List.forall₂_nil_right_iff.mp last
    obtain ⟨old, rfl, inherits⟩ := of_path head
    -- A lambda bound to a member would have been rewritten.
    exact ⟨old, second, rfl, inherits, by simpa [rewrites] using settled⟩
  | other noPath noList noLambda => simp [Expr.operator?] at noLambda

/-- A list of two is left of a list of two. -/
theorem of_list {tree first second : Tree} {type : ValueType}
    (outlines : Outlines tree (.operation () .list type [first, second])) :
    ∃ first' second', tree = .operation () .list type [first', second'] ∧
      Outlines first' first ∧ Outlines second' second := by
  -- A list is built from its members, one for one.
  cases outlines with
  | operation settled inside =>
    obtain ⟨first', rest, head, tail, rfl⟩ := List.forall₂_cons_right_iff.mp inside
    obtain ⟨second', others, next, last, rfl⟩ := List.forall₂_cons_right_iff.mp tail
    obtain rfl := List.forall₂_nil_right_iff.mp last
    exact ⟨first', second', rfl, head, next⟩
  | other noPath noList => simp [Expr.operator?] at noList

end Outlines

/-- A flat map that can be taken apart after its arguments are normalized could be taken apart before,
and its variables inherit from those that it had. -/
theorem ofArgs_of_outlines {tree tree' : Tree} {args results : List Tree} {parts : FlatMap Unit}
    (outlines : List.Forall₂ Outlines args results) (taken : ofArgs tree' results = .ok parts) :
    ∃ original, ofArgs tree args = .ok original ∧ original.element.Inherits parts.element ∧
      original.partner.Inherits parts.partner ∧ parts.element.isRoot = true := by
  obtain ⟨label, type, first, second, rest, rfl, isLambda, partner⟩ := ofArgs_ok taken
  -- Each part that is found has an outline, which says what stood in its place.
  obtain ⟨source, tail, -, others, rfl⟩ := List.forall₂_cons_right_iff.mp outlines
  obtain ⟨pair, rest', list, -, rfl⟩ := List.forall₂_cons_right_iff.mp others
  obtain ⟨first', second', rfl, head, next⟩ := list.of_list
  obtain ⟨element, body, isLambda', inherits, root⟩ := head.of_pathLambda isLambda
  obtain ⟨inner, rfl, -⟩ | ⟨selector, isSelector, -⟩ := partner
  · obtain ⟨old, rfl, inherits'⟩ := next.of_path
    refine ⟨{ source, element, body, partner := old, selector? := none }, ?_, inherits, inherits',
      root⟩
    rw [ofArgs, isLambda']
  · obtain ⟨old, original, isSelector', inherits', -⟩ := next.of_pathLambda isSelector
    refine ⟨{ source, element, body, partner := old, selector? := some original }, ?_, inherits,
      inherits', root⟩
    -- What has a lambda's parameter is an operation.
    cases second' with
    | operation => simp only [ofArgs, isLambda', isSelector']
    | _ => simp [Expr.pathLambda?] at isSelector'

/-- Trees in which the variables of every flat map that normalization reaches have another name than
the variable of quantifiers, and no flat map names a path through a marker. -/
inductive AliasesApart : Tree → Prop
  | leaf {tree : Tree} (leaf : looksInto tree = false) : AliasesApart tree
  | operation {operator : Operator} {type : ValueType} {args : List Tree}
      (named : operator = .flatMap → ∀ parts,
        ofArgs (.operation () operator type args) args = .ok parts →
          parts.element.rootName ≠ elementName ∧ parts.partner.rootName ≠ elementName ∧
            parts.partner.hasMarker = false)
      (inside : ∀ arg ∈ args, AliasesApart arg) : AliasesApart (.operation () operator type args)
  | factory {type : ValueType} {args : List Tree} (inside : ∀ arg ∈ args, AliasesApart arg) :
      AliasesApart (.factory () type args)

/-- What being apart says of an operation, and of its arguments. -/
theorem AliasesApart.operation_inside {operator : Operator} {type : ValueType} {args : List Tree}
    (apart : AliasesApart (.operation () operator type args)) :
    (operator = .flatMap → ∀ parts,
        ofArgs (.operation () operator type args) args = .ok parts →
          parts.element.rootName ≠ elementName ∧ parts.partner.rootName ≠ elementName ∧
            parts.partner.hasMarker = false) ∧
      ∀ arg ∈ args, AliasesApart arg := by
  -- An operation is no leaf, so it was built with both conditions.
  cases apart with
  | leaf leaf => simp [looksInto] at leaf
  | operation named inside => exact ⟨named, inside⟩

/-- An operation over two trees is apart from quantifiers if they are, unless it is a flat map. -/
theorem AliasesApart.pair {operator : Operator} (other : operator ≠ .flatMap) (type : ValueType)
    {first second : Tree} (head : AliasesApart first) (tail : AliasesApart second) :
    AliasesApart (.operation () operator type [first, second]) := by
  -- The condition on names is one on flat maps.
  refine .operation (fun same => absurd same other) ?_
  simp only [List.forall_mem_cons]
  exact ⟨head, tail, by simp⟩

/-- A flat map whose variables are apart from quantifiers registers nothing that is not. -/
theorem State.Tame.settle {state : State} (tame : state.Tame) {parts : FlatMap Unit}
    (root : parts.element.isRoot = true) (element : parts.element.rootName ≠ elementName)
    (partner : parts.partner.rootName ≠ elementName)
    (unmarked : parts.partner.hasMarker = false) : (state.settle parts).Tame := by
  have member (path : Path) : (state.member path).hasMarker = false ∧
      (state.member path).rootName ≠ elementName :=
    ⟨rfl, Context.transientName_ne state.options state.nextTransient⟩
  unfold State.settle
  split
  · exact tame
  -- What is added are the two variables, each with a member.
  · refine ⟨?_, ?_⟩
    · intro entry registered
      simp only [State.pair, List.mem_append, List.mem_cons, List.not_mem_nil,
        or_false] at registered
      rcases registered with registered | rfl | rfl
      · exact tame.toMembers entry registered
      · exact ⟨_, rfl, member parts.element⟩
      · exact ⟨_, rfl, member parts.partner⟩
    · intro entry registered
      simp only [State.pair, List.mem_append, List.mem_cons, List.not_mem_nil,
        or_false] at registered
      rcases registered with registered | rfl | rfl
      · exact tame.keys entry registered
      · exact ⟨element, .inl root⟩
      · exact ⟨partner, .inr unmarked⟩

/-- Along a list, outlines are left of the members, and registrations stay apart from quantifiers. -/
theorem Walked.outlines {args results : List Tree} {state after : State}
    (walked : Walked (fun tree state result after =>
      AliasesApart tree → state.Tame → Outlines tree result ∧ after.Tame) args state results after)
    (apart : ∀ arg ∈ args, AliasesApart arg) (tame : state.Tame) :
    List.Forall₂ Outlines args results ∧ after.Tame := by
  -- Each member is walked over in a state that the earlier ones leave apart from quantifiers.
  induction walked with
  | nil => exact ⟨.nil, tame⟩
  | cons head tail ih =>
    obtain ⟨first, rest⟩ := List.forall_mem_cons.mp apart
    obtain ⟨outline, between⟩ := head first tame
    obtain ⟨outlines, after⟩ := ih rest between
    exact ⟨.cons outline outlines, after⟩

/-- A walk leaves outlines of what it walks over, and its registrations apart from quantifiers. -/
theorem normalize_tame {tree result : Tree} {state after : State}
    (ran : run (normalize tree) state = (.ok result, after)) (apart : AliasesApart tree)
    (tame : state.Tame) : Outlines tree result ∧ after.Tame := by
  -- A flat map is taken apart after its arguments are normalized, so their outlines are needed.
  refine normalize_induct (motive := fun tree state result after =>
    AliasesApart tree → state.Tame → Outlines tree result ∧ after.Tame)
    ?still ?path ?factory ?operation ?lambda ?flatMap ran apart tame
  case still =>
    intro tree state leaf noPath _ tame
    refine ⟨?_, tame⟩
    cases tree with
    | operation | factory => simp [looksInto] at leaf
    | path => simp [Expr.path?] at noPath
    | _ => exact .other rfl (by simp [Expr.operator?]) (by simp [Expr.operator?])
  case path =>
    intro target state renamed? renamed _ tame
    rw [State.getD_rename tame.toMembers.toPaths renamed]
    exact ⟨.path (State.inherits_renamed tame.toMembers target), tame⟩
  case factory =>
    intro type args state results after walked apart tame
    cases apart with
    | leaf leaf => simp [looksInto] at leaf
    | factory inside =>
      exact ⟨.other rfl (by simp [Expr.operator?]) (by simp [Expr.operator?]),
        (walked.outlines inside tame).2⟩
  case operation =>
    intro operator type args state results after walked settled apart tame
    obtain ⟨outlines, after⟩ := walked.outlines apart.operation_inside.2 tame
    exact ⟨.operation settled outlines, after⟩
  case lambda =>
    intro type args state parent segment bodies after walked apart tame
    obtain ⟨outlines, after⟩ := walked.outlines apart.operation_inside.2 tame
    obtain ⟨first, rest, head, tail, rfl⟩ := List.forall₂_cons_right_iff.mp outlines
    obtain ⟨old, rfl, inherits⟩ := head.of_path
    -- The lambda binds the root of what its parameter was renamed to.
    have root : Outlines (.path () old) (.path () (Path.member parent segment).rootPath) :=
      .path (inherits.trans (.rootPath _))
    exact ⟨.operation rfl (.cons root tail), after⟩
  case flatMap =>
    intro type args state results between parts walked taken apart tame
    obtain ⟨named, inside⟩ := apart.operation_inside
    obtain ⟨outlines, between⟩ := walked.outlines inside tame
    obtain ⟨original, taken, element, partner, root⟩ :=
      @ofArgs_of_outlines (.operation () .flatMap type args) _ _ _ _ outlines taken
    obtain ⟨elementName, partnerName, unmarked⟩ := named rfl original taken
    refine ⟨.other rfl (by simp [canonical, Expr.operator?]) (by simp [canonical, Expr.operator?]),
      ?_⟩
    exact between.settle root (element.named elementName) (partner.named partnerName)
      (partner.unmarked unmarked)

end FlatMap.Plain

end IndexQuery
