import IndexQuery.Pass.AnyQuantifier
import IndexQuery.Proofs.Expr.Unlabel
import IndexQuery.Proofs.Pass.DirectQuantifier
import IndexQuery.Proofs.Pass.Steps

/-! Element markers expanded by plain recursion: no labels and no stack, but the same errors. -/

namespace IndexQuery

/-- Whether an expression is a path through an element marker. -/
def Expr.isMarked {Label : Type} : Expr Label → Bool
  | .path _ target => target.hasMarker
  | _ => false

namespace AnyQuantifier

/-- Whether an expression is one whose arguments are expanded. -/
def reaches {Label : Type} : Expr Label → Bool
  | .operation .. | .template .. => true
  | .constant .. | .path .. | .factory .. | .param .. | .subquery .. => false

namespace Plain

open Steps

/-- What an expression is compared with as a left operand, or why it is compared with nothing. -/
abbrev Holder := Except MarkerFault (Operator × ValueType × Tree)

/-- Whether an argument counts as the left operand, given the first argument of the operation and whether
it is that one by its place. -/
abbrev LeftRule (Label : Type) := (left : Expr Label) → (isFirst : Bool) → (arg : Expr Label) → Bool

/-- The left operand is told by its place. -/
def byPlace {Label : Type} : LeftRule Label := fun _ isFirst _ => isFirst

/-- The left operand is told by its label, so that a node that is shared counts wherever it stands. -/
def byLabel : LeftRule NodeId := fun left _ arg => left.label = arg.label

section

variable {Label : Type} (rule : LeftRule Label)

/-- What an operation compares one of its arguments with. -/
def holder (operator : Operator) (type : ValueType) :
    (args : List (Expr Label)) → (isFirst : Bool) → (arg : Expr Label) → Holder
  | left :: compared :: _, isFirst, arg =>
    if rule left isFirst arg then .ok (operator, type, compared.unlabel)
    else .error .notLeftOperand
  | _, _, _ => .error .noComparison

/-- The quantifier over a collection whose elements satisfy a comparison. -/
def quantifier (collection element : Path) (operator : Operator) (type : ValueType)
    (compared : Tree) : Tree :=
  .operation () .any .boolean
    [.path () collection, .operation () operator type [.path () element, compared]]

/-- The quantifier for a path through an element marker, given the segments below what is left. -/
def quantify (held : Holder) (whole : Path) :
    (below : List Segment) → Path → Except ShapeError (Option Tree)
  | _, .root segment =>
    if segment.kind = .any then .error (.malformedAny whole.dotted .noCollection) else .ok none
  | below, .member parent segment =>
    if segment.kind = .any then do
      -- The collection is visited by itself, and a marker in it is compared with nothing.
      let _ ← quantify (.error .noComparison) parent [] parent
      let (operator, type, compared) ← held.mapError (.malformedAny whole.dotted)
      let element := (Path.ofVariable elementName segment.type).extend below
      return some (quantifier parent element operator type compared)
    else quantify held whole (segment :: below) parent

/-- An operation whose arguments are expanded: a quantifier made of the first one takes it in. -/
def rebuild (operator : Operator) (type : ValueType) :
    (args : List (Expr Label)) → (expanded : List Tree) → Tree
  | first :: _, result :: others =>
    if first.isMarked then result else .operation () operator type (result :: others)
  | _, expanded => .operation () operator type expanded

mutual

/-- Replaces every comparison with an element marker by a quantifier, given what the expression itself is
compared with. -/
def expand (held : Holder) : Expr Label → Except ShapeError Tree
  | .operation _ operator type args => do
    -- The left operand is compared with the second argument as it was.
    return rebuild operator type args (← expandAll (holder rule operator type args) true args)
  | .template _ text type args => do
    return .template () text type (← expandAll (fun _ _ => .error .noComparison) true args)
  | .path _ target => do
    return (← quantify held target [] target).getD (.path () target)
  | .factory label type args => return (Expr.factory label type args).unlabel
  | .constant label value type => return (Expr.constant label value type).unlabel
  | .param label name type => return (Expr.param label name type).unlabel
  | .subquery label query => return (Expr.subquery label query).unlabel

/-- Expands a list of arguments left to right, given what each of them is compared with. -/
def expandAll (held : (isFirst : Bool) → Expr Label → Holder) (isFirst : Bool) :
    List (Expr Label) → Except ShapeError (List Tree)
  | [] => return []
  | first :: rest => do
    return (← expand (held isFirst first) first) :: (← expandAll held false rest)

end

end

/-- A path without a marker is no comparison. -/
theorem quantify_of_not_marked {path : Path} (unmarked : path.hasMarker = false) (held : Holder)
    (whole : Path) (below : List Segment) : quantify held whole below path = .ok none := by
  -- The walk goes up to the root and finds nothing on its way.
  induction path generalizing below with
  | root segment =>
    rw [quantify, if_neg (by simpa [Path.hasMarker] using unmarked)]
  | member parent segment ih =>
    obtain ⟨other, unmarked⟩ : ¬ segment.kind = .any ∧ parent.hasMarker = false := by
      simpa [Path.hasMarker] using unmarked
    rw [quantify, if_neg other, ih unmarked]

/-- A path through a single marker that is compared becomes a quantifier over what is above the
marker. -/
theorem quantify_of_split {path : Path} {split : Direct.Split}
    (apart : Direct.split? path = some split) (operator : Operator) (type : ValueType)
    (compared : Tree) (whole : Path) (below : List Segment) :
    quantify (.ok (operator, type, compared)) whole below path =
      .ok (some (quantifier split.collection (split.element.extend below) operator type compared)) := by
  -- The walk carries what it has passed, and each segment of that goes below the element again.
  induction path, split, apart using Direct.split_induct generalizing below with
  | marker parent segment _ isAny unmarked =>
    -- Nothing above the marker can fail.
    rw [quantify, if_pos isAny, quantify_of_not_marked unmarked]
    rfl
  | member parent segment split _ _ other ih =>
    rw [quantify, if_neg other]
    exact ih (segment :: below)

/-- A path that does not fail has no marker, or a single one and is compared. -/
theorem quantify_ok {path : Path} {held : Holder} {whole : Path} {below : List Segment}
    {result? : Option Tree} (done : quantify held whole below path = .ok result?) :
    (path.hasMarker = false ∧ result? = none) ∨
      (path.hasMarker = true ∧ ∃ split operator type compared,
        Direct.split? path = some split ∧ held = .ok (operator, type, compared) ∧
          result? = some
            (quantifier split.collection (split.element.extend below) operator type compared)) := by
  -- The innermost marker decides, and the walk above it is one that nothing compares.
  induction path generalizing held whole below result? with
  | root segment =>
    rw [quantify] at done
    split at done
    · simp at done
    · rename_i other
      exact .inl ⟨by simp [Path.hasMarker, other], (Except.ok.inj done).symm⟩
  | member parent segment ih =>
    rw [quantify] at done
    by_cases isAny : segment.kind = .any
    · rw [if_pos isAny, except_bind_ok] at done
      obtain ⟨collection, inner, done⟩ := done
      -- What is above the marker is compared with nothing, so it has no marker of its own.
      obtain ⟨unmarked, -⟩ | ⟨-, _, _, _, _, -, uncompared, -⟩ := ih inner
      · cases held with
        | error fault =>
          obtain ⟨_, compared, -⟩ := except_bind_ok.mp done
          cases compared
        | ok found =>
          refine .inr ⟨by simp [Path.hasMarker, isAny],
            ⟨parent, .root ⟨"r", .variable, segment.type⟩⟩, found.1, found.2.1, found.2.2, ?_, rfl,
            (Except.ok.inj done).symm⟩
          simp [Direct.split?, isAny, unmarked]
      · cases uncompared
    · rw [if_neg isAny] at done
      have same : (Path.member parent segment).hasMarker = parent.hasMarker := by
        simp [Path.hasMarker, isAny]
      rw [same]
      obtain unmarked | ⟨marked, split, operator, type, compared, apart, found, result⟩ := ih done
      · exact .inl unmarked
      -- The segment goes below the element of the parent, as the first of those that were passed.
      · refine .inr ⟨marked, ⟨split.collection, .member split.element segment⟩, operator, type,
          compared, ?_, found, result⟩
        simp [Direct.split?, isAny, apart]

section

variable {Label : Type} {rule : LeftRule Label}

/-- What is left of a path after its expansion is no path through a marker. -/
theorem isMarked_of_expand_path {label : Label} {target : Path} {held : Holder} {result : Tree}
    (done : expand rule held (.path label target) = .ok result) : result.isMarked = false := by
  rw [expand, except_bind_ok] at done
  obtain ⟨result?, found, done⟩ := done
  obtain rfl : result?.getD (.path () target) = result := Except.ok.inj done
  -- Without a marker the path stays, and with one it has become a quantifier.
  obtain ⟨unmarked, rfl⟩ | ⟨-, split, operator, type, compared, -, -, rfl⟩ := quantify_ok found
  · exact unmarked
  · rfl

/-- What is not entered stays, unless it is a path through a marker. -/
theorem expand_leaf {expr : Expr Label} (leaf : reaches expr = false)
    (unmarked : expr.isMarked = false) (held : Holder) :
    expand rule held expr = .ok expr.unlabel := by
  -- Only a marked path among the leaves would become something else.
  cases expr with
  | path label target =>
    rw [expand, quantify_of_not_marked unmarked]
    rfl
  | operation | template => simp [reaches] at leaf
  | _ =>
    rw [expand]
    rfl

/-- Arguments that can be expanded are expanded one by one. -/
theorem expandAll_cons {held : Bool → Expr Label → Holder} {isFirst : Bool} {first : Expr Label}
    {rest : List (Expr Label)} {expanded : List Tree} :
    expandAll rule held isFirst (first :: rest) = .ok expanded ↔
      ∃ result results, expand rule (held isFirst first) first = .ok result ∧
        expandAll rule held false rest = .ok results ∧ expanded = result :: results := by
  simp only [expandAll, except_bind_ok, Pure.pure, Except.pure, Except.ok.injEq]
  grind

/-- What is left after an expansion is no path through a marker. -/
theorem isMarked_of_expand {expr : Expr Label} {result : Tree} {held : Holder}
    (done : expand rule held expr = .ok result) : result.isMarked = false := by
  -- Only a path could stay a path, and an operation can only give way to what one has become.
  cases expr with
  | path label target => exact isMarked_of_expand_path done
  | operation label operator type args =>
    rw [expand, except_bind_ok] at done
    obtain ⟨expanded, inside, done⟩ := done
    obtain rfl : rebuild operator type args expanded = result := Except.ok.inj done
    unfold rebuild
    split
    · rename_i first rest result results
      split
      -- The first argument is a path, and the operation gives way to what it has become.
      · rename_i marked
        obtain ⟨_, _, head, -, same⟩ := expandAll_cons.mp inside
        cases same
        cases first with
        | path label target => exact isMarked_of_expand_path head
        | _ => simp [Expr.isMarked] at marked
      · rfl
    · rfl
  | template label text type args =>
    rw [expand, except_bind_ok] at done
    obtain ⟨expanded, inside, done⟩ := done
    obtain rfl := Except.ok.inj done
    rfl
  | _ =>
    rw [expand] at done
    obtain rfl := Except.ok.inj done
    rfl

end

end Plain

end AnyQuantifier

end IndexQuery
