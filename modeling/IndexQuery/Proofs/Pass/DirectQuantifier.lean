import IndexQuery.Pass.AnyQuantifier

/-! Element markers expanded by direct recursion: every operation looks at its own arguments. -/

namespace IndexQuery.AnyQuantifier.Direct

/-- Steps that may fail, and draw identities for new nodes. -/
abbrev Attempt := StateT NodeId Option

/-- Builds nodes, which does not fail. -/
def build {α : Type} (nodes : Fresh α) : Attempt α := fun next => some (nodes next)

/-- What comes after a step sees its result and the identities that are left. -/
theorem bind_apply {α β : Type} (first : Attempt α) (next : α → Attempt β) (supply : NodeId) :
    (first >>= next) supply = (first supply).bind fun ran => next ran.1 ran.2 := rfl

/-- A path taken apart at an element marker. -/
structure Split where
  /-- The collection above the marker. -/
  collection : Path
  /-- The variable of the quantifier, with the segments that stand below the marker. -/
  element : Path

/-- Takes a path apart at its innermost marker, unless no collection or another marker is above it. -/
def split? : Path → Option Split
  | .root _ => none
  | .member parent segment =>
    if segment.kind = .any then
      if parent.hasMarker then none
      else some { collection := parent, element := .root ⟨"r", .variable, segment.type⟩ }
    else do
      -- A segment below the marker stays the last one, below whatever its parent has become.
      let split ← split? parent
      return { split with element := .member split.element segment }

/-- A path that is taken apart ends in the marker, or in a segment below one. -/
@[elab_as_elim] theorem split_induct
    {motive : (path : Path) → (split : Split) → split? path = some split → Prop}
    (marker : ∀ parent segment apart, segment.kind = .any → parent.hasMarker = false →
      motive (.member parent segment) ⟨parent, .root ⟨"r", .variable, segment.type⟩⟩ apart)
    (member : ∀ parent segment split inner apart, segment.kind ≠ .any →
      motive parent split inner →
      motive (.member parent segment) ⟨split.collection, .member split.element segment⟩ apart)
    (path : Path) (split : Split) (apart : split? path = some split) : motive path split apart := by
  -- The walk goes up to the innermost marker, and ends without one at the root.
  induction path generalizing split with
  | root segment => cases apart
  | member parent segment ih =>
    have taken := apart
    rw [split?] at taken
    by_cases isAny : segment.kind = .any
    · rw [if_pos isAny] at taken
      cases marked : parent.hasMarker with
      | true => simp [marked] at taken
      | false =>
        obtain rfl : _ = split := by simpa [marked] using taken
        exact marker parent segment apart isAny marked
    · rw [if_neg isAny] at taken
      obtain ⟨inner, above, same⟩ := Option.bind_eq_some_iff.mp taken
      obtain rfl := Option.some.inj same
      exact member parent segment inner above apart isAny (ih inner above)

/-- The quantifier over the collection above the marker, for a comparison of the element. -/
def Split.quantifier (split : Split) (operator : Operator) (type : ValueType) (compared : Node) :
    Fresh Node := fun next =>
  -- Identities are drawn in the order in which the nodes are built, the quantifier last.
  let comparison : Node :=
    .operation (next + 2) operator type [.path (next + 1) split.element, compared]
  (.operation (next + 3) .any .boolean [.path next split.collection, comparison], next + 4)

/-- The quantifier for the comparison of a path through a marker with an operand. -/
def quantify (operator : Operator) (type : ValueType) (target : Path) (compared : Node) :
    Attempt Node := do
  let split ← liftM (split? target)
  build (split.quantifier operator type compared)

/-- The node for one whose arguments are expanded, itself if nothing changed. -/
def rebuild (node : Node) (make : List Node → Fresh Node) : List Node × Bool → Attempt (Node × Bool)
  | (expanded, true) => do return (← build (make expanded), true)
  | (_, false) => return (node, false)

mutual

/-- Expands the markers of an expression, and tells whether there were any. -/
def expand : Node → Attempt (Node × Bool)
  | .operation label operator type (.path left target :: compared :: others) => do
    if target.hasMarker then
      let result ← quantify operator type target compared
      -- The other operands have to expand, although the comparison takes the second as it was.
      let _ ← expandAll (compared :: others)
      return (result, true)
    else
      rebuild (.operation label operator type (.path left target :: compared :: others))
        (Fresh.operation operator type) (← expandAll (.path left target :: compared :: others))
  | .operation label operator type args => do
    rebuild (.operation label operator type args) (Fresh.operation operator type) (← expandAll args)
  | .template label text type args => do
    rebuild (.template label text type args) (Fresh.template text type) (← expandAll args)
  -- A path through a marker is taken care of by the operation that compares it, or has none.
  | .path label target => if target.hasMarker then failure else return (.path label target, false)
  -- Markers in an object construction stay, and so do those in a subquery.
  | .factory label type args => return (.factory label type args, false)
  | .constant label value type => return (.constant label value type, false)
  | .param label name type => return (.param label name type, false)
  | .subquery label query => return (.subquery label query, false)

/-- Expands a list of arguments, left to right. -/
def expandAll : List Node → Attempt (List Node × Bool)
  | [] => return ([], false)
  | first :: rest => do
    let (expanded, changed) ← expand first
    let (others, othersChanged) ← expandAll rest
    return (expanded :: others, changed || othersChanged)

end

end IndexQuery.AnyQuantifier.Direct
