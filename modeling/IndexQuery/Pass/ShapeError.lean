import IndexQuery.Operator
import IndexQuery.Path

/-! Why a pass rejects an expression, and the message that says so. -/

namespace IndexQuery

/-- The parts of a flat map that its canonical form is made from. -/
inductive FlatMapPart where
  | arguments
  | pair
  | element
  | selector
  | partner
deriving DecidableEq

/-- What a part of a flat map has to be. -/
def FlatMapPart.requirement : FlatMapPart → String
  | .arguments => "a source and a LIST argument"
  | .pair => "a two-argument LIST as second argument"
  | .element => "a LAMBDA bound to a path as first LIST element"
  | .selector => "a selector LAMBDA bound to a path"
  | .partner => "an alias path or a selector LAMBDA as second LIST element"

/-- Why an element marker cannot become a quantifier. -/
inductive MarkerFault where
  | noCollection
  | notLeftOperand
  | noComparison
deriving DecidableEq

/-- The words for a fault of an element marker. -/
def MarkerFault.reason : MarkerFault → String
  | .noCollection => "the any-marker has no collection"
  | .notLeftOperand => "the any-path must be the left operand of its operation"
  | .noComparison => "no enclosing operation with a compared value"

/-- A rule of the query language that an expression breaks. -/
inductive ShapeError where
  /-- A part of a flat map is something else, whose text is given. -/
  | unexpectedShape (part : FlatMapPart) (found : String)
  /-- The parent of a path was replaced by something that is no path. -/
  | nonPathParent (path replacement : String)
  /-- An element marker is not where a quantifier can be made of it. -/
  | malformedAny (path : String) (fault : MarkerFault)
deriving DecidableEq

namespace ShapeError

/-- The operator whose rule is broken. -/
def operator : ShapeError → Operator
  | .unexpectedShape .. => .flatMap
  | .nonPathParent .. => .flatMap
  | .malformedAny .. => .any

/-- The message for a broken rule. -/
def message : ShapeError → String
  | .unexpectedShape part found =>
    "malformed " ++ Operator.flatMap.id ++ " expression: expected " ++ part.requirement ++
      ", found `" ++ found ++ "`"
  | .nonPathParent path replacement =>
    "cannot re-parent `" ++ path ++ "` onto non-path `" ++ replacement ++ "`"
  | .malformedAny path fault => "malformed Any expression `" ++ path ++ "`: " ++ fault.reason

end ShapeError

end IndexQuery
