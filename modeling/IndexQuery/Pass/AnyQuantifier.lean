import IndexQuery.Pass.Context

/-! Quantifiers for comparisons with any element of a collection. -/

namespace IndexQuery.AnyQuantifier

open PassM

/-- The name of the variable that a quantifier binds; the template of the operator spells it. -/
def elementName : String := "r"

/-- The operation that compares the path being visited: its operator, type and other operand. -/
def comparison (node : Node) (whole : Path) : PassM (Operator × ValueType × Node) := do
  -- The innermost ancestor is the path itself, and the next one is what holds it.
  match (← get).ancestor? 1 with
  | some (.operation _ operator type (left :: compared :: _)) =>
    if left.label = node.label then return (operator, type, compared)
    else throw (.malformedAny whole.dotted .notLeftOperand)
  | _ => throw (.malformedAny whole.dotted .noComparison)

/-- The quantifier over a collection whose elements satisfy a comparison. -/
def quantifier (collection : Node) (element : Path) (operator : Operator) (type : ValueType)
    (compared : Node) : Fresh Node := do
  let predicate ← Fresh.operation operator type [← Fresh.path element, compared]
  Fresh.operation .any .boolean [collection, predicate]

/-- The quantifier for a path through an element marker, given the segments below what is left. -/
def quantify (node : Node) (whole : Path) : (below : List Segment) → Path → PassM (Option Node)
  | _, .root segment =>
    if segment.kind = .any then throw (.malformedAny whole.dotted .noCollection) else return none
  | below, .member parent segment =>
    if segment.kind = .any then do
      -- The collection is a path of its own, and is visited as one.
      let source ← build (Fresh.path parent)
      let collection ← visiting source do
        return (← quantify source parent [] parent).getD source
      let (operator, type, compared) ← comparison node whole
      -- What stood below the marker stands below the variable of the quantifier now.
      let element := (Path.ofVariable elementName segment.type).extend below
      let result ← build (quantifier collection element operator type compared)
      mark
      return some result
    else quantify node whole (segment :: below) parent

/-- Whether the first of some arguments is a path through an element marker. -/
def startsWithMarker : List Node → Bool
  | .path _ target :: _ => target.hasMarker
  | _ => false

/-- The node for an operation whose arguments are expanded, itself if nothing changed. -/
def rebuild (node : Node) (operator : Operator) (type : ValueType) (args expanded : List Node)
    (dirty : Bool) : PassM Node :=
  match dirty, expanded with
  | false, _ => return node
  | true, first :: rest =>
    -- The quantifier made of the left operand has taken in the whole operation.
    if startsWithMarker args then return first
    else build (Fresh.operation operator type (first :: rest))
  | true, [] => build (Fresh.operation operator type [])

mutual

/-- Replaces every comparison with an element marker by a quantifier. -/
def expand : Node → PassM Node
  -- A node is on the stack while its arguments are visited, so that a path can see what holds it.
  | .operation label operator type args =>
    visiting (.operation label operator type args) do
      let (expanded, dirty) ← expandAll args
      rebuild (.operation label operator type args) operator type args expanded dirty
  | .template label text type args =>
    visiting (.template label text type args) do
      let (expanded, dirty) ← expandAll args
      if dirty then build (Fresh.template text type expanded)
      else return .template label text type args
  | .path label target =>
    visiting (.path label target) do
      return (← quantify (.path label target) target [] target).getD (.path label target)
  -- Objects are left alone, and the rest has no arguments to look into.
  | .factory label type args => return .factory label type args
  | .constant label value type => return .constant label value type
  | .param label name type => return .param label name type
  | .subquery label query => return .subquery label query

/-- Expands a list of arguments left to right, and tells whether any of them changed. -/
def expandAll : List Node → PassM (List Node × Bool)
  | [] => return ([], false)
  | first :: rest => do
    let (expanded, dirty) ← isolated (expand first)
    let (others, othersDirty) ← expandAll rest
    return (expanded :: others, dirty || othersDirty)

end

end IndexQuery.AnyQuantifier
