import IndexQuery.Expr.Render
import IndexQuery.Pass.Context
import IndexQuery.Text.Naming

/-! Flat maps in canonical form: a source, an outer lambda and a selector lambda. -/

namespace IndexQuery

/-- A flat map taken apart. -/
structure FlatMap (Label : Type) where
  /-- What is mapped over. -/
  source : Expr Label
  /-- The variable for an element of the source. -/
  element : Path
  /-- The collection that an element is mapped to. -/
  body : Expr Label
  /-- The variable for an element of that collection. -/
  partner : Path
  /-- What a pair of elements becomes; without a selector, the pair itself. -/
  selector? : Option (Expr Label)

namespace FlatMap

open PassM

/-- Takes apart a flat map with the given arguments, or says which part is malformed. -/
def ofArgs {Label : Type} (node : Expr Label) (args : List (Expr Label)) :
    Except ShapeError (FlatMap Label) :=
  match args with
  -- Arguments after the first two are not looked at.
  | source :: .operation _ .list _ [first, second] :: _ =>
    match first.pathLambda? with
    | none => .error (.unexpectedShape .element first.render)
    | some (element, body) =>
      match second with
      -- A lone variable stands for the pair of both.
      | .path _ partner => .ok { source, element, body, partner, selector? := none }
      | .operation .. =>
        match second.pathLambda? with
        | none => .error (.unexpectedShape .selector second.render)
        | some (partner, selector) =>
          .ok { source, element, body, partner, selector? := some selector }
      | _ => .error (.unexpectedShape .partner second.render)
  | _ :: pair :: _ => .error (.unexpectedShape .pair pair.render)
  | _ => .error (.unexpectedShape .arguments node.render)

/-- Registers a path to be replaced by the member that stands for it on another path. -/
def substituteMember (transient path : Path) : PassM Unit := do
  let member ← build (Fresh.path (transient.property path.memberName path.type))
  change fun context => ((), context.substitute path member)

/-- Makes the object that pairs two variables, and replaces both by members of a new variable. -/
def pairSelector (element partner : Path) : PassM Node := do
  let selector ← build do
    Fresh.anonymous
      [(Text.capitalize element.name, ← Fresh.path element),
        (Text.capitalize partner.name, ← Fresh.path partner)]
  -- From here on, both variables are read through the object that a new variable stands for.
  let transient := Path.ofVariable (← change Context.freshName) .anonymous
  substituteMember transient element
  substituteMember transient partner
  return selector

/-- The canonical form of a flat map, given the selector. -/
def canonical (type : ValueType) (flatMap : FlatMap NodeId) (selector : Node) : Fresh Node := do
  -- Both lambdas bind the root of the element, each by a node of its own.
  let element := flatMap.element.rootPath
  let parameters ← Fresh.list [← Fresh.path element, ← Fresh.path flatMap.partner]
  let outer ← Fresh.lambda (← Fresh.path element) flatMap.body
  let selectorLambda ←
    Fresh.lambda (← Fresh.operation .wrapped .expression [parameters]) selector
  Fresh.operation .canonicalFlatMap type [flatMap.source, outer, selectorLambda]

/-- Puts a flat map with normalized arguments into canonical form. -/
def canonicalize (node : Node) (type : ValueType) (args : List Node) : PassM Node := do
  let flatMap ← ofArgs node args
  let selector ←
    match flatMap.selector? with
    | some selector => pure selector
    | none => pairSelector flatMap.element flatMap.partner
  build (canonical type flatMap selector)

/-- The replacement registered for a path, which counts as a change. -/
def replace (path : Path) : PassM (Option Node) := do
  match (← get).replacement? path with
  | none => return none
  | some replacement =>
    mark
    return some replacement

/-- The replacement for a path, or for its parents with the rest of its segments added. -/
def rename : Path → PassM (Option Node)
  | .root segment => replace (.root segment)
  | .member parent segment => do
    match ← rename parent with
    -- The path itself is looked up only if none of its parents is registered.
    | none => replace (.member parent segment)
    | some (.path _ newParent) =>
      mark
      return some (← build (Fresh.path (newParent.member segment)))
    | some other =>
      throw (.nonPathParent (parent.member segment).dotted other.render)

/-- The node for an operation whose arguments are normalized, itself if nothing changed. -/
def rebuild (node : Node) (operator : Operator) (type : ValueType) (args : List Node)
    (dirty : Bool) : PassM Node :=
  match operator, args with
  | .lambda, .path _ (.member parent segment) :: bodies => do
    -- The parameter became a member, so the lambda binds the variable that has the member.
    mark
    build do
      let parameter ← Fresh.path (parent.member segment).rootPath
      Fresh.operation .lambda type (parameter :: bodies)
  | .flatMap, args => do
    let result ← canonicalize node type args
    -- The canonical form is another operator, so it counts as a change even with the same arguments.
    mark
    return result
  | _, _ => if dirty then build (Fresh.operation operator type args) else return node

mutual

/-- Puts every flat map of an expression into canonical form, innermost first. -/
def normalize : Node → PassM Node
  | .operation label operator type args => do
    let (normalized, dirty) ← isolated (normalizeAll args)
    rebuild (.operation label operator type args) operator type normalized dirty
  | .factory label type args => do
    let (normalized, dirty) ← isolated (normalizeAll args)
    if dirty then build (Fresh.factory type normalized) else return .factory label type args
  | .path label target => do return (← rename target).getD (.path label target)
  -- These are never looked into.
  | .constant label value type => return .constant label value type
  | .param label name type => return .param label name type
  | .subquery label query => return .subquery label query
  | .template label text type args => return .template label text type args

/-- Normalizes a list of expressions, left to right. -/
def normalizeAll : List Node → PassM (List Node)
  | [] => return []
  | first :: rest => do return (← normalize first) :: (← normalizeAll rest)

end

end FlatMap

end IndexQuery
