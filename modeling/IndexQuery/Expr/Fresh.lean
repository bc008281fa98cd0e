import IndexQuery.Expr.Basic

/-! Building nodes, each with an identity of its own. -/

namespace IndexQuery

/-- Computations that draw identities, counting upwards from the next one free. -/
abbrev Fresh := StateM NodeId

namespace Fresh

/-- The next identity. -/
def draw : Fresh NodeId := fun next => (next, next + 1)

/-- A literal of the given type. -/
def typedConstant (value : Literal) (type : ValueType) : Fresh Node := do
  return .constant (← draw) value type

/-- A literal typed after its value. -/
def constant (value : Literal) : Fresh Node := typedConstant value value.type

/-- A field reference. -/
def path (target : Path) : Fresh Node := do
  return .path (← draw) target

/-- An operator applied to arguments. -/
def operation (operator : Operator) (type : ValueType) (args : List Node) : Fresh Node := do
  return .operation (← draw) operator type args

/-- An operation that is a predicate. -/
def predicate (operator : Operator) (args : List Node) : Fresh Node :=
  operation operator .boolean args

/-- A lambda from a parameter to a body. -/
def lambda (parameter body : Node) : Fresh Node :=
  operation .lambda .expression [parameter, body]

/-- An argument list. -/
def list (args : List Node) : Fresh Node := operation .list .expression args

/-- The construction of an object. -/
def factory (type : ValueType) (args : List Node) : Fresh Node := do
  return .factory (← draw) type args

/-- A named selector of an object. -/
def field (name : String) (selector : Node) : Fresh Node := do
  list [← constant (.string name), selector]

/-- An object without a class, made of named selectors. -/
def anonymous (fields : List (String × Node)) : Fresh Node := do
  factory .anonymous (← fields.mapM fun (name, selector) => field name selector)

/-- A parameter supplied when the query runs. -/
def param (name : String) (type : ValueType) : Fresh Node := do
  return .param (← draw) name type

/-- A nested query. -/
def subquery (query : Node) : Fresh Node := do
  return .subquery (← draw) query

/-- Source text with holes. -/
def template (text : String) (type : ValueType) (args : List Node) : Fresh Node := do
  return .template (← draw) text type args

end Fresh

namespace Expr

variable {Label : Type}

mutual

/-- The same expression with a new identity on every node. -/
def fresh : Expr Label → Fresh Node
  | .constant _ value type => Fresh.typedConstant value type
  | .path _ target => Fresh.path target
  | .operation _ operator type args => do Fresh.operation operator type (← freshAll args)
  | .factory _ type args => do Fresh.factory type (← freshAll args)
  | .param _ name type => Fresh.param name type
  | .subquery _ query => do Fresh.subquery (← query.fresh)
  | .template _ text type args => do Fresh.template text type (← freshAll args)

/-- The same expressions with new identities. -/
def freshAll : List (Expr Label) → Fresh (List Node)
  | [] => pure []
  | first :: rest => do return (← first.fresh) :: (← freshAll rest)

end

end Expr

end IndexQuery
