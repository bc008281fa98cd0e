/-! Why a structured value is no encoded expression, and the message that says so. -/

namespace IndexQuery

/-- A field of an encoded node whose value can be of the wrong kind. -/
inductive EncodedField where
  | type
  | path
  | parent
  | operator
  | args
  | object
  | factory
  | param
  | template
deriving DecidableEq

namespace EncodedField

/-- The key of a field. -/
def key : EncodedField → String
  | .type => "type"
  | .path => "path"
  | .parent => "parent"
  | .operator => "op"
  | .args => "args"
  | .object => "new"
  | .factory => "factory"
  | .param => "param"
  | .template => "template"

/-- What the value of a field has to be. -/
def requirement : EncodedField → String
  | .type => "a type name string"
  | .path => "a string"
  | .parent => "a path object"
  | .operator => "an operator id string"
  | .args => "an array of expressions"
  | .object => "an array of [name, expression] pairs"
  | .factory => "an array of expressions"
  | .param => "a string"
  | .template => "a string"

end EncodedField

/-- What is wrong with an encoded expression; texts are those of the offending value. -/
inductive DecodeError where
  | notAnObject (found : String)
  | unknownNode (found : String)
  | unknownOperator (id : String)
  | unknownPathKind (kind : String)
  | invalidField (field : EncodedField)
  | unsupportedConstant (text : String)
deriving DecidableEq

/-- The message for a fault of an encoded expression. -/
def DecodeError.message : DecodeError → String
  | .notAnObject found => "expected a JSON object for an expression node, found `" ++ found ++ "`"
  | .unknownNode found =>
    "unknown node `" ++ found ++ "`; expected one of constant, path, op, new, factory, param, " ++
      "subquery, template"
  | .unknownOperator id =>
    "unknown operator `" ++ id ++ "` (run 'linq-rewrite operators' to list them)"
  | .unknownPathKind kind =>
    "unknown path kind `" ++ kind ++ "`; expected variable, property or any"
  | .invalidField field => "field `" ++ field.key ++ "` must be " ++ field.requirement
  | .unsupportedConstant text => "unsupported constant `" ++ text ++ "`"

end IndexQuery
