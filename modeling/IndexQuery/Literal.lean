import IndexQuery.Number.Decimal
import IndexQuery.ValueType

/-! Literal values of the query language and their source text. -/

namespace IndexQuery

/-- A literal value; integers and decimals stay apart. -/
inductive Literal where
  | null
  | boolean (value : Bool)
  | integer (value : Int64)
  | decimal (value : Decimal)
  | string (value : String)
deriving DecidableEq

namespace Literal

/-- The type of a literal that declares none. -/
def type : Literal → ValueType
  | .null => .unspecified
  | .boolean _ => .boolean
  | .integer _ => .number
  | .decimal _ => .number
  | .string _ => .string

/-- A character as it stands inside quotation marks. -/
def escape : Char → List Char
  | '"' => ['\\', '"']
  | '\\' => ['\\', '\\']
  | '\n' => ['\\', 'n']
  | '\r' => ['\\', 'r']
  | '\t' => ['\\', 't']
  | plain => [plain]

/-- The source text of a string literal. -/
def quote (text : String) : String :=
  String.ofList ('"' :: text.toList.flatMap escape ++ ['"'])

/-- The source text of a literal. -/
def render : Literal → String
  | .null => "null"
  | .boolean true => "true"
  | .boolean false => "false"
  | .integer value => value.toInt.repr
  | .decimal value => value.render
  | .string value => quote value

/-- The literal with decimals in their shortest form, equal for literals of equal value. -/
def normalize : Literal → Literal
  | .decimal value => .decimal value.normalize
  | other => other

end Literal

end IndexQuery
