/-! Static result types of query expressions, and the names that spell them. -/

namespace IndexQuery

/-- What an expression evaluates to, as far as the query language distinguishes. -/
inductive ValueType where
  /-- Truth values. -/
  | boolean
  /-- Text. -/
  | string
  /-- Integers and decimals. -/
  | number
  /-- A collection of documents or values. -/
  | collection
  /-- An object made of named selectors, without a class. -/
  | anonymous
  /-- A fragment of the query itself, such as a lambda or an argument list. -/
  | expression
  /-- A class of the domain, by name. -/
  | object (className : String)
deriving DecidableEq

namespace ValueType

/-- The built-in type a name spells, if it spells one. -/
def builtin? : String → Option ValueType
  | "boolean" => some .boolean
  | "string" => some .string
  | "number" => some .number
  | "collection" => some .collection
  | "anonymous" => some .anonymous
  | "expression" => some .expression
  | _ => none

/-- Marks what follows as the name of a class. -/
def classMark : String := "class:"

/-- What follows the class mark, for a text that starts with it. -/
def unmarked? (text : String) : Option String :=
  (classMark.toList.isPrefixOf? text.toList).map String.ofList

/-- The name of a type; a class is marked when its bare name would read as something else. -/
def name : ValueType → String
  | .boolean => "boolean"
  | .string => "string"
  | .number => "number"
  | .collection => "collection"
  | .anonymous => "anonymous"
  | .expression => "expression"
  | .object className =>
    -- Without a mark, the name of a built-in type or a marked name would not read back as a class.
    if (builtin? className).isSome || (unmarked? className).isSome then classMark ++ className
    else className

/-- The type a name spells: a marked name is a class, and so is any unknown name. -/
def ofName (text : String) : ValueType :=
  match unmarked? text with
  | some className => .object className
  | none => (builtin? text).getD (.object text)

/-- The type of whatever declares none. -/
def unspecified : ValueType := .object "Object"

/-- Whether the type is that of a predicate. -/
def isBoolean (type : ValueType) : Bool := type = .boolean

end ValueType

end IndexQuery
