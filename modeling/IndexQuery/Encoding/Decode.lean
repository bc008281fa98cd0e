import IndexQuery.Encoding.DecodeError
import IndexQuery.Expr.Basic
import IndexQuery.Json.Printer
import IndexQuery.Number.Exchange

/-! Reading expressions from structured values. -/

namespace IndexQuery.Encoding

/-- What kind of node an object encodes; its key is among the fields. -/
inductive NodeKey where
  | constant
  | path
  | operation
  | object
  | factory
  | param
  | subquery
  | template
deriving DecidableEq

namespace NodeKey

/-- The kinds of node, those that count first in front. -/
def all : List NodeKey :=
  [.constant, .path, .operation, .object, .factory, .param, .subquery, .template]

/-- The key that tells the kind of a node. -/
def key : NodeKey → String
  | .constant => "constant"
  | .path => "path"
  | .operation => "op"
  | .object => "new"
  | .factory => "factory"
  | .param => "param"
  | .subquery => "subquery"
  | .template => "template"

/-- The kind of node that some fields encode. -/
def ofFields? (fields : List (String × Json)) : Option NodeKey :=
  all.find? fun kind => (fields.lookup kind.key).isSome

end NodeKey

/-- The type that some fields declare. -/
def declaredType? (fields : List (String × Json)) : Except DecodeError (Option ValueType) :=
  match fields.lookup "type" with
  | none => .ok none
  | some (.string name) => .ok (some (ValueType.ofName name))
  | some _ => .error (.invalidField .type)

/-- The text in a field that has to hold one. -/
def textIn (field : EncodedField) (fields : List (String × Json)) : Except DecodeError String :=
  match fields.lookup field.key with
  | some (.string text) => .ok text
  | _ => .error (.invalidField field)

/-- The role of a path segment, which by default depends on whether anything is above it. -/
def kindIn (implied : SegmentKind) (fields : List (String × Json)) :
    Except DecodeError SegmentKind :=
  match fields.lookup "kind" with
  | none => .ok implied
  | some (.string name) =>
    match SegmentKind.ofName? name with
    | some kind => .ok kind
    | none => .error (.unknownPathKind name)
  -- A role that is no text is quoted in the message as it would be written.
  | some other => .error (.unknownPathKind other.compact)

/-- The role of a segment that declares none. -/
def impliedKind : (parent? : Option Path) → SegmentKind
  | none => .variable
  | some _ => .property

/-- Puts a segment below its parent, if it has one. -/
def attach : (parent? : Option Path) → Segment → Path
  | none, segment => .root segment
  | some parent, segment => .member parent segment

mutual

/-- The path that an object encodes. -/
def decodePath : Json → Except DecodeError Path
  | .object fields => do
    let name ← textIn .path fields
    let parent? ← parentIn fields
    let kind ← kindIn (impliedKind parent?) fields
    let type ← declaredType? fields
    return attach parent? ⟨name, kind, type.getD .unspecified⟩
  -- The node itself is known to be an object, so what is none is a parent.
  | _ => .error (.invalidField .parent)

/-- The parent that the fields of a path encode, if any. -/
def parentIn : List (String × Json) → Except DecodeError (Option Path)
  | [] => .ok none
  | (key, value) :: rest =>
    if key = EncodedField.parent.key then do return some (← decodePath value) else parentIn rest

end

/-- The literal that a number denotes: a whole number of 64 bits, or an exact decimal. -/
def literalOfNumber (number : JsonNumber) : Except DecodeError Literal :=
  let decimal? : Option Decimal :=
    match number with
    | .integer value => Decimal.ofParts? value 0
    | .float value => Decimal.ofBinary64? value
  match number, decimal? with
  | .integer value, some decimal =>
    -- Beyond 64 bits with a sign a whole number is kept as a decimal without places.
    if Int64.minValue.toInt ≤ value ∧ value ≤ Int64.maxValue.toInt then
      .ok (.integer (Int64.ofInt value))
    else .ok (.decimal decimal)
  | .float _, some decimal => .ok (.decimal decimal)
  | _, none => .error (.unsupportedConstant number.text)

/-- The literal that a value denotes. -/
def decodeLiteral : Json → Except DecodeError Literal
  | .null => .ok .null
  | .boolean value => .ok (.boolean value)
  | .number number => literalOfNumber number
  | .string text => .ok (.string text)
  | .array items => .error (.unsupportedConstant (Json.array items).compact)
  | .object fields => .error (.unsupportedConstant (Json.object fields).compact)

/-- The operator that an identifier in the fields names. -/
def operatorIn (fields : List (String × Json)) : Except DecodeError Operator := do
  let id ← textIn .operator fields
  match Operator.ofId? id with
  | some operator => .ok operator
  | none => .error (.unknownOperator id)

mutual

/-- The expression that a value encodes. -/
def decode : Json → Except DecodeError Tree
  | .object fields => do
    -- A declared type is read first, also where the node has no use for it.
    let declared ← declaredType? fields
    match NodeKey.ofFields? fields with
    | some .constant =>
      let value ← decodeLiteral ((fields.lookup NodeKey.constant.key).getD .null)
      return .constant () value (declared.getD value.type)
    -- A path has the type of its last segment, which is declared in the same place.
    | some .path => return .path () (← decodePath (.object fields))
    | some .operation =>
      let operator ← operatorIn fields
      return .operation () operator (declared.getD operator.resultType) (← nodesIn .args fields)
    | some .object =>
      return .factory () (declared.getD .anonymous) (← fieldsIn fields)
    | some .factory =>
      return .factory () (declared.getD .anonymous) (← nodesIn .factory fields)
    | some .param =>
      return .param () (← textIn .param fields) (declared.getD .unspecified)
    | some .subquery => return .subquery () (← subqueryIn fields)
    | some .template =>
      let text ← textIn .template fields
      return .template () text (declared.getD .unspecified) (← nodesIn .args fields)
    | none => .error (.unknownNode (Json.object fields).compact)
  | other => .error (.notAnObject other.compact)

/-- The expressions that a list of values encodes. -/
def decodeAll : List Json → Except DecodeError (List Tree)
  | [] => .ok []
  | first :: rest => do return (← decode first) :: (← decodeAll rest)

/-- The expressions in a field that holds an array of them; none without the field. -/
def nodesIn (field : EncodedField) : List (String × Json) → Except DecodeError (List Tree)
  | [] => .ok []
  | (key, value) :: rest =>
    -- Keys are unique, so the first field with the key is the only one.
    if key = field.key then
      match value with
      | .array items => decodeAll items
      | _ => .error (.invalidField field)
    else nodesIn field rest

/-- The named selectors that a list of pairs encodes. -/
def decodeFields : List Json → Except DecodeError (List Tree)
  | [] => .ok []
  | .array [.string name, selector] :: rest => do
    -- A pair becomes a list, which is how an object holds its fields.
    let field : Tree :=
      .operation () .list .expression
        [.constant () (.string name) .string, ← decode selector]
    return field :: (← decodeFields rest)
  | _ :: _ => .error (.invalidField .object)

/-- The named selectors of an object with the given fields. -/
def fieldsIn : List (String × Json) → Except DecodeError (List Tree)
  | [] => .ok []
  | (key, value) :: rest =>
    if key = EncodedField.object.key then
      match value with
      | .array items => decodeFields items
      | _ => .error (.invalidField .object)
    else fieldsIn rest

/-- The query inside a nested query with the given fields. -/
def subqueryIn : List (String × Json) → Except DecodeError Tree
  -- The kind of node says that there is a query, so the fields do not run out.
  | [] => .error (.notAnObject Json.null.compact)
  | (key, value) :: rest =>
    if key = NodeKey.subquery.key then decode value else subqueryIn rest

end

end IndexQuery.Encoding
