import IndexQuery.Expr.Basic
import IndexQuery.Json.Value
import IndexQuery.Number.Exchange

/-! Writing expressions as structured values, which leave out what they imply. -/

namespace IndexQuery.Encoding

/-- The type field of a node, left out for the type that the node has without one. -/
def typeField (implied type : ValueType) : List (String × Json) :=
  if type = implied then [] else [("type", .string type.name)]

/-- The role field of a path segment, left out for the role that the segment has without one. -/
def kindField (implied kind : SegmentKind) : List (String × Json) :=
  if kind = implied then [] else [("kind", .string kind.name)]

/-- The value that encodes a path. -/
def encodePath : Path → Json
  -- Fields stand in ascending order of their keys, as in every object.
  | .root segment =>
    .object (kindField .variable segment.kind ++ ("path", .string segment.name) ::
      typeField .unspecified segment.type)
  | .member parent segment =>
    .object (kindField .property segment.kind ++ ("parent", encodePath parent) ::
      ("path", .string segment.name) :: typeField .unspecified segment.type)

/-- The value that encodes a literal; decimals become binary numbers. -/
def encodeLiteral : Literal → Json
  | .null => .null
  | .boolean value => .boolean value
  | .integer value => .number (.integer value.toInt)
  | .decimal value =>
    match value.toBinary64? with
    | some number => .number (.float number)
    -- Structured text has no number to write otherwise.
    | none => .null
  | .string text => .string text

variable {Label : Type}

mutual

/-- The value that encodes an expression; an object of named selectors has a short form. -/
def encode : Expr Label → Json
  | .constant _ value type =>
    .object (("constant", encodeLiteral value) :: typeField value.type type)
  | .path _ target => encodePath target
  | .operation _ operator type args =>
    .object (("args", .array (encodeAll args)) :: ("op", .string operator.id) ::
      typeField operator.resultType type)
  | .factory _ type args =>
    -- A single field without a name keeps the whole object from its short form.
    if args.all fun arg => arg.field?.isSome then
      .object (("new", .array (encodeFields args)) :: typeField .anonymous type)
    else .object (("factory", .array (encodeAll args)) :: typeField .anonymous type)
  | .param _ name type => .object (("param", .string name) :: typeField .unspecified type)
  | .subquery _ query => .object [("subquery", encode query)]
  | .template _ text type args =>
    .object (("args", .array (encodeAll args)) :: ("template", .string text) ::
      typeField .unspecified type)

/-- The values that encode a list of expressions. -/
def encodeAll : List (Expr Label) → List Json
  | [] => []
  | first :: rest => encode first :: encodeAll rest

/-- The values that encode named selectors: pairs of a name and an expression. -/
def encodeFields : List (Expr Label) → List Json
  | [] => []
  | field :: rest =>
    (match field with
      | .operation _ .list _ [.constant _ (.string name) _, selector] =>
        .array [.string name, encode selector]
      | other => encode other) :: encodeFields rest

end

/-- A list of expressions is encoded one by one. -/
@[simp] theorem encodeAll_eq_map (exprs : List (Expr Label)) :
    encodeAll exprs = exprs.map encode := by
  induction exprs with
  | nil => rfl
  | cons first rest ih => simp [encodeAll, ih]

end IndexQuery.Encoding
