import IndexQuery.Expr.Basic
import IndexQuery.Template

/-! The query text of an expression. -/

namespace IndexQuery.Expr

variable {Label : Type}

/-- The text of an object construction with the given fields. -/
def renderObject : List String → String
  | [] => "new \x7b \x7d"
  | fields => "new \x7b " ++ ", ".intercalate fields ++ " \x7d"

mutual

/-- The text of an expression, each operation through the template of its operator. -/
def render : Expr Label → String
  | .constant _ value _ => value.render
  | .path _ target => target.dotted
  -- A list can have any length, which no template can.
  | .operation _ .list _ args => ", ".intercalate (renderAll args)
  | .operation _ operator _ args => Template.fill operator.template (renderAll args)
  | .factory _ _ args => renderObject (renderFields args)
  | .param _ name _ => name
  | .subquery _ query => "(" ++ query.render ++ ")"
  | .template _ text _ args => Template.fill text (renderAll args)

/-- The texts of a list of expressions. -/
def renderAll : List (Expr Label) → List String
  | [] => []
  | first :: rest => first.render :: renderAll rest

/-- The texts of object fields: a name and a selector where there are, an expression elsewhere. -/
def renderFields : List (Expr Label) → List String
  | [] => []
  | field :: rest =>
    (match field with
      | .operation _ .list _ [.constant _ (.string name) _, selector] =>
        name ++ " = " ++ selector.render
      | other => other.render) :: renderFields rest

end

/-- A list of expressions is written one by one. -/
@[simp] theorem renderAll_eq_map (exprs : List (Expr Label)) :
    renderAll exprs = exprs.map render := by
  induction exprs with
  | nil => rfl
  | cons first rest ih => simp [renderAll, ih]

end IndexQuery.Expr
