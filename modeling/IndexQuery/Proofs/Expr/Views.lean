import IndexQuery.Expr.Render
import Mathlib.Data.List.Basic

/-! What object fields and lambdas look like, and what a view that keeps every node leaves of them. -/

namespace IndexQuery.Expr

variable {Label : Type}

/-- A lambda with a single body binds a path if its first argument is one. -/
theorem pathLambda?_pair (label : Label) (type : ValueType) (first body : Expr Label) :
    (operation label .lambda type [first, body]).pathLambda? =
      first.path?.map fun parameter => (parameter, body) := by
  cases first <;> rfl

/-- Only a lambda with a single body binds a path. -/
theorem pathLambda?_of_not_pair {label : Label} {operator : Operator} {type : ValueType}
    {args : List (Expr Label)} (other : ¬ (operator = .lambda ∧ args.length = 2)) :
    (operation label operator type args).pathLambda? = none := by
  -- The view matches a lambda with two arguments only.
  unfold pathLambda?
  split
  · simp_all
  · rfl

/-- What is no operation is no lambda. -/
theorem pathLambda?_of_operator? {expr : Expr Label} (other : expr.operator? = none) :
    expr.pathLambda? = none := by
  -- Without an operator it is no lambda.
  cases expr with
  | operation => simp [operator?] at other
  | _ => rfl

/-- A lambda that binds a path is an operation on the path and the body. -/
theorem pathLambda?_eq_some {expr body : Expr Label} {parameter : Path}
    (found : expr.pathLambda? = some (parameter, body)) :
    ∃ label type inner, expr = .operation label .lambda type [.path inner parameter, body] := by
  -- The one match that succeeds says what the expression is.
  unfold pathLambda? at found
  split at found
  · cases found
    exact ⟨_, _, _, rfl⟩
  · simp at found

/-- The text of a literal that is one. -/
def text? : Expr Label → Option String
  | .constant _ (.string text) _ => some text
  | _ => none

/-- A list of two is an object field if its first argument is a text. -/
theorem field?_pair (label : Label) (type : ValueType) (first selector : Expr Label) :
    (operation label .list type [first, selector]).field? =
      first.text?.map fun name => (name, selector) := by
  -- The first member of the pair has to be a constant text.
  cases first with
  | constant _ value _ => cases value <;> rfl
  | _ => rfl

/-- Only a list of two is an object field. -/
theorem field?_of_not_pair {label : Label} {operator : Operator} {type : ValueType}
    {args : List (Expr Label)} (other : ¬ (operator = .list ∧ args.length = 2)) :
    (operation label operator type args).field? = none := by
  -- The view matches a list of two only.
  unfold field?
  split
  · simp_all
  · rfl

/-- What is no operation is no object field. -/
theorem field?_of_operator? {expr : Expr Label} (other : expr.operator? = none) :
    expr.field? = none := by
  -- Without an operator it is no list.
  cases expr with
  | operation => simp [operator?] at other
  | _ => rfl

/-- An object field is a list of a text and the selector. -/
theorem field?_eq_some {expr selector : Expr Label} {name : String}
    (found : expr.field? = some (name, selector)) :
    ∃ label type inner nameType,
      expr = .operation label .list type [.constant inner (.string name) nameType, selector] := by
  -- The one match that succeeds says what the expression is.
  unfold field? at found
  split at found
  · cases found
    exact ⟨_, _, _, _, rfl⟩
  · simp at found

/-- The selector of an object field is one of its arguments. -/
theorem selector_mem_args {expr : Expr Label} {name : String} {selector : Expr Label}
    (found : expr.field? = some (name, selector)) : selector ∈ expr.args := by
  obtain ⟨label, type, inner, nameType, rfl⟩ := field?_eq_some found
  simp [args]

/-- Object fields are written one by one, with a name and a selector where there are. -/
theorem renderFields_cons (field : Expr Label) (rest : List (Expr Label)) :
    renderFields (field :: rest) =
      (match field.field? with
        | some (name, selector) => name ++ " = " ++ selector.render
        | none => field.render) :: renderFields rest := by
  cases found : field.field? with
  | some pair =>
    obtain ⟨label, type, inner, nameType, rfl⟩ := field?_eq_some found
    rfl
  | none =>
    -- What is no field falls through to the general equation, for which it must not look like one.
    unfold field? at found
    split at found
    · simp at found
    · rename_i other
      rw [renderFields]
      exact other

/-- A view of expressions that leaves names, and the texts of fields and of their arguments, leaves the
texts of object fields. -/
theorem renderFields_map {Other : Type} {view : Expr Label → Expr Other}
    (named : ∀ field, (view field).field? =
      field.field?.map fun (name, selector) => (name, view selector))
    {fields : List (Expr Label)} (same : ∀ field ∈ fields, (view field).render = field.render)
    (inner : ∀ field ∈ fields, ∀ arg ∈ field.args, (view arg).render = arg.render) :
    renderFields (fields.map view) = renderFields fields := by
  -- Each field is written by itself, so the induction is on the list.
  induction fields with
  | nil => rfl
  | cons field rest ih =>
    have others : renderFields (rest.map view) = renderFields rest :=
      ih (fun other member => same other (by simp [member]))
        (fun other member => inner other (by simp [member]))
    rw [List.map_cons, renderFields_cons, renderFields_cons, named, others]
    cases found : field.field? with
    | none => simp [same field (by simp)]
    | some pair =>
      -- Of a field only the selector is written, which is one of its arguments.
      have written := inner field (by simp) pair.2 (selector_mem_args found)
      simp [written]

/-- A view of expressions that keeps every node, and of the fields of an object their texts. -/
structure Mirrors {Other : Type} (view : Expr Label → Expr Other) : Prop where
  constant : ∀ label value type, ∃ label',
    view (.constant label value type) = .constant label' value type
  path : ∀ label target, ∃ label', view (.path label target) = .path label' target
  operation : ∀ label operator type args, ∃ label',
    view (.operation label operator type args) = .operation label' operator type (args.map view)
  factory : ∀ label type args, ∃ label' args',
    view (.factory label type args) = .factory label' type args' ∧
      renderFields args' = renderFields (args.map view)
  param : ∀ label name type, ∃ label', view (.param label name type) = .param label' name type
  subquery : ∀ label query, ∃ label', view (.subquery label query) = .subquery label' (view query)
  template : ∀ label text type args, ∃ label',
    view (.template label text type args) = .template label' text type (args.map view)

namespace Mirrors

variable {Other : Type} {view : Expr Label → Expr Other}

/-- The operator, the path and the text of a node stay what they are. -/
theorem head (mirrors : Mirrors view) (expr : Expr Label) :
    (view expr).operator? = expr.operator? ∧ (view expr).path? = expr.path? ∧
      (view expr).text? = expr.text? := by
  -- No constructor becomes another one, and what these three read is kept.
  cases expr with
  | constant label value type =>
    obtain ⟨label', same⟩ := mirrors.constant label value type
    rw [same]
    cases value <;> exact ⟨rfl, rfl, rfl⟩
  | path label target =>
    obtain ⟨label', same⟩ := mirrors.path label target
    rw [same]
    exact ⟨rfl, rfl, rfl⟩
  | operation label operator type args =>
    obtain ⟨label', same⟩ := mirrors.operation label operator type args
    rw [same]
    exact ⟨rfl, rfl, rfl⟩
  | factory label type args =>
    obtain ⟨label', args', same, -⟩ := mirrors.factory label type args
    rw [same]
    exact ⟨rfl, rfl, rfl⟩
  | param label name type =>
    obtain ⟨label', same⟩ := mirrors.param label name type
    rw [same]
    exact ⟨rfl, rfl, rfl⟩
  | subquery label query =>
    obtain ⟨label', same⟩ := mirrors.subquery label query
    rw [same]
    exact ⟨rfl, rfl, rfl⟩
  | template label text type args =>
    obtain ⟨label', same⟩ := mirrors.template label text type args
    rw [same]
    exact ⟨rfl, rfl, rfl⟩

/-- An object field stays one of the same name, and its selector is viewed. -/
theorem field? (mirrors : Mirrors view) (expr : Expr Label) :
    (view expr).field? = expr.field?.map fun (name, selector) => (name, view selector) := by
  -- Only an operation can be a field, on either side.
  cases found : expr.operator? with
  | none =>
    have viewed := (mirrors.head expr).1.trans found
    rw [field?_of_operator? found, field?_of_operator? viewed]
    rfl
  | some operator =>
    cases expr with
    | operation label operator type args =>
      obtain ⟨label', viewed⟩ := mirrors.operation label operator type args
      rw [viewed]
      by_cases list : operator = .list ∧ args.length = 2
      -- Of the two arguments the first has to be a text, which stays what it is.
      · obtain ⟨rfl, two⟩ := list
        obtain ⟨first, selector, rfl⟩ := List.length_eq_two.mp two
        rw [List.map_cons, List.map_cons, List.map_nil, field?_pair, field?_pair,
          (mirrors.head first).2.2, Option.map_map]
        rfl
      · rw [field?_of_not_pair list, field?_of_not_pair (by simpa using list)]
        rfl
    | _ => simp [Expr.operator?] at found

/-- A lambda stays one of the same parameter, and its body is viewed. -/
theorem pathLambda? (mirrors : Mirrors view) (expr : Expr Label) :
    (view expr).pathLambda? = expr.pathLambda?.map fun (target, body) => (target, view body) := by
  -- Only an operation can be a lambda, on either side.
  cases found : expr.operator? with
  | none =>
    have viewed := (mirrors.head expr).1.trans found
    rw [pathLambda?_of_operator? found, pathLambda?_of_operator? viewed]
    rfl
  | some operator =>
    cases expr with
    | operation label operator type args =>
      obtain ⟨label', viewed⟩ := mirrors.operation label operator type args
      rw [viewed]
      by_cases lambda : operator = .lambda ∧ args.length = 2
      -- Of the two arguments the first has to be a path, which stays what it is.
      · obtain ⟨rfl, two⟩ := lambda
        obtain ⟨first, body, rfl⟩ := List.length_eq_two.mp two
        rw [List.map_cons, List.map_cons, List.map_nil, pathLambda?_pair, pathLambda?_pair,
          (mirrors.head first).2.1, Option.map_map]
        rfl
      · rw [pathLambda?_of_not_pair lambda, pathLambda?_of_not_pair (by simpa using lambda)]
        rfl
    | _ => simp [Expr.operator?] at found

/-- The text of an expression, and the texts of its arguments, stay what they are. -/
theorem render_args (mirrors : Mirrors view) (expr : Expr Label) :
    (view expr).render = expr.render ∧ ∀ arg ∈ expr.args, (view arg).render = arg.render := by
  -- The fields of an object reach two levels down, so the arguments are part of the induction.
  induction expr with
  | constant label value type =>
    obtain ⟨label', viewed⟩ := mirrors.constant label value type
    simp [viewed, args, render]
  | path label target =>
    obtain ⟨label', viewed⟩ := mirrors.path label target
    simp [viewed, args, render]
  | param label name type =>
    obtain ⟨label', viewed⟩ := mirrors.param label name type
    simp [viewed, args, render]
  | operation label operator type args ih =>
    obtain ⟨label', viewed⟩ := mirrors.operation label operator type args
    have same : args.map (Expr.render ∘ view) = args.map Expr.render :=
      List.map_congr_left fun arg member => (ih arg member).1
    refine ⟨?_, fun arg member => (ih arg member).1⟩
    rw [viewed]
    -- A list has no template of its own, so the operators are taken one by one.
    cases operator <;> simp [render, same]
  | factory label type args ih =>
    obtain ⟨label', args', viewed, written⟩ := mirrors.factory label type args
    refine ⟨?_, fun arg member => (ih arg member).1⟩
    have same := renderFields_map mirrors.field? (fun arg member => (ih arg member).1)
      (fun arg member => (ih arg member).2)
    rw [viewed, render, render, written, same]
  | subquery label query ih =>
    obtain ⟨label', viewed⟩ := mirrors.subquery label query
    simp [viewed, args, render, ih.1]
  | template label text type args ih =>
    obtain ⟨label', viewed⟩ := mirrors.template label text type args
    have same : args.map (Expr.render ∘ view) = args.map Expr.render :=
      List.map_congr_left fun arg member => (ih arg member).1
    exact ⟨by simp [viewed, render, same], fun arg member => (ih arg member).1⟩

/-- The text of an expression stays what it is. -/
theorem render (mirrors : Mirrors view) (expr : Expr Label) :
    (view expr).render = expr.render :=
  (mirrors.render_args expr).1

end Mirrors

end IndexQuery.Expr
