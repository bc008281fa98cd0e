import IndexQuery.Literal
import IndexQuery.Operator
import IndexQuery.Path

/-! Query expressions with a label on every node, and when two of them are structurally equal. -/

namespace IndexQuery

/-- A query expression whose nodes carry labels. -/
inductive Expr (Label : Type) where
  /-- A literal with its static type. -/
  | constant (label : Label) (value : Literal) (type : ValueType)
  /-- A field reference. -/
  | path (label : Label) (target : Path)
  /-- An operator applied to arguments. -/
  | operation (label : Label) (operator : Operator) (type : ValueType) (args : List (Expr Label))
  /-- The construction of an object, as a rule from lists of a field name and a selector. -/
  | factory (label : Label) (type : ValueType) (args : List (Expr Label))
  /-- A parameter supplied when the query runs. -/
  | param (label : Label) (name : String) (type : ValueType)
  /-- A nested query, which no pass looks into. -/
  | subquery (label : Label) (query : Expr Label)
  /-- Source text with numbered holes, never parsed. -/
  | template (label : Label) (text : String) (type : ValueType) (args : List (Expr Label))

/-- A query expression without labels. -/
abbrev Tree := Expr Unit

/-- Tells nodes apart that are structurally equal. -/
abbrev NodeId := Nat

/-- A query expression whose nodes have identities. -/
abbrev Node := Expr NodeId

namespace Expr

variable {Label : Type}

/-- What holds of an expression whenever it holds of the arguments holds of every expression. -/
@[induction_eliminator]
theorem induct {motive : Expr Label → Prop}
    (constant : ∀ label value type, motive (.constant label value type))
    (path : ∀ label target, motive (.path label target))
    (operation : ∀ label operator type args, (∀ arg ∈ args, motive arg) →
      motive (.operation label operator type args))
    (factory : ∀ label type args, (∀ arg ∈ args, motive arg) → motive (.factory label type args))
    (param : ∀ label name type, motive (.param label name type))
    (subquery : ∀ label query, motive query → motive (.subquery label query))
    (template : ∀ label text type args, (∀ arg ∈ args, motive arg) →
      motive (.template label text type args))
    (expr : Expr Label) : motive expr := by
  -- The recursor carries a motive for argument lists, which is that every member has the property.
  refine Expr.rec (motive_1 := motive) (motive_2 := fun args => ∀ arg ∈ args, motive arg)
    constant path operation factory param subquery template ?_ ?_ expr
  · simp
  · intro first rest head tail
    simpa using ⟨head, tail⟩

/-- The label of the topmost node. -/
def label : Expr Label → Label
  | .constant label _ _ => label
  | .path label _ => label
  | .operation label _ _ _ => label
  | .factory label _ _ => label
  | .param label _ _ => label
  | .subquery label _ => label
  | .template label _ _ _ => label

/-- The static type; a nested query has the type of the query inside. -/
def type : Expr Label → ValueType
  | .constant _ _ type => type
  | .path _ target => target.type
  | .operation _ _ type _ => type
  | .factory _ type _ => type
  | .param _ _ type => type
  | .subquery _ query => query.type
  | .template _ _ type _ => type

/-- The arguments of an operation, a factory or a template. -/
def args : Expr Label → List (Expr Label)
  | .operation _ _ _ args => args
  | .factory _ _ args => args
  | .template _ _ _ args => args
  | .constant .. | .path .. | .param .. | .subquery .. => []

/-- The operator of an operation. -/
def operator? : Expr Label → Option Operator
  | .operation _ operator _ _ => some operator
  | _ => none

/-- The path of a field reference. -/
def path? : Expr Label → Option Path
  | .path _ target => some target
  | _ => none

/-- The parameter and the body of a lambda that binds a single path. -/
def pathLambda? : Expr Label → Option (Path × Expr Label)
  | .operation _ .lambda _ [.path _ parameter, body] => some (parameter, body)
  | _ => none

/-- The name and the selector of an object field. -/
def field? : Expr Label → Option (String × Expr Label)
  | .operation _ .list _ [.constant _ (.string name) _, selector] => some (name, selector)
  | _ => none

mutual

/-- The expression without labels, and with every decimal in its shortest form. -/
def shape : Expr Label → Tree
  -- Only literals can be spelled in more than one way.
  | .constant _ value type => .constant () value.normalize type
  | .path _ target => .path () target
  | .operation _ operator type args => .operation () operator type (shapes args)
  | .factory _ type args => .factory () type (shapes args)
  | .param _ name type => .param () name type
  | .subquery _ query => .subquery () query.shape
  | .template _ text type args => .template () text type (shapes args)

/-- The shapes of a list of expressions. -/
def shapes : List (Expr Label) → List Tree
  | [] => []
  | first :: rest => first.shape :: shapes rest

end

/-- The shapes of a list are taken one by one. -/
@[simp] theorem shapes_eq_map (exprs : List (Expr Label)) : shapes exprs = exprs.map shape := by
  induction exprs with
  | nil => rfl
  | cons first rest ih => simp [shapes, ih]

mutual

/-- Whether two expressions are equal, labels included. -/
def same [DecidableEq Label] : Expr Label → Expr Label → Bool
  | .constant label value type, .constant label' value' type' =>
    label = label' && value = value' && type = type'
  | .path label target, .path label' target' => label = label' && target = target'
  | .operation label operator type args, .operation label' operator' type' args' =>
    label = label' && operator = operator' && type = type' && sameAll args args'
  | .factory label type args, .factory label' type' args' =>
    label = label' && type = type' && sameAll args args'
  | .param label name type, .param label' name' type' =>
    label = label' && name = name' && type = type'
  | .subquery label query, .subquery label' query' => label = label' && same query query'
  | .template label text type args, .template label' text' type' args' =>
    label = label' && text = text' && type = type' && sameAll args args'
  | _, _ => false

/-- Whether two lists of expressions are equal, labels included. -/
def sameAll [DecidableEq Label] : List (Expr Label) → List (Expr Label) → Bool
  | [], [] => true
  | first :: rest, first' :: rest' => same first first' && sameAll rest rest'
  | _, _ => false

end

mutual

/-- The comparison decides equality. -/
theorem same_iff [DecidableEq Label] : ∀ left right : Expr Label, same left right ↔ left = right
  | .constant .., right => by cases right <;> simp [same, and_assoc]
  | .path .., right => by cases right <;> simp [same]
  | .operation _ _ _ args, right => by
    cases right <;> simp [same, and_assoc, sameAll_iff args]
  | .factory _ _ args, right => by cases right <;> simp [same, and_assoc, sameAll_iff args]
  | .param .., right => by cases right <;> simp [same, and_assoc]
  | .subquery _ query, right => by cases right <;> simp [same, same_iff query]
  | .template _ _ _ args, right => by
    cases right <;> simp [same, and_assoc, sameAll_iff args]

/-- The comparison of lists decides equality. -/
theorem sameAll_iff [DecidableEq Label] :
    ∀ left right : List (Expr Label), sameAll left right ↔ left = right
  | [], right => by cases right <;> simp [sameAll]
  | first :: rest, right => by
    cases right <;> simp [sameAll, same_iff first, sameAll_iff rest]

end

instance [DecidableEq Label] : DecidableEq (Expr Label) := fun left right =>
  decidable_of_iff (same left right) (same_iff left right)

/-- Structural equality: equal but for labels and the spelling of decimals. -/
def Alike {Other : Type} (left : Expr Label) (right : Expr Other) : Prop :=
  left.shape = right.shape

instance {Other : Type} (left : Expr Label) (right : Expr Other) : Decidable (Alike left right) :=
  inferInstanceAs (Decidable (left.shape = right.shape))

end Expr

end IndexQuery
