import IndexQuery.Proofs.Expr.Views

/-! Expressions without their labels, which have no part in texts, fields and lambdas. -/

namespace IndexQuery.Expr

variable {Label : Type}

mutual

/-- The expression without labels, every literal as it is spelled. -/
def unlabel : Expr Label → Tree
  | .constant _ value type => .constant () value type
  | .path _ target => .path () target
  | .operation _ operator type args => .operation () operator type (unlabelAll args)
  | .factory _ type args => .factory () type (unlabelAll args)
  | .param _ name type => .param () name type
  | .subquery _ query => .subquery () query.unlabel
  | .template _ text type args => .template () text type (unlabelAll args)

/-- A list of expressions without labels. -/
def unlabelAll : List (Expr Label) → List Tree
  | [] => []
  | first :: rest => first.unlabel :: unlabelAll rest

end

/-- A list loses its labels one by one. -/
@[simp] theorem unlabelAll_eq_map (exprs : List (Expr Label)) :
    unlabelAll exprs = exprs.map unlabel := by
  induction exprs with
  | nil => rfl
  | cons first rest ih => simp [unlabelAll, ih]

@[simp] theorem unlabel_constant (label : Label) (value : Literal) (type : ValueType) :
    (constant label value type).unlabel = .constant () value type := rfl

@[simp] theorem unlabel_path (label : Label) (target : Path) :
    (path label target).unlabel = .path () target := rfl

@[simp] theorem unlabel_operation (label : Label) (operator : Operator) (type : ValueType)
    (args : List (Expr Label)) :
    (operation label operator type args).unlabel =
      .operation () operator type (args.map unlabel) := by
  simp [unlabel]

@[simp] theorem unlabel_factory (label : Label) (type : ValueType) (args : List (Expr Label)) :
    (factory label type args).unlabel = .factory () type (args.map unlabel) := by
  simp [unlabel]

@[simp] theorem unlabel_param (label : Label) (name : String) (type : ValueType) :
    (param label name type).unlabel = .param () name type := rfl

@[simp] theorem unlabel_subquery (label : Label) (query : Expr Label) :
    (subquery label query).unlabel = .subquery () query.unlabel := rfl

@[simp] theorem unlabel_template (label : Label) (text : String) (type : ValueType)
    (args : List (Expr Label)) :
    (template label text type args).unlabel = .template () text type (args.map unlabel) := by
  simp [unlabel]

/-- An expression without labels has none to lose. -/
theorem unlabel_tree (tree : Tree) : tree.unlabel = tree := by
  -- A tree has no labels to lose, down to its leaves.
  induction tree using Expr.induct with
  | operation label head type args ih | template label head type args ih =>
    simp [List.map_congr_left ih]
  | factory label type args ih => simp [List.map_congr_left ih]
  | subquery label query ih => simp [ih]
  | _ => rfl

/-- Taking labels off keeps every node. -/
theorem mirrors_unlabel : Mirrors (unlabel : Expr Label → Tree) where
  constant _ _ _ := ⟨(), rfl⟩
  path _ _ := ⟨(), rfl⟩
  operation _ _ _ _ := ⟨(), unlabel_operation ..⟩
  factory _ _ _ := ⟨(), _, unlabel_factory .., rfl⟩
  param _ _ _ := ⟨(), rfl⟩
  subquery _ _ := ⟨(), rfl⟩
  template _ _ _ _ := ⟨(), unlabel_template ..⟩

/-- Labels have no part in the text. -/
@[simp] theorem render_unlabel (expr : Expr Label) : expr.unlabel.render = expr.render :=
  mirrors_unlabel.render expr

end IndexQuery.Expr
