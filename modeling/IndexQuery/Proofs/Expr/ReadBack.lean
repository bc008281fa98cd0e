import IndexQuery.Proofs.Expr.Unlabel

/-! What the encoding of an expression keeps: all but labels and the types of named selectors. -/

namespace IndexQuery.Expr

variable {Label : Type}

/-- A name and a selector as the short form of an object spells them. -/
def namedSelector (name : String) (selector : Tree) : Tree :=
  .operation () .list .expression [.constant () (.string name) .string, selector]

/-- A named selector whose list and name have the types that they have by themselves. -/
def plainField (field : Tree) : Tree :=
  match field.field? with
  | some (name, selector) => namedSelector name selector
  | none => field

/-- The arguments of an object: if all are named selectors, their short form declares no types. -/
def plainFields (fields : List Tree) : List Tree :=
  if fields.all fun field => field.field?.isSome then fields.map plainField else fields

mutual

/-- The expression as its encoding is read back. -/
def readBack : Expr Label → Tree
  | .constant _ value type => .constant () value type
  | .path _ target => .path () target
  | .operation _ operator type args => .operation () operator type (readBackAll args)
  -- Types are lost in objects only, and only one level below them.
  | .factory _ type args => .factory () type (plainFields (readBackAll args))
  | .param _ name type => .param () name type
  | .subquery _ query => .subquery () query.readBack
  | .template _ text type args => .template () text type (readBackAll args)

/-- A list of expressions as their encodings are read back. -/
def readBackAll : List (Expr Label) → List Tree
  | [] => []
  | first :: rest => first.readBack :: readBackAll rest

end

/-- A list is read back one by one. -/
@[simp] theorem readBackAll_eq_map (exprs : List (Expr Label)) :
    readBackAll exprs = exprs.map readBack := by
  induction exprs with
  | nil => rfl
  | cons first rest ih => simp [readBackAll, ih]

@[simp] theorem readBack_operation (label : Label) (operator : Operator) (type : ValueType)
    (args : List (Expr Label)) :
    (operation label operator type args).readBack =
      .operation () operator type (args.map readBack) := by
  simp [readBack]

@[simp] theorem readBack_factory (label : Label) (type : ValueType) (args : List (Expr Label)) :
    (factory label type args).readBack = .factory () type (plainFields (args.map readBack)) := by
  simp [readBack]

@[simp] theorem readBack_template (label : Label) (text : String) (type : ValueType)
    (args : List (Expr Label)) :
    (template label text type args).readBack = .template () text type (args.map readBack) := by
  simp [readBack]

/-- Without its types a named selector has the name and the selector that it had. -/
@[simp] theorem field?_plainField (field : Tree) : (plainField field).field? = field.field? := by
  -- A field that is recognized is written in its plain form, which is recognized as the same field.
  unfold plainField
  split
  · rename_i name selector found
    rw [found, namedSelector, field?]
  · rfl

/-- What is written of an object does not depend on the types of its fields. -/
theorem renderFields_plainFields (fields : List Tree) :
    renderFields (plainFields fields) = renderFields fields := by
  -- Where types are lost every field is a named selector, of which only the two parts are written.
  unfold plainFields
  split
  · rename_i named
    induction fields with
    | nil => rfl
    | cons field rest ih =>
      rw [List.all_cons, Bool.and_eq_true, Option.isSome_iff_exists] at named
      obtain ⟨⟨selected, found⟩, others⟩ := named
      rw [List.map_cons, renderFields_cons, renderFields_cons, field?_plainField, found, ih others]
  · rfl

/-- Reading back keeps every node. -/
theorem mirrors_readBack : Mirrors (readBack : Expr Label → Tree) where
  constant _ _ _ := ⟨(), by simp [readBack]⟩
  path _ _ := ⟨(), by simp [readBack]⟩
  operation _ _ _ _ := ⟨(), readBack_operation ..⟩
  factory _ _ _ := ⟨(), _, readBack_factory .., renderFields_plainFields _⟩
  param _ _ _ := ⟨(), by simp [readBack]⟩
  subquery _ _ := ⟨(), by simp [readBack]⟩
  template _ _ _ _ := ⟨(), readBack_template ..⟩

/-- A named selector stays one, of the same name. -/
theorem field?_readBack (expr : Expr Label) :
    expr.readBack.field? = expr.field?.map fun (name, selector) => (name, selector.readBack) :=
  mirrors_readBack.field? expr

/-- Whether all arguments are named selectors does not depend on their types. -/
theorem all_field?_plainFields (fields : List Tree) :
    ((plainFields fields).all fun field => field.field?.isSome) =
      fields.all fun field => field.field?.isSome := by
  -- Either all fields are put into their plain form or none of them is.
  unfold plainFields
  split
  · simp [List.all_map, Function.comp_def]
  · rfl

/-- Whether all arguments are named selectors can be told after they are read back. -/
theorem all_field?_readBack (args : List (Expr Label)) :
    ((args.map readBack).all fun field => field.field?.isSome) =
      args.all fun field => field.field?.isSome := by
  -- Whether an argument names a field does not show in its types.
  simp [List.all_map, Function.comp_def, field?_readBack]

/-- Arguments that are all named selectors lose their types. -/
theorem plainFields_readBack {args : List (Expr Label)}
    (named : (args.all fun field => field.field?.isSome) = true) :
    plainFields (args.map readBack) = args.map fun field => plainField field.readBack := by
  rw [plainFields, all_field?_readBack, if_pos named, List.map_map]
  rfl

/-- Arguments that are not all named selectors keep their types. -/
theorem plainFields_readBack_of_not {args : List (Expr Label)}
    (unnamed : ¬ (args.all fun field => field.field?.isSome) = true) :
    plainFields (args.map readBack) = args.map readBack := by
  rw [plainFields, all_field?_readBack, if_neg unnamed]

/-- Whether an expression is a named selector with the types that the short form implies. -/
def isPlainField : Expr Label → Bool
  | .operation _ .list .expression [.constant _ (.string _) .string, _] => true
  | _ => false

mutual

/-- Whether every object of named selectors only, at any depth, has them with implied types. -/
def keepsTypes : Expr Label → Bool
  | .constant .. | .path .. | .param .. => true
  | .operation _ _ _ args => keepsTypesAll args
  | .factory _ _ args =>
    keepsTypesAll args &&
      ((!args.all fun field => field.field?.isSome) || args.all isPlainField)
  | .subquery _ query => query.keepsTypes
  | .template _ _ _ args => keepsTypesAll args

/-- Whether this holds of every expression of a list. -/
def keepsTypesAll : List (Expr Label) → Bool
  | [] => true
  | first :: rest => first.keepsTypes && keepsTypesAll rest

end

/-- A list is checked one by one. -/
@[simp] theorem keepsTypesAll_eq_all (exprs : List (Expr Label)) :
    keepsTypesAll exprs = exprs.all keepsTypes := by
  induction exprs with
  | nil => rfl
  | cons first rest ih => simp [keepsTypesAll, ih]

/-- A named selector is read back as it was if its selector is and its types are implied. -/
theorem plainField_readBack {field : Expr Label} (named : field.field?.isSome = true) :
    plainField field.readBack = field.unlabel ↔
      field.readBack = field.unlabel ∧ field.isPlainField = true := by
  -- A named selector is a list of a text and a selector, so it can be written out.
  obtain ⟨⟨name, selector⟩, found⟩ := Option.isSome_iff_exists.mp named
  have plain : plainField field.readBack = namedSelector name selector.readBack := by
    rw [plainField, field?_readBack, found]
    rfl
  obtain ⟨label, type, inner, nameType, rfl⟩ := field?_eq_some found
  rw [plain, readBack_operation, unlabel_operation]
  -- Both lists hold the same name, so the types decide, and then the selector.
  by_cases implied : type = .expression ∧ nameType = .string
  · obtain ⟨rfl, rfl⟩ := implied
    simp [namedSelector, readBack, isPlainField]
  · have typed : (operation label .list type [constant inner (.string name) nameType,
        selector]).isPlainField = false := by
      unfold isPlainField
      split
      · rename_i same
        cases same
        exact absurd ⟨rfl, rfl⟩ implied
      · rfl
    rw [typed]
    simp only [namedSelector, List.map_cons, unlabel_constant, operation.injEq,
      List.cons.injEq, constant.injEq, Bool.false_eq_true, and_false, iff_false]
    rintro ⟨-, -, sameType, ⟨-, -, sameNameType⟩, -⟩
    exact implied ⟨sameType.symm, sameNameType.symm⟩

/-- A list is read back as it was if each of its members is. -/
theorem map_readBack_eq {exprs : List (Expr Label)}
    (each : ∀ expr ∈ exprs, expr.readBack = expr.unlabel ↔ expr.keepsTypes = true) :
    exprs.map readBack = exprs.map unlabel ↔ exprs.all keepsTypes = true := by
  rw [List.map_inj_left, List.all_eq_true]
  exact forall₂_congr each

/-- An expression is read back as it was exactly if no short form hides a type. -/
theorem readBack_eq_unlabel_iff (expr : Expr Label) :
    expr.readBack = expr.unlabel ↔ expr.keepsTypes = true := by
  -- Only an object can lose anything, so all other nodes pass on what holds of their arguments.
  induction expr with
  | operation label head type args ih | template label head type args ih =>
    simp [keepsTypes, map_readBack_eq ih]
  | factory label type args ih =>
    rw [readBack_factory, unlabel_factory, keepsTypes, keepsTypesAll_eq_all]
    by_cases named : (args.all fun field => field.field?.isSome) = true
    -- In the short form, every field has to be read back as it was and to have implied types.
    · rw [plainFields_readBack named, named]
      have each (field : Expr Label) (member : field ∈ args) :=
        plainField_readBack (List.all_eq_true.mp named field member)
      simp only [factory.injEq, true_and, List.map_inj_left, Bool.not_true, Bool.false_or,
        Bool.and_eq_true, List.all_eq_true, ← forall_and]
      refine forall₂_congr ?_
      intro field member
      rw [each field member, ih field member]
    · rw [plainFields_readBack_of_not named]
      simp [named, map_readBack_eq ih]
  | subquery label query ih => simp [readBack, keepsTypes, ih]
  | _ => simp [readBack, keepsTypes]

/-- Types that are lost once are not there to be lost again. -/
theorem plainFields_idem (fields : List Tree) :
    plainFields (plainFields fields) = plainFields fields := by
  -- A field without its types is the same named selector, and so are all of them.
  have settled (field : Tree) : plainField (plainField field) = plainField field := by
    rw [plainField, field?_plainField]
    cases found : field.field? with
    | some named => simp [plainField, found]
    | none => rfl
  rw [plainFields, all_field?_plainFields]
  split
  · rename_i all
    simp only [plainFields, all, if_true, List.map_map]
    exact List.map_congr_left fun field _ => settled field
  · rfl

/-- A named selector is read back as one if it is one. -/
theorem readBack_plainField (field : Tree) :
    (plainField field).readBack = plainField field.readBack := by
  -- Both are the named selector of the same name over what is read back of the selector.
  rw [plainField, plainField, field?_readBack]
  cases field.field? with
  | none => rfl
  | some named => simp [namedSelector, readBack]

/-- The fields of an object are read back one by one. -/
theorem map_readBack_plainFields (fields : List Tree) :
    (plainFields fields).map readBack = plainFields (fields.map readBack) := by
  -- Reading back leaves what decides between the two ways to write the fields.
  unfold plainFields
  rw [all_field?_readBack]
  split
  · rw [List.map_map, List.map_map]
    exact List.map_congr_left fun field _ => readBack_plainField field
  · rfl

/-- Labels have no part in what is read back. -/
@[simp] theorem readBack_unlabel (expr : Expr Label) : expr.unlabel.readBack = expr.readBack := by
  -- Only the fields of an object construction are looked at, and labels have no part in that.
  induction expr with
  | operation label head type args ih | template label head type args ih =>
    simpa using ih
  | factory label type args ih =>
    have same : args.map (readBack ∘ unlabel) = args.map readBack := List.map_congr_left ih
    rw [unlabel_factory, readBack_factory, readBack_factory, List.map_map, same]
  | subquery label query ih => simp [readBack, ih]
  | _ => simp [readBack]

/-- What is read back is read back as it is. -/
theorem readBack_idem (expr : Expr Label) : expr.readBack.readBack = expr.readBack := by
  -- The fields of an object are read back first, and only then lose their types for good.
  induction expr with
  | operation label head type args ih | template label head type args ih =>
    simpa using ih
  | factory label type args ih =>
    have same : args.map (readBack ∘ readBack) = args.map readBack := List.map_congr_left ih
    rw [readBack_factory, readBack_factory, map_readBack_plainFields, plainFields_idem,
      List.map_map, same]
  | subquery label query ih => simp [readBack, ih]
  | _ => simp [readBack]

end IndexQuery.Expr
