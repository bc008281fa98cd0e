import IndexQuery.Encoding.Decode
import IndexQuery.Encoding.Encode
import IndexQuery.Proofs.Encoding.TypeNames
import IndexQuery.Proofs.Expr.ReadBack

/-! An encoded expression is read back with every type but those of named selectors. -/

namespace IndexQuery

namespace SegmentKind

/-- The name of a role spells that role. -/
theorem ofName?_name (kind : SegmentKind) : ofName? kind.name = some kind := by
  cases kind <;> rfl

end SegmentKind

namespace Operator

/-- The identifier of an operator names that operator. -/
theorem ofId?_id (operator : Operator) : ofId? operator.id = some operator := by
  cases operator <;> decide

end Operator

namespace Expr

variable {Label : Type}

mutual

/-- Whether no literal anywhere in an expression is a decimal. -/
def decimalFree : Expr Label → Bool
  | .constant _ (.decimal _) _ => false
  | .constant .. | .path .. | .param .. => true
  | .operation _ _ _ args => decimalFreeAll args
  | .factory _ _ args => decimalFreeAll args
  | .subquery _ query => query.decimalFree
  | .template _ _ _ args => decimalFreeAll args

/-- Whether this holds of every expression of a list. -/
def decimalFreeAll : List (Expr Label) → Bool
  | [] => true
  | first :: rest => first.decimalFree && decimalFreeAll rest

end

/-- A list is checked one by one. -/
@[simp] theorem decimalFreeAll_eq_all (exprs : List (Expr Label)) :
    decimalFreeAll exprs = exprs.all decimalFree := by
  -- Lists are gone through member by member.
  induction exprs with
  | nil => rfl
  | cons first rest ih => simp [decimalFreeAll, ih]

/-- The arguments of an expression without decimals have none. -/
theorem decimalFree_of_mem_args {expr arg : Expr Label} (exact : expr.decimalFree = true)
    (member : arg ∈ expr.args) : arg.decimalFree = true := by
  -- Only three forms have arguments, and each of them asks all of them.
  cases expr with
  | operation | factory | template =>
    rw [decimalFree, decimalFreeAll_eq_all, List.all_eq_true] at exact
    exact exact arg member
  | _ => simp [args] at member

end Expr

namespace Encoding

/-- A type is declared exactly where it is not implied, and then it is the one declared. -/
theorem declaredType?_typeField (implied type : ValueType) {front : List (String × Json)}
    (undeclared : front.lookup "type" = none) :
    declaredType? (front ++ typeField implied type) =
      .ok (if type = implied then none else some type) := by
  -- The fields in front declare no type, so the one at the end is found, if it was written.
  rw [declaredType?, List.lookup_append, undeclared, Option.none_or, typeField]
  by_cases same : type = implied
  · rw [if_pos same, if_pos same]
    rfl
  · rw [if_neg same, if_neg same]
    simp [ValueType.ofName_name]

/-- Where no type is declared the implied one is meant. -/
theorem getD_declared (implied type : ValueType) :
    (if type = implied then none else some type).getD implied = type := by
  -- A type is left out only where it is implied.
  split
  · rename_i same
    exact same.symm
  · rfl

/-- A literal that is no decimal is read as it was written. -/
theorem decodeLiteral_encodeLiteral {value : Literal} (exact : ∀ number, value ≠ .decimal number) :
    decodeLiteral (encodeLiteral value) = .ok value := by
  cases value with
  | decimal number => exact absurd rfl (exact number)
  | integer value =>
    -- A whole number of 64 bits is in the range of decimals, and of integers.
    have low : Int64.minValue.toInt ≤ value.toInt := Int64.le_toInt value
    have high : value.toInt ≤ Int64.maxValue.toInt := Int64.toInt_le value
    have small : value.toInt.natAbs < Nat.pow 2 96 := by
      have lowest : Int64.minValue.toInt = -9223372036854775808 := by decide
      have highest : Int64.maxValue.toInt = 9223372036854775807 := by decide
      have width : Nat.pow 2 96 = 79228162514264337593543950336 := by decide
      omega
    have inRange : value.toInt.natAbs < Nat.pow 2 96 ∧ 0 ≤ 28 := ⟨small, Nat.zero_le 28⟩
    simp only [encodeLiteral, decodeLiteral, literalOfNumber, Decimal.ofParts?, dif_pos inRange]
    rw [if_pos ⟨low, high⟩, Int64.ofInt_toInt]
  | _ => rfl

/-- A type field does not tell the kind of a node. -/
theorem ofFields?_typeField (front : List (String × Json)) (implied type : ValueType) :
    NodeKey.ofFields? (front ++ typeField implied type) = NodeKey.ofFields? front := by
  -- None of the keys that tell the kind is the key of the type.
  have apart (kind : NodeKey) : (typeField implied type).lookup kind.key = none := by
    unfold typeField
    split
    · rfl
    · cases kind <;> simp [NodeKey.key, List.lookup_cons]
  simp [NodeKey.ofFields?, List.lookup_append, apart]

/-- Fields in front of a type tell the kind of the node, and the type is the one declared. -/
theorem known_typeField {front : List (String × Json)} {kind : NodeKey}
    (known : NodeKey.ofFields? front = some kind) (undeclared : front.lookup "type" = none)
    (implied type : ValueType) :
    NodeKey.ofFields? (front ++ typeField implied type) = some kind ∧
      declaredType? (front ++ typeField implied type) =
        .ok (if type = implied then none else some type) := by
  -- A declared type is no node key, and it is the only type there.
  rw [ofFields?_typeField, known]
  exact ⟨rfl, declaredType?_typeField implied type undeclared⟩

section Paths

variable (implied kind : SegmentKind) {rest : List (String × Json)}

/-- A role field is no field of another key. -/
theorem lookup_kindField {key : String} (other : key ≠ "kind") :
    (kindField implied kind ++ rest).lookup key = rest.lookup key := by
  -- The field for the kind has that key and no other.
  unfold kindField
  split
  · rfl
  · have apart : (key == "kind") = false := by simp [other]
    rw [List.singleton_append, List.lookup_cons, apart]

/-- A role is declared exactly where it is not implied, and then it is the one declared. -/
theorem kindIn_kindField (undeclared : rest.lookup "kind" = none) :
    kindIn implied (kindField implied kind ++ rest) = .ok kind := by
  -- A kind is left out where it is implied, and is read by its name otherwise.
  unfold kindField
  split
  · rename_i same
    rw [List.nil_append, kindIn, undeclared, same]
  · rw [List.singleton_append, kindIn]
    simp [SegmentKind.ofName?_name]

/-- A role field holds no parent. -/
theorem parentIn_kindField : parentIn (kindField implied kind ++ rest) = parentIn rest := by
  -- The field for the kind is skipped on the way to the parent.
  unfold kindField
  split
  · rfl
  · rw [List.singleton_append, parentIn, if_neg (by decide)]

/-- A role field does not tell the kind of a node. -/
theorem ofFields?_kindField :
    NodeKey.ofFields? (kindField implied kind ++ rest) = NodeKey.ofFields? rest := by
  -- No node key is the key that holds the kind of a segment.
  have apart (node : NodeKey) : node.key ≠ "kind" := by cases node <;> decide
  simp [NodeKey.ofFields?, lookup_kindField implied kind (apart _)]

/-- The fields of a path segment, given those of its parent. -/
def segmentFields (parent? : Option Path) (segment : Segment) : List (String × Json) :=
  let above := parent?.toList.map fun parent => ("parent", encodePath parent)
  kindField (impliedKind parent?) segment.kind ++
    ((above ++ [("path", .string segment.name)]) ++ typeField .unspecified segment.type)

/-- A path is written as the fields of its last segment. -/
theorem encodePath_attach (parent? : Option Path) (segment : Segment) :
    encodePath (attach parent? segment) = .object (segmentFields parent? segment) := by
  cases parent? <;> rfl

/-- The fields of a segment are those of a path, and declare its type. -/
theorem known_segmentFields (parent? : Option Path) (segment : Segment) :
    NodeKey.ofFields? (segmentFields parent? segment) = some .path ∧
      declaredType? (segmentFields parent? segment) =
        .ok (if segment.type = .unspecified then none else some segment.type) := by
  -- The role stands in front of the other fields, and is the key of neither.
  rw [segmentFields, ofFields?_kindField, declaredType?, lookup_kindField _ _ (by decide)]
  cases parent? with
  | none => exact known_typeField rfl rfl .unspecified segment.type
  | some parent => exact known_typeField rfl rfl .unspecified segment.type

/-- A segment is read with its parent, if that is. -/
theorem decodePath_segmentFields {parent? : Option Path} (segment : Segment)
    (above : ∀ parent ∈ parent?, decodePath (encodePath parent) = .ok parent) :
    decodePath (.object (segmentFields parent? segment)) = .ok (attach parent? segment) := by
  -- The name, the parent, the role and the type are read by their keys, one after the other.
  obtain ⟨name, kind, type⟩ := segment
  have named : textIn .path (segmentFields parent? ⟨name, kind, type⟩) = .ok name := by
    rw [textIn, segmentFields, lookup_kindField _ _ (by decide)]
    cases parent? <;> rfl
  have placed : parentIn (segmentFields parent? ⟨name, kind, type⟩) = .ok parent? := by
    rw [segmentFields, parentIn_kindField]
    cases parent? with
    | none =>
      -- Neither the name nor the type is a parent.
      by_cases same : type = .unspecified
      · simp [typeField, same, parentIn, EncodedField.key]
      · simp [typeField, same, parentIn, EncodedField.key]
    | some parent =>
      rw [Option.toList_some, List.map_singleton, List.singleton_append, List.cons_append, parentIn,
        if_pos (by rfl), above parent rfl]
      rfl
  have played : kindIn (impliedKind parent?) (segmentFields parent? ⟨name, kind, type⟩) =
      .ok kind := by
    apply kindIn_kindField
    rw [List.lookup_append]
    cases parent? <;> (unfold typeField; split <;> rfl)
  have typed := (known_segmentFields parent? ⟨name, kind, type⟩).2
  simp only [decodePath, named, placed, played, typed, getD_declared, Bind.bind, Except.bind]
  rfl

end Paths

/-- A path is read as it was written. -/
theorem decodePath_encodePath (path : Path) : decodePath (encodePath path) = .ok path := by
  -- A segment is written around what is above it, so the induction goes from the root down.
  induction path with
  | root segment =>
    rw [show Path.root segment = attach none segment from rfl, encodePath_attach]
    exact decodePath_segmentFields segment (by simp)
  | member parent segment ih =>
    rw [show parent.member segment = attach (some parent) segment from rfl, encodePath_attach]
    exact decodePath_segmentFields segment (by simpa using ih)

variable {Label : Type}

/-- Encoded expressions are read one by one. -/
theorem decodeAll_encode {exprs : List (Expr Label)}
    (each : ∀ expr ∈ exprs, decode (encode expr) = .ok expr.readBack) :
    decodeAll (exprs.map encode) = .ok (exprs.map Expr.readBack) := by
  -- Decoding stops at a failure, and none of the members fails.
  induction exprs with
  | nil => rfl
  | cons first rest ih =>
    have head := each first (by simp)
    have tail := ih fun expr member => each expr (by simp [member])
    simp only [List.map_cons, decodeAll, head, tail, Bind.bind, Except.bind, Pure.pure, Except.pure]

/-- A named selector is written as a pair. -/
theorem encodeFields_cons {field : Expr Label} {name : String} {selector : Expr Label}
    (named : field.field? = some (name, selector)) (rest : List (Expr Label)) :
    encodeFields (field :: rest) =
      .array [.string name, encode selector] :: encodeFields rest := by
  obtain ⟨label, type, inner, nameType, rfl⟩ := Expr.field?_eq_some named
  rw [encodeFields]

/-- Named selectors are written without their types. -/
theorem encodeFields_plainField {fields : List (Expr Label)}
    (named : fields.all (fun field => field.field?.isSome) = true)
    (each : ∀ field ∈ fields, ∀ arg ∈ field.args, encode arg.readBack = encode arg) :
    encodeFields (fields.map fun field => field.readBack.plainField) = encodeFields fields := by
  -- A pair holds the name and the selector, neither of which is lost.
  induction fields with
  | nil => rfl
  | cons field rest ih =>
    rw [List.all_cons, Bool.and_eq_true, Option.isSome_iff_exists] at named
    obtain ⟨⟨⟨name, selector⟩, found⟩, others⟩ := named
    have plain : field.readBack.plainField.field? = some (name, selector.readBack) := by
      rw [Expr.field?_plainField, Expr.field?_readBack, found]
      rfl
    rw [List.map_cons, encodeFields_cons plain, encodeFields_cons found,
      each field (by simp) selector (Expr.selector_mem_args found),
      ih others fun field member => each field (by simp [member])]

/-- What is read back has the same encoding, and so do its arguments. -/
theorem encode_readBack_args (expr : Expr Label) :
    encode expr.readBack = encode expr ∧ ∀ arg ∈ expr.args, encode arg.readBack = encode arg := by
  -- The short form of an object reaches two levels down, so the arguments are part of the induction.
  induction expr with
  | operation label head type args ih | template label head type args ih =>
    have same : args.map (encode ∘ Expr.readBack) = args.map encode :=
      List.map_congr_left fun arg member => (ih arg member).1
    exact ⟨by simp [encode, same], fun arg member => (ih arg member).1⟩
  | factory label type args ih =>
    refine ⟨?_, fun arg member => (ih arg member).1⟩
    have named := Expr.all_field?_plainFields (args.map Expr.readBack)
    rw [Expr.all_field?_readBack] at named
    rw [Expr.readBack_factory, encode, encode, named]
    split
    -- What is lost of the fields is what their short form leaves out.
    · rename_i all
      rw [Expr.plainFields_readBack all, encodeFields_plainField all fun field member =>
        (ih field member).2]
    · rename_i other
      have same : args.map (encode ∘ Expr.readBack) = args.map encode :=
        List.map_congr_left fun arg member => (ih arg member).1
      rw [Expr.plainFields_readBack_of_not other, encodeAll_eq_map, encodeAll_eq_map, List.map_map,
        same]
  | subquery label query ih => simp [Expr.readBack, Expr.args, encode, ih.1]
  | _ => simp [Expr.readBack, Expr.args, encode]

/-- What is read back has the same encoding. -/
theorem encode_readBack (expr : Expr Label) : encode expr.readBack = encode expr :=
  (encode_readBack_args expr).1

/-- Labels have no part in the encoding. -/
theorem encode_unlabel (expr : Expr Label) : encode expr.unlabel = encode expr := by
  -- Both are encoded like what is read back of them, which has no labels.
  rw [← encode_readBack, Expr.readBack_unlabel, encode_readBack]

/-- Named selectors are read back without their types. -/
theorem decodeFields_encodeFields {fields : List (Expr Label)}
    (named : fields.all (fun field => field.field?.isSome) = true)
    (each : ∀ field ∈ fields, ∀ arg ∈ field.args, decode (encode arg) = .ok arg.readBack) :
    decodeFields (encodeFields fields) =
      .ok (fields.map fun field => field.readBack.plainField) := by
  -- Every pair is read as a named selector, with the types that the short form implies.
  induction fields with
  | nil => rfl
  | cons field rest ih =>
    rw [List.all_cons, Bool.and_eq_true, Option.isSome_iff_exists] at named
    obtain ⟨⟨⟨name, selector⟩, found⟩, others⟩ := named
    have head := each field (by simp) selector (Expr.selector_mem_args found)
    have tail := ih others fun field member => each field (by simp [member])
    have plain : field.readBack.plainField = Expr.namedSelector name selector.readBack := by
      rw [Expr.plainField, Expr.field?_readBack, found]
      rfl
    rw [encodeFields_cons found, List.map_cons, plain]
    simp only [decodeFields, head, tail, Bind.bind, Except.bind, Pure.pure, Except.pure]
    rfl

section Nodes

variable {fields : List (String × Json)} {declared : Option ValueType}

/-- Fields with the key of a literal and a literal there are a constant. -/
theorem decode_constant {literal : Json} {value : Literal}
    (typed : declaredType? fields = .ok declared)
    (known : NodeKey.ofFields? fields = some .constant)
    (held : fields.lookup NodeKey.constant.key = some literal)
    (read : decodeLiteral literal = .ok value) :
    decode (.object fields) = .ok (.constant () value (declared.getD value.type)) := by
  -- A constant without a declared type has the type of its literal.
  simp only [decode, typed, known, held, read, Option.getD_some, Bind.bind, Except.bind]
  rfl

/-- Fields with the key of a path are that path. -/
theorem decode_path {path : Path} (typed : declaredType? fields = .ok declared)
    (known : NodeKey.ofFields? fields = some .path) (read : decodePath (.object fields) = .ok path) :
    decode (.object fields) = .ok (.path () path) := by
  simp only [decode, typed, known, read, Bind.bind, Except.bind]
  rfl

/-- Fields with the key of an operator are that operator applied to the arguments. -/
theorem decode_operation {operator : Operator} {args : List Tree}
    (typed : declaredType? fields = .ok declared)
    (known : NodeKey.ofFields? fields = some .operation)
    (applied : operatorIn fields = .ok operator) (read : nodesIn .args fields = .ok args) :
    decode (.object fields) =
      .ok (.operation () operator (declared.getD operator.resultType) args) := by
  -- An operation without a declared type has that of its operator.
  simp only [decode, typed, known, applied, read, Bind.bind, Except.bind]
  rfl

/-- Fields with the key of pairs are an object of named selectors. -/
theorem decode_object {args : List Tree} (typed : declaredType? fields = .ok declared)
    (known : NodeKey.ofFields? fields = some .object) (read : fieldsIn fields = .ok args) :
    decode (.object fields) = .ok (.factory () (declared.getD .anonymous) args) := by
  -- An object without a declared type is anonymous.
  simp only [decode, typed, known, read, Bind.bind, Except.bind]
  rfl

/-- Fields with the key of an object are an object of any expressions. -/
theorem decode_factory {args : List Tree} (typed : declaredType? fields = .ok declared)
    (known : NodeKey.ofFields? fields = some .factory)
    (read : nodesIn .factory fields = .ok args) :
    decode (.object fields) = .ok (.factory () (declared.getD .anonymous) args) := by
  simp only [decode, typed, known, read, Bind.bind, Except.bind]
  rfl

/-- Fields with the key of a parameter are that parameter. -/
theorem decode_param {name : String} (typed : declaredType? fields = .ok declared)
    (known : NodeKey.ofFields? fields = some .param) (read : textIn .param fields = .ok name) :
    decode (.object fields) = .ok (.param () name (declared.getD .unspecified)) := by
  simp only [decode, typed, known, read, Bind.bind, Except.bind]
  rfl

/-- Fields with the key of a nested query are that query. -/
theorem decode_subquery {query : Tree} (typed : declaredType? fields = .ok declared)
    (known : NodeKey.ofFields? fields = some .subquery) (read : subqueryIn fields = .ok query) :
    decode (.object fields) = .ok (.subquery () query) := by
  simp only [decode, typed, known, read, Bind.bind, Except.bind]
  rfl

/-- Fields with the key of a template are that template with the arguments. -/
theorem decode_template {text : String} {args : List Tree}
    (typed : declaredType? fields = .ok declared)
    (known : NodeKey.ofFields? fields = some .template)
    (written : textIn .template fields = .ok text) (read : nodesIn .args fields = .ok args) :
    decode (.object fields) = .ok (.template () text (declared.getD .unspecified) args) := by
  simp only [decode, typed, known, written, read, Bind.bind, Except.bind]
  rfl

end Nodes

/-- A constant is read back, unless it is a decimal. -/
theorem decode_encode_constant {label : Label} {value : Literal} {type : ValueType}
    (exact : (Expr.constant label value type).decimalFree = true) :
    decode (encode (.constant label value type)) = .ok (.constant () value type) := by
  -- The value goes through its literal, which is exact unless it is a decimal.
  have literal : decodeLiteral (encodeLiteral value) = .ok value := by
    apply decodeLiteral_encodeLiteral
    rintro number rfl
    cases exact
  obtain ⟨known, typed⟩ := @known_typeField [("constant", encodeLiteral value)] .constant rfl rfl
    value.type type
  rw [encode, ← List.singleton_append, decode_constant typed known rfl literal, getD_declared]

/-- A path is read back. -/
theorem decode_encode_path (label : Label) (target : Path) :
    decode (encode (.path label target)) = .ok (.path () target) := by
  -- A path is written as its last segment and its parent, so it is taken apart like that.
  have read := decodePath_encodePath target
  obtain ⟨parent?, segment, rfl⟩ : ∃ parent? segment, target = attach parent? segment := by
    cases target with
    | root segment => exact ⟨none, segment, rfl⟩
    | member parent segment => exact ⟨some parent, segment, rfl⟩
  obtain ⟨known, typed⟩ := known_segmentFields parent? segment
  rw [encodePath_attach] at read
  rw [encode, encodePath_attach]
  exact decode_path typed known read

/-- A parameter is read back. -/
theorem decode_encode_param (label : Label) (name : String) (type : ValueType) :
    decode (encode (.param label name type)) = .ok (.param () name type) := by
  -- Apart from its name only the type has to be read.
  obtain ⟨known, typed⟩ := @known_typeField [("param", .string name)] .param rfl rfl
    .unspecified type
  rw [encode]
  exact (decode_param typed known rfl).trans (by rw [getD_declared])

section Arguments

variable {label : Label} {type : ValueType} {args : List (Expr Label)}

/-- An operation is read back if its arguments are. -/
theorem decode_encode_operation {operator : Operator}
    (each : ∀ arg ∈ args, decode (encode arg) = .ok arg.readBack) :
    decode (encode (.operation label operator type args)) =
      .ok (.operation () operator type (args.map Expr.readBack)) := by
  let fields : List (String × Json) :=
    ("args", .array (args.map encode)) :: ("op", .string operator.id) ::
      typeField operator.resultType type
  obtain ⟨known, typed⟩ := @known_typeField
    [("args", .array (args.map encode)), ("op", .string operator.id)] .operation rfl rfl
    operator.resultType type
  -- The operator is found by its identifier, and the arguments are read one by one.
  have applied : operatorIn fields = .ok operator := by
    have named : textIn .operator fields = .ok operator.id := rfl
    simp only [operatorIn, named, Operator.ofId?_id, Bind.bind, Except.bind]
  have read : nodesIn .args fields = .ok (args.map Expr.readBack) := by
    rw [nodesIn, if_pos (by rfl), decodeAll_encode each]
  rw [encode, encodeAll_eq_map]
  exact (decode_operation typed known applied read).trans (by rw [getD_declared])

/-- A template is read back if its arguments are. -/
theorem decode_encode_template {text : String}
    (each : ∀ arg ∈ args, decode (encode arg) = .ok arg.readBack) :
    decode (encode (.template label text type args)) =
      .ok (.template () text type (args.map Expr.readBack)) := by
  -- The arguments are read one by one, and the type as for a parameter.
  obtain ⟨known, typed⟩ := @known_typeField
    [("args", .array (args.map encode)), ("template", .string text)] .template rfl rfl
    .unspecified type
  have read : nodesIn .args (("args", .array (args.map encode)) :: ("template", .string text) ::
      typeField .unspecified type) = .ok (args.map Expr.readBack) := by
    rw [nodesIn, if_pos (by rfl), decodeAll_encode each]
  rw [encode, encodeAll_eq_map]
  exact (decode_template typed known rfl read).trans (by rw [getD_declared])

/-- An object is read back if its arguments are and, since its short form holds nothing of a field but
the name and the selector, the arguments of these are. -/
theorem decode_encode_factory (each : ∀ arg ∈ args, decode (encode arg) = .ok arg.readBack)
    (inner : ∀ field ∈ args, ∀ arg ∈ field.args, decode (encode arg) = .ok arg.readBack) :
    decode (encode (.factory label type args)) =
      .ok (.factory () type (Expr.plainFields (args.map Expr.readBack))) := by
  rw [encode]
  split
  -- In the short form, the selectors of the fields are read, and the fields are made anew.
  · rename_i named
    obtain ⟨known, typed⟩ := @known_typeField [("new", .array (encodeFields args))] .object rfl
      rfl .anonymous type
    have read : fieldsIn (("new", .array (encodeFields args)) :: typeField .anonymous type) =
        .ok (Expr.plainFields (args.map Expr.readBack)) := by
      rw [fieldsIn, if_pos (by rfl), decodeFields_encodeFields named inner,
        Expr.plainFields_readBack named]
    exact (decode_object typed known read).trans (by rw [getD_declared])
  · rename_i unnamed
    obtain ⟨known, typed⟩ := @known_typeField [("factory", .array (args.map encode))] .factory rfl
      rfl .anonymous type
    have read : nodesIn .factory (("factory", .array (args.map encode)) ::
        typeField .anonymous type) = .ok (Expr.plainFields (args.map Expr.readBack)) := by
      rw [nodesIn, if_pos (by rfl), decodeAll_encode each, Expr.plainFields_readBack_of_not unnamed]
    rw [encodeAll_eq_map]
    exact (decode_factory typed known read).trans (by rw [getD_declared])

end Arguments

/-- The encoding of an expression without decimals is read back, and so are those of its arguments. -/
theorem decode_encode_args (expr : Expr Label) :
    (expr.decimalFree = true → decode (encode expr) = .ok expr.readBack) ∧
      ∀ arg ∈ expr.args, arg.decimalFree = true → decode (encode arg) = .ok arg.readBack := by
  -- The short form of an object reaches two levels down, so the arguments are part of the induction.
  induction expr with
  | constant label value type => exact ⟨decode_encode_constant, by simp [Expr.args]⟩
  | path label target => exact ⟨fun _ => decode_encode_path label target, by simp [Expr.args]⟩
  | param label name type =>
    exact ⟨fun _ => decode_encode_param label name type, by simp [Expr.args]⟩
  | operation label operator type args ih =>
    refine ⟨?_, fun arg member => (ih arg member).1⟩
    intro exact
    rw [Expr.readBack_operation]
    exact decode_encode_operation fun arg member =>
      (ih arg member).1 (Expr.decimalFree_of_mem_args exact member)
  | template label text type args ih =>
    refine ⟨?_, fun arg member => (ih arg member).1⟩
    intro exact
    rw [Expr.readBack_template]
    exact decode_encode_template fun arg member =>
      (ih arg member).1 (Expr.decimalFree_of_mem_args exact member)
  | factory label type args ih =>
    refine ⟨?_, fun arg member => (ih arg member).1⟩
    intro exact
    rw [Expr.readBack_factory]
    apply decode_encode_factory
    · intro arg member
      exact (ih arg member).1 (Expr.decimalFree_of_mem_args exact member)
    · intro field member arg inside
      have exactField := Expr.decimalFree_of_mem_args exact member
      exact (ih field member).2 arg inside (Expr.decimalFree_of_mem_args exactField inside)
  | subquery label query ih =>
    refine ⟨?_, by simp [Expr.args]⟩
    intro exact
    have read : subqueryIn [("subquery", encode query)] = .ok query.readBack := by
      rw [subqueryIn, if_pos (by rfl), ih.1 exact]
    rw [encode]
    exact decode_subquery rfl rfl read

/-- The encoding of an expression without decimals is read back. -/
theorem decode_encode_readBack {expr : Expr Label} (exact : expr.decimalFree = true) :
    decode (encode expr) = .ok expr.readBack :=
  (decode_encode_args expr).1 exact

/-- The encoding of an expression without decimals can be read, and gives the expression with all its
types but those of the named selectors, and of their names, in objects of named selectors only. It
gives the very expression exactly if all of these have the types that the short form implies. -/
theorem decode_encode {expr : Expr Label} (exact : expr.decimalFree = true) :
    decode (encode expr) = .ok expr.readBack ∧
      (decode (encode expr) = .ok expr.unlabel ↔ expr.keepsTypes = true) := by
  -- What is read back is the expression itself exactly if no type is lost.
  have read := decode_encode_readBack exact
  refine ⟨read, ?_⟩
  rw [read, Except.ok.injEq, Expr.readBack_eq_unlabel_iff]

/-- An object with one named selector, whose list has the given type. -/
def singleField (type : ValueType) : Tree :=
  .factory () .anonymous
    [.operation () .list type
      [.constant () (.string "X") .string, .path () (.ofVariable "x" .unspecified)]]

/-- A list of arguments comes back as it was, and a list of the type of truth values comes back as a
list of arguments. -/
theorem decode_encode_singleField :
    decode (encode (singleField .expression)) = .ok (singleField .expression) ∧
      decode (encode (singleField .boolean)) = .ok (singleField .expression) ∧
      ¬ Expr.Alike (singleField .expression) (singleField .boolean) := by
  -- The two differ in a type that the encoding leaves out, so one text stands for both.
  have plain := @decode_encode Unit (singleField .expression) (by decide)
  have typed := @decode_encode Unit (singleField .boolean) (by decide)
  exact ⟨plain.1.trans (congrArg Except.ok (by decide)),
    typed.1.trans (congrArg Except.ok (by decide)), by decide⟩

end Encoding

end IndexQuery
