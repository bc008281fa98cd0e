import IndexQuery.Encoding.Decode

/-! Nodes are read slot by slot: from the values under the keys that count for their kind. -/

namespace IndexQuery.Encoding

/-- What a value inside an encoded expression is there for. -/
inductive Role where
  | text
  | literal
  | operator
  | segmentKind
  | path
  | node
  | nodes
  /-- The name of a field of an object, and the selector. -/
  | selector
  | selectors
deriving DecidableEq

/-- What is read from a value. -/
abbrev Role.Reading : Role → Type
  | .text => String
  | .literal => Literal
  | .operator => Operator
  | .segmentKind => SegmentKind
  | .path => Path
  | .node | .selector => Tree
  | .nodes | .selectors => List Tree

/-- The field of an object that a pair encodes. -/
def readSelector : Json → Option Tree
  | .array [.string name, value] => do
    let selector ← (decode value).toOption
    return .operation () .list .expression [.constant () (.string name) .string, selector]
  | _ => none

/-- What a value is read as, if it can be used for what it is there for. -/
def read : (role : Role) → Json → Option role.Reading
  | .text, value => value.text?
  | .literal, value => (decodeLiteral value).toOption
  | .operator, value => value.text?.bind Operator.ofId?
  | .segmentKind, value => value.text?.bind SegmentKind.ofName?
  | .path, value => (decodePath value).toOption
  | .node, value => (decode value).toOption
  | .nodes, value => value.items?.bind (·.mapM fun item => (decode item).toOption)
  | .selector, value => readSelector value
  | .selectors, value => value.items?.bind (·.mapM readSelector)

/-- What is read from a field that has to be there. -/
def readRequired (fields : List (String × Json)) (key : String) (role : Role) :
    Option role.Reading :=
  (fields.lookup key).bind (read role)

/-- What is read from a field that need not be there. -/
def readOptional (fields : List (String × Json)) (key : String) (role : Role) :
    Option (Option role.Reading) :=
  (fields.lookup key).mapM (read role)

/-- The path that some fields encode. -/
def readPath (fields : List (String × Json)) : Option Path := do
  let name ← readRequired fields "path" .text
  let parent? ← readOptional fields "parent" .path
  let kind ← readOptional fields "kind" .segmentKind
  let type ← readOptional fields "type" .text
  return attach parent? ⟨name, kind.getD (impliedKind parent?),
    (type.map ValueType.ofName).getD .unspecified⟩

/-- The node of a kind that some fields encode. -/
def readNode (fields : List (String × Json)) (kind : NodeKey) : Option Tree := do
  let declared := (← readOptional fields "type" .text).map ValueType.ofName
  match kind with
  | .constant =>
    let value ← readRequired fields "constant" .literal
    return .constant () value (declared.getD value.type)
  | .path => return .path () (← readPath fields)
  | .operation =>
    let operator ← readRequired fields "op" .operator
    let args ← readOptional fields "args" .nodes
    return .operation () operator (declared.getD operator.resultType) (args.getD [])
  | .object =>
    let args ← readRequired fields "new" .selectors
    return .factory () (declared.getD .anonymous) args
  | .factory =>
    let args ← readRequired fields "factory" .nodes
    return .factory () (declared.getD .anonymous) args
  | .param =>
    let name ← readRequired fields "param" .text
    return .param () name (declared.getD .unspecified)
  | .subquery => return .subquery () (← readRequired fields "subquery" .node)
  | .template =>
    let text ← readRequired fields "template" .text
    let args ← readOptional fields "args" .nodes
    return .template () text (declared.getD .unspecified) (args.getD [])

/-- Without its faults, a step that follows another is still a step that follows another. -/
theorem toOption_bind {α β : Type} (first : Except DecodeError α)
    (next : α → Except DecodeError β) :
    (first >>= next).toOption = first.toOption >>= fun result => (next result).toOption := by
  -- A first step that fails leaves nothing to go on with.
  cases first <;> rfl

/-- The declared type is read from text that need not be there. -/
theorem toOption_declaredType? (fields : List (String × Json)) :
    (declaredType? fields).toOption =
      (readOptional fields "type" .text).map (·.map ValueType.ofName) := by
  -- A type that is not a text fails on the left, and is not read on the right.
  unfold declaredType? readOptional
  cases fields.lookup "type" with
  | none => rfl
  | some value => cases value <;> rfl

/-- Text is read from a field that has to be there. -/
theorem toOption_textIn (field : EncodedField) (fields : List (String × Json)) :
    (textIn field fields).toOption = readRequired fields field.key .text := by
  -- Only a text has a value on either side.
  unfold textIn readRequired
  cases fields.lookup field.key with
  | none => rfl
  | some value => cases value <;> rfl

/-- The role of a segment is read from a field that need not be there. -/
theorem toOption_kindIn (implied : SegmentKind) (fields : List (String × Json)) :
    (kindIn implied fields).toOption =
      (readOptional fields "kind" .segmentKind).map (·.getD implied) := by
  -- Without a field the implied kind counts, and a field that is no text is refused by both.
  unfold kindIn readOptional
  cases fields.lookup "kind" with
  | none => rfl
  | some value =>
    cases value with
    | string name =>
      simp only [Option.mapM_some, read, Json.text?, Option.bind_some]
      cases SegmentKind.ofName? name <;> rfl
    | _ => rfl

/-- The operator is read from a field that has to be there. -/
theorem toOption_operatorIn (fields : List (String × Json)) :
    (operatorIn fields).toOption = readRequired fields "op" .operator := by
  -- The field is read as a text first, which then has to be the identifier of an operator.
  rw [operatorIn, toOption_bind, toOption_textIn, readRequired, readRequired, EncodedField.key]
  cases fields.lookup "op" with
  | none => rfl
  | some value =>
    cases value with
    | string id =>
      simp only [read, Json.text?, Option.bind_some]
      cases named : Operator.ofId? id <;> simp [named, Except.toOption]
    | _ => rfl

/-- A walk that stops at the first field with a key depends on what is found there. -/
theorem walk_eq_lookup {Result : Type} (walk : List (String × Json) → Result) (wanted : String)
    {absent : Result} {present : Json → Result} (nil : walk [] = absent)
    (cons : ∀ key value rest,
      walk ((key, value) :: rest) = if key = wanted then present value else walk rest)
    (fields : List (String × Json)) :
    walk fields = (fields.lookup wanted).elim absent present := by
  -- Both stop at the first field with the wanted key.
  induction fields with
  | nil => exact nil
  | cons field rest ih =>
    obtain ⟨key, value⟩ := field
    rw [cons]
    by_cases same : key = wanted
    · rw [if_pos same, same, List.lookup_cons_self]
      rfl
    · have apart : (wanted == key) = false := by simpa using Ne.symm same
      rw [if_neg same, ih, List.lookup_cons, apart]

/-- The parent of a path is read from a field that need not be there. -/
theorem toOption_parentIn (fields : List (String × Json)) :
    (parentIn fields).toOption = readOptional fields "parent" .path := by
  -- The decoder walks to the field for the parent, and a parent that is decoded is one that is read.
  rw [walk_eq_lookup parentIn "parent" rfl (fun key value rest => by rw [parentIn]; rfl) fields,
    readOptional]
  cases fields.lookup "parent" with
  | none => rfl
  | some value =>
    simp only [Option.elim_some, Option.mapM_some, read, toOption_bind]
    cases (decodePath value).toOption <;> rfl

/-- The nested query is read from a field that has to be there. -/
theorem toOption_subqueryIn (fields : List (String × Json)) :
    (subqueryIn fields).toOption = readRequired fields "subquery" .node := by
  -- The decoder walks to the field for the query.
  rw [walk_eq_lookup subqueryIn "subquery" rfl (fun key value rest => by rw [subqueryIn]; rfl)
    fields, readRequired]
  cases fields.lookup "subquery" <;> rfl

/-- A list of nodes is read node by node. -/
theorem toOption_decodeAll (items : List Json) :
    (decodeAll items).toOption = items.mapM fun item => (decode item).toOption := by
  -- The first item that fails ends both.
  induction items with
  | nil => simp [decodeAll, Except.toOption]
  | cons first rest ih =>
    rw [decodeAll, List.mapM_cons, toOption_bind]
    simp only [toOption_bind, ih]
    rfl

/-- A list of pairs is read pair by pair. -/
theorem toOption_decodeFields (items : List Json) :
    (decodeFields items).toOption = items.mapM readSelector := by
  induction items with
  | nil => simp [decodeFields, Except.toOption]
  | cons first rest ih =>
    rw [List.mapM_cons, ← ih]
    -- What is no pair of a name and a node is refused by both, whatever comes after it.
    fun_cases readSelector first with
    | case1 name value =>
      simp only [decodeFields, toOption_bind]
      cases (decode value).toOption <;> cases (decodeFields rest).toOption <;> rfl
    | case2 pair other =>
      rw [decodeFields]
      · rfl
      · exact other

/-- An array in a field that need not be there is read item by item. -/
theorem toOption_walk_items (walk : List (String × Json) → Except DecodeError (List Tree))
    (wanted : String) {decodeItems : List Json → Except DecodeError (List Tree)}
    {readItem : Json → Option Tree} (fault : DecodeError) (nil : walk [] = .ok [])
    (cons : ∀ key value rest, walk ((key, value) :: rest) =
      if key = wanted then
        match value with
        | .array items => decodeItems items
        | _ => .error fault
      else walk rest)
    (each : ∀ items, (decodeItems items).toOption = items.mapM readItem)
    (fields : List (String × Json)) :
    (walk fields).toOption = ((fields.lookup wanted).mapM fun value : Json =>
      value.items?.bind (·.mapM readItem)).map (·.getD []) := by
  -- A missing field stands for no items, and anything but an array is a failure.
  rw [walk_eq_lookup walk wanted nil cons fields]
  cases fields.lookup wanted with
  | none => rfl
  | some value =>
    cases value with
    | array items =>
      simp only [Option.elim_some, Option.mapM_some, each, Json.items?, Option.bind_some]
      cases items.mapM readItem <;> rfl
    | _ => rfl

/-- Nodes are read from a field that need not be there, and without it there are none. -/
theorem toOption_nodesIn (field : EncodedField) (fields : List (String × Json)) :
    (nodesIn field fields).toOption = (readOptional fields field.key .nodes).map (·.getD []) :=
  toOption_walk_items (nodesIn field) field.key (.invalidField field) rfl
    (fun key value rest => nodesIn.eq_def field ((key, value) :: rest)) toOption_decodeAll fields

/-- So are the selectors of an object. -/
theorem toOption_fieldsIn (fields : List (String × Json)) :
    (fieldsIn fields).toOption = (readOptional fields "new" .selectors).map (·.getD []) :=
  toOption_walk_items fieldsIn "new" (.invalidField .object) rfl
    (fun key value rest => fieldsIn.eq_def ((key, value) :: rest)) toOption_decodeFields fields

/-- A path is read slot by slot. -/
theorem toOption_decodePath (fields : List (String × Json)) :
    (decodePath (.object fields)).toOption = readPath fields := by
  -- The decoder takes its fields in the order in which they are read here.
  simp only [decodePath, toOption_bind, toOption_textIn, toOption_parentIn, toOption_kindIn,
    toOption_declaredType?, readPath, EncodedField.key, Option.bind_eq_bind, Option.bind_map]
  rfl

/-- What is there is read the same whether it has to be there or not. -/
theorem readOptional_eq_readRequired {fields : List (String × Json)} {key : String} (role : Role)
    (present : (fields.lookup key).isSome = true) :
    readOptional fields key role = (readRequired fields key role).map some := by
  -- That a field may be missing makes no difference where it is there.
  obtain ⟨value, found⟩ := Option.isSome_iff_exists.mp present
  rw [readOptional, readRequired, found]
  rfl

/-- The key of a kind is among the fields of a node of that kind. -/
theorem isSome_lookup_of_ofFields? {fields : List (String × Json)} {kind : NodeKey}
    (first : NodeKey.ofFields? fields = some kind) :
    (fields.lookup kind.key).isSome = true := by
  -- The first key is one that the fields hold.
  simpa using List.find?_some first

/-- A node is read slot by slot, as its first key says. -/
theorem toOption_decode (fields : List (String × Json)) :
    (decode (.object fields)).toOption = (NodeKey.ofFields? fields).bind (readNode fields) := by
  rw [decode, toOption_bind, toOption_declaredType?]
  cases first : NodeKey.ofFields? fields with
  | none => cases readOptional fields "type" .text <;> rfl
  | some kind =>
    have present := isSome_lookup_of_ofFields? first
    simp only [Option.bind_some, readNode, Option.bind_eq_bind, Option.bind_map]
    cases kind with
    -- The key that tells the kind is there, so it does not matter what would be read without it.
    | constant =>
      obtain ⟨value, found⟩ := Option.isSome_iff_exists.mp present
      simp only [readRequired, NodeKey.key, toOption_bind] at found ⊢
      rw [found]
      rfl
    | object =>
      have listed : readOptional fields "new" .selectors =
          (readRequired fields "new" .selectors).map some :=
        readOptional_eq_readRequired .selectors present
      simp only [toOption_bind, toOption_fieldsIn, listed, Option.bind_eq_bind, Option.bind_map]
      rfl
    | factory =>
      have listed : readOptional fields "factory" .nodes =
          (readRequired fields "factory" .nodes).map some :=
        readOptional_eq_readRequired .nodes present
      simp only [toOption_bind, toOption_nodesIn, EncodedField.key, listed, Option.bind_eq_bind,
        Option.bind_map]
      rfl
    | path | operation | param | subquery | template =>
      simp only [toOption_bind, toOption_decodePath, toOption_operatorIn, toOption_nodesIn,
        toOption_textIn, toOption_subqueryIn, EncodedField.key, Option.bind_eq_bind,
        Option.bind_map]
      rfl

end IndexQuery.Encoding
