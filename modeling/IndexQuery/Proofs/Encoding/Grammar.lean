import IndexQuery.Proofs.Encoding.Literals
import IndexQuery.Proofs.Encoding.RoundTrip
import IndexQuery.Proofs.Encoding.Slots

/-! The grammar of encoded expressions: which values are decoded, and which keys count for the result. -/

namespace IndexQuery

/-- Values are reached through the items of arrays and the fields of objects. -/
@[elab_as_elim] theorem Json.induct {motive : Json → Prop} (null : motive .null)
    (boolean : ∀ value, motive (.boolean value)) (number : ∀ value, motive (.number value))
    (string : ∀ value, motive (.string value))
    (array : ∀ items, (∀ item ∈ items, motive item) → motive (.array items))
    (object : ∀ fields, (∀ field ∈ fields, motive field.2) → motive (.object fields))
    (value : Json) : motive value :=
  @Json.rec motive (fun items => ∀ item ∈ items, motive item)
    (fun fields => ∀ field ∈ fields, motive field.2) (fun field => motive field.2)
    null boolean number string array object
    (List.forall_mem_nil _) (fun _ _ first rest => List.forall_mem_cons.mpr ⟨first, rest⟩)
    (List.forall_mem_nil _) (fun _ _ first rest => List.forall_mem_cons.mpr ⟨first, rest⟩)
    (fun _ _ value => value) value

/-- The identifiers that name an operator are those of the operators. -/
theorem Operator.isSome_ofId? {text : String} :
    (ofId? text).isSome = true ↔ ∃ operator : Operator, operator.id = text := by
  -- The search finds an operator with that text, and the text of an operator finds itself.
  constructor
  · intro known
    obtain ⟨operator, found⟩ := Option.isSome_iff_exists.mp known
    exact ⟨operator, by simpa using List.find?_some found⟩
  · rintro ⟨operator, rfl⟩
    rw [ofId?_id]
    rfl

/-- Three names name the role of a segment. -/
theorem SegmentKind.isSome_ofName? {text : String} :
    (ofName? text).isSome = true ↔ text ∈ ["variable", "property", "any"] := by
  fun_cases ofName? text with
  | case1 | case2 | case3 => simp
  -- The names that are left over are those that none of the patterns is.
  | case4 _ first second third =>
    refine iff_of_false Bool.false_ne_true ?_
    simpa using ⟨first, second, third⟩

namespace Encoding

/-- The keys that count for a path, with what their values are there for. -/
def pathSlots : List (String × Role) :=
  [("path", .text), ("parent", .path), ("kind", .segmentKind), ("type", .text)]

/-- The forms of a node: the key that each is told by, and the keys that count for it. -/
def forms : List (String × List (String × Role)) := [
  -- Where an object has several of these keys, the one further up decides.
  ("constant", [("type", .text), ("constant", .literal)]),
  ("path", pathSlots),
  ("op", [("type", .text), ("op", .operator), ("args", .nodes)]),
  ("new", [("type", .text), ("new", .selectors)]),
  ("factory", [("type", .text), ("factory", .nodes)]),
  ("param", [("type", .text), ("param", .text)]),
  -- A nested query has no use for a type, but one that it declares has to be text.
  ("subquery", [("type", .text), ("subquery", .node)]),
  ("template", [("type", .text), ("template", .text), ("args", .nodes)])]

/-- The keys that count among some fields, if these are of a form. -/
def slots? (fields : List (String × Json)) : Option (List (String × Role)) :=
  (forms.find? fun form => (fields.lookup form.1).isSome).map Prod.snd

/-- The grammar of encoded expressions: the values that can be used for what they are there for. -/
inductive Fits : Role → Json → Prop
  | text (text : String) : Fits .text (.string text)
  | null : Fits .literal .null
  | boolean (value : Bool) : Fits .literal (.boolean value)
  | string (text : String) : Fits .literal (.string text)
  | number {number : JsonNumber} (supported : number.Supported) : Fits .literal (.number number)
  | operator (operator : Operator) : Fits .operator (.string operator.id)
  | segmentKind {name : String} (known : name ∈ ["variable", "property", "any"]) :
      Fits .segmentKind (.string name)
  /-- A path has a name, and the other keys that count if there are any. -/
  | path {fields : List (String × Json)} (named : (fields.lookup "path").isSome = true)
      (each : ∀ slot ∈ pathSlots, ∀ value, fields.lookup slot.1 = some value →
        Fits slot.2 value) : Fits .path (.object fields)
  /-- A node is of the form that comes first among those whose key it has. -/
  | node {fields : List (String × Json)} {slots : List (String × Role)}
      (first : slots? fields = some slots)
      (each : ∀ slot ∈ slots, ∀ value, fields.lookup slot.1 = some value →
        Fits slot.2 value) : Fits .node (.object fields)
  | nodes {items : List Json} (each : ∀ item ∈ items, Fits .node item) :
      Fits .nodes (.array items)
  | selector (name : String) {value : Json} (node : Fits .node value) :
      Fits .selector (.array [.string name, value])
  | selectors {items : List Json} (each : ∀ item ∈ items, Fits .selector item) :
      Fits .selectors (.array items)

mutual

/-- A value without the keys that do not count for what it is there for, at every depth. -/
def strip : Role → Json → Json
  | .path, .object fields => .object (stripFields pathSlots fields)
  -- What is no node has no keys that count.
  | .node, .object fields => .object (stripFields ((slots? fields).getD []) fields)
  | .nodes, .array items => .array (stripAll .node items)
  | .selectors, .array items => .array (stripAll .selector items)
  | .selector, .array [name, value] => .array [strip .text name, strip .node value]
  -- Anywhere else an object or an array is out of place, whatever it holds.
  | _, .object _ => .object []
  | _, .array _ => .array []
  | _, value => value

/-- The fields whose keys count. -/
def stripFields (slots : List (String × Role)) : List (String × Json) → List (String × Json)
  | [] => []
  | (key, value) :: rest =>
    match slots.lookup key with
    | some role => (key, strip role value) :: stripFields slots rest
    | none => stripFields slots rest

/-- The items of an array, which are all there for the same. -/
def stripAll (role : Role) : List Json → List Json
  | [] => []
  | first :: rest => strip role first :: stripAll role rest

end

/-! The forms are the kinds of node that the reader tells apart, in the same order. -/

/-- The keys that count for a node of some kind. -/
def NodeKey.slots (kind : NodeKey) : List (String × Role) := (forms.lookup kind.key).getD []

/-- Each form is told by the key of a kind. -/
theorem forms_eq_map : forms = NodeKey.all.map fun kind => (kind.key, kind.slots) :=
  -- The order matters here: both lists are searched from the front.
  rfl

/-- The keys that count are those of the kind that the reader finds first. -/
theorem slots?_eq (fields : List (String × Json)) :
    slots? fields = (NodeKey.ofFields? fields).map NodeKey.slots := by
  -- Both look for the first key that is there, one in the table and one among the kinds.
  rw [slots?, forms_eq_map, List.find?_map, Option.map_map]
  rfl

/-- A form that some fields are of is the form of a kind. -/
theorem exists_of_slots? {fields : List (String × Json)} {slots : List (String × Role)}
    (first : slots? fields = some slots) :
    ∃ kind, NodeKey.ofFields? fields = some kind ∧ kind.slots = slots := by
  -- The slots are looked up under the key that comes first.
  rwa [slots?_eq, Option.map_eq_some_iff] at first

/-! Reading succeeds if all the values under keys that count can be read. -/

/-- A field that need not be there is read unless its value cannot be. -/
theorem isSome_readOptional {fields : List (String × Json)} {key : String} {role : Role} :
    (readOptional fields key role).isSome = true ↔
      ∀ value, fields.lookup key = some value → (read role value).isSome = true := by
  -- A slot that is left out is read without fail.
  unfold readOptional
  cases fields.lookup key <;> simp

/-- If it does not matter what the first step gives, it matters whether it gives anything. -/
theorem any_const {α : Type} (first : Option α) (next : Bool) :
    first.any (fun _ => next) = (first.isSome && next) := by
  cases first <;> rfl

/-- A list is read if each item is. -/
theorem isSome_mapM {α β : Type} {step : α → Option β} {items : List α} :
    (items.mapM step).isSome = true ↔ ∀ item ∈ items, (step item).isSome = true := by
  -- The first item that is refused ends the reading, so all of them have to be accepted.
  induction items with
  | nil => simp
  | cons first rest ih => simp [Option.isSome_bind, any_const, ih]

/-- A field of an object is read if it is a pair of a name and a node. -/
theorem isSome_readSelector {value : Json} :
    (readSelector value).isSome = true ↔ ∃ name node,
      value = .array [.string name, node] ∧ (decode node).toOption.isSome = true := by
  -- Only a pair of a name and a node is looked into.
  fun_cases readSelector value with
  | case1 name node => simp [Option.isSome_bind]
  | case2 value other =>
    -- Anything else is refused, also an array of another length.
    refine iff_of_false Bool.false_ne_true ?_
    rintro ⟨name, node, rfl, -⟩
    exact other name node rfl

/-- A path with a name is read if all its slots are. -/
theorem isSome_readPath {fields : List (String × Json)}
    (named : (fields.lookup "path").isSome = true) :
    (readPath fields).isSome = true ↔
      ∀ slot ∈ pathSlots, (readOptional fields slot.1 slot.2).isSome = true := by
  -- Where a path has a name, the name may be read as if it were optional, like the other slots.
  have name : readOptional fields "path" .text = (readRequired fields "path" .text).map some :=
    readOptional_eq_readRequired .text named
  simp [readPath, pathSlots, name, Option.isSome_bind, any_const]

/-- What is read as a path has a name. -/
theorem isSome_lookup_of_readPath {fields : List (String × Json)}
    (success : (readPath fields).isSome = true) :
    (fields.lookup "path").isSome = true := by
  -- The name is read first, and without it nothing is read.
  rw [readPath, readRequired, Option.bind_eq_bind] at success
  cases found : fields.lookup "path" with
  | none => simp [found] at success
  | some name => rfl

/-- A node that has the key of its kind is read if all its slots are. -/
theorem isSome_readNode {fields : List (String × Json)} {kind : NodeKey}
    (present : (fields.lookup kind.key).isSome = true) :
    (readNode fields kind).isSome = true ↔
      ∀ slot ∈ kind.slots, (readOptional fields slot.1 slot.2).isSome = true := by
  have needed (role : Role) := readOptional_eq_readRequired role present
  cases kind with
  | path =>
    -- The type is read twice, for the node and for the last segment of the path.
    have typed : ("type", Role.text) ∈ NodeKey.path.slots := by decide
    simp only [readNode, Option.bind_eq_bind, Option.isSome_bind, Option.pure_def,
      Option.isSome_some, any_const, Bool.and_true, Bool.and_eq_true, isSome_readPath present]
    exact and_iff_right_of_imp fun each => each _ typed
  | _ =>
    simp only [NodeKey.key] at needed
    simp [readNode, NodeKey.slots, NodeKey.key, forms, List.lookup_cons, needed,
      Option.isSome_bind, any_const]

/-- Text is read if it spells what it is there for. -/
theorem isSome_read_string (text : String) (role : Role) :
    (read role (.string text)).isSome = true ↔ Fits role (.string text) := by
  -- A text is accepted in the roles of texts only, and for two of these it has to be a known one.
  cases role with
  | text => exact iff_of_true rfl (.text text)
  | literal => exact iff_of_true rfl (.string text)
  | operator =>
    refine Operator.isSome_ofId?.trans ⟨?_, fun fit => ?_⟩
    · rintro ⟨operator, rfl⟩
      exact .operator operator
    · cases fit with
      | operator operator => exact ⟨operator, rfl⟩
  | segmentKind =>
    refine SegmentKind.isSome_ofName?.trans ⟨.segmentKind, fun fit => ?_⟩
    cases fit with
    | segmentKind known => exact known
  | _ => exact iff_of_false Bool.false_ne_true (by rintro ⟨⟩)

/-- An array is read if it is fit, given that its items are. -/
theorem isSome_read_array {items : List Json}
    (each : ∀ item ∈ items, ∀ role, (read role item).isSome = true ↔ Fits role item) (role : Role) :
    (read role (.array items)).isSome = true ↔ Fits role (.array items) := by
  cases role with
  | nodes =>
    have all : (∀ item ∈ items, (decode item).toOption.isSome = true) ↔
        ∀ item ∈ items, Fits .node item :=
      forall₂_congr fun item among => each item among .node
    refine isSome_mapM.trans (all.trans ⟨.nodes, fun fit => ?_⟩)
    cases fit with
    | nodes each => exact each
  | selectors =>
    have all : (∀ item ∈ items, (readSelector item).isSome = true) ↔
        ∀ item ∈ items, Fits .selector item :=
      forall₂_congr fun item among => each item among .selector
    refine isSome_mapM.trans (all.trans ⟨.selectors, fun fit => ?_⟩)
    cases fit with
    | selectors each => exact each
  | selector =>
    -- Only the second item of a pair is a node.
    refine isSome_readSelector.trans ⟨?_, fun fit => ?_⟩
    · rintro ⟨name, node, pair, decoded⟩
      cases pair
      exact .selector name ((each node (by simp) .node).mp decoded)
    · cases fit with
      | selector name fit => exact ⟨name, _, rfl, (each _ (by simp) .node).mpr fit⟩
  | _ => exact iff_of_false Bool.false_ne_true (by rintro ⟨⟩)

/-- An object is read if it is fit, given that the values of its fields are. -/
theorem isSome_read_object {fields : List (String × Json)}
    (each : ∀ field ∈ fields, ∀ role, (read role field.2).isSome = true ↔ Fits role field.2)
    (role : Role) : (read role (.object fields)).isSome = true ↔ Fits role (.object fields) := by
  -- The value that is found under a key is one of those of the fields.
  have slot (slot : String × Role) : (readOptional fields slot.1 slot.2).isSome = true ↔
      ∀ value, fields.lookup slot.1 = some value → Fits slot.2 value := by
    refine isSome_readOptional.trans (forall₂_congr fun value found => ?_)
    obtain ⟨before, after, split, -⟩ := List.lookup_eq_some_iff.mp found
    exact each (slot.1, value) (by simp [split]) slot.2
  cases role with
  | path =>
    rw [read, toOption_decodePath]
    constructor
    · intro success
      have named := isSome_lookup_of_readPath success
      have all := (isSome_readPath named).mp success
      exact .path named fun key among => (slot key).mp (all key among)
    · intro fit
      cases fit with
      | path named all =>
        exact (isSome_readPath named).mpr fun key among => (slot key).mpr (all key among)
  | node =>
    rw [read, toOption_decode]
    constructor
    · intro success
      obtain ⟨tree, made⟩ := Option.isSome_iff_exists.mp success
      obtain ⟨kind, first, made⟩ := Option.bind_eq_some_iff.mp made
      have all := (isSome_readNode (isSome_lookup_of_ofFields? first)).mp (by rw [made]; rfl)
      have form : slots? fields = some kind.slots := by rw [slots?_eq, first, Option.map_some]
      exact .node form fun key among => (slot key).mp (all key among)
    · intro fit
      cases fit with
      | node form all =>
        obtain ⟨kind, first, rfl⟩ := exists_of_slots? form
        rw [first, Option.bind_some]
        exact (isSome_readNode (isSome_lookup_of_ofFields? first)).mpr fun key among =>
          (slot key).mpr (all key among)
  | _ => exact iff_of_false Bool.false_ne_true (by rintro ⟨⟩)

/-- The values that are read are those of the grammar, whatever they are there for. -/
theorem isSome_read {value : Json} (role : Role) :
    (read role value).isSome = true ↔ Fits role value := by
  -- What a value is there for changes on the way down, so the induction is for every role.
  induction value using Json.induct generalizing role with
  | null =>
    cases role with
    | literal => exact iff_of_true rfl .null
    | _ => exact iff_of_false Bool.false_ne_true (by rintro ⟨⟩)
  | boolean value =>
    cases role with
    | literal => exact iff_of_true rfl (.boolean value)
    | _ => exact iff_of_false Bool.false_ne_true (by rintro ⟨⟩)
  | number number =>
    cases role with
    | literal =>
      refine (isSome_literalOfNumber number).trans ⟨.number, fun fit => ?_⟩
      cases fit with
      | number supported => exact supported
    | _ => exact iff_of_false Bool.false_ne_true (by rintro ⟨⟩)
  | string text => exact isSome_read_string text role
  | array items ih => exact isSome_read_array ih role
  | object fields ih => exact isSome_read_object ih role

/-! Reading gives the same with and without the keys that do not count. -/

/-- Where no key counts no field is left. -/
theorem stripFields_nil (fields : List (String × Json)) : stripFields [] fields = [] := by
  -- No slot keeps a field.
  induction fields with
  | nil => rfl
  | cons field rest ih => exact ih

/-- The value under a key that counts is still there, stripped. -/
theorem lookup_stripFields {slots : List (String × Role)} {key : String} {role : Role}
    (counts : slots.lookup key = some role) (fields : List (String × Json)) :
    (stripFields slots fields).lookup key = (fields.lookup key).map (strip role) := by
  induction fields with
  | nil => rfl
  | cons field rest ih =>
    obtain ⟨first, value⟩ := field
    rw [stripFields, List.lookup_cons]
    -- A field is kept if its own key is a slot, whether or not it is the one in question.
    by_cases same : key = first
    · subst same
      simp [counts]
    · have apart : (key == first) = false := by simpa using same
      cases slots.lookup first with
      | none => simp [apart, ih]
      | some other => simp [List.lookup_cons, apart, ih]

/-- No key is new. -/
theorem lookup_stripFields_of_none {slots : List (String × Role)} {key : String}
    {fields : List (String × Json)} (missing : fields.lookup key = none) :
    (stripFields slots fields).lookup key = none := by
  -- Dropping fields and stripping values never brings in a key.
  induction fields with
  | nil => rfl
  | cons field rest ih =>
    obtain ⟨first, value⟩ := field
    rw [List.lookup_cons] at missing
    cases same : key == first with
    | true => simp [same] at missing
    | false =>
      rw [same] at missing
      rw [stripFields]
      cases slots.lookup first with
      | none => exact ih missing
      | some role => simpa [List.lookup_cons, same] using ih missing

/-- The key that tells the kind of a node counts for it. -/
theorem isSome_lookup_slots (kind : NodeKey) : (kind.slots.lookup kind.key).isSome = true := by
  cases kind <;> decide

/-- A stripped node is of the same kind. -/
theorem ofFields?_stripFields {fields : List (String × Json)} {kind : NodeKey}
    (first : NodeKey.ofFields? fields = some kind) :
    NodeKey.ofFields? (stripFields kind.slots fields) = some kind := by
  obtain ⟨present, before, after, order, earlier⟩ := List.find?_eq_some_iff_append.mp first
  refine List.find?_eq_some_iff_append.mpr ⟨?_, before, after, order, fun other among => ?_⟩
  · obtain ⟨role, counts⟩ := Option.isSome_iff_exists.mp (isSome_lookup_slots kind)
    rw [lookup_stripFields counts, Option.isSome_map]
    exact present
  -- The keys of the kinds that come first are missing, and stay so.
  · have missing : fields.lookup other.key = none := by
      simpa only [Bool.not_eq_true', Option.isSome_eq_false_iff, Option.isNone_iff_eq_none] using
        earlier other among
    rw [lookup_stripFields_of_none missing]
    rfl

/-- A list is read the same if each item is. -/
theorem mapM_stripAll {β : Type} {role : Role} {step : Json → Option β} {items : List Json}
    (each : ∀ item ∈ items, step (strip role item) = step item) :
    (stripAll role items).mapM step = items.mapM step := by
  -- Items are stripped where they stand, so they are read in the same order.
  induction items with
  | nil => rfl
  | cons first rest ih =>
    rw [List.forall_mem_cons] at each
    rw [stripAll, List.mapM_cons, List.mapM_cons, each.1, ih each.2]

section

-- The fields of an object whose values are read the same when they are stripped.
variable {fields : List (String × Json)}
  (each : ∀ field ∈ fields, ∀ role, read role (strip role field.2) = read role field.2)

include each

/-- A field that has to be there is read the same. -/
theorem readRequired_stripFields {slots : List (String × Role)} {key : String} {role : Role}
    (counts : slots.lookup key = some role) :
    readRequired (stripFields slots fields) key role = readRequired fields key role := by
  -- The first field of that key is the same in both, with its value stripped.
  rw [readRequired, readRequired, lookup_stripFields counts]
  cases found : fields.lookup key with
  | none => rfl
  | some value =>
    obtain ⟨before, after, split, -⟩ := List.lookup_eq_some_iff.mp found
    exact each (key, value) (by simp [split]) role

/-- A field that need not be there is read the same. -/
theorem readOptional_stripFields {slots : List (String × Role)} {key : String} {role : Role}
    (counts : slots.lookup key = some role) :
    readOptional (stripFields slots fields) key role = readOptional fields key role := by
  -- A field that is missing stays missing, and one that is there is read as required.
  rw [readOptional, readOptional, lookup_stripFields counts]
  cases found : fields.lookup key with
  | none => rfl
  | some value =>
    obtain ⟨before, after, split, -⟩ := List.lookup_eq_some_iff.mp found
    exact congrArg (Option.map some) (each (key, value) (by simp [split]) role)

/-- A path is read the same. -/
theorem readPath_stripFields :
    readPath (stripFields pathSlots fields) = readPath fields := by
  rw [readPath, readPath]
  simp (disch := decide) only [readRequired_stripFields each, readOptional_stripFields each]

/-- A node is read the same, as all the keys that are read count for its kind. -/
theorem readNode_stripFields (kind : NodeKey) :
    readNode (stripFields kind.slots fields) kind = readNode fields kind := by
  -- Each form reads its slots and no other field, so the same argument serves all of them.
  have path : NodeKey.path.slots = pathSlots := rfl
  rw [readNode, readNode]
  cases kind <;>
    simp (disch := decide) only [readRequired_stripFields each, readOptional_stripFields each,
      path, readPath_stripFields each]

end

/-- A value is read the same without the keys that do not count, whatever it is there for. -/
theorem read_strip {value : Json} (role : Role) : read role (strip role value) = read role value := by
  -- Roles decide what is looked into below, so the role is general.
  induction value using Json.induct generalizing role with
  | null | boolean | number | string => cases role <;> rfl
  | array items ih =>
    cases role with
    -- In the two roles of lists every item is read by itself.
    | nodes =>
      rw [strip]
      exact mapM_stripAll fun item among => ih item among .node
    | selectors =>
      rw [strip]
      exact mapM_stripAll fun item among => ih item among .selector
    -- Of a pair only the node is stripped further.
    | selector =>
      match items, ih with
      | [], _ | [_], _ | _ :: _ :: _ :: _, _ => simp [strip, read, readSelector]
      | [name, node], ih =>
        have same : (decode (strip .node node)).toOption = (decode node).toOption :=
          ih node (by simp) .node
        rw [strip, read, read]
        cases name with
        | string name =>
          have plain : strip .text (.string name) = .string name := rfl
          rw [plain, readSelector, readSelector, same]
        | _ => rfl
    | _ => rfl
  | object fields ih =>
    cases role with
    | path =>
      rw [strip, read, read, toOption_decodePath, toOption_decodePath, readPath_stripFields ih]
    -- The form is chosen by a key that stripping keeps, so the same form is read.
    | node =>
      rw [strip, read, read, toOption_decode, toOption_decode, slots?_eq]
      cases first : NodeKey.ofFields? fields with
      | none =>
        rw [Option.map_none, Option.getD_none, stripFields_nil]
        rfl
      | some kind =>
        rw [Option.map_some, Option.getD_some, ofFields?_stripFields first]
        exact readNode_stripFields ih kind
    | _ => rfl

/-- What is decoded are the nodes of the grammar, and two values that are the same but for keys that do
not count are decoded to the same tree, or neither is. -/
theorem decode_iff_fits (value : Json) :
    ((∃ tree, decode value = .ok tree) ↔ Fits .node value) ∧
      ∀ other, strip .node other = strip .node value →
        (decode other).toOption = (decode value).toOption := by
  constructor
  -- That the node fits is what being read in the role of a node means.
  · rw [← isSome_read, read]
    cases decode value <;> simp [Except.toOption]
  -- Values that agree after stripping are read like the stripped value.
  · intro other same
    have stripped : (decode (strip .node other)).toOption = (decode (strip .node value)).toOption :=
      congrArg (fun value => (decode value).toOption) same
    have left : (decode (strip .node other)).toOption = (decode other).toOption := read_strip .node
    have right : (decode (strip .node value)).toOption = (decode value).toOption := read_strip .node
    rw [← left, stripped, right]

/-- Keys of other kinds of node and unknown keys do not count, nor does any kind of node for a parent. -/
theorem decode_iff_fits_other_keys :
    let plain : Json := .object [
      ("args", .array [.object [
        ("parent", .object [("path", .string "order")]), ("path", .string "closed")]]),
      ("op", .string "NOT")]
    let other : Json := .object [
      ("args", .array [.object [
        ("args", .null),
        ("parent", .object [("constant", .boolean true), ("path", .string "order")]),
        ("path", .string "closed")]]),
      ("note", .object [("type", .null)]), ("op", .string "NOT"), ("template", .null)]
    Fits .node plain ∧ strip .node other = strip .node plain ∧
      (decode other).toOption = (decode plain).toOption :=
  ⟨(decode_iff_fits _).1.mp ⟨_, rfl⟩, rfl, (decode_iff_fits _).2 _ rfl⟩

end Encoding

end IndexQuery
