import IndexQuery.Json.Number

/-! Structured values, with object fields in ascending order of their keys. -/

namespace IndexQuery

/-- A structured value. -/
inductive Json where
  | null
  | boolean (value : Bool)
  | number (value : JsonNumber)
  | string (value : String)
  | array (items : List Json)
  | object (fields : List (String × Json))

namespace Json

/-- Adds a field in its place; a field of the same key gives way. -/
def insertField (key : String) (value : Json) : List (String × Json) → List (String × Json)
  | [] => [(key, value)]
  | (first, held) :: rest =>
    -- The fields are in ascending order, so the place is in front of the first greater key.
    if key = first then (key, value) :: rest
    else if key < first then (key, value) :: (first, held) :: rest
    else (first, held) :: insertField key value rest

/-- The object with the given fields, the last of each key. -/
def ofFields (fields : List (String × Json)) : Json :=
  .object (fields.foldl (fun held (key, value) => insertField key value held) [])

/-- The whole number of a natural number. -/
def ofNat (value : Nat) : Json := .number (.integer value)

/-- The fields of an object. -/
def fields? : Json → Option (List (String × Json))
  | .object fields => some fields
  | _ => none

/-- The value of a field of an object. -/
def get? (value : Json) (key : String) : Option Json :=
  value.fields?.bind (·.lookup key)

/-- The text of a string value. -/
def text? : Json → Option String
  | .string text => some text
  | _ => none

/-- The items of an array. -/
def items? : Json → Option (List Json)
  | .array items => some items
  | _ => none

/-- The truth value of a boolean. -/
def truth? : Json → Option Bool
  | .boolean value => some value
  | _ => none

/-- The value of a whole number. -/
def integer? : Json → Option Int
  | .number (.integer value) => some value
  | _ => none

end Json

end IndexQuery
