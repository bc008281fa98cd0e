import IndexQuery.Json.Token

/-! The structured value that a text spells. -/

namespace IndexQuery.Json

/-- An array or an object around the value being read; items come last one first. -/
inductive Frame where
  | array (items : List Json)
  | object (fields : List (String × Json)) (key : String)

/-- What may follow the tokens read so far. -/
inductive Progress where
  | atValue (frames : List Frame)
  | atItemOrEnd (frames : List Frame)
  | atCommaOrEndOfArray (items : List Json) (frames : List Frame)
  | atKeyOrEnd (frames : List Frame)
  | atKey (fields : List (String × Json)) (frames : List Frame)
  | atColon (fields : List (String × Json)) (key : String) (frames : List Frame)
  | atCommaOrEndOfObject (fields : List (String × Json)) (frames : List Frame)
  | atEnd (value : Json)

namespace Progress

/-- How many arrays and objects may stand inside one another. -/
def depthLimit : Nat := 127

/-- Puts a finished value where it belongs. -/
def complete (value : Json) : List Frame → Progress
  | [] => .atEnd value
  | .array items :: frames => .atCommaOrEndOfArray (value :: items) frames
  | .object fields key :: frames => .atCommaOrEndOfObject (insertField key value fields) frames

/-- Reads the first token of a value. -/
def begin (frames : List Frame) : Token → Option Progress
  | .scalar value => some (complete value frames)
  | .text text => some (complete (.string text) frames)
  -- The frames around a value are counted before it gets one of its own.
  | .openArray => if frames.length < depthLimit then some (.atItemOrEnd frames) else none
  | .openObject => if frames.length < depthLimit then some (.atKeyOrEnd frames) else none
  | _ => none

/-- Reads one token. -/
def step : Progress → Token → Option Progress
  | .atValue frames, token => begin frames token
  | .atItemOrEnd frames, .closeArray => some (complete (.array []) frames)
  -- An array that does not end at once begins with an item.
  | .atItemOrEnd frames, token => begin (.array [] :: frames) token
  | .atCommaOrEndOfArray items frames, .comma => some (.atValue (.array items :: frames))
  | .atCommaOrEndOfArray items frames, .closeArray => some (complete (.array items.reverse) frames)
  | .atKeyOrEnd frames, .closeObject => some (complete (.object []) frames)
  | .atKeyOrEnd frames, .text key => some (.atColon [] key frames)
  -- After a comma a key has to follow, so an object cannot end there.
  | .atKey fields frames, .text key => some (.atColon fields key frames)
  | .atColon fields key frames, .colon => some (.atValue (.object fields key :: frames))
  | .atCommaOrEndOfObject fields frames, .comma => some (.atKey fields frames)
  | .atCommaOrEndOfObject fields frames, .closeObject => some (complete (.object fields) frames)
  | _, _ => none

/-- The value read, when nothing more can follow. -/
def finished? : Progress → Option Json
  | .atEnd value => some value
  | _ => none

end Progress

/-- The value that a text spells, if it spells one. -/
def parse? (text : String) : Option Json := do
  let tokens ← Token.ofText? text.toList
  (← tokens.foldlM Progress.step (.atValue [])).finished?

end IndexQuery.Json
