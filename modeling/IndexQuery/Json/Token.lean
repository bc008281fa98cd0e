import IndexQuery.Json.Value

/-! The tokens of structured text, read character by character. -/

namespace IndexQuery.Json

/-- A token of structured text. -/
inductive Token where
  | openArray
  | closeArray
  | openObject
  | closeObject
  | comma
  | colon
  | text (value : String)
  /-- A number, or one of the three literal names. -/
  | scalar (value : Json)

namespace Token

/-- The token that a punctuation mark is. -/
def ofMark? (c : Char) : Option Token :=
  if c = '[' then some .openArray
  else if c = ']' then some .closeArray
  else if c = '\x7b' then some .openObject
  else if c = '\x7d' then some .closeObject
  else if c = ',' then some .comma
  else if c = ':' then some .colon
  else none

/-- Whether a character may stand between tokens. -/
def isBlank (c : Char) : Bool := c = ' ' || c = '\t' || c = '\n' || c = '\r'

/-- The value of a word: a literal name or a number. -/
def ofWord? (word : List Char) : Option Token :=
  if word = "null".toList then some (.scalar .null)
  else if word = "true".toList then some (.scalar (.boolean true))
  else if word = "false".toList then some (.scalar (.boolean false))
  else (JsonNumber.ofText? word).map fun value => .scalar (.number value)

/-- The character that a letter after a backslash stands for. -/
def escaped? (c : Char) : Option Char :=
  if c = '"' || c = '\\' || c = '/' then some c
  else if c = 'b' then some '\x08'
  else if c = 'f' then some '\x0c'
  else if c = 'n' then some '\n'
  else if c = 'r' then some '\r'
  else if c = 't' then some '\t'
  else none

/-- The value of a hexadecimal digit. -/
def hexDigit? (c : Char) : Option Nat :=
  if c.isDigit then some (c.toNat - '0'.toNat)
  else if 'a' ≤ c ∧ c ≤ 'f' then some (c.toNat - 'a'.toNat + 10)
  else if 'A' ≤ c ∧ c ≤ 'F' then some (c.toNat - 'A'.toNat + 10)
  else none

/-- Where in a token a reader is; the characters of the token come last one first. -/
inductive Place where
  | between
  | word (read : List Char)
  | text (read : List Char)
  /-- After a backslash. -/
  | escape (read : List Char)
  /-- Among four hexadecimal digits, of which the value and the count are known. -/
  | code (read : List Char) (high : Option Nat) (value count : Nat)
  /-- After the first half of a surrogate pair, and maybe after a backslash. -/
  | half (read : List Char) (high : Nat) (backslash : Bool)

/-- A reader of tokens; those it has read come last one first. -/
structure Reader where
  place : Place
  tokens : List Token

namespace Reader

/-- Whether a character ends a word. -/
def endsWord (c : Char) : Bool := isBlank c || c = '"' || (ofMark? c).isSome

/-- Reads a character that is not part of a token begun earlier. -/
def begin (tokens : List Token) (c : Char) : Reader :=
  if isBlank c then ⟨.between, tokens⟩
  else if c = '"' then ⟨.text [], tokens⟩
  else
    match ofMark? c with
    | some token => ⟨.between, token :: tokens⟩
    | none => ⟨.word [c], tokens⟩

/-- Goes on with a text after a four-digit code; half a surrogate pair is no character. -/
def endCode (read : List Char) (high : Option Nat) (code : Nat) : Option Place :=
  let isHigh := 0xD800 ≤ code ∧ code < 0xDC00
  let isLow := 0xDC00 ≤ code ∧ code < 0xE000
  match high with
  | none =>
    if isHigh then some (.half read code false)
    else if isLow then none
    else some (.text (Char.ofNat code :: read))
  | some high =>
    if isLow then
      some (.text (Char.ofNat (0x10000 + (high - 0xD800) * 0x400 + (code - 0xDC00)) :: read))
    else none

/-- Reads one character; an invalid one ends the reading. -/
def step (reader : Reader) (c : Char) : Option Reader :=
  match reader.place with
  | .between => some (begin reader.tokens c)
  | .word read =>
    -- The character that ends a word is the beginning of what follows.
    if endsWord c then (ofWord? read.reverse).map fun token => begin (token :: reader.tokens) c
    else some { reader with place := .word (c :: read) }
  | .text read =>
    if c = '"' then some ⟨.between, .text (String.ofList read.reverse) :: reader.tokens⟩
    else if c = '\\' then some { reader with place := .escape read }
    -- Control characters have to be escaped.
    else if c.toNat < 0x20 then none
    else some { reader with place := .text (c :: read) }
  | .escape read =>
    if c = 'u' then some { reader with place := .code read none 0 0 }
    else (escaped? c).map fun character => { reader with place := .text (character :: read) }
  | .code read high value count => do
    let value := 16 * value + (← hexDigit? c)
    let place ← if count < 3 then pure (.code read high value (count + 1))
      else endCode read high value
    return { reader with place }
  | .half read high backslash =>
    -- Nothing may stand between the two halves, each of which is a code of its own.
    if backslash then
      if c = 'u' then some { reader with place := .code read (some high) 0 0 } else none
    else if c = '\\' then some { reader with place := .half read high true }
    else none

/-- The tokens read, when no token is left open. -/
def finish (reader : Reader) : Option (List Token) :=
  match reader.place with
  | .between => some reader.tokens.reverse
  -- The end of the text ends a word as well, and leaves a quotation open.
  | .word read => (ofWord? read.reverse).map fun token => (token :: reader.tokens).reverse
  | _ => none

end Reader

/-- The tokens of a text. -/
def ofText? (text : List Char) : Option (List Token) :=
  (text.foldlM Reader.step ⟨.between, []⟩).bind Reader.finish

end Token

end IndexQuery.Json
