import IndexQuery.Number.Digits

/-! Filling the numbered holes of a template in one pass over its text. -/

namespace IndexQuery.Template

/-- The character that opens a hole. -/
def opening : Char := '\x7b'

/-- The character that closes a hole. -/
def closing : Char := '\x7d'

/-- The argument that the digits of a hole call for, if there is one. -/
def argument? (args : List (List Char)) (digits : List Char) : Option (List Char) :=
  (Digits.read? digits).bind fun position => args[position]?

/-- Copies a text and fills its holes; `hole` holds the digits after an opening still unclosed. -/
def scan (args : List (List Char)) : (hole : Option (List Char)) → List Char → List Char
  | none, [] => []
  | none, c :: rest => if c = opening then scan args (some []) rest else c :: scan args none rest
  | some digits, [] => opening :: digits
  | some digits, c :: rest =>
    if c.isDigit then scan args (some (digits ++ [c])) rest
    -- The text of an argument is not scanned again.
    else
      match if c = closing then argument? args digits else none with
      | some text => text ++ scan args none rest
      | none =>
        -- What stands here is no hole, so it is copied and the next character starts afresh.
        opening :: digits ++
          if c = opening then scan args (some []) rest else c :: scan args none rest

/-- The template with every hole that names an argument replaced by the text of that argument. -/
def fill (template : String) (args : List String) : String :=
  String.ofList (scan (args.map String.toList) none template.toList)

end IndexQuery.Template
