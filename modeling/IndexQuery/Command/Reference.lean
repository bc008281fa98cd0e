import IndexQuery.Operator

/-! The reference texts of the command line: the encoding of expressions, and the operators. -/

namespace IndexQuery.Command

/-- The lines that describe the passes and the encoding of expressions. -/
def overviewLines : List String :=
  [
    "LINQ-REWRITE",
    "",
    "Rewrites query and index-definition expression trees into the canonical form",
    "of the map/reduce indexing language. Trees are read as JSON from --input or",
    "stdin.",
    "",
    "PASSES",
    "",
    "  roots             Root identifiers the tree reads from (--free skips lambda-bound ones)",
    "  select-many       SELECT_MANY -> SELECT_MANY_TRANSLATED(source, outer, selector)",
    "  expand-any        comparisons on any-paths -> ANY(collection, predicate)",
    "  render            template text of the tree",
    "",
    "TREE ENCODING",
    "",
    "  \x7b\"constant\": \"bob\"\x7d                              literal; numbers with a fraction are exact decimals",
    "  \x7b\"path\": \"x\"\x7d                                    root variable",
    "  \x7b\"path\": \"Name\", \"parent\": \x7b\"path\": \"x\"\x7d\x7d        property x.Name",
    "  \x7b\"path\": \"any\", \"kind\": \"any\", \"parent\": P\x7d      \"any element of\" P",
    "  \x7b\"op\": \"EQ\", \"args\": [A, B]\x7d                     operation (see 'linq-rewrite operators')",
    "  \x7b\"new\": [[\"X\", A], [\"C\", B]]\x7d                    anonymous object new \x7b X = A, C = B \x7d",
    "  \x7b\"param\": \"minTotal\"\x7d                            query parameter",
    "  \x7b\"subquery\": T\x7d                                  nested query, never rewritten",
    "  \x7b\"template\": \"\x7b0\x7d.Length\", \"args\": [A]\x7d          raw template, never parsed",
    "",
    "  Every node accepts an optional \"type\": boolean, string, number, collection,",
    "  anonymous, expression, or a domain class name. A class whose name is one",
    "  of those reserved words is written \"class:<name>\", e.g. \"class:string\".",
    "",
    "EXAMPLE",
    "",
    "  echo '\x7b\"op\": \"EQ\", \"args\": [",
    "          \x7b\"path\": \"any\", \"kind\": \"any\", \"parent\": \x7b\"path\": \"Tags\", \"parent\": \x7b\"path\": \"x\"\x7d\x7d\x7d,",
    "          \x7b\"constant\": \"urgent\"\x7d]\x7d' | linq-rewrite expand-any"
  ]

/-- Lines of text, each one ended. -/
def endLines (lines : List String) : String := String.join (lines.map (· ++ "\n"))

/-- The description of the passes and of the encoding of expressions. -/
def encodingOverview : String := endLines overviewLines

/-- A text followed by blanks up to a width. -/
def padTo (width : Nat) (text : String) : String :=
  text ++ String.ofList (List.replicate (width - text.length) ' ')

/-- The line that describes an operator: its identifier, then its template. -/
def operatorLine (operator : Operator) : String :=
  "  " ++ padTo 24 operator.id ++ operator.template

/-- The list of all operators with their templates. -/
def operatorReference : String :=
  endLines ("OPERATORS" :: "" :: Operator.all.map operatorLine)

end IndexQuery.Command
