import IndexQuery.Encoding.Decode
import IndexQuery.Encoding.Encode
import IndexQuery.Expr.Roots
import IndexQuery.Json.Parser
import IndexQuery.Pass.Run

/-! One task on an expression given as text. -/

namespace IndexQuery.Command

/-- What to do with an expression. -/
inductive Task where
  /-- List the roots it reads, or only those that it does not bind. -/
  | roots (freeOnly : Bool)
  /-- Write its query text. -/
  | render
  | transform (pass : Pass)
deriving DecidableEq

/-- Why a task has no answer. -/
inductive Failure where
  | decode (error : DecodeError)
  | shape (error : ShapeError)
  | invalidJson
  | noInput
deriving DecidableEq

/-- The message for a failure. -/
def Failure.message : Failure → String
  | .decode error => "Invalid expression tree: " ++ error.message
  | .shape error => "Rewrite failed: " ++ error.message
  | .invalidJson => "Invalid JSON: the input is not a single JSON value"
  | .noInput => "No input provided. Use --input or pipe a JSON expression tree to stdin."

/-- The answer of a task. -/
inductive Answer where
  | roots (names : List String)
  | text (text : String)
  /-- An encoded expression, and whether it differs from the input. -/
  | tree (tree : Json) (changed : Bool)

/-- Runs a pass on an expression, whose nodes get the first identities. -/
def transform (pass : Pass) (options : Options) (tree : Tree) :
    Except ShapeError Answer := do
  let (node, nextNode) := tree.fresh 0
  -- New nodes are numbered after those of the input, so one that was kept is told by its identity.
  let result ← (pass.run options node nextNode).1
  return .tree (Encoding.encode result) (result.label ≠ node.label)

/-- Does a task on an expression. -/
def executeTree (task : Task) (options : Options) (tree : Tree) : Except ShapeError Answer :=
  match task with
  | .roots false => .ok (.roots tree.roots)
  | .roots true => .ok (.roots tree.freeRoots)
  | .render => .ok (.text tree.render)
  | .transform pass => transform pass options tree

/-- Does a task on an encoded expression. -/
def executeJson (task : Task) (options : Options) (value : Json) : Except Failure Answer := do
  let tree ← (Encoding.decode value).mapError Failure.decode
  (executeTree task options tree).mapError Failure.shape

/-- Does a task on the text of an encoded expression, if there is one. -/
def execute (task : Task) (options : Options) (input? : Option String) : Except Failure Answer :=
  match input? with
  | none => .error .noInput
  | some input =>
    match Json.parse? input with
    | none => .error .invalidJson
    | some value => executeJson task options value

end IndexQuery.Command
