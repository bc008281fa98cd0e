import IndexQuery.Command.Arguments
import IndexQuery.Command.Reference
import IndexQuery.Json.Printer

/-! What the program prints for a command line and an input. -/

namespace IndexQuery.Command

/-- What a run of the program leaves: an exit code and two texts. -/
structure Outcome where
  code : Nat
  output : String
  errors : String
deriving DecidableEq

/-- The name of the program and its version. -/
def versionLine : String := "linq-rewrite 0.1.0\n"

/-- The outcome for wrong arguments. -/
def usageError : Outcome := ⟨2, "", "error: unknown or malformed arguments\n"⟩

/-- An answer as it is printed. -/
def printAnswer (pretty : Bool) : Answer → String
  | .text text => text ++ "\n"
  | .roots names => printValue (.array (names.map .string))
  | .tree tree _ => printValue tree
where
  /-- A value on one line or indented, and ended. -/
  printValue (value : Json) : String := (if pretty then value.pretty 0 else value.compact) ++ "\n"

/-- The outcome of a request, given the standard input if there is one. -/
def Request.outcome (standardInput? : Option String) : Request → Outcome
  | .version => ⟨0, versionLine, ""⟩
  | .overview => ⟨0, encodingOverview, ""⟩
  | .operators => ⟨0, operatorReference, ""⟩
  | .run task options input? pretty =>
    -- An input given as an option comes before the standard one.
    match execute task options (input? <|> standardInput?) with
    | .ok answer => ⟨0, printAnswer pretty answer, ""⟩
    | .error failure => ⟨1, "", failure.message ++ "\n"⟩

/-- The outcome of a run with the given arguments. -/
def run (arguments : List String) (standardInput? : Option String) : Outcome :=
  match Request.ofArguments? false arguments with
  | none => usageError
  | some request => request.outcome standardInput?

end IndexQuery.Command
