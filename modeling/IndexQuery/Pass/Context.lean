import IndexQuery.Expr.Fresh
import IndexQuery.Pass.ShapeError

/-! The state that a pass carries from node to node. -/

namespace IndexQuery

/-- How the variables that passes invent are named. -/
structure Options where
  /-- What every invented name starts with. -/
  stem : String := "transId_"
  /-- The number of the first invented name, of 64 bits. -/
  first : Nat := 0
deriving DecidableEq

/-- What a pass knows while it visits an expression. -/
structure Context where
  options : Options
  /-- Whether anything was replaced since the flag was last cleared. -/
  replaced : Bool
  /-- Paths to replace, in the order in which they were registered. -/
  substitutions : List (Path × Node)
  /-- The number of the next invented name. It has no bound here, where a counter of 64 bits would overflow
  once the last number of 64 bits has been taken. -/
  nextTransient : Nat
  /-- The nodes being visited, innermost first. -/
  ancestors : List Node
  /-- The identity of the next new node. -/
  nextNode : NodeId
deriving DecidableEq

namespace Context

/-- The state at the start of a pass, with the given supply of identities. -/
def start (options : Options) (nextNode : NodeId) : Context where
  options := options
  replaced := false
  substitutions := []
  nextTransient := options.first
  ancestors := []
  nextNode := nextNode

/-- Records that something was replaced. -/
def mark (context : Context) : Context := { context with replaced := true }

/-- Clears the flag and gives back its value. -/
def enter (context : Context) : Bool × Context :=
  (context.replaced, { context with replaced := false })

/-- Gives the flag raised since it was cleared, and merges it into the earlier one. -/
def leave (context : Context) (earlier : Bool) : Bool × Context :=
  (context.replaced, { context with replaced := earlier || context.replaced })

/-- Registers a path to replace from now on. -/
def substitute (context : Context) (path : Path) (replacement : Node) : Context :=
  -- A path that is registered already keeps its first replacement.
  { context with substitutions := context.substitutions ++ [(path, replacement)] }

/-- What a path is replaced by: the first registration for it counts. -/
def replacement? (context : Context) (path : Path) : Option Node :=
  context.substitutions.lookup path

/-- Takes the number of the next invented name. -/
def freshNumber (context : Context) : Nat × Context :=
  (context.nextTransient, { context with nextTransient := context.nextTransient + 1 })

/-- The invented name with the given number. -/
def transientName (options : Options) (number : Nat) : String := options.stem ++ number.repr

/-- Takes the next invented name. -/
def freshName (context : Context) : String × Context :=
  (transientName context.options context.nextTransient, context.freshNumber.2)

/-- Starts the visit of a node. -/
def push (context : Context) (node : Node) : Context :=
  { context with ancestors := node :: context.ancestors }

/-- Ends the visit of the innermost node. -/
def pop (context : Context) : Option Node × Context :=
  (context.ancestors.head?, { context with ancestors := context.ancestors.tail })

/-- The node being visited at some distance from the innermost one. -/
def ancestor? (context : Context) (distance : Nat) : Option Node := context.ancestors[distance]?

/-- Builds nodes with identities from the supply. -/
def build {α : Type} (nodes : Fresh α) (context : Context) : α × Context :=
  let (built, nextNode) := nodes context.nextNode
  (built, { context with nextNode })

end Context

/-- Steps of a pass: they read and change the state, also when they fail. -/
abbrev PassM := ExceptT ShapeError (StateM Context)

namespace PassM

variable {α : Type}

/-- Applies a change of state that gives a result. -/
def change (step : Context → α × Context) : PassM α := ExceptT.lift step

/-- Builds nodes with new identities. -/
def build (nodes : Fresh α) : PassM α := change (Context.build nodes)

/-- Records that something was replaced. -/
def mark : PassM Unit := change fun context => ((), context.mark)

/-- Takes steps with a cleared flag, tells whether they raised it, and merges the flag back. -/
def isolated (steps : PassM α) : PassM (α × Bool) := do
  let earlier ← change Context.enter
  let result ← steps
  -- A failure ends the steps before this, and the earlier flag is lost with it.
  let dirty ← change (·.leave earlier)
  return (result, dirty)

/-- Takes steps with a node on the ancestor stack, which leaves it also after a failure. -/
def visiting (node : Node) (steps : PassM α) : PassM α := fun context =>
  -- The steps are run by hand, since what follows a failure in `do` is skipped.
  let (outcome, after) := steps (context.push node)
  (outcome, after.pop.2)

end PassM

end IndexQuery
