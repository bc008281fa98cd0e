import IndexQuery.Pass.AnyQuantifier
import IndexQuery.Pass.FlatMap

/-! The passes by name, and runs of them from a new state. -/

namespace IndexQuery

/-- A pass over an expression. -/
inductive Pass where
  /-- Flat maps in canonical form. -/
  | normalizeFlatMaps
  /-- Quantifiers for element markers. -/
  | expandMarkers
deriving DecidableEq

namespace Pass

/-- What a pass makes of an expression. -/
def apply : Pass → Node → PassM Node
  | .normalizeFlatMaps => FlatMap.normalize
  | .expandMarkers => AnyQuantifier.expand

/-- Runs a pass on an expression in a given state; the state after it comes back in any case. -/
def runIn (pass : Pass) (node : Node) (context : Context) :
    Except ShapeError Node × Context :=
  pass.apply node context

/-- Runs a pass on an expression in a new state. -/
def run (pass : Pass) (options : Options) (node : Node) (nextNode : NodeId) :
    Except ShapeError Node × Context :=
  pass.runIn node (Context.start options nextNode)

end Pass

end IndexQuery
