import IndexQuery.Pass.FlatMap
import IndexQuery.Proofs.Pass.Steps

/-! Flat maps put into canonical form by plain recursion: no labels, no flag, every node anew. -/

namespace IndexQuery.FlatMap.Plain

open Steps

/-- What a plain walk carries from expression to expression. -/
structure State where
  options : Options
  /-- Paths to replace, in the order in which they were registered. -/
  substitutions : List (Path × Tree)
  /-- The number of the next invented name. -/
  nextTransient : Nat

namespace State

/-- What a path is replaced by: the first registration for it counts. -/
def replacement? (state : State) (path : Path) : Option Tree := state.substitutions.lookup path

/-- The invented variable that comes next. -/
def transient (state : State) : Path :=
  .ofVariable (Context.transientName state.options state.nextTransient) .anonymous

/-- The path that stands for another one on the invented variable that comes next. -/
def member (state : State) (path : Path) : Path :=
  state.transient.property path.memberName path.type

/-- Registers two variables to be replaced by members of the next invented variable. -/
def pair (state : State) (element partner : Path) : State where
  options := state.options
  substitutions := state.substitutions ++
    [(element, .path () (state.member element)), (partner, .path () (state.member partner))]
  nextTransient := state.nextTransient + 1

/-- The replacement for a path, or for its parents with the rest of its segments added. -/
def rename (state : State) : Path → Except ShapeError (Option Tree)
  | .root segment => .ok (state.replacement? (.root segment))
  | .member parent segment =>
    match state.rename parent with
    | .error fault => .error fault
    -- A path is looked up itself only if none of its parents is registered.
    | .ok none => .ok (state.replacement? (.member parent segment))
    | .ok (some (.path _ newParent)) => .ok (some (.path () (newParent.member segment)))
    | .ok (some other) => .error (.nonPathParent (parent.member segment).dotted other.render)

/-- Whether a path or one of its parents is registered. -/
def hits (state : State) : Path → Bool
  | .root segment => (state.replacement? (.root segment)).isSome
  | .member parent segment =>
    state.hits parent || (state.replacement? (.member parent segment)).isSome

end State

/-- Steps of a plain walk. -/
abbrev Walk := ExceptT ShapeError (StateM State)

/-- A lambda from a parameter to a body. -/
def lambda (parameter body : Tree) : Tree := .operation () .lambda .expression [parameter, body]

/-- A named selector of an object. -/
def field (name : String) (target : Path) : Tree :=
  .operation () .list .expression [.constant () (.string name) .string, .path () target]

/-- The object that pairs two variables. -/
def pairObject (element partner : Path) : Tree :=
  .factory () .anonymous
    [field (Text.capitalize element.name) element, field (Text.capitalize partner.name) partner]

/-- The canonical form of a flat map, given the selector. -/
def canonical (type : ValueType) (flatMap : FlatMap Unit) (selector : Tree) : Tree :=
  let element : Tree := .path () flatMap.element.rootPath
  let parameters : Tree := .operation () .wrapped .expression
    [.operation () .list .expression [element, .path () flatMap.partner]]
  .operation () .canonicalFlatMap type
    [flatMap.source, lambda element flatMap.body, lambda parameters selector]

/-- Puts a flat map with normalized arguments into canonical form. -/
def canonicalize (tree : Tree) (type : ValueType) (args : List Tree) : Walk Tree := do
  let flatMap ← ofArgs tree args
  match flatMap.selector? with
  | some selector => return canonical type flatMap selector
  | none =>
    -- What is visited later reads the two variables through the object.
    modify (·.pair flatMap.element flatMap.partner)
    return canonical type flatMap (pairObject flatMap.element flatMap.partner)

/-- An operation whose arguments are normalized, built anew. -/
def rebuild (tree : Tree) (operator : Operator) (type : ValueType) (args : List Tree) : Walk Tree :=
  match operator, args with
  -- The parameter was a variable that has been renamed to a member of an invented one.
  | .lambda, .path _ (.member parent segment) :: bodies =>
    return .operation () .lambda type (.path () (parent.member segment).rootPath :: bodies)
  | .flatMap, args => canonicalize tree type args
  | _, _ => return .operation () operator type args

mutual

/-- Puts every flat map of an expression into canonical form, innermost first. -/
def normalize : Tree → Walk Tree
  | .operation label operator type args => do
    rebuild (.operation label operator type args) operator type (← normalizeAll args)
  | .factory _ type args => do return .factory () type (← normalizeAll args)
  | .path label target => do
    return (← (← get).rename target).getD (.path label target)
  | .constant label value type => return .constant label value type
  | .param label name type => return .param label name type
  | .subquery label query => return .subquery label query
  | .template label text type args => return .template label text type args

/-- Normalizes a list of expressions, left to right. -/
def normalizeAll : List Tree → Walk (List Tree)
  | [] => return []
  | first :: rest => do return (← normalize first) :: (← normalizeAll rest)

end

/-- Whether an expression is one whose arguments are normalized. -/
def looksInto {Label : Type} : Expr Label → Bool
  | .operation .. | .factory .. => true
  | .constant .. | .path .. | .param .. | .subquery .. | .template .. => false

/-- Whether an operation with the given normalized arguments is itself rewritten. -/
def rewrites {Label : Type} : Operator → List (Expr Label) → Bool
  | .flatMap, _ => true
  | .lambda, .path _ parameter :: _ => !parameter.isRoot
  | _, _ => false

mutual

/-- Whether something is rewritten anywhere in an expression: a path that is registered, a lambda
bound to a member, or a flat map. -/
def fires : Tree → State → Bool
  | .operation _ operator _ args, state =>
    -- An operation is rewritten by the look of its normalized arguments, if they can be normalized.
    firesAll args state ||
      match (run (normalizeAll args) state).1 with
      | .ok normalized => rewrites operator normalized
      | .error _ => false
  | .factory _ _ args, state => firesAll args state
  | .path _ target, state => state.hits target
  | .constant .., _ | .param .., _ | .subquery .., _ | .template .., _ => false

/-- Whether something is rewritten in a list of expressions, left to right. -/
def firesAll : List Tree → State → Bool
  | [], _ => false
  -- What the first one registers counts for the others.
  | first :: rest, state => fires first state || firesAll rest (run (normalize first) state).2

end

end IndexQuery.FlatMap.Plain
