import IndexQuery.ValueType

/-! The closed registry of operators: their identifiers, templates and result types. -/

namespace IndexQuery

/-- Every operator an expression can apply, in registry order. -/
inductive Operator where
  | and
  | or
  | not
  | equal
  | notEqual
  | less
  | lessEqual
  | greater
  | greaterEqual
  /-- An ordered argument list of any length. -/
  | list
  /-- A parenthesised group, used around parameter lists. -/
  | wrapped
  /-- Binds a parameter path, or a wrapped parameter list, to a body. -/
  | lambda
  | select
  | filter
  /-- A flat map as builders record it: a source, and a list of a lambda and an alias. -/
  | flatMap
  /-- A flat map in canonical form: a source, an outer lambda and a selector lambda. -/
  | canonicalFlatMap
  /-- Holds when some element of a collection satisfies a predicate. -/
  | any
  | sum
  | count
deriving DecidableEq

namespace Operator

/-- The registry, in order. -/
def all : List Operator :=
  [.and, .or, .not, .equal, .notEqual, .less, .lessEqual, .greater, .greaterEqual, .list, .wrapped,
    .lambda, .select, .filter, .flatMap, .canonicalFlatMap, .any, .sum, .count]

/-- The identifier that names an operator in messages and encoded trees. -/
def id : Operator → String
  | .and => "AND"
  | .or => "OR"
  | .not => "NOT"
  | .equal => "EQ"
  | .notEqual => "NE"
  | .less => "LT"
  | .lessEqual => "LE"
  | .greater => "GT"
  | .greaterEqual => "GE"
  | .list => "LIST"
  | .wrapped => "WRAPPED"
  | .lambda => "LAMBDA"
  | .select => "SELECT"
  | .filter => "WHERE"
  | .flatMap => "SELECT_MANY"
  | .canonicalFlatMap => "SELECT_MANY_TRANSLATED"
  | .any => "ANY"
  | .sum => "SUM"
  | .count => "COUNT"

/-- The operator an identifier names, if it names one. -/
def ofId? (text : String) : Option Operator :=
  all.find? fun operator => operator.id = text

/-- The query text of an application, with a numbered hole for each argument. -/
def template : Operator → String
  | .and => "\x7b0\x7d && \x7b1\x7d"
  | .or => "\x7b0\x7d || \x7b1\x7d"
  | .not => "!\x7b0\x7d"
  | .equal => "\x7b0\x7d == \x7b1\x7d"
  | .notEqual => "\x7b0\x7d != \x7b1\x7d"
  | .less => "\x7b0\x7d < \x7b1\x7d"
  | .lessEqual => "\x7b0\x7d <= \x7b1\x7d"
  | .greater => "\x7b0\x7d > \x7b1\x7d"
  | .greaterEqual => "\x7b0\x7d >= \x7b1\x7d"
  | .list => "\x7b0\x7d, \x7b1\x7d"
  | .wrapped => "(\x7b0\x7d)"
  | .lambda => "\x7b0\x7d => \x7b1\x7d"
  | .select => "\x7b0\x7d.Select(\x7b1\x7d)"
  | .filter => "\x7b0\x7d.Where(\x7b1\x7d)"
  | .flatMap => "\x7b0\x7d.SelectMany(\x7b1\x7d)"
  | .canonicalFlatMap => "\x7b0\x7d.SelectMany(\x7b1\x7d, \x7b2\x7d)"
  | .any => "\x7b0\x7d.Any(r => \x7b1\x7d)"
  | .sum => "\x7b0\x7d.Sum(\x7b1\x7d)"
  | .count => "\x7b0\x7d.Count()"

/-- The type of an application that declares none. -/
def resultType : Operator → ValueType
  | .and | .or | .not => .boolean
  | .equal | .notEqual | .less | .lessEqual | .greater | .greaterEqual => .boolean
  | .any => .boolean
  | .sum | .count => .number
  | .select | .filter | .flatMap | .canonicalFlatMap => .collection
  | .list | .wrapped | .lambda => .expression

end Operator

end IndexQuery
