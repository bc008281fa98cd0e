import IndexQuery.Proofs.Expr.Readings
import IndexQuery.Proofs.Expr.Roots
import IndexQuery.Proofs.Pass.FlatMapOutlines
import Mathlib.Data.List.Induction

/-! Chains of flat maps of any length: every link is put into canonical form, and what is read after the
last one goes through the variable that it invents. -/

namespace IndexQuery

open Steps

namespace Path

/-- The path with the member that stands for its root on another path in place of the root. -/
def reroot : Path → (base : Path) → Path
  | .root segment, base => base.property (Path.root segment).memberName segment.type
  | .member parent segment, base => .member (parent.reroot base) segment

end Path

namespace Expr

variable {Label : Type}

mutual

/-- The expression with every path that a pass comes to below the member that stands for its root. -/
def reroot (base : Path) : Expr Label → Expr Label
  | .path label target => .path label (target.reroot base)
  | .operation label operator type args => .operation label operator type (rerootAll base args)
  | .factory label type args => .factory label type (rerootAll base args)
  | .constant label value type => .constant label value type
  | .param label name type => .param label name type
  | .subquery label query => .subquery label query
  | .template label text type args => .template label text type args

/-- The expressions with every path below the member that stands for its root. -/
def rerootAll (base : Path) : List (Expr Label) → List (Expr Label)
  | [] => []
  | first :: rest => first.reroot base :: rerootAll base rest

end

end Expr

namespace FlatMap

/-- A flat map in a chain: it maps a variable to a member of it, and names another variable for what it
finds there. -/
structure Link where
  elementName : String
  elementType : ValueType
  memberName : String
  memberType : ValueType
  partnerName : String
  partnerType : ValueType
  /-- The type of the flat map. -/
  type : ValueType
  /-- The type of the list of its lambda and its second variable. -/
  pairType : ValueType
  /-- The type of its lambda. -/
  lambdaType : ValueType

namespace Link

/-- The variable that is mapped. -/
def element (link : Link) : Path := .ofVariable link.elementName link.elementType

/-- The variable for what is found. -/
def partner (link : Link) : Path := .ofVariable link.partnerName link.partnerType

/-- What the first variable is mapped to. -/
def body (link : Link) : Path := link.element.property link.memberName link.memberType

/-- The names of both tops. -/
def names (link : Link) : List String := [link.elementName, link.partnerName]

/-- The lambda from the variable that is mapped. -/
def lambda (link : Link) : Tree :=
  .operation () .lambda link.lambdaType [.path () link.element, .path () link.body]

/-- The list of the lambda and the second variable. -/
def pair (link : Link) : Tree :=
  .operation () .list link.pairType [link.lambda, .path () link.partner]

/-- The flat map over a source. -/
def flatMap (link : Link) (source : Tree) : Tree :=
  .operation () .flatMap link.type [source, link.pair]

/-- The canonical form of the flat map over a source, with the pair of both tops as selector. -/
def canonical (link : Link) (source : Tree) : Tree :=
  let field (target : Path) : Tree := .operation () .list .expression
    [.constant () (.string (Text.capitalize target.name)) .string, .path () target]
  .operation () .canonicalFlatMap link.type
    [source,
      .operation () .lambda .expression [.path () link.element, .path () link.body],
      .operation () .lambda .expression
        [.operation () .wrapped .expression
            [.operation () .list .expression [.path () link.element, .path () link.partner]],
          .factory () .anonymous [field link.element, field link.partner]]]

end Link

/-- Flat maps over each other, the first one over a variable. -/
def chain (form : Link → Tree → Tree) (source : Path) (links : List Link) : Tree :=
  links.foldl (fun tree link => form link tree) (.path () source)

/-- A selection over a source, by a lambda from a path to a body. -/
def select (type lambdaType : ValueType) (source : Tree) (parameter : Path) (body : Tree) : Tree :=
  .operation () .select type
    [source, .operation () .lambda lambdaType [.path () parameter, body]]

namespace Plain

variable {state : State}

end Plain

/-- The pets of every person. -/
def petLink : Link where
  elementName := "person"
  elementType := .object "Person"
  memberName := "Pets"
  memberType := .collection
  partnerName := "pet"
  partnerType := .object "Pet"
  type := .collection
  pairType := .collection
  lambdaType := .expression

/-- Whether a pet has the name of the person. -/
def namesake : Tree :=
  .operation () .equal .boolean
    [.path () (petLink.element.property "Name" .string),
      .path () (petLink.partner.property "Name" .string)]

end FlatMap

end IndexQuery
