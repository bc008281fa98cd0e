import IndexQuery.ValueType

/-! Typed field references: chains of segments from a root down to a member. -/

namespace IndexQuery

/-- The role of a path segment. -/
inductive SegmentKind where
  /-- A collection variable or a lambda parameter. -/
  | variable
  /-- A member of the segment above it. -/
  | property
  /-- Any element of the collection above it. -/
  | any
deriving DecidableEq

namespace SegmentKind

/-- The name of a role. -/
def name : SegmentKind → String
  | .variable => "variable"
  | .property => "property"
  | .any => "any"

/-- The role a name spells, if it spells one. -/
def ofName? : String → Option SegmentKind
  | "variable" => some .variable
  | "property" => some .property
  | "any" => some .any
  | _ => none

end SegmentKind

/-- One step of a path, with the static type of what it reaches. -/
structure Segment where
  name : String
  kind : SegmentKind
  type : ValueType
deriving DecidableEq

/-- The text of one step; an element marker hides its name. -/
def Segment.text (segment : Segment) : String :=
  match segment.kind with
  -- The text calls the marker, whatever it was named.
  | .any => "any()"
  | .variable | .property => segment.name

/-- A field reference, equal to another when all its segments are. -/
inductive Path where
  /-- The outermost segment. -/
  | root (segment : Segment)
  /-- A segment below another path. -/
  | member (parent : Path) (segment : Segment)
deriving DecidableEq

namespace Path

/-- A root variable. -/
def ofVariable (name : String) (type : ValueType) : Path := .root ⟨name, .variable, type⟩

/-- A member of a path. -/
def property (parent : Path) (name : String) (type : ValueType) : Path :=
  .member parent ⟨name, .property, type⟩

/-- The marker for any element of a collection, typed as the element. -/
def any (collection : Path) (element : ValueType) : Path :=
  .member collection ⟨"any", .any, element⟩

/-- The innermost segment, which names the path. -/
def last : Path → Segment
  | .root segment => segment
  | .member _ segment => segment

/-- The name of the innermost segment. -/
def name (path : Path) : String := path.last.name

/-- The static type of what the path reaches. -/
def type (path : Path) : ValueType := path.last.type

/-- The path without its innermost segment. -/
def parent? : Path → Option Path
  | .root _ => none
  | .member parent _ => some parent

/-- The outermost segment. -/
def rootSegment : Path → Segment
  | .root segment => segment
  | .member parent _ => parent.rootSegment

/-- The outermost segment as a path of its own. -/
def rootPath (path : Path) : Path := .root path.rootSegment

/-- The name of the outermost segment. -/
def rootName (path : Path) : String := path.rootSegment.name

/-- Whether the path is a single segment. -/
def isRoot : Path → Bool
  | .root _ => true
  | .member _ _ => false

/-- The innermost segment below another path. -/
def withParent (path : Path) (parent : Path) : Path := .member parent path.last

/-- Segments added below a path, outermost first. -/
def extend (path : Path) (segments : List Segment) : Path := segments.foldl .member path

/-- Whether the path goes through an element marker. -/
def hasMarker : Path → Bool
  | .root segment => segment.kind = .any
  | .member parent segment => segment.kind = .any || parent.hasMarker

/-- The text of a path: its segments, outermost first, with a point between two. -/
def dotted : Path → String
  | .root segment => segment.text
  | .member parent segment => parent.dotted ++ "." ++ segment.text

end Path

end IndexQuery
