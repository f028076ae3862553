import SchemaSketch.Table.Basic
import SchemaSketch.Sql.ColumnType

/-!
# Designs

A design is what an editor of entities shows: entities with fields, each at a place on a canvas, and
relations between them. Here everything has its type. What a *document* may hold is looser; see
`SchemaSketch.Document.Basic`.
-/

namespace SchemaSketch

/-- A rule that a field's values obey. -/
inductive Validation where
  /-- there is a value -/
  | notNull
  /-- there is a text with something in it -/
  | notBlank
  /-- a text has at most so many characters -/
  | maxLength (n : Nat)
  deriving DecidableEq, Repr

/-- A field of an entity. -/
structure Field where
  /-- its name in the design -/
  name : String
  /-- the column it comes from -/
  columnName : String
  /-- its type -/
  type : FieldType
  /-- whether it may be empty -/
  nullable : Bool
  /-- whether its values are pairwise distinct -/
  unique : Bool
  /-- the first parameter of the column's type -/
  length : Option Nat
  /-- its default value as SQL writes it -/
  default : Option String
  /-- the rules for its values -/
  validations : List Validation
  deriving DecidableEq, Repr

/-- A place on the canvas. -/
structure Place where
  /-- to the right -/
  x : Nat
  /-- down -/
  y : Nat
  deriving DecidableEq, Repr

/-- An entity. -/
structure Entity where
  /-- its identifier in the design -/
  id : String
  /-- its name -/
  name : String
  /-- the table it comes from -/
  tableName : String
  /-- its fields -/
  fields : List Field
  /-- where it stands -/
  place : Place
  deriving DecidableEq, Repr

/-- A reference from many rows of one entity to one of another. -/
structure Relation where
  /-- its identifier in the design -/
  id : String
  /-- the entity that refers -/
  sourceId : String
  /-- the entity referred to -/
  targetId : String
  /-- the name of the referring field -/
  sourceField : String
  /-- the referring column -/
  columnName : String
  /-- whether the reference may be absent -/
  nullable : Bool
  /-- what a deletion brings about -/
  onDelete : Action
  /-- what a change brings about -/
  onUpdate : Action
  deriving DecidableEq, Repr

/-- Entities and the relations between them. -/
structure Design where
  /-- the entities, in order -/
  entities : List Entity
  /-- the relations, in order -/
  relations : List Relation
  deriving DecidableEq, Repr

/-! ## The canvas -/

namespace Place

/-- Where the first entity stands. -/
def origin : Place := ⟨100, 100⟩

/-- The distance to the next entity of a row. -/
def stepX : Nat := 300

/-- The distance to the next row. -/
def stepY : Nat := 250

/-- The rightmost place that is still used. -/
def maxX : Nat := 900

/-- The next place: to the right, or at the left of the next row when the row is full. -/
def next (p : Place) : Place :=
  if p.x + stepX > maxX then ⟨origin.x, p.y + stepY⟩ else ⟨p.x + stepX, p.y⟩

/-- So many places, from one place on. -/
def row (p : Place) : Nat → List Place
  | 0 => []
  | n + 1 => p :: row p.next n

end Place
end SchemaSketch
