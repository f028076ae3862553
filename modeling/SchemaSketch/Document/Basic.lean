import SchemaSketch.Json.Basic
import SchemaSketch.Design.Basic

/-!
# Documents

A *document* is a design as it is stored. Whoever wrote it may have put anything anywhere, so every
attribute is a JSON value; only the shape (entities with fields, relations with a foreign key) is fixed.
An attribute that is absent and has no default of its own is null.

Every design has a document (`Design.toDocument`).
-/

namespace SchemaSketch
namespace Document

/-- A rule for the values of a field. -/
structure Validation where
  /-- its kind -/
  type : Json
  /-- its parameter -/
  value : Json

/-- A field of an entity. -/
structure Field where
  /-- its name -/
  name : Json
  /-- its column -/
  columnName : Json
  /-- its type -/
  type : Json
  /-- whether it may be empty -/
  nullable : Json
  /-- whether its values are pairwise distinct -/
  unique : Json
  /-- its length -/
  length : Json
  /-- its default value -/
  default : Json
  /-- the rules for its values -/
  validations : List Validation

/-- An entity. -/
structure Entity where
  /-- its identifier -/
  id : Json
  /-- its name -/
  name : Json
  /-- its table -/
  tableName : Json
  /-- its fields -/
  fields : List Field
  /-- where it stands: values under keys, in order -/
  position : List (Json × Json)

/-- The foreign key of a relation. -/
structure ForeignKey where
  /-- the referring column -/
  columnName : Json
  /-- whether it may be empty -/
  nullable : Json
  /-- what a deletion brings about -/
  onDelete : Json
  /-- what a change brings about -/
  onUpdate : Json

/-- A relation. -/
structure Relation where
  /-- its identifier -/
  id : Json
  /-- how many refer to how many -/
  type : Json
  /-- the entity that refers -/
  sourceId : Json
  /-- the entity referred to -/
  targetId : Json
  /-- the referring field -/
  sourceField : Json
  /-- the foreign key -/
  foreignKey : ForeignKey
  /-- whether it can be followed both ways -/
  bidirectional : Json
  /-- when what it leads to is loaded -/
  fetchType : Json
  /-- what is passed on along it -/
  cascade : List Json

end Document

/-- A design as it is stored. -/
structure Document where
  /-- the entities, in order -/
  entities : List Document.Entity
  /-- the relations, in order -/
  relations : List Document.Relation

/-! ## The document of a design -/

/-- A rule as it is stored. -/
def Validation.toDocument : Validation → Document.Validation
  | .notNull => ⟨.string "NotNull", .null⟩
  | .notBlank => ⟨.string "NotBlank", .null⟩
  | .maxLength n => ⟨.string "Size", .string ("max = " ++ toString n)⟩

/-- A field as it is stored. -/
def Field.toDocument (f : Field) : Document.Field :=
  { name := .string f.name
    columnName := .string f.columnName
    type := .string f.type.name
    nullable := .bool f.nullable
    unique := .bool f.unique
    length := match f.length with | some n => .int n | none => .null
    default := match f.default with | some text => .string text | none => .null
    validations := f.validations.map Validation.toDocument }

/-- An entity as it is stored. -/
def Entity.toDocument (e : Entity) : Document.Entity :=
  { id := .string e.id
    name := .string e.name
    tableName := .string e.tableName
    fields := e.fields.map Field.toDocument
    position := [(.string "x", .int e.place.x), (.string "y", .int e.place.y)] }

/-- A relation as it is stored. -/
def Relation.toDocument (r : Relation) : Document.Relation :=
  { id := .string r.id
    type := .string "ManyToOne"
    sourceId := .string r.sourceId
    targetId := .string r.targetId
    sourceField := .string r.sourceField
    foreignKey := {
      columnName := .string r.columnName
      nullable := .bool r.nullable
      onDelete := .string r.onDelete.name
      onUpdate := .string r.onUpdate.name }
    bidirectional := .bool false
    fetchType := .string "LAZY"
    cascade := [] }

/-- A design as it is stored. -/
def Design.toDocument (d : Design) : Document :=
  ⟨d.entities.map Entity.toDocument, d.relations.map Relation.toDocument⟩

end SchemaSketch
