import SchemaSketch.Document.Basic
import SchemaSketch.Json.Printer

/-!
# Documents as JSON

`Document.toJson` gives the JSON value of a document. An attribute that is null and need not be there is
left out: the parameter of a rule, the length and the default of a field. Keys of a position that are no
texts are written as the text of their value.
-/

namespace SchemaSketch.Document
open Json

/-- A member, unless its value is null. -/
def unlessNull (name : String) (value : Json) : List (String × Json) :=
  match value with
  | .null => []
  | _ => [(name, value)]

/-- A rule as JSON. -/
def Validation.toJson (v : Validation) : Json :=
  .object (("type", v.type) :: unlessNull "value" v.value)

/-- A field as JSON. -/
def Field.toJson (f : Field) : Json :=
  .object ([("name", f.name), ("columnName", f.columnName), ("type", f.type), ("nullable", f.nullable),
      ("unique", f.unique), ("validations", .array (f.validations.map Validation.toJson))]
    ++ unlessNull "length" f.length ++ unlessNull "defaultValue" f.default)

/-- The text of a key. -/
def keyText : Json → String
  | .string s => s
  | v => v.oneLine

/-- A position as JSON. -/
def positionJson (position : List (Json × Json)) : Json :=
  .object (position.map fun (key, value) => (keyText key, value))

/-- An entity as JSON. -/
def Entity.toJson (e : Entity) : Json :=
  .object [("id", e.id), ("name", e.name), ("tableName", e.tableName),
    ("position", positionJson e.position), ("fields", .array (e.fields.map Field.toJson))]

/-- A foreign key as JSON. -/
def ForeignKey.toJson (k : ForeignKey) : Json :=
  .object [("columnName", k.columnName), ("nullable", k.nullable), ("onDelete", k.onDelete),
    ("onUpdate", k.onUpdate)]

/-- A relation as JSON. -/
def Relation.toJson (r : Relation) : Json :=
  .object [("id", r.id), ("type", r.type), ("sourceEntityId", r.sourceId),
    ("sourceFieldName", r.sourceField), ("targetEntityId", r.targetId),
    ("bidirectional", r.bidirectional), ("fetchType", r.fetchType), ("cascade", .array r.cascade),
    ("foreignKey", r.foreignKey.toJson)]

/-- A document as JSON. -/
def toJson (d : Document) : Json :=
  .object [("entities", .array (d.entities.map Entity.toJson)),
    ("relations", .array (d.relations.map Relation.toJson))]

end SchemaSketch.Document
