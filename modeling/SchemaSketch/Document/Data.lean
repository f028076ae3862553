import SchemaSketch.Document.Reader
import SchemaSketch.Document.Writer

/-!
# Documents as data

Between a document and its JSON stands the data that a document is saved as. It is JSON but for one thing:
a position may have keys that are no texts, and data keeps them as they are, while JSON has only their
texts. So an entity's data is a record whose position is a table by itself; everything else in it is JSON.

Data is read as JSON is (`Document.ofData`). What is JSON is data too, and is read by `Document.ofJson`.
-/

namespace SchemaSketch.Document
open Json

/-- An entity as data. -/
inductive EntityData where
  /-- any JSON value -/
  | json (value : Json)
  /-- members, a position among them whose keys may be anything that can be a key -/
  | record (before : List (String × Json)) (position : List (Json × Json)) (behind : List (String × Json))

/-- A document as data. -/
inductive Data where
  /-- any JSON value -/
  | json (value : Json)
  /-- entities and relations -/
  | record (entities : List EntityData) (relations : Json)

/-! ## Saving -/

/-- An entity as data. -/
def Entity.toData (e : Entity) : EntityData :=
  .record [("id", e.id), ("name", e.name), ("tableName", e.tableName)] e.position
    [("fields", .array (e.fields.map Field.toJson))]

/-- A document as data. -/
def toData (d : Document) : Data :=
  .record (d.entities.map Entity.toData) (.array (d.relations.map Relation.toJson))

/-- The JSON of an entity's data: the keys of its position become texts. -/
def EntityData.toJson : EntityData → Json
  | json value => value
  | record before position behind => .object (before ++ ("position", positionJson position) :: behind)

/-- The JSON of data. -/
def Data.toJson : Data → Json
  | json value => value
  | record entities relations =>
    .object [("entities", .array (entities.map EntityData.toJson)), ("relations", relations)]

/-! ## Loading -/

/-- An entity from data. A position that is a table is taken over with its keys. -/
def Entity.ofData : EntityData → Except Fault Entity
  | .json value => Entity.ofJson value
  | .record before position behind => do
    let value := Json.object (before ++ behind)
    let id ← member value "id"
    let name ← member value "name"
    let fields ← readItems Field.ofJson (memberOr value "fields" (.array []))
    pure { id, name, tableName := memberOr value "tableName" (.string ""), fields, position }

/-- A document from data. -/
def ofData : Data → Except Fault Document
  | .json value => ofJson value
  | .record entities relations => do
    let entities ← entities.mapM Entity.ofData
    let relations ← readItems Relation.ofJson relations
    pure ⟨entities, relations⟩

end SchemaSketch.Document
