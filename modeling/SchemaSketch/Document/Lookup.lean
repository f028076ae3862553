import SchemaSketch.Document.Basic
import SchemaSketch.Text.Case

/-!
# Finding parts of a document

Entities are found by their identifier or by their table, fields by their name. Identifiers and names
are compared as values; tables as names, in small letters. Comparing something as a name that is no text
fails.
-/

namespace SchemaSketch.Document
open Text

/-- A value that should be a text and is not, for it was to be written in small letters. -/
structure NoText where
  /-- the value -/
  value : Json

/-- A value in small letters. -/
def lowerText (value : Json) : Except NoText String :=
  match value with
  | .string s => .ok (lowerName s)
  | _ => .error ⟨value⟩

/-- The first entity with an identifier. -/
def entity? (d : Document) (id : Json) : Option Entity := d.entities.find? (·.id.agrees id)

/-- The first of some entities with a table name, given in small letters. -/
def entityAmong (lowered : String) : List Entity → Except NoText (Option Entity)
  | [] => .ok none
  | e :: rest => do
    if (← lowerText e.tableName) == lowered then pure (some e) else entityAmong lowered rest

/-- The first entity with a table. -/
def entityByTable? (d : Document) (table : Json) : Except NoText (Option Entity) := do
  entityAmong (← lowerText table) d.entities

/-- The first field of a name. -/
def Entity.field? (e : Entity) (name : Json) : Option Field := e.fields.find? (·.name.agrees name)

end SchemaSketch.Document
