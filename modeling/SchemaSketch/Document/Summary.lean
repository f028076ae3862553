import SchemaSketch.Document.Basic
import SchemaSketch.Json.Printer

/-!
# The summary of a document

A few lines for a reader: each entity with its fields and their flags, then each relation with the names of
the entities that it joins. An entity that is not there is shown as a question mark. As in an exported
script, of several entities with one identifier the last one counts, and an identifier that cannot be
looked up makes the summary fail.
-/

namespace SchemaSketch.Document

/-- A value that cannot be looked up. -/
structure NoKey where
  /-- the value -/
  value : Json

/-- The flags of a field. -/
def flags (f : Field) : String :=
  match (if f.nullable.isGiven then [] else ["NOT NULL"]) ++ (if f.unique.isGiven then ["UNIQUE"] else []) with
  | [] => ""
  | found => " [" ++ ", ".intercalate found ++ "]"

/-- The line of a field. -/
def fieldLine (f : Field) : String :=
  "    - " ++ f.name.display ++ ": " ++ f.type.display ++ flags f ++ "\n"

/-- The lines of an entity. -/
def entityLines (e : Entity) : String :=
  "  " ++ e.name.display ++ " (" ++ e.tableName.display ++ ")\n" ++ String.join (e.fields.map fieldLine)

/-- The name of the entity with an identifier. -/
def nameOf (d : Document) (id : Json) : Except NoKey String :=
  if id.isKey then
    .ok (match d.entities.reverse.find? (·.id.sameKey id) with
      | some e => e.name.display
      | none => "?")
  else .error ⟨id⟩

/-- The line of a relation. -/
def relationLine (d : Document) (r : Relation) : Except NoKey String := do
  let source ← nameOf d r.sourceId
  let target ← nameOf d r.targetId
  pure ("  " ++ source ++ "." ++ r.sourceField.display ++ " -> " ++ target ++ " (" ++ r.type.display
    ++ ", ON DELETE " ++ r.foreignKey.onDelete.display ++ ")\n")

/-- The summary of a document. -/
def summary (d : Document) : Except NoKey String :=
  match d.entities.find? (! ·.id.isKey) with
  | some e => .error ⟨e.id⟩
  | none => do
    let relations ← d.relations.mapM (relationLine d)
    pure (s!"Entities ({d.entities.length}):\n" ++ String.join (d.entities.map entityLines)
      ++ s!"Relations ({d.relations.length}):\n" ++ String.join relations)

end SchemaSketch.Document
