/-!
# Notes taken while reading

A reader that skips something says so. The notes are data; the log gives them words. `Noted` pairs a
value with the notes taken on the way to it, so that what is read and what is said about it can be
looked at apart.
-/

namespace SchemaSketch

/-- Something that a reader passed over or took notice of. -/
inductive Note where
  /-- the name of a table was read -/
  | tableNamed (table : String)
  /-- a constraint that says nothing about columns -/
  | constraintSkipped (table : String) (text : List Char)
  /-- a definition that is no column -/
  | columnSkipped (table : String) (text : List Char)
  /-- a foreign key that refers to nothing -/
  | keyWithoutReference (text : List Char)
  /-- an action that documents do not know -/
  | unknownAction (text : List Char)
  deriving DecidableEq, Repr

/-- A value with the notes taken on the way to it. -/
structure Noted (α : Type) where
  /-- the value -/
  value : α
  /-- the notes, in order -/
  notes : List Note

/-- A value without notes. -/
def Noted.plain {α : Type} (a : α) : Noted α := ⟨a, []⟩

end SchemaSketch
