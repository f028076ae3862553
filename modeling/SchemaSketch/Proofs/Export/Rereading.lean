import Mathlib
import SchemaSketch.Design.Assembly
import SchemaSketch.Proofs.Export.Design

/-!
# Reading a written design

Identifiers and places are made anew when the script of a design is read, and tables may have changed
their order. What is left to compare is told by names (`Design.Same`): the entities with their tables, the
fields of each table, and the relations as `Tie`s.
-/

namespace SchemaSketch

/-- What an entity is called, and its table. -/
def Entity.title (e : Entity) : String × String := (e.name, e.tableName)

/-- What a field tells of its column. -/
def Field.face (f : Field) : String × FieldType × Bool × Bool := (f.name, f.type, f.nullable, f.unique)

/-- A relation told by names. -/
structure Tie where
  /-- the name of the entity that refers -/
  source : String
  /-- the name of the referring field -/
  field : String
  /-- the name of the entity referred to -/
  target : String
  /-- whether the reference may be absent -/
  nullable : Bool
  /-- what a deletion brings about -/
  onDelete : Action
  /-- what a change brings about -/
  onUpdate : Action
  deriving DecidableEq, Repr

namespace Design

/-- A relation told by names, if there are entities at its ends. -/
def tie? (d : Design) (x : Relation) : Option Tie :=
  match d.entityOf? x.sourceId, d.entityOf? x.targetId with
  | some source, some target =>
    some ⟨source.name, x.sourceField, target.name, x.nullable, x.onDelete, x.onUpdate⟩
  | _, _ => none

/-- The relations of a design told by names. -/
def ties (d : Design) : List Tie := d.relations.filterMap d.tie?

/-- The same entities, fields and relations, in whatever order. -/
structure Same (a b : Design) : Prop where
  /-- the entities have the same names and tables -/
  titles : ∀ title, title ∈ a.entities.map (·.title) ↔ title ∈ b.entities.map (·.title)
  /-- each table has the same fields -/
  fields : ∀ e ∈ a.entities, ∀ e' ∈ b.entities, e.tableName = e'.tableName →
    e.fields.map (·.face) = e'.fields.map (·.face)
  /-- the relations are the same -/
  ties : ∀ tie, tie ∈ a.ties ↔ tie ∈ b.ties

/-! ## A script as characters -/

theorem toList_script (d : Design) (project : String) :
    (d.script project).toList = ['\n'].intercalate ((Export.heading project).map String.toList
      ++ d.ordered.flatMap fun e => [(d.tableScript e).toList, []]) := by
  rw [script, String.toList_intercalate, List.map_append, List.map_flatMap]
  rfl

theorem toList_tableScript (d : Design) (e : Entity) :
    (d.tableScript e).toList = ['\n'].intercalate (["-- Entity: ".toList ++ e.name.toList,
        "CREATE TABLE ".toList ++ (Ident.quote e.table).toList ++ " (".toList,
        ",\n".toList.intercalate ((d.columns e).map (·.line.toList)), ");".toList]
      ++ (d.leads e).map (·.foreignKey e.table |>.toList) ++ (d.leads e).map (·.index e.table |>.toList)) := by
  rw [tableScript, String.toList_intercalate]
  simp [String.toList_intercalate, Function.comp_def]

/-! ## A default value that is lost -/

/-- A table with a default value that is cut short at its first closing parenthesis. -/
def cutDefault : Design where
  entities := [⟨"entity-1", "U", "u",
    [⟨"x", "x", .integer, true, false, none, some "f(g()", []⟩], ⟨100, 100⟩⟩]
  relations := []

/-- What is written for a default value that was cut short closes no parenthesis: the table is lost. -/
theorem script_cutDefault :
    ofScript BaseColumns.standard "create table u(x int default f(g()))".toList = .ok cutDefault ∧
      (Export.script cutDefault.toDocument Export.usualProject).value
        = .ok (cutDefault.script Export.usualProject) ∧
      ∃ d, ofScript BaseColumns.standard (cutDefault.script Export.usualProject).toList = .ok d ∧
        ¬ cutDefault.Same d := by
  -- the script is told as characters first, since long strings are slow to compute with
  have hread : ofScript BaseColumns.standard (cutDefault.script Export.usualProject).toList = .ok ⟨[], []⟩ := by
    simp only [toList_script, toList_tableScript]
    decide +kernel
  refine ⟨by decide +kernel, Export.script_toDocument _ _, ⟨[], []⟩, hread, fun h => ?_⟩
  have hlost := (h.titles ("U", "u")).1 (by decide)
  cases hlost

end Design
end SchemaSketch
