import Mathlib
import SchemaSketch.Proofs.Design.Declarations

/-!
# Base columns matter to fields only

Which columns are base columns is a matter of choice. The choice shows in the fields of the entities and
nowhere else.

* **Fields.** Those columns of a table become fields that are no base columns and whose fields have a
  name. Of several whose fields have one name the first counts (`Design.fields_eq_firstBy`).
* **The rest.** Without its fields a design is the same for all base columns
  (`Design.withoutFields_ofRegister`). A foreign key on a base column makes a relation like any other:
  whether its column may be empty is read off the table and not off a field.

`Design.only_fields_differ` says both for the design of a script.
-/

namespace SchemaSketch

open Text

/-- An entity without its fields. -/
def Entity.withoutFields (e : Entity) : Entity := { e with fields := [] }

/-- A design without the fields of its entities. -/
def Design.withoutFields (d : Design) : Design := ⟨d.entities.map Entity.withoutFields, d.relations⟩

/-- The columns of a table that could become fields: those that are no base columns and whose fields have
a name. -/
def BaseColumns.leave (base : BaseColumns) (columns : List Column) : List Column :=
  columns.filter fun c => !base.holds c.name && !(Naming.fieldName c.name).isEmpty

namespace Design

open Statement (created? declaration?)

/-! ## Fields -/

theorem fields_eq_firstBy (base : BaseColumns) (seen : List String) (columns : List Column) :
    fields base seen columns = (firstBy (Naming.fieldName ·.name) seen (base.leave columns)).map
      fun c => field c (Naming.fieldName c.name) := by
  induction columns generalizing seen with
  | nil => rfl
  | cons c rest ih =>
    rw [BaseColumns.leave, List.filter_cons, fields]
    dsimp only
    by_cases hbase : base.holds c.name = true
    · rw [if_pos hbase, if_neg (by simp [hbase]), ih]
      rfl
    by_cases hempty : (Naming.fieldName c.name).isEmpty = true
    · rw [if_neg hbase, if_pos (by simp [hempty]), if_neg (by simp [hempty]), ih]
      rfl
    have hkeep : (!base.holds c.name && !(Naming.fieldName c.name).isEmpty) = true := by
      simp [hbase, hempty]
    by_cases hseen : Naming.fieldName c.name ∈ seen
    · rw [if_neg hbase, if_pos (by simp [hseen]), if_pos hkeep, firstBy, if_pos hseen, ih]
      rfl
    · rw [if_neg hbase, if_neg (by simp [hempty, hseen]), if_pos hkeep, firstBy, if_neg hseen, ih]
      rfl

/-- The fields of a design are made of the columns that statements declare. -/
def FieldsOf (base : BaseColumns) (statements : List (List Char)) (d : Design) : Prop :=
  ∀ e ∈ d.entities, ∃ statement t, declaration? statements e.tableName = some statement ∧
    created? statement = some t ∧ e.tableName = t.name ∧
    e.fields = (firstBy (Naming.fieldName ·.name) [] (base.leave t.columns)).map
      fun c => field c (Naming.fieldName c.name)

theorem fieldsOf_ofStatements (base : BaseColumns) (statements : List (List Char)) :
    FieldsOf base statements (ofStatements base statements) := by
  intro e he
  obtain ⟨statement, t, hstatement, hcreated, hname, hfields⟩ :=
    (declared_ofStatements base statements).contents e he
  exact ⟨statement, t, hstatement, hcreated, hname, hfields.trans (fields_eq_firstBy base [] t.columns)⟩

/-! ## The rest -/

theorem withoutFields_entitiesFrom (base base' : BaseColumns) (index : Nat) (used : List String)
    (place : Place) (tables : List Table) :
    (entitiesFrom base index used place tables).map Entity.withoutFields
      = (entitiesFrom base' index used place tables).map Entity.withoutFields := by
  induction tables generalizing index used place with
  | nil => rfl
  | cons table rest ih =>
    rw [entitiesFrom, entitiesFrom, List.map_cons, List.map_cons, ih]
    rfl

/-- Relations are made of tables, not of entities. -/
theorem withoutFields_ofRegister (base base' : BaseColumns) (r : Register) :
    (ofRegister base r).withoutFields = (ofRegister base' r).withoutFields := by
  have hentities := withoutFields_entitiesFrom base base' 0 [] Place.origin (r.map (·.2))
  exact congrArg (Design.mk · (relationsOf r)) hentities

/-! ## The design of a script -/

/-- **Base columns affect nothing but fields.** A script has the same design for all base columns but for
the fields, and none for either if it is too much. The fields are made of the columns that are left, the
first of each name, in their order. -/
theorem only_fields_differ (base base' : BaseColumns) (script : List Char) :
    (ofScript base script).map withoutFields = (ofScript base' script).map withoutFields ∧
      ∀ statements, Statement.prepare script = .ok statements →
        ∃ d d', ofScript base script = .ok d ∧ ofScript base' script = .ok d' ∧
          FieldsOf base statements d ∧ FieldsOf base' statements d' := by
  constructor
  · rw [ofScript, ofScript]
    cases Statement.prepare script with
    | error cause => rfl
    | ok statements => exact congrArg Except.ok (withoutFields_ofRegister base base' _)
  · intro statements h
    refine ⟨ofStatements base statements, ofStatements base' statements, ?_, ?_,
      fieldsOf_ofStatements base statements, fieldsOf_ofStatements base' statements⟩
    · rw [ofScript, h]
      rfl
    · rw [ofScript, h]
      rfl

/-- A foreign key on a base column, and two columns whose fields would have one name. -/
def baseReference : List Char :=
  "create table a(id int not null references a, x int, X text)".toList

theorem only_fields_differ_baseReference :
    Statement.prepare baseReference = .ok [baseReference] ∧
      (ofScript BaseColumns.standard baseReference).map withoutFields
        = (ofScript [] baseReference).map withoutFields ∧
      ∃ d d', ofScript BaseColumns.standard baseReference = .ok d ∧
        ofScript [] baseReference = .ok d' ∧
        FieldsOf BaseColumns.standard [baseReference] d ∧ FieldsOf [] [baseReference] d' := by
  have h : Statement.prepare baseReference = .ok [baseReference] := by decide +kernel
  obtain ⟨hrest, hfields⟩ := only_fields_differ BaseColumns.standard [] baseReference
  exact ⟨h, hrest, hfields _ h⟩

end Design
end SchemaSketch
