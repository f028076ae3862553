import SchemaSketch.Design.Basic
import SchemaSketch.Table.Register
import SchemaSketch.Naming

/-!
# From tables to a design

Each table of the register becomes an entity, and each foreign key whose table is registered a relation.

* **Names.** An entity is named for its table, singular and capitalised. A name that is taken gets the
  least number from 2 on that makes it free.
* **Fields.** A column becomes a field unless it is a *base column* (one that every entity has anyway) or
  its field name is empty or taken.
* **Relations.** Of several foreign keys from one table to another on one column the first counts.
-/

namespace SchemaSketch
open Text

/-! ## Base columns -/

/-- The columns that every entity has anyway, in small letters. -/
abbrev BaseColumns := List String

namespace BaseColumns

/-- A list of column names. -/
def ofNames (names : List String) : BaseColumns := names.map lowerName

/-- The columns that are left out unless others are named: the key, the flags of deletion, the trail of
changes and the version. -/
def standard : BaseColumns := ofNames [
  "id", "estado", "fecha_creacion", "fecha_actualizacion", "creado_por", "modificado_por", "version",
  "created_at", "updated_at", "created_by", "updated_by", "deleted_at", "is_deleted"]

/-- Whether a column is among them, in whatever style it is written. -/
def holds (base : BaseColumns) (column : String) : Bool :=
  base.contains (lowerName column) || base.contains (lowerName (Naming.snakeCase column))

end BaseColumns

/-! ## Entities -/

namespace Design

/-- The least number from `k` on that makes a name free; so many are tried. -/
def freeSuffix (base : String) (used : List String) (k : Nat) : Nat → String
  | 0 => base ++ toString k
  | rounds + 1 =>
    if used.contains (base ++ toString k) then freeSuffix base used (k + 1) rounds
    else base ++ toString k

/-- A name, or the name with the least number from 2 on that makes it free. -/
def freeName (base : String) (used : List String) : String :=
  if used.contains base then freeSuffix base used 2 used.length else base

/-- The first of two names that is not empty. -/
def nonEmpty (a b : String) : String := if a.isEmpty then b else a

/-- The name for a table's entity, if it is free. -/
def baseName (table : String) : String :=
  nonEmpty (Naming.entityName table) (nonEmpty (Naming.pascalCase table) "Entity")

/-- The name for a table's entity when some names are taken. -/
def entityName (table : String) (used : List String) : String := freeName (baseName table) used

/-- The names for a list of tables, one after the other. -/
def entityNames (used : List String) : List String → List String
  | [] => []
  | table :: rest =>
    let name := entityName table used
    name :: entityNames (name :: used) rest

/-- The length that a text has without saying so. -/
def usualLength : Nat := 255

/-- The rules for a column's values. -/
def validations (type : FieldType) (nullable : Bool) (length : Option Nat) : List Validation :=
  (if nullable then [] else if type = .string then [.notBlank] else [.notNull])
    ++ (match length with
      | some n => if type = .string && n != 0 && n != usualLength then [.maxLength n] else []
      | none => [])

/-- The field for a column. -/
def field (c : Column) (name : String) : Field :=
  let type := ColumnType.fieldType c.type.toList
  { name
    columnName := c.name
    type
    nullable := c.nullable
    unique := c.unique
    length := c.length
    default := c.default
    validations := validations type c.nullable c.length }

/-- The fields for a list of columns; `seen` are the names that are taken. -/
def fields (base : BaseColumns) (seen : List String) : List Column → List Field
  | [] => []
  | c :: rest =>
    if base.holds c.name then fields base seen rest
    else
      let name := Naming.fieldName c.name
      if name.isEmpty || seen.contains name then fields base seen rest
      else field c name :: fields base (name :: seen) rest

/-- The identifier of the entity in the place `index`, counted from zero. -/
def entityId (index : Nat) : String := "entity-" ++ toString (index + 1)

/-- The identifier of the relation in the place `index`, counted from zero. -/
def relationId (index : Nat) : String := "relation-" ++ toString (index + 1)

/-- Entities for tables, given their names and places; `index` is the first one's. -/
def entitiesFrom (base : BaseColumns) (index : Nat) (used : List String) (place : Place) :
    List Table → List Entity
  | [] => []
  | table :: rest =>
    let name := entityName table.name used
    { id := entityId index
      name
      tableName := table.name
      fields := fields base [] table.columns
      place } :: entitiesFrom base (index + 1) (name :: used) place.next rest

/-- The entities of a register. -/
def entitiesOf (base : BaseColumns) (r : Register) : List Entity :=
  entitiesFrom base 0 [] Place.origin (r.map (·.2))

/-! ## Relations -/

/-- A foreign key between registered tables, by its first column. -/
structure Link where
  /-- the place of the referring table -/
  source : Nat
  /-- the place of the table referred to -/
  target : Nat
  /-- the referring column -/
  column : String
  /-- whether that column may be empty -/
  nullable : Bool
  /-- what a deletion brings about -/
  onDelete : Action
  /-- what a change brings about -/
  onUpdate : Action
  deriving DecidableEq, Repr

/-- Whether two links join the same tables on the same column. -/
def Link.same (a b : Link) : Bool :=
  a.source == b.source && a.target == b.target && sameName a.column b.column

/-- The link of a foreign key, if it refers to a registered table and has a column. -/
def link? (r : Register) (source : Nat) (table : Table) (key : ForeignKey) : Option Link :=
  match r.findIdx? (·.1 == lowerName key.refTable), key.columns with
  | some target, column :: _ => some {
      source
      target
      column
      nullable := ((table.column? column).map (·.nullable)).getD true
      onDelete := key.onDelete.getD .noAction
      onUpdate := key.onUpdate.getD .noAction }
  | _, _ => none

/-- The links of the tables from the place `source` on. -/
def linksFrom (r : Register) (source : Nat) : List Table → List Link
  | [] => []
  | table :: rest => table.foreignKeys.filterMap (link? r source table) ++ linksFrom r (source + 1) rest

/-- The links without those that repeat an earlier one. -/
def firstLinks (seen : List Link) : List Link → List Link
  | [] => []
  | l :: rest =>
    if seen.any (·.same l) then firstLinks seen rest else l :: firstLinks (l :: seen) rest

/-- The relation for a link in the place `index`. -/
def relation (index : Nat) (l : Link) : Relation :=
  { id := relationId index
    sourceId := entityId l.source
    targetId := entityId l.target
    sourceField := Naming.fieldName l.column
    columnName := l.column
    nullable := l.nullable
    onDelete := l.onDelete
    onUpdate := l.onUpdate }

/-- The relations of a register. -/
def relationsOf (r : Register) : List Relation :=
  (firstLinks [] (linksFrom r 0 (r.map (·.2)))).mapIdx relation

/-- The design of a register. -/
def ofRegister (base : BaseColumns) (r : Register) : Design :=
  ⟨entitiesOf base r, relationsOf r⟩

/-- The design of the statements of a script. -/
def ofStatements (base : BaseColumns) (statements : List (List Char)) : Design :=
  ofRegister base (.ofReadings (statements.map Reading.ofStatement))

/-- The design of a script, unless the script is too much to be cut into statements. -/
def ofScript (base : BaseColumns) (script : List Char) : Except Script.LimitFault Design :=
  (Statement.prepare script).map (ofStatements base)

end Design
end SchemaSketch
