import SchemaSketch.Document.Lookup
import SchemaSketch.Export.Ident
import SchemaSketch.Json.Printer
import SchemaSketch.Sql.Token
import SchemaSketch.Naming

/-!
# The SQL script of a document

`Export.script` writes a document as PostgreSQL tables. Every table gets the key `id`, the columns of its
entity, a column for each relation that leads out of it unless a field has that column already, and six
columns that all tables share. Its foreign keys and an index for each follow it. Tables without outgoing
relations come first; otherwise the order of the document is kept.

A document may hold anything, so writing it can fail: what must be a text may be none, and what must be
a key may be none. The failure is a `Fault`; the tables written before it are known (`Written`).
-/

namespace SchemaSketch.Export
open Text Document

/-- Why a document cannot be written. -/
inductive Fault where
  /-- a name is no text -/
  | notText (value : Json)
  /-- a value whose letters are to be changed has none -/
  | noLetters (value : Json)
  /-- an identifier or a type cannot be looked up -/
  | notKey (value : Json)

/-- A fault in words. -/
def Fault.message : Fault → String
  | notText value => "expected string or bytes-like object, got '" ++ value.typeName ++ "'"
  | noLetters value => "'" ++ value.typeName ++ "' object is no text"
  | notKey value => "unhashable type: '" ++ value.typeName ++ "'"

/-- A value that must be a text. -/
def text (value : Json) : Except Fault String :=
  match value with
  | .string s => .ok s
  | _ => .error (.notText value)

/-- A value whose letters are to be changed. -/
def letters (value : Json) : Except Fault String :=
  match value with
  | .string s => .ok s
  | _ => .error (.noLetters value)

/-- An identifier as it is written. -/
def quoted (value : Json) : Except Fault String := (text value).map Ident.quote

/-! ## Types -/

/-- The SQL type of each field type. -/
def sqlTypes : List (String × String) := [
  (FieldType.string.name, "VARCHAR(255)"), (FieldType.long.name, "BIGINT"),
  (FieldType.integer.name, "INTEGER"), (FieldType.double.name, "DOUBLE PRECISION"),
  (FieldType.float.name, "REAL"), (FieldType.bigDecimal.name, "DECIMAL(19,2)"),
  (FieldType.boolean.name, "BOOLEAN"), (FieldType.localDate.name, "DATE"),
  (FieldType.localDateTime.name, "TIMESTAMP"), (FieldType.localTime.name, "TIME"),
  (FieldType.instant.name, "TIMESTAMP WITH TIME ZONE"), (FieldType.uuid.name, "UUID"),
  (FieldType.bytes.name, "BYTEA")]

/-- The type of a text, and of anything unknown. -/
def usualType : String := "VARCHAR(255)"

/-- A type with a length. -/
def varchar (length : String) : String := "VARCHAR(" ++ length ++ ")"

/-- The greatest length in a rule such as `max = 30`. -/
def greatest : Reader (List Char) := do
  Reader.skip (Pattern.exactly ['m', 'a', 'x'] >> Pattern.blanks >> Pattern.char '=' >> Pattern.blanks)
  Reader.take Token.digits1

/-- The greatest length that a rule sets, if it is a rule about size and sets one. -/
def sizeOf? (rule : Document.Validation) : Option String :=
  if rule.type.agrees (.string "Size") && rule.value.isGiven then
    (search (fun _ here => greatest here) rule.value.display.toList).map fun (n, _) => String.ofList n
  else none

/-- The SQL type of a text field: by the first rule about its size, else by its length. -/
def textType (f : Document.Field) : String :=
  match f.validations.findSome? sizeOf? with
  | some n => varchar n
  | none => if f.length.isGiven then varchar f.length.display else usualType

/-- The SQL type of a field. -/
def sqlType (f : Document.Field) : Except Fault String :=
  match f.type with
  | .string name =>
    if name == FieldType.string.name then .ok (textType f)
    else .ok ((sqlTypes.lookup name).getD usualType)
  | type => if type.isKey then .ok usualType else .error (.notKey type)

/-- The line of a field's column. -/
def columnLine (f : Document.Field) (column : Json) : Except Fault String := do
  let name ← quoted column
  let type ← sqlType f
  pure (" ".intercalate ([name, type]
    ++ (if f.nullable.isGiven then [] else ["NOT NULL"])
    ++ (if f.unique.isGiven then ["UNIQUE"] else [])
    ++ (if f.default.isGiven then ["DEFAULT " ++ f.default.display] else [])))

/-! ## Names -/

/-- A name in the style of columns. -/
def snake (name : Json) : Except Fault String := (text name).map Naming.snakeCase

/-- The table of an entity: the one it names, or the plural of its own name. -/
def tableName (e : Document.Entity) : Except Fault Json :=
  if e.tableName.isGiven then .ok e.tableName
  else (snake e.name).map fun name => .string (name ++ "s")

/-- The column of a field: the one it names, or its own name. -/
def columnName (f : Document.Field) : Except Fault Json :=
  if f.columnName.isGiven then .ok f.columnName else (snake f.name).map .string

/-- The entity of an identifier; the last one, if several have it. -/
def entityOf? (d : Document) (id : Json) : Option Document.Entity :=
  d.entities.reverse.find? (·.id.sameKey id)

/-- A relation that leads out of an entity, with the entity that it leads to. -/
structure Outgoing where
  /-- the relation -/
  relation : Document.Relation
  /-- the entity that it leads to -/
  target : Document.Entity

/-- Whether each row refers to one row only. -/
def leadsToOne (r : Document.Relation) : Bool :=
  r.type.agrees (.string "ManyToOne") || r.type.agrees (.string "OneToOne")

/-- A relation if it leads out of an entity into one of the document. -/
def outgoing? (d : Document) (e : Document.Entity) (r : Document.Relation) :
    Except Fault (Option Outgoing) :=
  if r.sourceId.agrees e.id && leadsToOne r then
    if r.targetId.isKey then .ok ((entityOf? d r.targetId).map fun target => ⟨r, target⟩)
    else .error (.notKey r.targetId)
  else .ok none

/-- The relations that lead out of an entity. -/
def outgoing (d : Document) (e : Document.Entity) : Except Fault (List Outgoing) :=
  (d.relations.mapM (outgoing? d e)).map fun found => found.filterMap id

/-- The column of a relation: the one it names, or the name of its target with `_id`. -/
def keyColumn (o : Outgoing) : Except Fault Json :=
  if o.relation.foreignKey.columnName.isGiven then .ok o.relation.foreignKey.columnName
  else (snake o.target.name).map fun name => .string (name ++ "_id")

/-! ## A table -/

/-- The columns that all tables share, in order. -/
def sharedColumns : List (String × String) := [
  ("estado", "VARCHAR(20) DEFAULT 'ACTIVO'"),
  ("fecha_creacion", "TIMESTAMP DEFAULT CURRENT_TIMESTAMP"),
  ("fecha_actualizacion", "TIMESTAMP DEFAULT CURRENT_TIMESTAMP"),
  ("creado_por", "VARCHAR(100)"),
  ("modificado_por", "VARCHAR(100)"),
  ("version", "BIGINT DEFAULT 0")]

/-- Whether every table has a column of this name, in small letters. -/
def isShared (lowered : String) : Bool := lowered == "id" || sharedColumns.any (·.1 == lowered)

/-- A line inside the parentheses of a table. -/
def indent (line : String) : String := "    " ++ line

/-- The lines of the fields, each with its column in small letters. -/
def fieldLines : List Document.Field → Except Fault (List (String × String))
  | [] => .ok []
  | f :: rest => do
    let column ← columnName f
    let lowered := lowerName (← letters column)
    if isShared lowered then fieldLines rest
    else
      let line ← columnLine f column
      pure ((lowered, indent line) :: (← fieldLines rest))

/-- The lines of the columns that relations add; those in `taken` are there already. -/
def keyLines (taken : List String) : List Outgoing → Except Fault (List String)
  | [] => .ok []
  | o :: rest => do
    let column ← letters (← keyColumn o)
    if taken.contains (lowerName column) then keyLines taken rest
    else
      let line := Ident.quote column ++ " BIGINT"
        ++ (if o.relation.foreignKey.nullable.isGiven then "" else " NOT NULL")
      pure (indent line :: (← keyLines taken rest))

/-- The words of an action; the usual one if none is given. -/
def actionWords (value : Json) : Except Fault String :=
  if value.isGiven then
    (letters value).map fun s => String.ofList (s.toList.map fun c => if c == '_' then ' ' else c)
  else .ok "NO ACTION"

/-- The statement that adds the foreign key of a relation to a table. -/
def foreignKeyStatement (table : String) (o : Outgoing) : Except Fault String := do
  let column ← text (← keyColumn o)
  let onDelete ← actionWords o.relation.foreignKey.onDelete
  let onUpdate ← actionWords o.relation.foreignKey.onUpdate
  let target ← quoted (← tableName o.target)
  pure ("\n".intercalate [
    "",
    "ALTER TABLE " ++ Ident.quote table,
    "    ADD CONSTRAINT " ++ Ident.quote ("fk_" ++ table ++ "_" ++ column),
    "    FOREIGN KEY (" ++ Ident.quote column ++ ")",
    "    REFERENCES " ++ target ++ "(id)",
    "    ON DELETE " ++ onDelete,
    "    ON UPDATE " ++ onUpdate ++ ";"])

/-- The statement that makes an index for a relation of a table. -/
def indexStatement (table : String) (o : Outgoing) : Except Fault String := do
  let column ← text (← keyColumn o)
  pure ("\nCREATE INDEX " ++ Ident.quote ("idx_" ++ table ++ "_" ++ column) ++ " ON "
    ++ Ident.quote table ++ "(" ++ Ident.quote column ++ ");")

/-- The statements of an entity: its table, its foreign keys, its indexes. -/
def entityStatements (d : Document) (e : Document.Entity) : Except Fault String := do
  let table ← text (← tableName e)
  let leading ← outgoing d e
  let fields ← fieldLines e.fields
  let keys ← keyLines (fields.map (·.1)) leading
  let columns := ["    id BIGSERIAL PRIMARY KEY"] ++ fields.map (·.2) ++ keys
    ++ sharedColumns.map fun (name, definition) => indent (name ++ " " ++ definition)
  let foreignKeys ← leading.mapM (foreignKeyStatement table)
  let indexes ← leading.mapM (indexStatement table)
  pure ("\n".intercalate (["-- Entity: " ++ e.name.display, "CREATE TABLE " ++ Ident.quote table ++ " (",
    ",\n".intercalate columns, ");"] ++ foreignKeys ++ indexes))

/-! ## The script -/

/-- The entities in the order in which they are written: those without outgoing relations first. -/
def ordered (d : Document) : Except Fault (List Document.Entity) := do
  let marked ← d.entities.mapM fun e => (outgoing d e).map fun leading => (e, leading.isEmpty)
  pure ((marked.filter (·.2)).map (·.1) ++ (marked.filter fun m => !m.2).map (·.1))

/-- A table that has been written. -/
structure Written where
  /-- the name of the entity as it is displayed -/
  entity : String
  /-- the name of the table -/
  table : Json

/-- A value, or a fault, with the tables that were written. -/
structure Outcome (α : Type) where
  /-- the value -/
  value : Except Fault α
  /-- the tables, in order -/
  written : List Written

/-- The statements of entities, up to the first that cannot be written. -/
def allStatements (d : Document) : List Document.Entity → Outcome (List String)
  | [] => ⟨.ok [], []⟩
  | e :: rest =>
    match entityStatements d e with
    | .error fault => ⟨.error fault, []⟩
    | .ok statements =>
      let more := allStatements d rest
      let table := (tableName e).toOption.getD .null
      ⟨more.value.map (statements :: ·), ⟨e.name.display, table⟩ :: more.written⟩

/-- The heading of a script. -/
def heading (project : String) : List String := [
  "-- ===========================================",
  "-- Generated by EntityForge",
  "-- Project: " ++ project,
  "-- ===========================================",
  ""]

/-- The first identifier that is no key. -/
def badId? (d : Document) : Option Json := (d.entities.find? (! ·.id.isKey)).map (·.id)

/-- The script of a document. -/
def script (d : Document) (project : String) : Outcome String :=
  match badId? d with
  | some id => ⟨.error (.notKey id), []⟩
  | none =>
    match ordered d with
    | .error fault => ⟨.error fault, []⟩
    | .ok entities =>
      let result := allStatements d entities
      ⟨result.value.map fun statements =>
        "\n".intercalate (heading project ++ statements.flatMap fun s => [s, ""]), result.written⟩

/-- The project name that is used when none is given. -/
def usualProject : String := "API Project"

end SchemaSketch.Export
