import SchemaSketch.Export.Script

/-!
# The script of a design

A document may hold anything, and so writing one can fail. The document of a design holds texts where
texts are asked for, and keys where keys are: it can always be written (`Export.script_toDocument`). What
is written for a design is told here without documents, table by table:

* a table has the columns `Design.columns`: the key, those of its fields, those that relations add, and
  those that all tables share (`Export.entityStatements_toDocument`);
* a foreign key and an index stand behind the table for each relation that leads out of it;
* tables from which no relation leads come first (`Design.ordered`).
-/

namespace SchemaSketch

open Text

/-! ## What is written -/

/-- The table that is written for an entity. -/
def Entity.table (e : Entity) : String :=
  if e.tableName.isEmpty then Naming.snakeCase e.name ++ "s" else e.tableName

/-- The column that is written for a field. -/
def Field.column (f : Field) : String :=
  if f.columnName.isEmpty then Naming.snakeCase f.name else f.columnName

/-- The SQL type that is written for a field. -/
def Field.sqlType (f : Field) : String :=
  if f.type = .string then Export.textType f.toDocument
  else (Export.sqlTypes.lookup f.type.name).getD Export.usualType

/-- The words of a default value, if there is one. -/
def Field.defaultWords (f : Field) : List String :=
  match f.default with
  | some value => if value.isEmpty then [] else ["DEFAULT " ++ value]
  | none => []

/-- What follows the column of a field. -/
def Field.definition (f : Field) : String :=
  " ".intercalate (f.sqlType :: ((if f.nullable then [] else ["NOT NULL"])
    ++ (if f.unique then ["UNIQUE"] else []) ++ f.defaultWords))

/-- The words of an action. -/
def Action.words : Action → String
  | .cascade => "CASCADE"
  | .setNull => "SET NULL"
  | .restrict => "RESTRICT"
  | .noAction => "NO ACTION"

namespace Export

/-- A column that is written: its name and what follows it. -/
structure WrittenColumn where
  /-- the name, before it is quoted -/
  name : String
  /-- the rest -/
  definition : String

/-- The line of a column. -/
def WrittenColumn.line (c : WrittenColumn) : String := indent (Ident.quote c.name ++ " " ++ c.definition)

/-- A relation that leads out of an entity of a design, with the entity that it leads to. -/
structure Lead where
  /-- the relation -/
  relation : Relation
  /-- the entity that it leads to -/
  target : Entity

/-- The column that is written for a relation. -/
def Lead.column (l : Lead) : String :=
  if l.relation.columnName.isEmpty then Naming.snakeCase l.target.name ++ "_id"
  else l.relation.columnName

/-- What follows the column of a relation, if it is added. -/
def Lead.definition (l : Lead) : String := "BIGINT" ++ (if l.relation.nullable then "" else " NOT NULL")

/-- The statement for the foreign key of a relation. -/
def Lead.foreignKey (table : String) (l : Lead) : String :=
  "\n".intercalate [
    "",
    "ALTER TABLE " ++ Ident.quote table,
    "    ADD CONSTRAINT " ++ Ident.quote ("fk_" ++ table ++ "_" ++ l.column),
    "    FOREIGN KEY (" ++ Ident.quote l.column ++ ")",
    "    REFERENCES " ++ Ident.quote l.target.table ++ "(id)",
    "    ON DELETE " ++ l.relation.onDelete.words,
    "    ON UPDATE " ++ l.relation.onUpdate.words ++ ";"]

/-- The statement for the index of a relation. -/
def Lead.index (table : String) (l : Lead) : String :=
  "\nCREATE INDEX " ++ Ident.quote ("idx_" ++ table ++ "_" ++ l.column) ++ " ON "
    ++ Ident.quote table ++ "(" ++ Ident.quote l.column ++ ");"

end Export

namespace Entity

/-- The fields whose columns are written: those that are not shared by all tables. -/
def ownFields (e : Entity) : List Field := e.fields.filter fun f => !Export.isShared (lowerName f.column)

/-- The columns of an entity's fields, in small letters. -/
def ownNames (e : Entity) : List String := e.ownFields.map fun f => lowerName f.column

end Entity

namespace Design

open Export

/-- The entity of an identifier; the last one, if several have it. -/
def entityOf? (d : Design) (id : String) : Option Entity := d.entities.reverse.find? (·.id == id)

/-- The relations that lead out of an entity. -/
def leads (d : Design) (e : Entity) : List Lead :=
  d.relations.filterMap fun x =>
    if x.sourceId = e.id then (d.entityOf? x.targetId).map fun target => ⟨x, target⟩ else none

/-- The relations for which a column is added: those whose column is not that of a field. -/
def adding (d : Design) (e : Entity) : List Lead :=
  (d.leads e).filter fun l => !e.ownNames.contains (lowerName l.column)

/-- The columns that are added for relations. -/
def addedNames (d : Design) (e : Entity) : List String := (d.adding e).map (·.column)

/-- The columns of an entity's table. -/
def columns (d : Design) (e : Entity) : List WrittenColumn :=
  ⟨"id", "BIGSERIAL PRIMARY KEY"⟩ :: (e.ownFields.map fun f => ⟨f.column, f.definition⟩)
    ++ ((d.adding e).map fun l => ⟨l.column, l.definition⟩)
    ++ sharedColumns.map fun (name, definition) => ⟨name, definition⟩

/-- What is written for an entity: its table, its foreign keys, its indexes. -/
def tableScript (d : Design) (e : Entity) : String :=
  "\n".intercalate (["-- Entity: " ++ e.name, "CREATE TABLE " ++ Ident.quote e.table ++ " (",
      ",\n".intercalate ((d.columns e).map (·.line)), ");"]
    ++ (d.leads e).map (·.foreignKey e.table) ++ (d.leads e).map (·.index e.table))

/-- The entities in the order in which they are written. -/
def ordered (d : Design) : List Entity :=
  d.entities.filter (fun e => (d.leads e).isEmpty) ++ d.entities.filter fun e => !(d.leads e).isEmpty

/-- The script of a design. -/
def script (d : Design) (project : String) : String :=
  "\n".intercalate (heading project ++ d.ordered.flatMap fun e => [d.tableScript e, ""])

end Design
/-! ## Parts of a document -/

namespace Json

theorem agrees_string (a b : String) : (string a).agrees (string b) = (a == b) := by
  simp [agrees, agreesAt, scalarsAgree, whole?]

end Json

namespace Export

theorem tableName_toDocument (e : Entity) : tableName e.toDocument = .ok (.string e.table) := by
  rw [tableName, Entity.table]
  change (if (!e.tableName.isEmpty) = true then _ else _) = _
  cases e.tableName.isEmpty <;> rfl

theorem columnName_toDocument (f : Field) : columnName f.toDocument = .ok (.string f.column) := by
  rw [columnName, Field.column]
  change (if (!f.columnName.isEmpty) = true then _ else _) = _
  cases f.columnName.isEmpty <;> rfl

theorem sqlType_toDocument (f : Field) : sqlType f.toDocument = .ok f.sqlType := by
  have hname : (f.type.name == FieldType.string.name) = decide (f.type = .string) := by
    cases f.type <;> decide
  change (if (f.type.name == FieldType.string.name) = true then _ else _) = _
  rw [hname, Field.sqlType]
  by_cases h : f.type = .string <;> simp [h]

/-- The line of a field's column. -/
theorem columnLine_toDocument (f : Field) :
    columnLine f.toDocument (.string f.column) = .ok (Ident.quote f.column ++ " " ++ f.definition) := by
  have hdefault : (if f.toDocument.default.isGiven then ["DEFAULT " ++ f.toDocument.default.display] else [])
      = f.defaultWords := by
    rw [Field.toDocument, Field.defaultWords]
    cases f.default with
    | none => rfl
    | some value =>
      change (if (!value.isEmpty) = true then ["DEFAULT " ++ value] else [])
        = if value.isEmpty = true then [] else ["DEFAULT " ++ value]
      cases value.isEmpty <;> rfl
  rw [columnLine, sqlType_toDocument, hdefault, Field.definition]
  change Except.ok (" ".intercalate (Ident.quote f.column :: f.sqlType :: _)) = _
  rw [String.intercalate_cons_cons]
  rfl

theorem fieldLines_toDocument (fields : List Field) :
    fieldLines (fields.map Field.toDocument)
      = .ok ((fields.filter fun f => !isShared (lowerName f.column)).map fun f =>
          (lowerName f.column, (⟨f.column, f.definition⟩ : WrittenColumn).line)) := by
  induction fields with
  | nil => rfl
  | cons f rest ih =>
    rw [List.map_cons, fieldLines, columnName_toDocument]
    simp only [letters, bind, Except.bind, pure, Except.pure, columnLine_toDocument, ih]
    cases h : isShared (lowerName f.column) with
    | true => simp [h]
    | false => simp [h, WrittenColumn.line]

/-! ## Relations -/

theorem entityOf?_toDocument (d : Design) (id : String) :
    entityOf? d.toDocument (.string id) = (d.entityOf? id).map Entity.toDocument := by
  rw [entityOf?, Design.toDocument, ← List.map_reverse, List.find?_map, Design.entityOf?]
  congr 2

/-- A relation that leads out of an entity, as it is stored. -/
def Lead.toDocument (l : Lead) : Outgoing := ⟨l.relation.toDocument, l.target.toDocument⟩

theorem outgoing?_toDocument (d : Design) (e : Entity) (x : Relation) :
    outgoing? d.toDocument e.toDocument x.toDocument
      = .ok ((if x.sourceId = e.id then (d.entityOf? x.targetId).map fun target => ⟨x, target⟩
          else none : Option Lead).map Lead.toDocument) := by
  have hone : leadsToOne x.toDocument = true := by
    rw [leadsToOne]
    exact Bool.or_eq_true_iff.2 (.inl ((Json.agrees_string _ _).trans (by decide)))
  have hsource : x.toDocument.sourceId.agrees e.toDocument.id = (x.sourceId == e.id) :=
    Json.agrees_string _ _
  rw [outgoing?, hone, hsource, Bool.and_true]
  by_cases h : x.sourceId = e.id
  · rw [if_pos (beq_iff_eq.2 h), if_pos h, if_pos (show x.toDocument.targetId.isKey = true from rfl)]
    have htarget := entityOf?_toDocument d x.targetId
    rw [show x.toDocument.targetId = .string x.targetId from rfl, htarget, Option.map_map, Option.map_map]
    rfl
  · rw [if_neg (by simpa using h), if_neg h]
    rfl

/-- Reading along a list in which everything can be read. -/
theorem mapM_map_ok {α β γ ε : Type} {read : β → Except ε γ} {f : α → β} {g : α → γ} (l : List α)
    (h : ∀ a ∈ l, read (f a) = .ok (g a)) : (l.map f).mapM read = .ok (l.map g) := by
  induction l with
  | nil => rfl
  | cons a rest ih =>
    obtain ⟨ha, hrest⟩ := List.forall_mem_cons.1 h
    rw [List.map_cons, List.mapM_cons, ha, ih hrest]
    rfl

theorem outgoing_toDocument (d : Design) (e : Entity) :
    outgoing d.toDocument e.toDocument = .ok ((d.leads e).map Lead.toDocument) := by
  rw [outgoing, show d.toDocument.relations = d.relations.map Relation.toDocument from rfl,
    mapM_map_ok d.relations fun x _ => outgoing?_toDocument d e x]
  change Except.ok (List.filterMap id _) = _
  rw [List.filterMap_map, Design.leads, List.map_filterMap]
  rfl

theorem keyColumn_toDocument (l : Lead) : keyColumn l.toDocument = .ok (.string l.column) := by
  rw [keyColumn, Lead.column]
  change (if (!l.relation.columnName.isEmpty) = true then _ else _) = _
  cases l.relation.columnName.isEmpty <;> rfl

theorem keyLines_toDocument (taken : List String) (leads : List Lead) :
    keyLines taken (leads.map Lead.toDocument)
      = .ok ((leads.filter fun l => !taken.contains (lowerName l.column)).map fun l =>
          (⟨l.column, l.definition⟩ : WrittenColumn).line) := by
  induction leads with
  | nil => rfl
  | cons l rest ih =>
    have hnullable : l.toDocument.relation.foreignKey.nullable.isGiven = l.relation.nullable := rfl
    rw [List.map_cons, keyLines, keyColumn_toDocument, List.filter_cons]
    simp only [letters, bind, Except.bind, pure, Except.pure, ih, hnullable]
    cases taken.contains (lowerName l.column) with
    | true => rfl
    | false =>
      have hline : Ident.quote l.column ++ " BIGINT" ++ (if l.relation.nullable = true then "" else " NOT NULL")
          = Ident.quote l.column ++ " " ++ l.definition := by
        simp only [Lead.definition, String.append_assoc]
        rfl
      rw [hline]
      rfl

theorem actionWords_name (a : Action) : actionWords (.string a.name) = .ok a.words := by
  cases a <;> rfl

theorem foreignKeyStatement_toDocument (table : String) (l : Lead) :
    foreignKeyStatement table l.toDocument = .ok (l.foreignKey table) := by
  rw [foreignKeyStatement, keyColumn_toDocument]
  have honDelete : actionWords l.toDocument.relation.foreignKey.onDelete = .ok l.relation.onDelete.words :=
    actionWords_name _
  have honUpdate : actionWords l.toDocument.relation.foreignKey.onUpdate = .ok l.relation.onUpdate.words :=
    actionWords_name _
  have htarget : tableName l.toDocument.target = .ok (.string l.target.table) :=
    tableName_toDocument l.target
  simp only [text, bind, Except.bind, honDelete, honUpdate, htarget]
  rfl

theorem indexStatement_toDocument (table : String) (l : Lead) :
    indexStatement table l.toDocument = .ok (l.index table) := by
  rw [indexStatement, keyColumn_toDocument]
  rfl

/-! ## Tables and scripts -/

/-- The key and the shared columns need no quotes. -/
theorem lines_fixed :
    (⟨"id", "BIGSERIAL PRIMARY KEY"⟩ : WrittenColumn).line = "    id BIGSERIAL PRIMARY KEY" ∧
      (sharedColumns.map fun (name, definition) => (⟨name, definition⟩ : WrittenColumn).line)
        = sharedColumns.map fun (name, definition) => indent (name ++ " " ++ definition) := by
  decide +kernel

theorem lines_columns (d : Design) (e : Entity) :
    (d.columns e).map (·.line) = ["    id BIGSERIAL PRIMARY KEY"]
      ++ (e.ownFields.map fun f => (⟨f.column, f.definition⟩ : WrittenColumn).line)
      ++ ((d.adding e).map fun l => (⟨l.column, l.definition⟩ : WrittenColumn).line)
      ++ sharedColumns.map fun (name, definition) => indent (name ++ " " ++ definition) := by
  rw [Design.columns, List.map_append, List.map_append, List.map_cons, lines_fixed.1, ← lines_fixed.2,
    List.map_map, List.map_map, List.map_map]
  rfl

/-- **What is written for an entity of a design.** -/
theorem entityStatements_toDocument (d : Design) (e : Entity) :
    entityStatements d.toDocument e.toDocument = .ok (d.tableScript e) := by
  have hfields : fieldLines e.toDocument.fields = .ok (e.ownFields.map fun f =>
      (lowerName f.column, (⟨f.column, f.definition⟩ : WrittenColumn).line)) :=
    fieldLines_toDocument e.fields
  have hkeys := keyLines_toDocument e.ownNames (d.leads e)
  have htaken : (e.ownFields.map fun f =>
      (lowerName f.column, (⟨f.column, f.definition⟩ : WrittenColumn).line)).map (·.1) = e.ownNames := by
    rw [List.map_map]
    rfl
  rw [entityStatements, tableName_toDocument, outgoing_toDocument, hfields, Design.tableScript,
    lines_columns]
  simp only [text, bind, Except.bind, pure, Except.pure, htaken, hkeys, List.map_map,
    mapM_map_ok (d.leads e) fun l _ => foreignKeyStatement_toDocument e.table l,
    mapM_map_ok (d.leads e) fun l _ => indexStatement_toDocument e.table l]
  rfl

theorem ordered_toDocument (d : Design) :
    ordered d.toDocument = .ok (d.ordered.map Entity.toDocument) := by
  have hmarked : d.toDocument.entities.mapM (fun e =>
      (outgoing d.toDocument e).map fun leading => (e, leading.isEmpty))
      = .ok (d.entities.map fun e => (e.toDocument, (d.leads e).isEmpty)) := by
    refine mapM_map_ok d.entities fun e _ => ?_
    rw [outgoing_toDocument]
    change Except.ok (e.toDocument, _) = _
    rw [List.isEmpty_map]
  rw [ordered, hmarked]
  change Except.ok _ = _
  rw [List.filter_map, List.filter_map, List.map_map, List.map_map, Design.ordered, List.map_append]
  rfl

theorem allStatements_toDocument (d : Design) (entities : List Entity) :
    (allStatements d.toDocument (entities.map Entity.toDocument)).value
      = .ok (entities.map d.tableScript) := by
  induction entities with
  | nil => rfl
  | cons e rest ih =>
    rw [List.map_cons, allStatements, entityStatements_toDocument]
    dsimp only
    rw [ih]
    rfl

/-- **A design can always be written.** -/
theorem script_toDocument (d : Design) (project : String) :
    (script d.toDocument project).value = .ok (d.script project) := by
  have hid : badId? d.toDocument = none := by
    have hkeys : d.entities.find? (fun e => !e.toDocument.id.isKey) = none :=
      List.find?_eq_none.2 fun e _ => by simp [Entity.toDocument, Json.isKey]
    rw [badId?, Design.toDocument, List.find?_map]
    exact congrArg (fun found => (found.map Entity.toDocument).map (·.id)) hkeys
  rw [script, hid, ordered_toDocument]
  dsimp only
  rw [allStatements_toDocument]
  change Except.ok ("\n".intercalate
    (heading project ++ (d.ordered.map d.tableScript).flatMap fun s => [s, ""])) = _
  rw [List.flatMap_map]
  rfl

end Export
end SchemaSketch
