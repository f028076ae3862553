import SchemaSketch.Import.Event

/-!
# Importing a script, with a report

`Import.run` makes the design of a script and reports what happened, in the order in which it happened:
the declarations statement by statement, then the alterations, then the fields of each table, then the
relations. The design is `Design.ofScript`; the report is computed beside it from the same readings.
-/

namespace SchemaSketch.Import
open Text

/-- A statement with its number, counted from one, and what it has to say. -/
structure Item where
  /-- the number -/
  index : Nat
  /-- the statement -/
  statement : List Char
  /-- what it says -/
  reading : Reading

/-- The statements of a script with their numbers, from `index` on. -/
def items (index : Nat) : List (List Char) → List Item
  | [] => []
  | statement :: rest => ⟨index, statement, .ofStatement statement⟩ :: items (index + 1) rest

/-- The events of a reading whose notes and outcome are given. -/
def readingEvents {α : Type} (item : Item) (kind : StatementKind) (read : Noted (Except ReadFault α)) :
    List Event :=
  read.notes.map .note
    ++ (match read.value with
      | .ok _ => []
      | .error fault => [.unread item.index kind fault item.statement])

/-- The events of a statement in the pass over the declarations. -/
def declarationEvents (r : Register) (item : Item) : List Event :=
  match item.reading with
  | .refused cause => [.refused item.index cause, .ignored item.index item.statement]
  | .ignored => [.ignored item.index item.statement]
  | .creation read =>
    readingEvents item .createTable read
      ++ (match read.value with
        | .ok table => if (r.table? table.name).isSome then [.redeclared item.index table.name] else []
        | .error _ => [])
  | .alteration _ => []

/-- The events of the pass over the declarations. -/
def declarations (r : Register) : List Item → List Event
  | [] => []
  | item :: rest =>
    declarationEvents r item ++ declarations (r.afterCreation item.reading) rest

/-- The events of a statement in the pass over the alterations. -/
def alterationEvents (r : Register) (item : Item) : List Event :=
  match item.reading with
  | .alteration read =>
    readingEvents item .alterTable read
      ++ (match read.value with
        | .ok a => if (r.table? a.table).isSome then [] else [.unknownTable item.index a.table]
        | .error _ => [])
  | _ => []

/-- The events of the fields of a table; `seen` are the names that are taken. -/
def fieldEvents (base : BaseColumns) (table : String) (seen : List String) : List Column → List Event
  | [] => []
  | c :: rest =>
    if base.holds c.name then .baseColumn table c.name :: fieldEvents base table seen rest
    else
      let name := Naming.fieldName c.name
      if name.isEmpty then fieldEvents base table seen rest
      else if seen.contains name then
        .duplicateField table name c.name :: fieldEvents base table seen rest
      else fieldEvents base table (name :: seen) rest

/-- The events of the relations of a table. -/
def relationEvents (r : Register) (table : Table) : List Event :=
  table.foreignKeys.filterMap fun key =>
    if (r.table? key.refTable).isSome then none else some (.unknownTarget table.name key.refTable)

/-- The events of the statements of a script. -/
def events (base : BaseColumns) (statements : List (List Char)) : List Event :=
  let all := items 1 statements
  let readings := all.map (·.reading)
  let declared := Register.declared readings
  let register := Register.ofReadings readings
  declarations [] all ++ all.flatMap (alterationEvents declared)
    ++ register.flatMap (fun (_, table) => fieldEvents base table.name [] table.columns)
    ++ register.flatMap fun (_, table) => relationEvents register table

/-- A design with the events on the way to it. -/
structure Imported where
  /-- the design -/
  design : Design
  /-- what happened -/
  events : List Event

/-- The design of a script, with a report. -/
def run (base : BaseColumns) (script : List Char) : Except Script.LimitFault Imported :=
  (Statement.prepare script).map fun statements =>
    ⟨Design.ofStatements base statements, events base statements⟩

end SchemaSketch.Import
