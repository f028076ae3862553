import SchemaSketch.Design.Assembly
import SchemaSketch.Document.Basic
import SchemaSketch.Export.Script
import SchemaSketch.Log.Record

/-!
# What there is to report

Importing, exporting and running a command take notice of things: a statement that cannot be read, a field
that is there twice, a table that was written. Each is an `Event`. `Event.record` gives it its level, its
words and its context for the log.
-/

namespace SchemaSketch
open Text

/-- Something to report. The number of a statement is counted from one. -/
inductive Event where
  /-- something noted while a statement was read -/
  | note (n : Note)
  /-- a statement that is too much -/
  | refused (index : Nat) (cause : Script.LimitFault)
  /-- a statement of no kind that is read -/
  | ignored (index : Nat) (statement : List Char)
  /-- a statement that cannot be read -/
  | unread (index : Nat) (kind : StatementKind) (fault : ReadFault) (statement : List Char)
  /-- a table that was declared before -/
  | redeclared (index : Nat) (table : String)
  /-- foreign keys for a table that is not there -/
  | unknownTable (index : Nat) (table : String)
  /-- a column that every entity has anyway -/
  | baseColumn (table column : String)
  /-- a column whose field name is taken -/
  | duplicateField (table field column : String)
  /-- a foreign key to a table that is not there -/
  | unknownTarget (table target : String)
  /-- a table that was written -/
  | exported (table : Export.Written)
  /-- a file that is read -/
  | reading (path : String)
  /-- a script that was imported -/
  | imported (entities relations : Nat)

namespace Event
open Log

/-- The loggers. -/
def importLogger : String := loggerName "parser"

/-- The logger of exports. -/
def exportLogger : String := loggerName "generator"

/-- The logger of commands. -/
def commandLogger : String := loggerName "cli"

/-- A record of an import. -/
def ofImport (level : Level) (message : String) (context : Context) : Record :=
  ⟨level, importLogger, message, context, none⟩

/-- A table in a context. -/
def table (name : String) : String × Json := ("table_name", .string name)

/-- An operation in a context. -/
def operation (name : String) : String × Json := ("operation", .string name)

/-- The number of a statement in a context. -/
def atStatement (index : Nat) : String × Json := ("statement_index", .int index)

/-- The most characters of a definition that a note quotes. -/
def excerptLength : Nat := 50

/-- The record for a note. -/
def noteRecord : Note → Record
  | .tableNamed name =>
    ofImport .debug ("Extracted Table Name: " ++ name) [table name, operation "create"]
  | .constraintSkipped name text =>
    ofImport .debug ("Skipping table constraint: " ++ clip excerptLength text) [table name]
  | .columnSkipped name text =>
    ofImport .debug ("Skipping unrecognized column definition: " ++ clip excerptLength text) [table name]
  | .keyWithoutReference text =>
    ofImport .debug ("FOREIGN KEY without REFERENCES: " ++ clip excerptLength text) []
  | .unknownAction text =>
    ofImport .debug ("Unsupported referential action " ++ String.ofList text ++ ", using "
      ++ Action.noAction.name) []

/-- The words for a statement that cannot be read. -/
def unreadMessage (fault : ReadFault) (statement : List Char) : String :=
  match fault with
  | .statement _ _ => fault.message
  | _ => "Failed to parse statement (" ++ fault.message ++ "): " ++ clip quotedLength statement

/-- The record for an event. -/
def record : Event → Record
  | note n => noteRecord n
  | refused index cause =>
    ofImport .warning ("sqlparse could not tokenize statement: " ++ cause.message) [atStatement index]
  | ignored index statement =>
    ofImport .debug ("Ignored statement (not CREATE TABLE / ALTER TABLE FOREIGN KEY): "
      ++ clip excerptLength statement ++ "...") [atStatement index]
  | unread index kind fault statement =>
    ofImport .warning (unreadMessage fault statement)
      [atStatement index, ("statement_type", .string kind.name)]
  | redeclared index name =>
    ofImport .info ("Table " ++ name ++ " declared twice, keeping the last declaration")
      [atStatement index, table name, operation "register"]
  | unknownTable index name =>
    ofImport .debug ("Dropping foreign keys of unknown table " ++ name)
      [atStatement index, ("statement_type", .string StatementKind.alterTable.name), table name,
        operation "alter"]
  | baseColumn name column =>
    ofImport .debug ("Skipping base field " ++ column) [table name, operation "fields"]
  | duplicateField name field column =>
    ofImport .warning ("Duplicate field " ++ field ++ " from column " ++ column ++ ", keeping the first")
      [table name, operation "fields"]
  | unknownTarget name target =>
    ofImport .debug ("Dropping foreign key to unknown table " ++ target)
      [table name, operation "relations"]
  | exported written =>
    ⟨.debug, exportLogger, "Generated table for entity " ++ written.entity,
      [("table_name", written.table), operation "generate"], none⟩
  | reading path =>
    ⟨.info, commandLogger, "Reading " ++ path, [("file_path", .string path)], none⟩
  | imported entities relations =>
    ⟨.info, commandLogger, s!"Parsed {entities} entities and {relations} relations", [], none⟩

end Event
end SchemaSketch
