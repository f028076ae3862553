import SchemaSketch.Sql.Script
import SchemaSketch.Sql.ColumnType

/-!
# Why a statement cannot be read

The causes, as data. Each has one wording. A `Reason` is a verdict on the statement itself and its
message quotes the statement; the other causes arise on the way, in a limit or in a number.
-/

namespace SchemaSketch
open Text

/-- A verdict on a statement. -/
inductive Reason where
  /-- it declares no table -/
  | notCreateTable
  /-- it alters no table -/
  | notAlterTable
  /-- its column list is not closed -/
  | unclosedList (table : String)
  /-- it adds no foreign key -/
  | noForeignKey (table : String)
  deriving DecidableEq, Repr

/-- A verdict in words. -/
def Reason.message : Reason → String
  | .notCreateTable => "Not a CREATE TABLE statement"
  | .notAlterTable => "Not an ALTER TABLE statement"
  | .unclosedList table => "Unclosed column list in table " ++ table
  | .noForeignKey table => "No foreign key found for table " ++ table

/-- Why reading a statement fails. -/
inductive ReadFault where
  /-- it is too much to be read -/
  | limit (cause : Script.LimitFault)
  /-- the length of a column cannot be read -/
  | length (cause : ColumnType.LengthFault)
  /-- a definition has no words -/
  | blankDefinition
  /-- the statement is not of the form that is read -/
  | statement (reason : Reason) (text : List Char)
  deriving DecidableEq, Repr

/-- The most characters of a statement that a message quotes. -/
def quotedLength : Nat := 100

/-- A verdict with the beginning of the statement. -/
def verdict (reason : String) (statement : List Char) : String :=
  reason ++ ": " ++ clip quotedLength statement
    ++ (if statement.length > quotedLength then "..." else "")

/-- A cause in words. -/
def ReadFault.message : ReadFault → String
  | .limit cause => cause.message
  | .length cause => cause.message
  | .blankDefinition => "list index out of range"
  | .statement reason text => verdict reason.message text

end SchemaSketch
