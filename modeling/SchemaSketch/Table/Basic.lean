import SchemaSketch.Text.Case

/-!
# Tables as SQL declares them

The records that reading a statement produces: columns with their flags, foreign keys with their
actions, and tables. Names keep the case in which they were written; two names are the same when
their small forms are.
-/

namespace SchemaSketch
open Text

/-- What happens to a row when the row it refers to is deleted or changed. -/
inductive Action where
  | cascade | setNull | restrict | noAction
  deriving DecidableEq, Repr

/-- The name of an action in documents. -/
def Action.name : Action → String
  | .cascade => "CASCADE"
  | .setNull => "SET_NULL"
  | .restrict => "RESTRICT"
  | .noAction => "NO_ACTION"

/-- Every action. -/
def Action.all : List Action := [.cascade, .setNull, .restrict, .noAction]

/-- The action of a name. -/
def Action.ofName? (name : List Char) : Option Action :=
  Action.all.find? (·.name.toList == name)

theorem Action.mem_all (a : Action) : a ∈ Action.all := by cases a <;> decide

/-- A reference from columns of one table to another table. -/
structure ForeignKey where
  /-- the name of its constraint, if it has one -/
  name : Option String
  /-- the referring columns -/
  columns : List String
  /-- the table referred to -/
  refTable : String
  /-- the columns referred to, if they are given -/
  refColumns : List String
  /-- what a deletion brings about -/
  onDelete : Option Action
  /-- what a change brings about -/
  onUpdate : Option Action
  deriving DecidableEq, Repr

/-- A column of a table. -/
structure Column where
  /-- its name -/
  name : String
  /-- its type as written, blanks collapsed -/
  type : String
  /-- whether it may be empty -/
  nullable : Bool
  /-- whether its values are pairwise distinct -/
  unique : Bool
  /-- whether it is part of the primary key -/
  primaryKey : Bool
  /-- its default value as written -/
  default : Option String
  /-- the first parameter of its type, if that is a number -/
  length : Option Nat
  /-- the reference in its own definition -/
  references : Option ForeignKey
  deriving DecidableEq, Repr

/-- A column in words. -/
def Column.description (c : Column) : String :=
  "Column(name='" ++ c.name ++ "', type='" ++ c.type ++ "')"

/-- A table. -/
structure Table where
  /-- its name -/
  name : String
  /-- its columns, in order of definition -/
  columns : List Column
  /-- its foreign keys, in order of definition -/
  foreignKeys : List ForeignKey
  /-- the columns of its primary key constraint -/
  primaryKey : List String
  deriving DecidableEq, Repr

/-- Whether two names are the same but for case. -/
def sameName (a b : String) : Bool := lowerName a == lowerName b

/-- The first column of a name. -/
def Table.column? (t : Table) (name : String) : Option Column :=
  t.columns.find? (sameName ·.name name)

/-- Changes the first column of a name. -/
def Table.updateColumn (t : Table) (name : String) (change : Column → Column) : Table :=
  { t with columns := updateFirst t.columns }
where
  /-- Changes the first column of the name in a list. -/
  updateFirst : List Column → List Column
    | [] => []
    | c :: rest => if sameName c.name name then change c :: rest else c :: updateFirst rest

end SchemaSketch
