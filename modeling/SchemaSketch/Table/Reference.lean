import SchemaSketch.Table.Basic
import SchemaSketch.Table.Note
import SchemaSketch.Sql.Identifier

/-!
# Foreign keys as they are written

`FOREIGN KEY (a, b) REFERENCES t (c, d) ON DELETE CASCADE`: the pieces are found by searching for
their keywords, wherever they stand and whatever stands between them. An action is one of four that
documents know, or `SET DEFAULT`, which they do not; that one is noted and counts as absent.
-/

namespace SchemaSketch.Reference
open Text Pattern

/-- Names in parentheses, at least one character between these. -/
def listInParentheses : Reader (List Char) := do
  Reader.skip (char '(')
  let inner ← Reader.take (many1 (· != ')'))
  Reader.skip (char ')')
  pure inner

/-- A keyword phrase and then names in parentheses. -/
def listAfter (words : List String) : Reader (List Char) := do
  Reader.skip (phrase words >> blanks)
  listInParentheses

/-- The referring columns of a foreign key. -/
def keyColumns : Reader (List Char) := listAfter ["foreign", "key"]

/-- The table that is referred to, and the columns if any are given. -/
def target : Reader (List Char × List Char) := do
  Reader.skip (keyword "references" >> blanks1)
  let table ← Reader.take Identifier.qualified
  Reader.skip blanks
  let columns ← fun cs =>
    match listInParentheses cs with
    | some found => some found
    | none => some ([], cs)
  pure (table, columns)

/-- The name of a constraint. -/
def constraintName : Reader (List Char) := do
  Reader.skip (keyword "constraint" >> blanks1)
  Reader.take Identifier.part

/-! ## Actions -/

/-- An action as it is written. -/
def actionWords : Pattern :=
  keyword "cascade" <|> phrase ["set", "null"] <|> phrase ["set", "default"] <|> keyword "restrict"
    <|> phrase ["no", "action"]

/-- The action after `ON` and the word for an event. -/
def actionAfter (event : String) : Reader (List Char) := do
  Reader.skip (phrase ["on", event] >> blanks1)
  Reader.take actionWords

/-- The action that words stand for, if documents know it. -/
def actionOf? (written : List Char) : Option Action :=
  Action.ofName? (join ['_'] (words (upper written)))

/-- The action that words stand for, with a note if documents do not know it. -/
def readAction (written : List Char) : Noted (Option Action) :=
  if written.isEmpty then .plain none
  else match actionOf? written with
    | some a => .plain (some a)
    | none => ⟨none, [.unknownAction written]⟩

/-- The two actions of a reference. -/
structure Actions where
  /-- on a deletion -/
  onDelete : Option Action
  /-- on a change -/
  onUpdate : Option Action
  deriving DecidableEq, Repr

/-- The action on an event that a text gives first, if any. -/
def actionOn (event : String) (cs : List Char) : Noted (Option Action) :=
  match searchWord (actionAfter event) cs with
  | some (written, _) => readAction written
  | none => .plain none

/-- The actions that a text gives. -/
def actions (cs : List Char) : Noted Actions :=
  let onDelete := actionOn "delete" cs
  let onUpdate := actionOn "update" cs
  ⟨⟨onDelete.value, onUpdate.value⟩, onDelete.notes ++ onUpdate.notes⟩

/-! ## The clause -/

/-- The foreign key of a clause, if it holds one. -/
def foreignKey? (clause : List Char) : Noted (Option ForeignKey) :=
  match searchWord keyColumns clause with
  | none => .plain none
  | some (columns, afterColumns) =>
    match searchWord target afterColumns with
    | none => ⟨none, [.keyWithoutReference clause]⟩
    | some ((table, refColumns), afterTarget) =>
      let acts := actions afterTarget
      let name := (searchWord constraintName clause).map fun (written, _) =>
        String.ofList (Identifier.bareName written)
      ⟨some {
        name
        columns := Identifier.names columns
        refTable := String.ofList (Identifier.bareName table)
        refColumns := Identifier.names refColumns
        onDelete := acts.value.onDelete
        onUpdate := acts.value.onUpdate }, acts.notes⟩

end SchemaSketch.Reference
