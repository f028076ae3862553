import SchemaSketch.Table.Definition

/-!
# Reading a statement

`readCreate` takes the table out of a statement that creates one; `readAlter` takes the name of the
table and the foreign keys out of one that alters a table. Both say why they fail. A table is read as a
whole or not at all, but the notes taken before a failure remain.
-/

namespace SchemaSketch
open Text Pattern

namespace Table

/-- The table that a statement creates. -/
def readCreate (statement : List Char) : Noted (Except ReadFault Table) :=
  match Heading.created statement with
  | none => .plain (.error (.statement .notCreateTable statement))
  | some (written, fromList) =>
    let name := String.ofList (Identifier.bareName written)
    match Statement.inParentheses? fromList with
    | .error cause => .plain (.error (.limit cause))
    | .ok none => .plain (.error (.statement (.unclosedList name) statement))
    | .ok (some body) =>
      match Statement.definitions body with
      | .error cause => ⟨.error (.limit cause), [.tableNamed name]⟩
      | .ok entries =>
        let read := (Draft.named name).addEntries entries
        ⟨read.value.map Draft.toTable, .tableNamed name :: read.notes⟩

end Table

/-- Foreign keys that a statement adds to a table. -/
structure Alteration where
  /-- the table as the statement names it -/
  table : String
  /-- the keys, in order -/
  foreignKeys : List ForeignKey
  deriving DecidableEq, Repr

namespace Alteration

/-- The word that begins a clause. -/
def addWord : Pattern := wholeWord "add"

/-- The clauses of a text: what follows each word `ADD`, up to the next. `current` is the clause being
read, in reverse, or nothing before the first; the counter passes over the letters of the word. -/
def clausesFrom (passing : Nat) (before : Option Char) (current : Option (List Char)) :
    List Char → List (List Char)
  | [] => (current.map List.reverse).toList
  | c :: rest =>
    match passing with
    | left + 1 => clausesFrom left (some c) current rest
    | 0 =>
      if wordMayBegin before && addWord.fits (c :: rest) then
        (current.map List.reverse).toList ++ clausesFrom 2 (some c) (some []) rest
      else clausesFrom 0 (some c) (current.map (c :: ·)) rest

/-- The clauses of a text, each without the word that begins it. -/
def clauses (cs : List Char) : List (List Char) := clausesFrom 0 none none cs

/-- The foreign keys that a statement adds, and the table. -/
def read (statement : List Char) : Noted (Except ReadFault Alteration) :=
  match Heading.altered statement with
  | none => .plain (.error (.statement .notAlterTable statement))
  | some (written, rest) =>
    let table := String.ofList (Identifier.bareName written)
    let found := (clauses rest).map Reference.foreignKey?
    let keys := found.filterMap (·.value)
    let notes := found.flatMap (·.notes)
    if keys.isEmpty then ⟨.error (.statement (.noForeignKey table) statement), notes⟩
    else ⟨.ok ⟨table, keys⟩, notes⟩

end Alteration
end SchemaSketch
