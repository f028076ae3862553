import SchemaSketch.Table.Reference
import SchemaSketch.Table.Fault
import SchemaSketch.Sql.Heading

/-!
# Definitions of a column list

An entry of a column list is a column or a constraint. `isConstraint` tells them apart by the first
word, with one exception: `key VARCHAR(20)` is a column although `KEY` begins a constraint, because a
type follows. What an entry says is a `Definition`; `Draft.add` puts it into the table being read.

What is read of a column: its name, its type, and from the rest the flags, the default and the
reference. The words of the flags are looked for outside literals; they may stand in any order. The
flags that table constraints set are only settled at the end (`Draft.toTable`).
-/

namespace SchemaSketch
open Text Pattern

namespace ColumnDefinition

/-- A character that a type may begin with. -/
def isTypeStart (c : Char) : Bool :=
  c == '_' || (let n := (smallForm c).toNat; 0x61 ≤ n && n ≤ 0x7A) || c == 'ı' || c == 'ſ'

/-- A second word that belongs to a type. -/
def typeContinuation : Pattern :=
  blanks1 >> (keyword "varying" <|> keyword "precision"
    <|> (keyword "with" >> blanks1 >> phrase ["time", "zone"])
    <|> (keyword "without" >> blanks1 >> phrase ["time", "zone"]))

/-- A column type: words, parameters, array brackets. -/
def columnType : Pattern :=
  one isTypeStart >> many isWord >> optional typeContinuation
    >> optional (blanks >> char '(' >> many (· != ')') >> char ')')
    >> star (blanks >> char '[' >> blanks >> char ']')

/-- The name and the type of a column. -/
def heading : Reader (List Char × List Char) := do
  let name ← Reader.take Identifier.part
  Reader.skip blanks1
  let type ← Reader.take columnType
  pure (name, type)

/-- A text in which each literal is empty. -/
def withoutLiterals (cs : List Char) : List Char :=
  replaceAll Token.literal ['\'', '\''] cs

/-- Words in capitals with blanks between them, up to the end of a word. -/
def capitals : List String → Pattern
  | [] => Pattern.empty
  | [w] => (exactly w.toList).followedBy wordEnds
  | w :: v :: ws => exactly w.toList >> blanks1 >> capitals (v :: ws)

/-- A default value: a literal, a number, or a word with an optional list of arguments. -/
def defaultValue : Pattern :=
  (optional (keyword "e") >> Token.literal)
    <|> (optional (char '-') >> Token.digits1 >> optional (char '.' >> Token.digits1))
    <|> (many1 isWord >> optional (blanks >> char '(' >> many (· != ')') >> char ')'))

/-- The value after the word `DEFAULT`. -/
def default? (rest : List Char) : Option String :=
  (searchWord (do Reader.skip (keyword "default" >> blanks1); Reader.take defaultValue) rest).map
    fun (value, _) => String.ofList value

/-- The reference in a column's definition. -/
def reference? (name : String) (scan rest : List Char) : Noted (Option ForeignKey) :=
  if hasPart "REFERENCES".toList scan then
    match searchWord Reference.target rest with
    | none => .plain none
    | some ((table, refColumns), _) =>
      let acts := Reference.actions rest
      ⟨some {
        name := none
        columns := [name]
        refTable := String.ofList (Identifier.bareName table)
        refColumns := Identifier.names refColumns
        onDelete := acts.value.onDelete
        onUpdate := acts.value.onUpdate }, acts.notes⟩
  else .plain none

/-- A column from its name, its type and the rest of its definition. -/
def column (name type rest : List Char) : Except ColumnType.LengthFault (Noted Column) :=
  let type := squeeze type
  (ColumnType.length? type).map fun length =>
    let name := String.ofList (Identifier.bareName name)
    let scan := upper (withoutLiterals rest)
    let primaryKey := hasWord (capitals ["PRIMARY", "KEY"]) scan
    let reference := reference? name scan rest
    ⟨{ name
       type := String.ofList type
       nullable := !(primaryKey || hasWord (capitals ["NOT", "NULL"]) scan)
       unique := primaryKey || hasWord (capitals ["UNIQUE"]) scan
       primaryKey
       default := default? rest
       length
       references := reference.value }, reference.notes⟩

end ColumnDefinition

/-- What an entry of a column list says. -/
inductive Definition where
  /-- a column -/
  | column (c : Column)
  /-- a foreign key -/
  | foreignKey (key : ForeignKey)
  /-- the columns of the primary key -/
  | primaryKey (columns : List String)
  /-- columns whose values are distinct when taken together -/
  | unique (columns : List String)
  /-- nothing that is kept -/
  | nothing
  deriving DecidableEq, Repr

namespace Definition

/-- Words that begin a table constraint. -/
def constraintWords : List (List Char) :=
  ["CONSTRAINT", "PRIMARY", "FOREIGN", "UNIQUE", "CHECK", "INDEX", "KEY", "EXCLUDE", "LIKE"].map
    (·.toList)

/-- The ASCII word at the front of a text; nothing if it does not begin with a letter or low line. -/
def leadingWord (cs : List Char) : List Char :=
  match cs with
  | c :: rest => if Comment.isTagStart c then c :: rest.takeWhile isWord else []
  | [] => []

/-- Whether an entry with these words is a table constraint. -/
def isConstraintOf : List (List Char) → Bool
  | [] => false
  | [first] => constraintWords.contains (upper first)
  | first :: second :: _ =>
    constraintWords.contains (upper first)
      && !ColumnType.isKeyword (upper (leadingWord second))

/-- Whether an entry is a table constraint. -/
def isConstraint (entry : List Char) : Bool := isConstraintOf (words entry)

/-- The columns of a primary key constraint. -/
def primaryKeyColumns : Reader (List Char) := Reference.listAfter ["primary", "key"]

/-- The columns of a uniqueness constraint: the first parenthesis after its word. -/
def uniqueColumns : Reader (List Char) := do
  Reader.skip (wholeWord "unique" >> many (· != '('))
  Reference.listInParentheses

/-- What a table constraint says; `table` is only for the notes. -/
def ofConstraint (table : String) (entry : List Char) : Noted Definition :=
  if hasWord Heading.keyList entry then
    let key := Reference.foreignKey? entry
    ⟨match key.value with | some key => .foreignKey key | none => .nothing, key.notes⟩
  else match searchWord primaryKeyColumns entry with
    | some (columns, _) => .plain (.primaryKey (Identifier.names columns))
    | none =>
      match searchWord uniqueColumns entry with
      | some (columns, _) => .plain (.unique (Identifier.names columns))
      | none => ⟨.nothing, [.constraintSkipped table entry]⟩

/-- What a column's entry says. -/
def ofColumn (table : String) (entry : List Char) : Except ColumnType.LengthFault (Noted Definition) :=
  match ColumnDefinition.heading entry with
  | none => .ok ⟨.nothing, [.columnSkipped table entry]⟩
  | some ((name, type), rest) =>
    (ColumnDefinition.column name type rest).map fun c => ⟨.column c.value, c.notes⟩

/-- What an entry says. -/
def read (table : String) (entry : List Char) : Except ReadFault (Noted Definition) :=
  if (words entry).isEmpty then .error .blankDefinition
  else if isConstraint entry then .ok (ofConstraint table entry)
  else (ofColumn table entry).mapError .length

end Definition

/-! ## Drafts -/

/-- A table being read. -/
structure Draft where
  /-- what has been read so far -/
  table : Table
  /-- the columns that a constraint makes unique, in order -/
  uniqueColumns : List String
  deriving DecidableEq, Repr

namespace Draft

/-- Nothing but a name. -/
def named (name : String) : Draft := ⟨⟨name, [], [], []⟩, []⟩

/-- A draft with a definition put in. The last primary key counts; a uniqueness constraint on several
columns makes none of them unique. -/
def add (d : Draft) : Definition → Draft
  | .column c =>
    { d with table := { d.table with
        columns := d.table.columns ++ [c]
        foreignKeys := d.table.foreignKeys ++ c.references.toList } }
  | .foreignKey key => { d with table := { d.table with foreignKeys := d.table.foreignKeys ++ [key] } }
  | .primaryKey columns => { d with table := { d.table with primaryKey := columns } }
  | .unique [column] => { d with uniqueColumns := d.uniqueColumns ++ [column] }
  | .unique _ => d
  | .nothing => d

/-- A draft with an entry read into it. -/
def addEntry (d : Draft) (entry : List Char) : Except ReadFault (Noted Draft) :=
  (Definition.read d.table.name entry).map fun read => ⟨d.add read.value, read.notes⟩

/-- A draft with entries read into it, up to the first that cannot be read. -/
def addEntries (d : Draft) : List (List Char) → Noted (Except ReadFault Draft)
  | [] => .plain (.ok d)
  | entry :: rest =>
    match d.addEntry entry with
    | .error fault => .plain (.error fault)
    | .ok read =>
      let more := read.value.addEntries rest
      ⟨more.value, read.notes ++ more.notes⟩

/-- The flags of a column of the primary key; `alone` says that the key has no other column. -/
def keyColumn (alone : Bool) (c : Column) : Column :=
  { c with primaryKey := true, nullable := false, unique := c.unique || alone }

/-- The table of a draft, with the flags that its constraints set. A key of several columns does not
make each of them unique. -/
def toTable (d : Draft) : Table :=
  let alone := d.table.primaryKey.length == 1
  let keyed := d.table.primaryKey.foldl (·.updateColumn · (keyColumn alone)) d.table
  d.uniqueColumns.foldl (·.updateColumn · fun c => { c with unique := true }) keyed

end Draft
end SchemaSketch
