import SchemaSketch.Sql.Statement
import SchemaSketch.Sql.Identifier

/-!
# Headings of statements

Two kinds of statement say something about tables: `CREATE TABLE … (` and `ALTER TABLE …` with a
foreign key in it. The heading gives the kind and the name of the table. `kind?` asks two witnesses:
the first word among the tokens must define an object, and the heading must fit. A statement that is
too much to be cut into tokens has no kind.
-/

namespace SchemaSketch
open Text Pattern

/-- The kinds of statement that are read. -/
inductive StatementKind where
  | createTable | alterTable
  deriving DecidableEq, Repr

/-- The words of a kind. -/
def StatementKind.name : StatementKind → String
  | .createTable => "CREATE TABLE"
  | .alterTable => "ALTER TABLE"

namespace Heading

/-- The words of a table's creation up to its name. -/
def createWords : Pattern :=
  keyword "create" >> blanks1 >> Token.lead (oneOf ["global", "local"])
    >> Token.lead (oneOf ["temporary", "temp", "unlogged"]) >> keyword "table" >> blanks1
    >> Token.lead (phrase ["if", "not", "exists"])

/-- The name of the table that is created; what is left begins with the opening parenthesis. -/
def created : Reader (List Char) := do
  Reader.skip createWords
  let name ← Reader.take Identifier.qualified
  Reader.skip blanks
  fun cs => if cs.head? == some '(' then some (name, cs) else none

/-- A name after optional words, which are given up when no name follows them. -/
def nameAfter : List Pattern → Reader (List Char)
  | [] => fun _ => none
  | optionalWords :: others => fun cs =>
    match (do Reader.skip optionalWords; Reader.take Identifier.qualified : Reader (List Char)) cs with
    | some found => some found
    | none => nameAfter others cs

/-- The words `IF EXISTS` and the blanks after them. -/
def ifExists : Pattern := phrase ["if", "exists"] >> blanks1

/-- The word `ONLY` and the blanks after it. -/
def only : Pattern := keyword "only" >> blanks1

/-- The name of the table that is altered. -/
def altered : Reader (List Char) := do
  Reader.skip (phrase ["alter", "table"] >> blanks1)
  nameAfter [ifExists >> only, ifExists, only, Pattern.empty]

/-- A foreign key's list of columns. -/
def keyList : Pattern :=
  phrase ["foreign", "key"] >> blanks >> char '(' >> many1 (· != ')') >> char ')'

/-- The word by which a segment defines something, in capitals: its first token that is neither white
space nor a comment, if that token defines an object. -/
def definingWord? (segment : List Token) : Option (List Char) :=
  match segment.dropWhile (fun t => t.isSpace || t.isComment) with
  | t :: _ => if t.kind == .definer then some (upper t.text) else none
  | [] => none

/-- The kind of a statement whose first segment is given. -/
def kindOf? (statement : List Char) (segment : List Token) : Option StatementKind :=
  let word := definingWord? segment
  if word == some "CREATE".toList && (created statement).isSome then some .createTable
  else if word == some "ALTER".toList && (altered statement).isSome && hasWord keyList statement then
    some .alterTable
  else none

/-- The kind of a statement. -/
def kind? (statement : List Char) : Except Script.LimitFault (Option StatementKind) :=
  (Script.segments statement).map fun segments =>
    match segments with
    | [] => none
    | segment :: _ => kindOf? statement segment

end Heading
end SchemaSketch
