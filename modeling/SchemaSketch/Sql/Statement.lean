import SchemaSketch.Sql.Script

/-!
# Statements, definitions and parentheses

Three cuts of SQL text, all made at punctuation tokens, so that what stands inside a literal never
cuts anything:

* `Statement.split` cuts a script into statements. An unclosed parenthesis would hide the rest of a
  script; so a semicolon inside parentheses still cuts when a word that opens a statement follows.
* `Statement.definitions` cuts the column list of a table at the commas outside parentheses.
* `Statement.inParentheses?` takes the text up to the closing parenthesis.

`Statement.prepare` is what a script goes through before its statements are read: comments out, cut,
blanks collapsed.
-/

namespace SchemaSketch.Statement
open Text

/-- Words that open a statement. -/
def openingWords : List (List Char) :=
  ["CREATE", "ALTER", "DROP", "INSERT", "UPDATE", "DELETE", "SELECT", "COMMENT", "GRANT", "REVOKE",
    "TRUNCATE", "SET", "BEGIN", "COMMIT"].map (·.toList)

/-- Whether the next token that is not white space opens a statement. -/
def opensNext (ts : List Token) : Bool :=
  match ts.dropWhile Token.isSpace with
  | [] => false
  | t :: _ => openingWords.contains (upper t.text)

/-- The text of tokens. -/
def textOf (ts : List Token) : List Char := ts.flatMap (·.text)

/-- The text of a statement, trimmed and without semicolons at its end. -/
def trimmed (ts : List Token) : List Char := trim (dropEnd (· == ';') (trim (textOf ts)))

/-- The runs of tokens into which a segment is cut at semicolons inside parentheses; `depth` counts
the open ones, and `current` is the run being read, in reverse. -/
def recoverFrom (depth : Nat) (current : List Token) : List Token → List (List Token)
  | [] => [current.reverse]
  | t :: rest =>
    if t.isMark '(' then recoverFrom (depth + 1) (t :: current) rest
    else if t.isMark ')' then recoverFrom (depth - 1) (t :: current) rest
    else if t.isMark ';' && depth > 0 && opensNext rest then
      current.reverse :: recoverFrom 0 [] rest
    else recoverFrom depth (t :: current) rest

/-- The statements of one segment. -/
def ofSegment (segment : List Token) : List (List Char) :=
  ((recoverFrom 0 [] segment).map trimmed).filter (! ·.isEmpty)

/-- The statements of a script, in order; empty ones are left out. -/
def split (script : List Char) : Except Script.LimitFault (List (List Char)) :=
  (Script.segments script).map fun segments => segments.flatMap ofSegment

/-- The statements of a script, ready to be read: without comments and on one line each. -/
def prepare (script : List Char) : Except Script.LimitFault (List (List Char)) :=
  if script.all isBlank then .ok []
  else (split (Comment.strip script)).map fun statements => statements.map squeeze

/-! ## Inside a statement -/

/-- The runs of tokens between the commas outside parentheses. -/
def commaRuns (depth : Nat) (current : List Token) : List Token → List (List Token)
  | [] => [current.reverse]
  | t :: rest =>
    if t.isMark ',' && depth == 0 then current.reverse :: commaRuns 0 [] rest
    else if t.isMark '(' then commaRuns (depth + 1) (t :: current) rest
    else if t.isMark ')' then commaRuns (depth - 1) (t :: current) rest
    else commaRuns depth (t :: current) rest

/-- The definitions of a column list; empty ones are left out. -/
def definitions (body : List Char) : Except Script.LimitFault (List (List Char)) :=
  if body.all isBlank then .ok []
  else (Script.tokens body).map fun ts =>
    ((commaRuns 0 [] ts).map fun run => trim (textOf run)).filter (! ·.isEmpty)

/-- The text up to the parenthesis that brings the count of open ones back to zero; `inner` is what
has been read, in reverse. The outermost opening parenthesis is left out. -/
def untilClosed (depth : Int) (inner : List Token) : List Token → Option (List Char)
  | [] => none
  | t :: rest =>
    if t.isMark '(' then
      if depth == 0 then untilClosed 1 inner rest else untilClosed (depth + 1) (t :: inner) rest
    else if t.isMark ')' then
      if depth == 1 then some (textOf inner.reverse) else untilClosed (depth - 1) (t :: inner) rest
    else untilClosed depth (t :: inner) rest

/-- The text between the parenthesis at the front and the one that closes it. -/
def inParentheses? (cs : List Char) : Except Script.LimitFault (Option (List Char)) :=
  (Script.tokens cs).map (untilClosed 0 [])

end SchemaSketch.Statement
