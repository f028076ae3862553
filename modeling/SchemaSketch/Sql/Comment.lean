import SchemaSketch.Text.Pattern

/-!
# Comments

`Comment.strip` takes the comments out of an SQL text: `--` up to the end of the line, and `/* … */`,
which nest. Quoted text is kept as it is, so that a default value such as `'a--b'` survives. Four kinds
of quoting are known: single quotes (where `''` and `\'` do not end the text), double quotes,
backticks, and *tagged bodies* between two equal marks `$tag$`.

The text is read from left to right, one character at a time, in a `Mode`. A mark of two characters
is read at its first one; the second is then passed over or kept by a mode of its own.
-/

namespace SchemaSketch.Comment
open Text

/-- Where the reader stands. -/
inductive Mode where
  /-- outside comments and quotes -/
  | code
  /-- in a comment that ends with the line -/
  | line
  /-- in a block comment inside so many others -/
  | block (outer : Nat)
  /-- between quotes -/
  | quote (mark : Char)
  /-- before the last characters of a tagged body -/
  | body (left : Nat)
  /-- before the second character of a mark, which is dropped -/
  | drop (next : Mode)
  /-- before the second character of a mark, which is kept -/
  | keep (next : Mode)
  deriving DecidableEq, Repr

/-- A character that a tag may begin with. -/
def isTagStart (c : Char) : Bool := c.isAlpha || c == '_'

/-- The mark of a tagged body: `$$` or `$tag$`. -/
def tag : Pattern :=
  Pattern.char '$' >> Pattern.optional (Pattern.one isTagStart >> Pattern.many isWord)
    >> Pattern.char '$'

/-- Where `part` stands for the first time. -/
def indexOf? (part : List Char) : List Char → Option Nat
  | [] => if part.isEmpty then some 0 else none
  | c :: rest =>
    if part.isPrefixOf (c :: rest) then some 0 else (indexOf? part rest).map (· + 1)

/-- The length of the tagged body at the front of a text; one that is never closed takes all. -/
def bodyLength? (cs : List Char) : Option Nat :=
  (tag cs).map fun n =>
    match indexOf? (cs.take n) (cs.drop n) with
    | some found => n + found + n
    | none => cs.length

/-- Whether a dollar sign after this character can open a body. Inside an identifier it cannot. -/
def bodyMayOpen : Option Char → Bool
  | none => true
  | some c => !(isWord c || c == '$')

/-- What is written for a character, and the mode after it. -/
def step (mode : Mode) (before : Option Char) (c : Char) (rest : List Char) : List Char × Mode :=
  match mode with
  | .code =>
    if c == '\'' || c == '"' || c == '`' then ([c], .quote c)
    else if c == '$' && bodyMayOpen before then
      match bodyLength? (c :: rest) with
      | some (n + 2) => ([c], .body n)
      | _ => ([c], .code)
    else if c == '-' && rest.head? == some '-' then ([], .drop .line)
    else if c == '/' && rest.head? == some '*' then ([], .drop (.block 0))
    else ([c], .code)
  | .line => if c == '\n' then ([c], .code) else ([], .line)
  | .block outer =>
    if c == '/' && rest.head? == some '*' then ([], .drop (.block (outer + 1)))
    else if c == '*' && rest.head? == some '/' then
      match outer with
      | 0 => ([' '], .drop .code)
      | less + 1 => ([], .drop (.block less))
    else ([], .block outer)
  | .quote mark =>
    if mark == '\'' && c == '\\' && rest.head? == some '\'' then ([c], .keep (.quote mark))
    else if c == mark then
      if mark == '\'' && rest.head? == some '\'' then ([c], .keep (.quote mark)) else ([c], .code)
    else ([c], .quote mark)
  | .body 0 => ([c], .code)
  | .body (left + 1) => ([c], .body left)
  | .drop next => ([], next)
  | .keep next => ([c], next)

/-- The text without its comments, from a mode on. -/
def stripFrom (mode : Mode) (before : Option Char) : List Char → List Char
  | [] => []
  | c :: rest =>
    let (written, next) := step mode before c rest
    written ++ stripFrom next (some c) rest

/-- The text without its comments. A block comment leaves one space, so that what stood on its two
sides stays apart. -/
def strip (cs : List Char) : List Char := stripFrom .code none cs

end SchemaSketch.Comment
