import SchemaSketch.Text.Class

/-!
# Name patterns

A pattern for the names in a folder is read as a list of pieces: `*` for any run of characters, `?` for one,
and a set in brackets for one of it. A set holds characters and spans `a-z`; a span that runs backwards
is empty and left out; `!` in front of what remains turns the set around. A bracket that is not closed is a
letter like any other.
-/

namespace SchemaSketch.Wildcard

/-- A part of a pattern. -/
inductive Piece where
  /-- any run of characters -/
  | anyRun
  /-- any character -/
  | anyChar
  /-- a character of some spans, or one of none of them -/
  | among (turned : Bool) (spans : List (Char × Char))
  /-- a certain character -/
  | letter (c : Char)
  deriving DecidableEq, Repr

/-- How many characters in front of a set's content belong to it whatever they are: a `!` counts for
itself, and a closing bracket that comes first does not close. -/
def guarded : List Char → Nat
  | '!' :: ']' :: _ => 2
  | '!' :: _ => 1
  | ']' :: _ => 1
  | _ => 0

/-- The length of a set's content. -/
def contentLength (cs : List Char) : Nat :=
  guarded cs + ((cs.drop (guarded cs)).takeWhile (· != ']')).length

/-- The spans of a set's content, in order; a single character is a span from itself to itself. -/
def spansOf : List Char → List (Char × Char)
  | lo :: '-' :: hi :: rest => (lo, hi) :: spansOf rest
  | c :: rest => (c, c) :: spansOf rest
  | [] => []

/-- The spans of a set's content, the `!` in front taken as a character. -/
def spansWithMark : List Char → List (Char × Char)
  | '!' :: rest => ('!', '!') :: spansOf rest
  | content => spansOf content

/-- The set of a bracket's content. -/
def setOf (content : List Char) : Piece :=
  match (spansWithMark content).filter fun (lo, hi) => lo ≤ hi with
  | ('!', '!') :: spans => .among true spans
  | spans => .among false spans

/-- Whether a set begins after a bracket: its content is followed by something, which is a bracket then. -/
def isClosed (rest : List Char) : Bool := contentLength rest < rest.length

/-- The pieces of a pattern, of which so many characters are passed over. -/
def piecesAfter : Nat → List Char → List Piece
  | _, [] => []
  | passed + 1, _ :: rest => piecesAfter passed rest
  | 0, c :: rest =>
    if c == '*' then .anyRun :: piecesAfter 0 rest
    else if c == '?' then .anyChar :: piecesAfter 0 rest
    else if c == '[' && isClosed rest then
      setOf (rest.take (contentLength rest)) :: piecesAfter (contentLength rest + 1) rest
    else .letter c :: piecesAfter 0 rest

/-- The pieces of a pattern. -/
def pieces (pattern : List Char) : List Piece := piecesAfter 0 pattern

/-- Whether a pattern fits the whole of a name. -/
def fits : List Piece → List Char → Bool
  | [], cs => cs.isEmpty
  | .anyRun :: ps, cs => (List.range (cs.length + 1)).any fun n => fits ps (cs.drop n)
  | .anyChar :: ps, cs =>
    match cs with
    | [] => false
    | _ :: rest => fits ps rest
  | .among turned spans :: ps, cs =>
    match cs with
    | [] => false
    | c :: rest => (turned != spans.any fun (lo, hi) => lo ≤ c && c ≤ hi) && fits ps rest
  | .letter l :: ps, cs =>
    match cs with
    | [] => false
    | c :: rest => l == c && fits ps rest

/-- Whether a text is a pattern for more than itself. -/
def isPattern (text : List Char) : Bool := text.any fun c => c == '*' || c == '?' || c == '['

/-- Whether a name is hidden. -/
def isHidden (name : List Char) : Bool := name.head? == some '.'

/-- Whether a pattern fits a name; hidden names are for patterns that begin with a point as well. -/
def accepts (pattern name : List Char) : Bool :=
  (isHidden pattern || !isHidden name) && fits (pieces pattern) name

end SchemaSketch.Wildcard
