import SchemaSketch.Text.Class

/-!
# Trimming, cutting and joining

The small operations on texts that every reader uses: trimming at both ends, cutting at a separator
or at blanks, and joining. A text is a list of characters, so that each of them is a plain recursion.
-/

namespace SchemaSketch.Text

/-- Without the characters of a class at the end. -/
def dropEnd (p : Char → Bool) (cs : List Char) : List Char :=
  (cs.reverse.dropWhile p).reverse

/-- Without the characters of a class at either end. -/
def trimBy (p : Char → Bool) (cs : List Char) : List Char :=
  dropEnd p (cs.dropWhile p)

/-- Without the blanks at either end. -/
def trim (cs : List Char) : List Char :=
  trimBy isBlank cs

/-- The maximal runs of characters outside the class `p`, in order: `current` is the run being
read, in reverse. -/
def runsFrom (p : Char → Bool) (current : List Char) : List Char → List (List Char)
  | [] => if current.isEmpty then [] else [current.reverse]
  | c :: rest =>
    if p c then
      if current.isEmpty then runsFrom p [] rest else current.reverse :: runsFrom p [] rest
    else runsFrom p (c :: current) rest

/-- The maximal runs of characters outside the class `p`. -/
def runs (p : Char → Bool) (cs : List Char) : List (List Char) :=
  runsFrom p [] cs

/-- The words of a text: its maximal runs without blanks. -/
def words (cs : List Char) : List (List Char) :=
  runs isBlank cs

/-- Texts written one after the other with a separator between them. -/
def join (separator : List Char) : List (List Char) → List Char
  | [] => []
  | [a] => a
  | a :: b :: rest => a ++ separator ++ join separator (b :: rest)

/-- Every run of blanks becomes one space, and none is left at the ends. -/
def squeeze (cs : List Char) : List Char :=
  join [' '] (words cs)

/-- The pieces between the separators; an empty text has one empty piece. -/
def splitAtChar (separator : Char) : List Char → List (List Char)
  | [] => [[]]
  | c :: rest =>
    match splitAtChar separator rest with
    | [] => [[c]]
    | piece :: pieces =>
      if c == separator then [] :: piece :: pieces else (c :: piece) :: pieces

/-- Whether `part` stands somewhere in `cs`. -/
def hasPart (part : List Char) : List Char → Bool
  | [] => part.isEmpty
  | c :: rest => part.isPrefixOf (c :: rest) || hasPart part rest

/-- At most `n` characters of a text. -/
def clip (n : Nat) (cs : List Char) : String :=
  String.ofList (cs.take n)

theorem squeeze_nil : squeeze [] = [] := rfl

end SchemaSketch.Text
