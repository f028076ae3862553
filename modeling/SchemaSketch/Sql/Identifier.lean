import SchemaSketch.Text.Pattern
import SchemaSketch.Text.Trim

/-!
# Identifiers as they are written

An identifier is written bare (`orders`), or enclosed in double quotes, backticks or brackets, and
may be qualified (`shop.orders`). `bareName` undoes this: the name that counts is the last part,
without its enclosure. Case is kept.
-/

namespace SchemaSketch.Identifier
open Text Pattern

/-- A non-empty run between two delimiters, without the closing one inside. -/
def enclosed (opening closing : Char) : Pattern :=
  char opening >> many1 (· != closing) >> char closing

/-- A character of a bare identifier. -/
def isBareChar (c : Char) : Bool := isWord c || c == '$'

/-- One identifier. -/
def part : Pattern :=
  enclosed '"' '"' <|> enclosed '`' '`' <|> enclosed '[' ']' <|> many1 isBareChar

/-- An identifier, possibly qualified: parts with points between them, blanks allowed around these. -/
def qualified : Pattern :=
  part >> star (blanks >> char '.' >> blanks >> part)

/-- The zero-width space, which stands in names by accident only. -/
def zeroWidthSpace : Char := Char.ofNat 0x200B

/-- A character that encloses an identifier, or a space. -/
def isEnclosing (c : Char) : Bool :=
  c == '`' || c == '"' || c == '[' || c == ']' || c == ' '

/-- The name that a written identifier stands for: its last part, without enclosure. -/
def bareName (written : List Char) : List Char :=
  let name := trim (written.filter (· != zeroWidthSpace))
  trimBy isEnclosing ((findAll part name).getLastD name)

/-- The names of a comma-separated list; entries of blanks only are left out. -/
def names (written : List Char) : List String :=
  ((splitAtChar ',' written).filter (·.any (! isBlank ·))).map (String.ofList <| bareName ·)

end SchemaSketch.Identifier
