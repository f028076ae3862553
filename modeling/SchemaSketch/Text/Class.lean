import SchemaSketch.Text.WordRanges
import SchemaSketch.Text.PrintRanges

/-!
# Character classes

What counts as a letter, a digit or a blank decides where an SQL identifier ends, where a statement
may be trimmed and which parameter of a type is a length. The classes are those of Unicode:

* a **word** character is a letter, a numeral of any script, or the low line;
* a **blank** is white space in the Unicode sense, together with the four information separators;
* a **decimal** digit has a value, in whatever script; a **digit** may also be a superscript or a
  circled figure, which has none;
* a **printable** character has a form of its own on the page.

Every class asks about ASCII first and looks into a table only above it.
-/

namespace SchemaSketch.Text

/-- Whether `n` lies in one of the closed ranges of a table in rising order. -/
def inRanges : List (Nat × Nat) → Nat → Bool
  | [], _ => false
  | (first, last) :: rest, n =>
    if n < first then false else if n ≤ last then true else inRanges rest n

/-- A letter or numeral. -/
def isAlnum (c : Char) : Bool :=
  if c.toNat < 0x80 then c.isAlphanum else inRanges wordRanges c.toNat

/-- A letter, a numeral or the low line: what bare identifiers and keywords are made of. -/
def isWord (c : Char) : Bool :=
  c == '_' || isAlnum c

/-- White space. -/
def isBlank (c : Char) : Bool :=
  let n := c.toNat
  if n < 0x80 then (9 ≤ n && n ≤ 13) || (28 ≤ n && n ≤ 32)
  else n == 0x85 || n == 0xA0 || n == 0x1680 || (0x2000 ≤ n && n ≤ 0x200A)
    || n == 0x2028 || n == 0x2029 || n == 0x202F || n == 0x205F || n == 0x3000

/-- The value of `n` in the first run of ten digits that holds it. -/
def decimalIn : List Nat → Nat → Option Nat
  | [], _ => none
  | start :: rest, n =>
    if n < start then none else if n < start + 10 then some (n - start) else decimalIn rest n

/-- The value of a decimal digit of any script. -/
def decimal? (c : Char) : Option Nat :=
  let n := c.toNat
  if n < 0x80 then (if c.isDigit then some (n - 48) else none) else decimalIn decimalZeros n

/-- A decimal digit of any script. -/
def isDecimal (c : Char) : Bool :=
  (decimal? c).isSome

/-- A decimal digit, or a figure such as `²` that is a digit without being one of a number. -/
def isFigure (c : Char) : Bool :=
  isDecimal c || (0x80 ≤ c.toNat && inRanges superDigitRanges c.toNat)

/-- A character that a quoted display shows as itself. -/
def isPrintable (c : Char) : Bool :=
  let n := c.toNat
  if n < 0x80 then 32 ≤ n && n < 127 else !inRanges unprintableRanges n

/-- The character that stands for what is no character. -/
def replacement : Char := Char.ofNat 0xFFFD

/-- No blank is a word character among the ASCII ones: a word ends at a space. -/
theorem isWord_space : isWord ' ' = false := by decide

end SchemaSketch.Text
