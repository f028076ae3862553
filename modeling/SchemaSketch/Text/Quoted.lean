import SchemaSketch.Text.Class

/-!
# A text between quotes, for display

Error messages and displayed lists show a text between quotes, on one line. Single quotes are used
unless the text holds one and no double quote. The quote in use and the backslash are escaped, line
ends and tabs get their short escapes, and any other character that does not print is written by its
code with two, four or eight hexadecimal digits.
-/

namespace SchemaSketch.Text

/-- The figures of `n` with at least `width` hexadecimal digits, small letters. -/
def hexDigits (width n : Nat) : List Char :=
  let digits := Nat.toDigits 16 n
  List.replicate (width - digits.length) '0' ++ digits

/-- One character inside the quotes. -/
def quotedChar (quote c : Char) : List Char :=
  if c == quote || c == '\\' then ['\\', c]
  else if c == '\n' then ['\\', 'n']
  else if c == '\r' then ['\\', 'r']
  else if c == '\t' then ['\\', 't']
  else if isPrintable c then [c]
  else if c.toNat < 0x100 then '\\' :: 'x' :: hexDigits 2 c.toNat
  else if c.toNat < 0x10000 then '\\' :: 'u' :: hexDigits 4 c.toNat
  else '\\' :: 'U' :: hexDigits 8 c.toNat

/-- The quote that a text is shown between. -/
def quoteFor (cs : List Char) : Char :=
  if cs.contains '\'' && !cs.contains '"' then '"' else '\''

/-- A text between quotes. -/
def quoted (cs : List Char) : List Char :=
  let quote := quoteFor cs
  quote :: (cs.flatMap (quotedChar quote) ++ [quote])

/-- A text between quotes. -/
def quotedText (s : String) : String := String.ofList (quoted s.toList)

end SchemaSketch.Text
