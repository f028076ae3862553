import SchemaSketch.Text.Pattern
import SchemaSketch.Text.Trim
import SchemaSketch.Text.Quoted

/-!
# Column types and field types

A column type is written as words with optional parameters and array brackets: `varchar(100)`,
`double precision`, `int[][]`. Its *base* is the words alone, in capitals; the first parameter, if it
is a number, is its *length*. `fieldTypeOf` maps the base to one of the field types of a design;
an unknown base is text, so that one unusual type never costs a table.

Reading a length can fail, and only there can reading a column fail: the parameter may consist of
figures that are no decimal number (`²`), or of more digits than a number may have.
-/

namespace SchemaSketch
open Text

/-- The types that a field of a design can have. -/
inductive FieldType where
  | string | integer | long | double | float | bigDecimal | boolean
  | localDate | localDateTime | localTime | instant | uuid | bytes
  deriving DecidableEq, Repr

/-- The name of a field type in documents. -/
def FieldType.name : FieldType → String
  | .string => "String"
  | .integer => "Integer"
  | .long => "Long"
  | .double => "Double"
  | .float => "Float"
  | .bigDecimal => "BigDecimal"
  | .boolean => "Boolean"
  | .localDate => "LocalDate"
  | .localDateTime => "LocalDateTime"
  | .localTime => "LocalTime"
  | .instant => "Instant"
  | .uuid => "UUID"
  | .bytes => "byte[]"

namespace ColumnType

/-- The known bases. -/
def known : List (String × FieldType) := [
  ("VARCHAR", .string), ("CHAR", .string), ("TEXT", .string), ("CHARACTER", .string),
  ("CHARACTER VARYING", .string), ("NVARCHAR", .string), ("CITEXT", .string),
  ("INT", .integer), ("INTEGER", .integer), ("SERIAL", .integer), ("SMALLINT", .integer),
  ("SMALLSERIAL", .integer), ("INT2", .integer), ("INT4", .integer),
  ("BIGINT", .long), ("BIGSERIAL", .long), ("INT8", .long),
  ("DECIMAL", .bigDecimal), ("NUMERIC", .bigDecimal), ("MONEY", .bigDecimal),
  ("DOUBLE PRECISION", .double), ("DOUBLE", .double), ("FLOAT8", .double),
  ("REAL", .float), ("FLOAT", .float), ("FLOAT4", .float),
  ("BOOLEAN", .boolean), ("BOOL", .boolean),
  ("DATE", .localDate),
  ("TIMESTAMP", .localDateTime), ("TIMESTAMPTZ", .localDateTime),
  ("TIMESTAMP WITHOUT TIME ZONE", .localDateTime), ("TIMESTAMP WITH TIME ZONE", .localDateTime),
  ("DATETIME", .localDateTime),
  ("TIME", .localTime), ("TIME WITHOUT TIME ZONE", .localTime),
  ("UUID", .uuid), ("BYTEA", .bytes), ("BLOB", .bytes)]

/-- The words that a known type begins with. -/
def keywords : List (List Char) := known.map fun (base, _) => base.toList.takeWhile (· != ' ')

/-- Whether a word in capitals begins a known type. -/
def isKeyword (word : List Char) : Bool := keywords.contains word

/-- Why a length cannot be read. -/
inductive LengthFault where
  /-- Figures that are not all decimal digits. -/
  | notDecimal (figures : List Char)
  /-- More digits than a number may have. -/
  | tooLong (digits : Nat)
  deriving DecidableEq, Repr

/-- The most digits that a number may have. -/
def maxDigits : Nat := 4300

/-- What is wrong with a length, in words. -/
def LengthFault.message : LengthFault → String
  | .notDecimal figures =>
    "invalid literal for int() with base 10: " ++ clip 200 (quoted figures)
  | .tooLong digits =>
    s!"Exceeds the limit ({maxDigits} digits) for integer string conversion: value has {digits} digits; "
      ++ "use sys.set_int_max_str_digits() to increase the limit"

/-- The number that decimal digits write, going on from `value`. -/
def numberFrom (value : Nat) : List Char → Nat
  | [] => value
  | c :: rest => numberFrom (10 * value + (decimal? c).getD 0) rest

/-- The number that figures write. The count of digits is checked first. -/
def readLength (figures : List Char) : Except LengthFault Nat :=
  let digits := (figures.takeWhile isDecimal).length
  if digits > maxDigits then .error (.tooLong digits)
  else if figures.all isDecimal then .ok (numberFrom 0 figures)
  else .error (.notDecimal figures)

/-- A parenthesis up to the first closing one. -/
def parameters : Pattern :=
  Pattern.char '(' >> Pattern.many (· != ')') >> Pattern.char ')'

/-- The text before the first comma in the first parenthesis of a type. -/
def firstParameter (written : List Char) : List Char :=
  match Pattern.findAll parameters written with
  | [] => []
  | inParentheses :: _ =>
    trim (((inParentheses.drop 1).dropLast).takeWhile (· != ','))

/-- The length of a column type, if its first parameter is a number. -/
def length? (written : List Char) : Except LengthFault (Option Nat) :=
  let first := firstParameter written
  if !first.isEmpty && first.all isFigure then (readLength first).map some else .ok none

/-- The words of a column type in capitals, without parameters and array brackets. -/
def base (written : List Char) : List Char :=
  let bare := Pattern.replaceAll parameters [' '] written
  squeeze (upper (Pattern.replaceAll (Pattern.exactly ['[', ']']) [' '] bare))

/-- The field type for a base. -/
def fieldTypeOf (base : List Char) : FieldType :=
  ((known.find? fun (name, _) => name.toList == base).map (·.2)).getD .string

/-- The field type for a column type. -/
def fieldType (written : List Char) : FieldType := fieldTypeOf (base written)

end ColumnType
end SchemaSketch
