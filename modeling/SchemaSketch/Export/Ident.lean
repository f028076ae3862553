import SchemaSketch.Text.Case

/-!
# Identifiers in generated SQL

An identifier is written bare if it is *simple* (small ASCII letters, digits and low lines, no digit
first, and perhaps one line end after it) and no reserved word. Otherwise it stands in double quotes, each
quote inside doubled.
-/

namespace SchemaSketch.Ident
open Text

/-- Words that may not be written bare. -/
def reserved : List String := [
  "SELECT", "FROM", "WHERE", "AND", "OR", "NOT", "NULL", "TRUE", "FALSE",
  "INSERT", "UPDATE", "DELETE", "CREATE", "DROP", "ALTER", "TABLE", "INDEX",
  "VIEW", "DATABASE", "SCHEMA", "PRIMARY", "FOREIGN", "KEY", "UNIQUE",
  "CHECK", "CONSTRAINT", "REFERENCES", "DEFAULT", "ON", "CASCADE", "SET",
  "JOIN", "LEFT", "RIGHT", "INNER", "OUTER", "FULL", "CROSS", "NATURAL",
  "GROUP", "BY", "ORDER", "HAVING", "LIMIT", "OFFSET", "UNION", "INTERSECT",
  "EXCEPT", "ALL", "DISTINCT", "AS", "IN", "EXISTS", "BETWEEN", "LIKE",
  "IS", "CASE", "WHEN", "THEN", "ELSE", "END", "IF", "BEGIN", "COMMIT",
  "ROLLBACK", "TRANSACTION", "USER", "ROLE", "GRANT", "REVOKE"]

/-- A character that a simple identifier may begin with. -/
def isSimpleStart (c : Char) : Bool := c.isLower || c == '_'

/-- A character of a simple identifier. -/
def isSimpleChar (c : Char) : Bool := c.isLower || c.isDigit || c == '_'

/-- Whether only simple characters follow, and perhaps a line end. -/
def simpleRest : List Char → Bool
  | [] => true
  | c :: rest => if isSimpleChar c then simpleRest rest else c == '\n' && rest.isEmpty

/-- Whether an identifier is simple. -/
def isSimple : List Char → Bool
  | [] => false
  | c :: rest => isSimpleStart c && simpleRest rest

/-- Each double quote twice. -/
def doubled : List Char → List Char
  | [] => []
  | c :: rest => if c == '"' then '"' :: '"' :: doubled rest else c :: doubled rest

/-- An identifier between double quotes. -/
def enclosed (ident : List Char) : List Char := '"' :: (doubled ident ++ ['"'])

/-- Whether an identifier can be written bare. -/
def isBare (ident : String) : Bool :=
  isSimple ident.toList && !reserved.contains (upperName ident)

/-- An identifier as it is written. -/
def quote (ident : String) : String :=
  if isBare ident then ident else String.ofList (enclosed ident.toList)

end SchemaSketch.Ident
