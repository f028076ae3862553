import SchemaSketch.Json.Basic
import SchemaSketch.Text.Quoted

/-!
# Writing JSON text

Values are written in ASCII: other characters are escaped by number, those beyond the first plane as a
surrogate pair. Two layouts are in use. `oneLine` has a space after each comma and colon; `indented` has
each item and member on a line of its own, two spaces deeper than what holds it. What is empty is
written without a space between its brackets.

`display` is not JSON: it is the text under which a value of unknown type appears inside other text.
-/

namespace SchemaSketch.Json
open Text

/-! ## Scalars -/

/-- An escape by number. -/
def escapeUnit (n : Nat) : List Char := '\\' :: 'u' :: hexDigits 4 n

/-- A character inside a string. -/
def escapeChar (c : Char) : List Char :=
  if c == '"' then ['\\', '"']
  else if c == '\\' then ['\\', '\\']
  else if c == '\n' then ['\\', 'n']
  else if c == '\r' then ['\\', 'r']
  else if c == '\t' then ['\\', 't']
  else if c.toNat == 12 then ['\\', 'f']
  else if c.toNat == 8 then ['\\', 'b']
  else if 32 ≤ c.toNat && c.toNat < 127 then [c]
  else if c.toNat < 0x10000 then escapeUnit c.toNat
  else
    let n := c.toNat - 0x10000
    escapeUnit (0xD800 + n / 0x400) ++ escapeUnit (0xDC00 + n % 0x400)

/-- A string between its quotes. -/
def stringText (s : String) : String :=
  String.ofList ('"' :: (s.toList.flatMap escapeChar ++ ['"']))

/-- A floating-point number. -/
def floatText : Binary64 → String
  | .nan => "NaN"
  | .infinite negative => if negative then "-Infinity" else "Infinity"
  | .finite negative mantissa exponent => Binary64.finiteText negative mantissa exponent

/-! ## Layouts -/

mutual

/-- A value on one line. -/
def oneLine : Json → String
  | null => "null"
  | bool b => if b then "true" else "false"
  | int i => toString i
  | float x => floatText x
  | string s => stringText s
  | array items => "[" ++ itemsOneLine items ++ "]"
  | object members => "\x7b" ++ membersOneLine members ++ "\x7d"

/-- Items with commas between them. -/
def itemsOneLine : List Json → String
  | [] => ""
  | item :: rest =>
    match rest with
    | [] => oneLine item
    | _ :: _ => oneLine item ++ ", " ++ itemsOneLine rest

/-- Members with commas between them. -/
def membersOneLine : List (String × Json) → String
  | [] => ""
  | (name, value) :: rest =>
    match rest with
    | [] => stringText name ++ ": " ++ oneLine value
    | _ :: _ => stringText name ++ ": " ++ oneLine value ++ ", " ++ membersOneLine rest

end

/-- A line end and the indentation of a level. -/
def newLine (level : Nat) : String := String.ofList ('\n' :: List.replicate (2 * level) ' ')

mutual

/-- A value on lines of its own, at a level of indentation. -/
def indentedAt (level : Nat) : Json → String
  | null => "null"
  | bool b => if b then "true" else "false"
  | int i => toString i
  | float x => floatText x
  | string s => stringText s
  | array [] => "[]"
  | array (item :: rest) => "[" ++ itemsIndented (level + 1) (item :: rest) ++ newLine level ++ "]"
  | object [] => "\x7b\x7d"
  | object (member :: rest) =>
    "\x7b" ++ membersIndented (level + 1) (member :: rest) ++ newLine level ++ "\x7d"

/-- Items, each on a line of its own. -/
def itemsIndented (level : Nat) : List Json → String
  | [] => ""
  | item :: rest =>
    newLine level ++ indentedAt level item
      ++ (match rest with | [] => "" | _ :: _ => ",") ++ itemsIndented level rest

/-- Members, each on a line of its own. -/
def membersIndented (level : Nat) : List (String × Json) → String
  | [] => ""
  | (name, value) :: rest =>
    newLine level ++ stringText name ++ ": " ++ indentedAt level value
      ++ (match rest with | [] => "" | _ :: _ => ",") ++ membersIndented level rest

end

/-- A value on lines of its own. -/
def indented (v : Json) : String := indentedAt 0 v

/-! ## Display -/

/-- A floating-point number inside other text. -/
def floatDisplay : Binary64 → String
  | .nan => "nan"
  | .infinite negative => if negative then "-inf" else "inf"
  | .finite negative mantissa exponent => Binary64.finiteText negative mantissa exponent

mutual

/-- A value inside a displayed list or object: strings stand between quotes. -/
def nestedDisplay : Json → String
  | null => "None"
  | bool b => if b then "True" else "False"
  | int i => toString i
  | float x => floatDisplay x
  | string s => quotedText s
  | array items => "[" ++ itemsDisplay items ++ "]"
  | object members => "\x7b" ++ membersDisplay members ++ "\x7d"

/-- Displayed items with commas between them. -/
def itemsDisplay : List Json → String
  | [] => ""
  | item :: rest =>
    match rest with
    | [] => nestedDisplay item
    | _ :: _ => nestedDisplay item ++ ", " ++ itemsDisplay rest

/-- Displayed members with commas between them. -/
def membersDisplay : List (String × Json) → String
  | [] => ""
  | (name, value) :: rest =>
    match rest with
    | [] => quotedText name ++ ": " ++ nestedDisplay value
    | _ :: _ => quotedText name ++ ": " ++ nestedDisplay value ++ ", " ++ membersDisplay rest

end

/-- A value inside other text: a string as it is. -/
def display : Json → String
  | string s => s
  | v => nestedDisplay v

end SchemaSketch.Json
