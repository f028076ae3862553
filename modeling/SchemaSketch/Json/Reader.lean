import SchemaSketch.Json.Basic
import SchemaSketch.Text.Class

/-!
# Reading JSON text

`Json.read` reads one value and nothing after it but white space. A text that is no value is refused
with a cause and the place where the reader stood. The place is kept as the number of characters that
were *left*, since the rest of the text is what a reader has at hand; `Fault.message` turns it into a
line, a column and an offset.

Besides the standard, the words `NaN`, `Infinity` and `-Infinity` are read as numbers, a member that is
written twice counts with its last value in its first place, and an escaped half of a surrogate pair
that stands alone is read as the replacement character.
-/

namespace SchemaSketch.Json

/-- Why a text is no JSON value. -/
inductive Cause where
  | expectingValue
  | expectingName
  | expectingColon
  | expectingComma
  | extraData
  | unterminatedString
  | controlCharacter
  | badEscape
  | badUnicodeEscape
  | byteOrderMark
  /-- a whole number of more digits than a number may have -/
  | tooManyDigits (digits : Nat)
  /-- lists and objects nested too deep -/
  | tooDeep
  deriving DecidableEq, Repr

/-- A cause in words. -/
def Cause.message : Cause → String
  | expectingValue => "Expecting value"
  | expectingName => "Expecting property name enclosed in double quotes"
  | expectingColon => "Expecting ':' delimiter"
  | expectingComma => "Expecting ',' delimiter"
  | extraData => "Extra data"
  | unterminatedString => "Unterminated string starting at"
  | controlCharacter => "Invalid control character at"
  | badEscape => "Invalid \\escape"
  | badUnicodeEscape => "Invalid \\uXXXX escape"
  | byteOrderMark => "Unexpected UTF-8 BOM (decode using utf-8-sig)"
  | tooManyDigits digits =>
    s!"Exceeds the limit (4300 digits) for integer string conversion: value has {digits} digits; "
      ++ "use sys.set_int_max_str_digits() to increase the limit"
  | tooDeep => "maximum recursion depth exceeded"

/-- A cause and how much of the text was left. -/
structure Fault where
  /-- the cause -/
  cause : Cause
  /-- how many characters were left -/
  left : Nat
  deriving DecidableEq, Repr

/-- Whether a cause speaks of the form of the text, so that its place is of interest. -/
def Cause.hasPlace : Cause → Bool
  | tooManyDigits _ | tooDeep => false
  | _ => true

/-- The line and the column of a place, both counted from one. -/
def place (before : List Char) : Nat × Nat :=
  (before.count '\n' + 1, (before.reverse.takeWhile (· != '\n')).length + 1)

/-- A fault in words, for a reader of the text. -/
def Fault.message (f : Fault) (text : List Char) : String :=
  if f.cause.hasPlace then
    let offset := text.length - f.left
    let (line, column) := place (text.take offset)
    f.cause.message ++ s!": line {line} column {column} (char {offset})"
  else f.cause.message

/-- How deep lists and objects may be nested. -/
def maxNesting : Nat := 985

/-- White space between the parts of a value. -/
def isSpace (c : Char) : Bool := c == ' ' || c == '\t' || c == '\n' || c == '\r'

/-- Without white space in front. -/
def skipSpace (cs : List Char) : List Char := cs.dropWhile isSpace

/-! ## Strings -/

/-- The value of a hexadecimal figure. -/
def hexValue? (c : Char) : Option Nat :=
  if '0' ≤ c && c ≤ '9' then some (c.toNat - 48)
  else if 'a' ≤ c && c ≤ 'f' then some (c.toNat - 87)
  else if 'A' ≤ c && c ≤ 'F' then some (c.toNat - 55)
  else none

/-- The value of four hexadecimal figures. -/
def hex4? (a b c d : Char) : Option Nat := do
  let a ← hexValue? a
  let b ← hexValue? b
  let c ← hexValue? c
  let d ← hexValue? d
  pure (((a * 16 + b) * 16 + c) * 16 + d)

/-- The first half of a surrogate pair. -/
def isHighHalf (n : Nat) : Bool := 0xD800 ≤ n && n ≤ 0xDBFF

/-- The second half of a surrogate pair. -/
def isLowHalf (n : Nat) : Bool := 0xDC00 ≤ n && n ≤ 0xDFFF

/-- The character of a unit that is part of no pair. -/
def charOfUnit (n : Nat) : Char :=
  if isHighHalf n || isLowHalf n then Text.replacement else Char.ofNat n

/-- The character of an escape by number; `cs` begins after `\u`, and `left` counts the characters from
the `u` on. At least one character must follow the figures. -/
def unicodeEscape (left : Nat) (cs : List Char) : Except Fault (Char × List Char) :=
  match cs with
  | a :: b :: c :: d :: next :: rest =>
    match hex4? a b c d with
    | none => .error ⟨.badUnicodeEscape, left⟩
    | some high =>
      if isHighHalf high then
        match next :: rest with
        | '\\' :: 'u' :: e :: f :: g :: h :: after :: others =>
          match hex4? e f g h with
          | none => .error ⟨.badUnicodeEscape, left - 6⟩
          | some low =>
            if isLowHalf low then
              .ok (Char.ofNat (0x10000 + (high - 0xD800) * 0x400 + (low - 0xDC00)), after :: others)
            else .ok (Text.replacement, next :: rest)
        | _ => .ok (Text.replacement, next :: rest)
      else .ok (charOfUnit high, next :: rest)
  | _ => .error ⟨.badUnicodeEscape, left⟩

/-- The character of a short escape. -/
def shortEscape? : Char → Option Char
  | '"' => some '"'
  | '\\' => some '\\'
  | '/' => some '/'
  | 'b' => some (Char.ofNat 8)
  | 'f' => some (Char.ofNat 12)
  | 'n' => some '\n'
  | 'r' => some '\r'
  | 't' => some '\t'
  | _ => none

/-- The characters of a string whose opening quote has been read, and what follows the closing quote.
`opened` counts the characters from the opening quote on. -/
def readChars (opened : Nat) : Nat → List Char → Except Fault (List Char × List Char)
  | _, [] => .error ⟨.unterminatedString, opened⟩
  | 0, _ :: _ => .error ⟨.unterminatedString, opened⟩
  | rounds + 1, c :: rest =>
    if c == '"' then .ok ([], rest)
    else if c == '\\' then
      match rest with
      | [] => .error ⟨.unterminatedString, opened⟩
      | e :: rest' =>
        match (if e == 'u' then unicodeEscape (rest'.length + 1) rest'
          else match shortEscape? e with
            | some c => .ok (c, rest')
            | none => .error ⟨.badEscape, rest'.length + 2⟩) with
        | .error fault => .error fault
        | .ok (c, after) =>
          (readChars opened rounds after).map fun (cs, others) => (c :: cs, others)
    else if c.toNat < 0x20 then .error ⟨.controlCharacter, rest.length + 1⟩
    else (readChars opened rounds rest).map fun (cs, others) => (c :: cs, others)

/-- A string whose opening quote has been read. -/
def readString (cs : List Char) : Except Fault (String × List Char) :=
  (readChars (cs.length + 1) cs.length cs).map fun (read, rest) => (String.ofList read, rest)

/-! ## Numbers -/

/-- The whole number that ASCII digits write. -/
def digitsValue (cs : List Char) : Nat := cs.foldl (fun n c => 10 * n + (c.toNat - 48)) 0

/-- The digits after a point, if a point and a digit follow. -/
def fraction (cs : List Char) : List Char × List Char :=
  match cs with
  | '.' :: d :: rest =>
    if d.isDigit then (d :: rest.takeWhile Char.isDigit, rest.dropWhile Char.isDigit) else ([], cs)
  | _ => ([], cs)

/-- The power of ten, if one follows. -/
def power (cs : List Char) : Option Int × List Char :=
  let unsigned (negative : Bool) (rest : List Char) : Option Int × List Char :=
    match rest.takeWhile Char.isDigit with
    | [] => (none, cs)
    | digits =>
      let n : Int := digitsValue digits
      (some (if negative then -n else n), rest.dropWhile Char.isDigit)
  match cs with
  | e :: rest =>
    if e == 'e' || e == 'E' then
      match rest with
      | '-' :: rest => unsigned true rest
      | '+' :: rest => unsigned false rest
      | _ => unsigned false rest
    else (none, cs)
  | [] => (none, cs)

/-- A number from its sign and its digits on; `cs` begins after the digits. -/
def numberOf (negative : Bool) (digits cs : List Char) : Except Fault (Json × List Char) :=
  let (places, rest) := fraction cs
  let (exponent, rest) := power rest
  if places.isEmpty && exponent.isNone then
    if digits.length > maxDigits then .error ⟨.tooManyDigits digits.length, cs.length⟩
    else
      let n : Int := digitsValue digits
      .ok (int (if negative then -n else n), rest)
  else
    .ok (float (.ofDecimal negative (digitsValue (digits ++ places))
      (exponent.getD 0 - places.length)), rest)

/-- A number, if one begins here. -/
def readNumber (cs : List Char) : Except Fault (Json × List Char) :=
  let (negative, body) := match cs with
    | '-' :: rest => (true, rest)
    | _ => (false, cs)
  match body with
  | '0' :: rest => numberOf negative ['0'] rest
  | d :: rest =>
    if d.isDigit then numberOf negative (d :: rest.takeWhile Char.isDigit) (rest.dropWhile Char.isDigit)
    else .error ⟨.expectingValue, cs.length⟩
  | [] => .error ⟨.expectingValue, cs.length⟩

/-- The values that are written as words. -/
def wordValues : List (List Char × Json) := [
  ("null".toList, .null), ("true".toList, .bool true), ("false".toList, .bool false),
  ("NaN".toList, .float .nan), ("Infinity".toList, .float (.infinite false)),
  ("-Infinity".toList, .float (.infinite true))]

/-- A word or a number. -/
def readScalar (cs : List Char) : Except Fault (Json × List Char) :=
  match wordValues.find? (·.1.isPrefixOf cs) with
  | some (word, value) => .ok (value, cs.drop word.length)
  | none => readNumber cs

/-! ## Values -/

mutual

/-- A value at the front of a text. `depth` is how deep lists and objects may still be nested; the rounds
bound the recursion and are never used up when they begin at twice the length of the text. -/
def readValue (depth : Nat) : Nat → List Char → Except Fault (Json × List Char)
  | 0, cs => .error ⟨.tooDeep, cs.length⟩
  | rounds + 1, cs =>
    match cs with
    | '"' :: rest => (readString rest).map fun (s, after) => (string s, after)
    | '{' :: rest =>
      match depth with
      | 0 => .error ⟨.tooDeep, cs.length⟩
      | inner + 1 =>
        match skipSpace rest with
        | '}' :: after => .ok (object [], after)
        | rest => (readMembers inner rounds [] rest).map fun (members, after) => (object members, after)
    | '[' :: rest =>
      match depth with
      | 0 => .error ⟨.tooDeep, cs.length⟩
      | inner + 1 =>
        match skipSpace rest with
        | ']' :: after => .ok (array [], after)
        | rest => (readItems inner rounds rest).map fun (items, after) => (array items, after)
    | _ => readScalar cs

/-- The items of a list, from an item on, up to the closing bracket. -/
def readItems (depth : Nat) : Nat → List Char → Except Fault (List Json × List Char)
  | 0, cs => .error ⟨.tooDeep, cs.length⟩
  | rounds + 1, cs =>
    match readValue depth rounds cs with
    | .error fault => .error fault
    | .ok (item, rest) =>
      match skipSpace rest with
      | ']' :: after => .ok ([item], after)
      | ',' :: after =>
        (readItems depth rounds (skipSpace after)).map fun (items, others) => (item :: items, others)
      | rest => .error ⟨.expectingComma, rest.length⟩

/-- The members of an object, from a name on, up to the closing brace; `members` are those before. -/
def readMembers (depth : Nat) : Nat → List (String × Json) → List Char →
    Except Fault (List (String × Json) × List Char)
  | 0, _, cs => .error ⟨.tooDeep, cs.length⟩
  | rounds + 1, members, cs =>
    match cs with
    | '"' :: rest =>
      match readString rest with
      | .error fault => .error fault
      | .ok (name, rest) =>
        match skipSpace rest with
        | ':' :: rest =>
          match readValue depth rounds (skipSpace rest) with
          | .error fault => .error fault
          | .ok (value, rest) =>
            let members := insert name value members
            match skipSpace rest with
            | '}' :: after => .ok (members, after)
            | ',' :: after => readMembers depth rounds members (skipSpace after)
            | rest => .error ⟨.expectingComma, rest.length⟩
        | rest => .error ⟨.expectingColon, rest.length⟩
    | _ => .error ⟨.expectingName, cs.length⟩

end

/-- The value that a text writes. -/
def read (cs : List Char) : Except Fault Json :=
  if cs.head? == some (Char.ofNat 0xFEFF) then .error ⟨.byteOrderMark, cs.length⟩
  else
    match readValue maxNesting (2 * cs.length + 2) (skipSpace cs) with
    | .error fault => .error fault
    | .ok (value, rest) =>
      match skipSpace rest with
      | [] => .ok value
      | rest => .error ⟨.extraData, rest.length⟩

end SchemaSketch.Json
