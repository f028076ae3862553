import SchemaSketch.Text.Trim
import SchemaSketch.Text.Case

/-!
# Name styles

Tables are written `user_profiles`, entities `UserProfile`, columns `user_id` and fields `userId`.
The conversions go through the words of a name. Words are separated by low lines, hyphens and
blanks, and also by a *hump*: an ASCII capital after a small letter or a digit. Only ASCII makes a
hump; the letters of a word may be of any script.
-/

namespace SchemaSketch.Naming
open Text

/-- A small ASCII letter or an ASCII digit: what a hump rises from. -/
def isLowGround (c : Char) : Bool := c.isLower || c.isDigit

/-- A low line before every hump; `ground` says whether the character before is low ground. -/
def markHumpsAfter (ground : Bool) : List Char → List Char
  | [] => []
  | c :: rest =>
    if ground && c.isUpper then '_' :: c :: markHumpsAfter (isLowGround c) rest
    else c :: markHumpsAfter (isLowGround c) rest

/-- A low line before every hump. -/
def markHumps (cs : List Char) : List Char := markHumpsAfter false cs

/-- A character that stands between words. -/
def isSeparator (c : Char) : Bool := c == '_' || c == '-' || isBlank c

/-- The words of a name. -/
def wordsOf (name : List Char) : List (List Char) := runs isSeparator (markHumps name)

/-- A word with a capital first character and the rest small. -/
def capitalised : List Char → List Char
  | [] => []
  | c :: rest => capitalForm c ++ lower rest

/-- Words written together, each capitalised. -/
def pascal (words : List (List Char)) : List Char := words.flatMap capitalised

/-- `user_profile` as `UserProfile`. -/
def pascalCase (name : String) : String := String.ofList (pascal (wordsOf name.toList))

/-- Words written together, the first small and the others capitalised. -/
def camel : List (List Char) → List Char
  | [] => []
  | first :: others => lower first ++ pascal others

/-- `user_profile` as `userProfile`. -/
def camelCase (name : String) : String := String.ofList (camel (wordsOf name.toList))

/-- `userProfile` as `user_profile`. -/
def snakeCase (name : String) : String := String.ofList (lower (markHumps name.toList))

/-- A word without its plural `s`: dropped when it is not the whole word and no `s` stands before it. -/
def singularWord (word : List Char) : List Char :=
  match word.reverse with
  | last :: before :: rest =>
    if (last == 's' || last == 'S') && lower [before, last] != ['s', 's'] then
      (before :: rest).reverse
    else word
  | _ => word

/-- `orders` as `order`. -/
def singular (word : String) : String := String.ofList (singularWord word.toList)

/-- The words of a table name with the last one singular. -/
def singularLast : List (List Char) → List (List Char)
  | [] => []
  | [w] => [singularWord w]
  | w :: v :: rest => w :: singularLast (v :: rest)

/-- The entity name for a table: `user_profiles` gives `UserProfile`. -/
def entityName (table : String) : String :=
  let words := wordsOf table.toList
  String.ofList (pascal (wordsOf (join ['_'] (singularLast words))))

/-- The field name for a column: `user_id` gives `userId`. -/
def fieldName (column : String) : String := camelCase column

end SchemaSketch.Naming
