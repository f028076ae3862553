import SchemaSketch.Text.CaseMaps
import SchemaSketch.Text.Class

/-!
# Capital and small letters

Names are compared, and keywords recognised, without regard to case. Three notions are needed, and
they differ outside ASCII:

* `lower` and `upper` take a whole text. A character may become several (`ß` gives `SS`), and a
  capital sigma becomes `ς` at the end of a word and `σ` elsewhere.
* `smallForm` gives one character for one, for comparing letter by letter.
* `sameLetter` is the comparison of a pattern's ASCII letter with a character of the text. Besides
  its two ASCII forms, `i` is also met by `İ` and `ı`, `s` by `ſ`, and `k` by the kelvin sign.
-/

namespace SchemaSketch.Text

/-- The image of `n` under the first run of a case table that holds it. -/
def mapInRuns : List (Nat × Nat × Nat × Nat) → Nat → Nat
  | [], n => n
  | (first, last, step, target) :: rest, n =>
    if n < first then n
    else if n ≤ last && (n - first) % step == 0 then target + (n - first)
    else mapInRuns rest n

/-- A character that the end-of-word rule for sigma looks through. -/
def isIgnorable (c : Char) : Bool :=
  inRanges ignorableRanges c.toNat

/-- A letter with a case. -/
def isCased (c : Char) : Bool :=
  inRanges casedRanges c.toNat

/-- The small form of one character, as one character. -/
def smallForm (c : Char) : Char :=
  if c.toNat < 0x80 then c.toLower
  else if c == 'İ' then 'i'
  else Char.ofNat (mapInRuns lowerRuns c.toNat)

/-- The capital form of one character, as a text. -/
def capitalForm (c : Char) : List Char :=
  if c.toNat < 0x80 then [c.toUpper]
  else match upperExpansions.find? (·.1 == c.toNat) with
    | some (_, codes) => codes.map Char.ofNat
    | none => [Char.ofNat (mapInRuns upperRuns c.toNat)]

/-- Whether a word that has come this far ends here. -/
def wordStops (rest : List Char) : Bool :=
  match rest.dropWhile isIgnorable with
  | [] => true
  | c :: _ => !isCased c

/-- The small form of `c`, given whether a cased letter stands before it and what follows. -/
def smallFormAt (afterCased : Bool) (c : Char) (rest : List Char) : List Char :=
  if c == 'Σ' then [if afterCased && wordStops rest then 'ς' else 'σ']
  else if c == 'İ' then ['i', Char.ofNat 0x307]
  else [smallForm c]

/-- Small forms from left to right; `afterCased` is the context that sigma needs. -/
def lowerAfter (afterCased : Bool) : List Char → List Char
  | [] => []
  | c :: rest =>
    smallFormAt afterCased c rest
      ++ lowerAfter (if isIgnorable c then afterCased else isCased c) rest

/-- A text in small letters. -/
def lower (cs : List Char) : List Char :=
  lowerAfter false cs

/-- A text in capital letters. -/
def upper (cs : List Char) : List Char :=
  cs.flatMap capitalForm

/-- A name in small letters: the form under which names are compared. -/
def lowerName (s : String) : String :=
  String.ofList (lower s.toList)

/-- A name in capital letters. -/
def upperName (s : String) : String :=
  String.ofList (upper s.toList)

/-- Whether `c` stands for the small ASCII letter `letter` when case is disregarded. -/
def sameLetter (letter c : Char) : Bool :=
  c == letter || smallForm c == letter
    || (letter == 'i' && c == 'ı') || (letter == 's' && c == 'ſ')

theorem upper_append (a b : List Char) : upper (a ++ b) = upper a ++ upper b :=
  List.flatMap_append

end SchemaSketch.Text
