import SchemaSketch.Sql.Comment

/-!
# Tokens of SQL text

`Token.lex` cuts a text into tokens. A token is a stretch of the text with a kind, and of the kinds
only those are told apart that matter to a reader of statements: blanks, line ends, comments,
punctuation, keywords that open or close a block, and the words that define objects. All else,
from quoted text to operators, is `other`; what matters there is where it ends, since punctuation
inside a quoted name or a literal is none.

At each place a *delimited stretch* comes first: a tagged body `$tag$ … $tag$` or a comment
`/* … */` that is closed. Otherwise the first rule of `rules` that fits decides. A character that
fits no rule is a token by itself. So every character is in exactly one token (`lex_texts`).

The rules are a list of patterns in a fixed order. Some look at the character before.
-/

namespace SchemaSketch
open Text Pattern

/-- What a token is, as far as reading statements needs to know. -/
inductive TokenKind where
  /-- one blank that is no line end -/
  | blank
  /-- a line end -/
  | newline
  /-- a comment up to the end of the line -/
  | lineComment
  /-- such a comment that begins with a plus sign -/
  | hintComment
  /-- a comment between `/*` and `*/` -/
  | blockComment
  /-- a bracket, comma, point, colon or semicolon -/
  | punctuation
  /-- a plain keyword -/
  | keyword
  /-- a keyword that defines or drops an object -/
  | definer
  /-- anything else -/
  | other
  deriving DecidableEq, Repr

/-- A stretch of a text with its kind. -/
structure Token where
  /-- what it is -/
  kind : TokenKind
  /-- the characters -/
  text : List Char
  deriving DecidableEq, Repr

namespace Token

/-- White space, line ends included. -/
def isSpace (t : Token) : Bool := t.kind == .blank || t.kind == .newline

/-- A comment of any form. -/
def isComment (t : Token) : Bool :=
  t.kind == .lineComment || t.kind == .hintComment || t.kind == .blockComment

/-- The punctuation mark `c`. -/
def isMark (c : Char) (t : Token) : Bool := t.kind == .punctuation && t.text == [c]

/-! ## Letters

Identifiers of the token rules begin with an ASCII letter or a Latin-1 letter, in any case. -/

/-- A character that an identifier of the token rules begins with. -/
def isLatin (c : Char) : Bool :=
  let n := (smallForm c).toNat
  (0x61 ≤ n && n ≤ 0x7A) || n == 0x131 || n == 0x17F || n == 0xD7
    || (0xE0 ≤ n && n ≤ 0xFC && n != 0xF7)

/-- A Latin letter or the low line. -/
def isLatinOrLow (c : Char) : Bool := c == '_' || isLatin c

/-- A hexadecimal figure: a decimal digit, or a letter up to `f`. -/
def isHexFigure (c : Char) : Bool :=
  isDecimal c || (let n := (smallForm c).toNat; 0x61 ≤ n && n ≤ 0x66)

/-- An identifier. -/
def identifier : Pattern := one isLatin >> many isWord

/-! ## Quoted text

Between quotes, a doubled quote and a backslash before a quote stand for the quote. When no closing
quote is left, the last of these pairs ends the text after all. -/

/-- How far text opened by `quote` goes. `passed` characters are behind, and `fallback` is the end
to settle for. Only if `escapes` does a backslash stand for the quote after it. -/
def closing (quote : Char) (escapes : Bool) (passed : Nat) (fallback : Option Nat) :
    List Char → Option Nat
  | [] => fallback
  | [c] => if c == quote then some (passed + 1) else fallback
  | c :: d :: rest =>
    if c == quote then
      if d == quote then closing quote escapes (passed + 2) (some (passed + 1)) rest
      else some (passed + 1)
    else if escapes && c == '\\' && d == quote then
      closing quote escapes (passed + 2) (some (passed + 2)) rest
    else closing quote escapes (passed + 1) fallback (d :: rest)

/-- Text between two quotes. -/
def quotedBy (quote : Char) (escapes : Bool) : Pattern
  | c :: rest => if c == quote then closing quote escapes 1 none rest else none
  | [] => none

/-- A literal between single quotes. -/
def literal : Pattern := quotedBy '\'' true

/-! ## Numbers -/

/-- Decimal digits, at least one. -/
def digits1 : Pattern := many1 isDecimal

/-- Whether no Latin letter and no low line follows. -/
def noLatinNext : List Char → Bool
  | [] => true
  | c :: _ => !isLatinOrLow c

/-- A number in powers of ten: `-1.5e-3`. -/
def powerNumber : Pattern :=
  optional (char '-') >> digits1 >> optional (char '.' >> digits1) >> keyword "e"
    >> optional (char '-') >> digits1

/-- A pattern and then digits, at least `least` of them, before something that is no letter. If a
letter follows, the last digit is left for the next token. -/
def digitsBeforeLetter (start : Pattern) (least : Nat) : Pattern := fun cs =>
  match start cs with
  | none => none
  | some n =>
    let run := ((cs.drop n).takeWhile isDecimal).length
    if least ≤ run && noLatinNext (cs.drop (n + run)) then some (n + run)
    else if least + 1 ≤ run then some (n + run - 1)
    else none

/-- A number with a point: digits before it, or after it, or both. -/
def pointNumber : Pattern :=
  digitsBeforeLetter (optional (char '-') >> digits1 >> char '.') 0
    <|> digitsBeforeLetter (optional (char '-') >> char '.') 1

/-- A whole number. -/
def wholeNumber : Pattern := digitsBeforeLetter (optional (char '-')) 1

/-! ## Comments, names and operators -/

/-- A line end. -/
def lineEnd : Pattern := exactly ['\r', '\n'] <|> char '\r' <|> char '\n'

/-- The rest of the line, its end included. -/
def toLineEnd : Pattern := many (fun c => c != '\r' && c != '\n') >> optional lineEnd

/-- What opens a comment up to the end of the line. -/
def commentMark : Pattern := exactly ['-', '-'] <|> exactly ['#', ' ']

/-- Whether a point follows, blanks aside, that does not begin a decimal fraction. -/
def pointNext (cs : List Char) : Bool :=
  match cs.dropWhile isBlank with
  | '.' :: rest => match rest with
    | [] => true
    | c :: _ => !isDecimal c
  | _ => false

/-- A keyword with an optional continuation, whichever of the two ends a word. -/
def extended (start : Pattern) (continuation : Pattern) : Pattern :=
  (start >> continuation).followedBy wordEnds <|> start.followedBy wordEnds

/-- Blanks and then a pattern. -/
def apart (p : Pattern) : Pattern := blanks1 >> p

/-- A pattern and then blanks, or nothing. -/
def lead (p : Pattern) : Pattern := optional (p >> blanks1)

/-- The operators that are not made of repeated signs, in the order in which they are tried. -/
def operator : Pattern :=
  exactly ['-', '>', '>'] <|> exactly ['-', '>'] <|> exactly ['#', '>', '>'] <|> exactly ['#', '>']
    <|> exactly ['@', '>'] <|> exactly ['<', '@'] <|> exactly ['?', '|'] <|> char '?'
    <|> char '-' <|> exactly ['#', '-']

/-- A sign of a comparison. -/
def isComparisonSign (c : Char) : Bool := c == '<' || c == '>' || c == '=' || c == '~' || c == '!'

/-- A sign of arithmetic. -/
def isArithmeticSign (c : Char) : Bool :=
  c == '+' || c == '/' || c == '@' || c == '#' || c == '%' || c == '^' || c == '&' || c == '|'
    || c == '-'

/-- A punctuation mark. -/
def isPunctuationMark (c : Char) : Bool :=
  c == ';' || c == ':' || c == '(' || c == ')' || c == '[' || c == ']' || c == ',' || c == '.'

/-- Whether a bracketed name may begin after this character. -/
def bracketMayOpen : Option Char → Bool
  | none => true
  | some c => !(isWord c || c == ']' || c == ')')

/-! ## The rules -/

/-- A rule of the token grammar: where it applies, what it covers, and the kind it gives. -/
structure Rule where
  /-- the kind of the token -/
  kind : TokenKind
  /-- what it covers -/
  pattern : Pattern
  /-- whether the character before allows it -/
  after : Option Char → Bool

/-- Rules for blanks, comments, placeholders and names. -/
def nameRules : List Rule := [
  ⟨.hintComment, commentMark >> char '+' >> toLineEnd, fun _ => true⟩,
  ⟨.lineComment, commentMark >> toLineEnd, fun _ => true⟩,
  ⟨.newline, lineEnd, fun _ => true⟩,
  ⟨.blank, one isBlank, fun _ => true⟩,
  ⟨.other, exactly [':', '='], fun _ => true⟩,
  ⟨.punctuation, exactly [':', ':'], fun _ => true⟩,
  ⟨.other, char '*', fun _ => true⟩,
  ⟨.other, quotedBy '`' false, fun _ => true⟩,
  ⟨.other, quotedBy '´' false, fun _ => true⟩,
  ⟨.other, char '?', fun _ => true⟩,
  ⟨.other, char '%' >> optional (char '(' >> many1 isWord >> char ')') >> keyword "s", fun _ => true⟩,
  ⟨.other, one (fun c => c == '$' || c == ':' || c == '?') >> many1 isWord, wordMayBegin⟩,
  ⟨.other, char '\\' >> many1 isWord, fun _ => true⟩,
  ⟨.keyword, (oneOf ["case", "in", "values", "using", "from", "as"]).followedBy wordEnds, fun _ => true⟩,
  ⟨.other, (char '@' <|> exactly ['#', '#'] <|> char '#') >> one isLatin >> many1 isWord, fun _ => true⟩,
  ⟨.other, identifier.followedBy pointNext, fun _ => true⟩,
  ⟨.other, identifier, (· == some '.')⟩,
  ⟨.other, identifier.followedBy (·.head? == some '('), fun _ => true⟩]

/-- Rules for numbers and quoted text. -/
def literalRules : List Rule := [
  ⟨.other, optional (char '-') >> char '0' >> keyword "x" >> many1 isHexFigure, fun _ => true⟩,
  ⟨.other, powerNumber, fun _ => true⟩,
  ⟨.other, pointNumber, fun _ => true⟩,
  ⟨.other, wholeNumber, fun _ => true⟩,
  ⟨.other, literal, fun _ => true⟩,
  ⟨.other, quotedBy '"' true, fun _ => true⟩,
  ⟨.other, char '[' >> many1 (fun c => c != '[' && c != ']') >> char ']', bracketMayOpen⟩]

/-- Rules for keywords of several words, and for words that continue. -/
def phraseRules : List Rule := [
  ⟨.keyword, (lead (oneOf ["left", "right", "full"]) >> lead (oneOf ["inner", "outer", "straight"])
    >> keyword "join").followedBy wordEnds, fun _ => true⟩,
  ⟨.keyword, (lead (oneOf ["cross", "natural"]) >> keyword "join").followedBy wordEnds, fun _ => true⟩,
  ⟨.keyword, extended (keyword "end") (apart (oneOf ["if", "loop", "while", "for", "case"])), fun _ => true⟩,
  ⟨.keyword, (keyword "if" >> blanks1 >> lead (keyword "not") >> keyword "exists").followedBy wordEnds,
    fun _ => true⟩,
  ⟨.keyword, (phrase ["not", "null"]).followedBy wordEnds, fun _ => true⟩,
  ⟨.other, extended (oneOf ["asc", "desc"]) (apart (keyword "nulls") >> apart (oneOf ["first", "last"])),
    fun _ => true⟩,
  ⟨.other, (keyword "nulls" >> apart (oneOf ["first", "last"])).followedBy wordEnds, fun _ => true⟩,
  ⟨.keyword, (phrase ["union", "all"]).followedBy wordEnds, fun _ => true⟩,
  ⟨.definer, extended (keyword "create") (apart (phrase ["or", "replace"])), fun _ => true⟩,
  ⟨.other, (phrase ["double", "precision"]).followedBy wordEnds, fun _ => true⟩,
  ⟨.keyword, (phrase ["group", "by"]).followedBy wordEnds, fun _ => true⟩,
  ⟨.keyword, (phrase ["order", "by"]).followedBy wordEnds, fun _ => true⟩,
  ⟨.keyword, (phrase ["primary", "key"]).followedBy wordEnds, fun _ => true⟩,
  ⟨.keyword, (phrase ["handler", "for"]).followedBy wordEnds, fun _ => true⟩,
  ⟨.keyword, (keyword "go" >> one isBlank >> digits1).followedBy wordEnds, fun _ => true⟩,
  ⟨.keyword, (phrase ["lateral", "view"]
    >> apart (oneOf ["explode", "inline", "parse_url_tuple", "posexplode", "stack"])).followedBy wordEnds,
    fun _ => true⟩,
  ⟨.other, (keyword "at" <|> keyword "with'") >> apart (phrase ["time", "zone"])
    >> apart (char '\'') >> many1 (· != '\'') >> char '\'', fun _ => true⟩,
  ⟨.other, (lead (keyword "not") >> oneOf ["like", "ilike", "rlike"]).followedBy wordEnds, fun _ => true⟩,
  ⟨.other, extended (lead (keyword "not") >> keyword "regexp") (apart (keyword "binary")), fun _ => true⟩]

/-- Words that define or drop an object. -/
def definers : List (List Char) := [['A', 'L', 'T', 'E', 'R'], ['D', 'R', 'O', 'P']]

/-- Plain keywords that the cutting into statements looks at. -/
def plainKeywords : List (List Char) :=
  ["BEGIN", "DECLARE", "IF", "FOR", "WHILE", "LOOP", "DO", "GO", "TRANSACTION", "WORK", "DEFERRED",
    "IMMEDIATE", "EXCLUSIVE"].map (·.toList)

/-- The kind of a word. -/
def wordKind (word : List Char) : TokenKind :=
  let capitals := upper word
  if definers.contains capitals then .definer
  else if plainKeywords.contains capitals then .keyword
  else .other

/-- A word as a last resort: word characters, dollar signs and hashes. -/
def plainWord : Pattern := one isWord >> many (fun c => isWord c || c == '$' || c == '#')

/-- Rules for signs. -/
def signRules : List Rule := [
  ⟨.punctuation, one isPunctuationMark, fun _ => true⟩,
  ⟨.other, operator, fun _ => true⟩,
  ⟨.other, many1 isComparisonSign, fun _ => true⟩,
  ⟨.other, many1 isArithmeticSign, fun _ => true⟩]

/-- The rules that come before the plain word, in their order. -/
def rules : List Rule := nameRules ++ literalRules ++ phraseRules

/-- The first rule that fits, with what it covers. -/
def firstFit (before : Option Char) (cs : List Char) : List Rule → Option (TokenKind × Nat)
  | [] => none
  | rule :: rules =>
    if rule.after before then
      match rule.pattern cs with
      | some n => some (rule.kind, n)
      | none => firstFit before cs rules
    else firstFit before cs rules

/-! ## Delimited stretches -/

/-- Whether a tagged body may begin after this character. -/
def bodyMayBegin : Option Char → Bool
  | none => true
  | some c => !(isWord c || c == '"' || c == '$')

/-- The mark of a tagged body. -/
def bodyTag : Pattern :=
  char '$' >> optional (one isLatinOrLow >> many isWord) >> char '$'

/-- A stretch that reaches up to a closing mark, if it is closed. -/
def upTo (opening closing : List Char) (cs : List Char) : Option Nat :=
  (Comment.indexOf? closing (cs.drop opening.length)).map
    fun n => opening.length + n + closing.length

/-- The delimited stretch at the front of a text, if one opens here and is closed. -/
def delimited (before : Option Char) (cs : List Char) : Option (TokenKind × Nat) :=
  match cs with
  | '$' :: _ =>
    if bodyMayBegin before then
      match bodyTag cs with
      | some n => (upTo (cs.take n) (cs.take n) cs).map (.other, ·)
      | none => none
    else none
  | '/' :: '*' :: _ => (upTo ['/', '*'] ['*', '/'] cs).map (.blockComment, ·)
  | _ => none

/-! ## The cut -/

/-- The kind and length of the first token of a text that is not empty. -/
def first (before : Option Char) (cs : List Char) : TokenKind × Nat :=
  match delimited before cs with
  | some found => found
  | none =>
    match firstFit before cs rules with
    | some found => found
    | none =>
      match plainWord cs with
      | some n => (wordKind (cs.take n), n)
      | none => (firstFit before cs signRules).getD (.other, 1)

/-- The tokens of a text. The number of rounds bounds the number of tokens. -/
def lexFrom : Nat → Option Char → List Char → List Token
  | _, _, [] => []
  | 0, _, cs => [⟨.other, cs⟩]
  | rounds + 1, before, c :: rest =>
    let (kind, n) := first before (c :: rest)
    let text := c :: rest.take (n - 1)
    ⟨kind, text⟩ :: lexFrom rounds text.getLast? (rest.drop (n - 1))

/-- The tokens of a text. -/
def lex (cs : List Char) : List Token := lexFrom cs.length none cs

/-- **Nothing is lost.** The texts of the tokens make up the text. -/
theorem lexFrom_texts (rounds : Nat) (before : Option Char) (cs : List Char) :
    (lexFrom rounds before cs).flatMap (·.text) = cs := by
  induction rounds generalizing before cs with
  | zero => cases cs <;> simp [lexFrom]
  | succ rounds ih =>
    cases cs with
    | nil => simp [lexFrom]
    | cons c rest => simp [lexFrom, ih]

theorem lex_texts (cs : List Char) : (lex cs).flatMap (·.text) = cs :=
  lexFrom_texts _ _ _

/-- No token is empty. -/
theorem text_ne_nil_of_mem_lexFrom {rounds : Nat} {before : Option Char} {cs : List Char} {t : Token}
    (h : t ∈ lexFrom rounds before cs) : t.text ≠ [] := by
  induction rounds generalizing before cs with
  | zero =>
    cases cs with
    | nil => simp [lexFrom] at h
    | cons c rest =>
      simp only [lexFrom, List.mem_singleton] at h
      subst h
      simp
  | succ rounds ih =>
    cases cs with
    | nil => simp [lexFrom] at h
    | cons c rest =>
      simp only [lexFrom, List.mem_cons] at h
      rcases h with rfl | h
      · simp
      · exact ih h

end Token
end SchemaSketch
