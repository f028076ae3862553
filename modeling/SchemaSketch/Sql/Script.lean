import SchemaSketch.Sql.Token
import SchemaSketch.Text.Trim

/-!
# Scripts: runs of tokens that form a statement

`Script.cut` cuts the tokens of a text into *segments*, each meant to be one statement. A semicolon
ends a segment unless it stands inside parentheses or inside a procedural block. Blocks are followed
by a small machine (`Blocks`): `BEGIN`, `DECLARE`, loops, `IF` and `CASE` open one, `END` and its
variants close one. Blanks and line comments after the semicolon still belong to the segment.

A text can be too much to be read. `Script.check` refuses a segment with more than `maxTokens` tokens
and one whose matched parentheses are nested more than `maxDepth` deep; no other text is refused.
-/

namespace SchemaSketch
open Text

/-- A block that can be open. -/
inductive Block where
  | declare | begin | for | while | loop | do | if | case
  deriving DecidableEq, Repr

/-- The capital letters of a block's keyword. -/
def Block.ofWord? (word : List Char) : Option Block :=
  match String.ofList word with
  | "DECLARE" => some .declare
  | "BEGIN" => some .begin
  | "FOR" => some .for
  | "WHILE" => some .while
  | "LOOP" => some .loop
  | "DO" => some .do
  | "IF" => some .if
  | "CASE" => some .case
  | _ => none

/-- What the cutting remembers of the segment being read. -/
structure Blocks where
  /-- open parentheses and blocks, less the closed ones -/
  level : Int := 0
  /-- the open blocks, innermost first -/
  stack : List Block := []
  /-- whether an object is being created -/
  creates : Bool := false
  /-- whether the last word was `BEGIN` -/
  sawBegin : Bool := false
  /-- the head of a loop whose body has not begun -/
  loopHead : Option Block := none
  /-- whether the segment has ended but for blanks and line comments -/
  ended : Bool := false
  deriving DecidableEq, Repr

namespace Blocks

/-- Opens a block. -/
def opened (s : Blocks) (b : Block) : Blocks :=
  { s with stack := b :: s.stack, level := s.level + 1 }

/-- Closes the innermost block. -/
def closed (s : Blocks) : Blocks :=
  { s with stack := s.stack.drop 1, level := s.level - 1 }

/-- Closes the innermost block if it is one of these. -/
def closedIf (s : Blocks) (bs : List Block) : Blocks :=
  match s.stack with
  | b :: _ => if bs.contains b then s.closed else s
  | [] => s

/-- Words after `BEGIN` that make it the start of a transaction. -/
def transactionWords : List String := ["TRANSACTION", "WORK", "DEFERRED", "IMMEDIATE", "EXCLUSIVE"]

/-- The word for the head or body of a loop, an `IF` or a `CASE`, inside a block. -/
def afterInnerWord (s : Blocks) (b : Block) : Blocks :=
  match b with
  | .for | .while => { s with loopHead := some b }
  | .loop | .do =>
    match s.loopHead with
    | some head => { s.opened head with loopHead := none }
    | none => if b == .loop then s.opened .loop else s
  | .if | .case => s.opened b
  | .declare | .begin => s

/-- A keyword, in capitals. -/
def afterWord (s : Blocks) (plain : Bool) (word : List Char) : Blocks :=
  let name := String.ofList word
  if name == "DECLARE" && s.creates && s.stack.isEmpty then s.opened .declare
  else if name == "BEGIN" then
    let s := { s with sawBegin := true }
    match s.stack with
    | .declare :: rest => { s with stack := .begin :: rest }
    | _ => s.opened .begin
  else if s.sawBegin && plain && transactionWords.contains name then
    { s with sawBegin := false }.closedIf [.begin]
  else match (if s.stack.contains .begin then Block.ofWord? word else none) with
    | some .declare => s
    | some b => s.afterInnerWord b
    | none =>
      match name with
      | "END IF" => s.closedIf [.if]
      | "END FOR" => s.closedIf [.for]
      | "END WHILE" => s.closedIf [.while]
      | "END CASE" => s.closedIf [.case]
      | "END LOOP" => s.closedIf [.loop, .for, .while]
      | "END" => { s with stack := s.stack.drop 1, level := s.level - 1 }
      | _ => s

/-- The change of levels and blocks that a token brings. -/
def shifted (s : Blocks) (t : Token) : Blocks :=
  match t.kind with
  | .punctuation =>
    if t.text == [';'] then
      let s := { s with loopHead := none }
      if s.sawBegin then { s with sawBegin := false }.closedIf [.begin] else s
    else if t.text == ['('] then { s with level := s.level + 1 }
    else if t.text == [')'] then { s with level := s.level - 1 }
    else s
  | .definer =>
    let word := upper t.text
    if "CREATE".toList.isPrefixOf word then { s with creates := true } else s.afterWord false word
  | .keyword => s.afterWord true (upper t.text)
  | _ => s

/-- A word that ends a segment wherever it stands, when written in capitals. -/
def endsBatch (t : Token) : Bool :=
  t.kind == .keyword && (words t.text).head? == some ['G', 'O']

/-- The state after a token of the segment. -/
def next (s : Blocks) (t : Token) : Blocks :=
  let s := s.shifted t
  if t.isMark ';' then
    let s := { s with sawBegin := false }
    if s.level ≤ 0 && !s.stack.contains .begin then { s with ended := true } else s
  else if endsBatch t then { s with ended := true }
  else if t.isSpace || t.isComment || upper t.text == "BEGIN".toList then s
  else { s with sawBegin := false }

end Blocks

namespace Script

/-- Whether a token still belongs to a segment that has ended. -/
def trails (t : Token) : Bool := t.kind == .blank || t.kind == .lineComment

/-- The segments of a list of tokens; `current` is the one being read, in reverse. -/
def cutFrom (s : Blocks) (current : List Token) : List Token → List (List Token)
  | [] => if current.all Token.isSpace then [] else [current.reverse]
  | t :: rest =>
    if s.ended && !trails t then
      current.reverse :: cutFrom (Blocks.next {} t) [t] rest
    else cutFrom (s.next t) (t :: current) rest

/-- The segments of a list of tokens. Blanks at the very end belong to none. -/
def cut (ts : List Token) : List (List Token) := cutFrom {} [] ts

/-! ## Limits -/

/-- Why a text is refused. -/
inductive LimitFault where
  | tooManyTokens
  | tooDeep
  deriving DecidableEq, Repr

/-- The most tokens that a segment may have. -/
def maxTokens : Nat := 10000

/-- The deepest that parentheses may be nested. -/
def maxDepth : Nat := 100

/-- Why a text is refused, in words. -/
def LimitFault.message : LimitFault → String
  | .tooManyTokens => s!"Maximum number of tokens exceeded ({maxTokens})."
  | .tooDeep => s!"Maximum grouping depth exceeded ({maxDepth})."

/-- The height of the highest nest of matched parentheses. `pending` holds, for each parenthesis not
yet closed, the height of what it encloses so far; `highest` is the highest nest completed. -/
def nestingFrom (pending : List Nat) (highest : Nat) : List Token → Nat
  | [] => highest
  | t :: rest =>
    if t.isMark '(' then nestingFrom (0 :: pending) highest rest
    else if t.isMark ')' then
      match pending with
      | [] => nestingFrom [] highest rest
      | [inner] => nestingFrom [] (max highest (inner + 1)) rest
      | inner :: outer :: more =>
        nestingFrom (max outer (inner + 1) :: more) (max highest (inner + 1)) rest
    else nestingFrom pending highest rest

/-- How deep matched parentheses are nested in a segment. -/
def nesting (ts : List Token) : Nat := nestingFrom [] 0 ts

/-- Refuses a segment that is too much. -/
def check (segment : List Token) : Except LimitFault Unit :=
  if segment.length > maxTokens then .error .tooManyTokens
  else if nesting segment > maxDepth then .error .tooDeep
  else .ok ()

/-- The segments of a text, unless one of them is too much. -/
def segments (cs : List Char) : Except LimitFault (List (List Token)) :=
  let found := cut (Token.lex cs)
  (found.forM check).map fun _ => found

/-- The tokens of the segments of a text: all of its tokens but for blanks at the end. -/
def tokens (cs : List Char) : Except LimitFault (List Token) :=
  (segments cs).map List.flatten

end Script
end SchemaSketch
