import SchemaSketch.Text.Case

/-!
# Patterns at the front of a text

A `Pattern` looks at the front of a text and answers how many characters it covers there, if it fits
at all. Patterns are combined in the manner of parsing expressions: `p >> q` is `p` and then `q`,
`p <|> q` is the first of the two that fits, repetition takes as much as it can, and nothing that a
part has taken is given back. Two laws follow for all of them and carry the readers built on top:
a pattern never covers more than the text holds, and the text is what it covers followed by what it
leaves.

A search (`search`) tries a reader at every position from left to right, telling it the character
before, since a keyword only counts where a word begins.
-/

namespace SchemaSketch

/-- How many characters at the front of a text a form covers, if it fits. -/
def Pattern := List Char → Option Nat

namespace Pattern
open Text

/-- Covers nothing and fits everywhere. -/
def empty : Pattern := fun _ => some 0

/-- One character of a class. -/
def one (p : Char → Bool) : Pattern
  | c :: _ => if p c then some 1 else none
  | [] => none

/-- As many characters of a class as there are. -/
def many (p : Char → Bool) : Pattern := fun cs => some (cs.takeWhile p).length

/-- One pattern and then another on what is left. -/
def andThen (p q : Pattern) : Pattern := fun cs =>
  match p cs with
  | none => none
  | some n => (q (cs.drop n)).map (n + ·)

instance : AndThen Pattern := ⟨fun p q => andThen p (q ())⟩

/-- The first of two patterns that fits. -/
def orElse (p q : Pattern) : Pattern := fun cs =>
  match p cs with
  | some n => some n
  | none => q cs

instance : OrElse Pattern := ⟨fun p q => orElse p (q ())⟩

/-- The pattern if it fits, and nothing otherwise. -/
def optional (p : Pattern) : Pattern := p <|> empty

/-- At least one character of a class. -/
def many1 (p : Char → Bool) : Pattern := one p >> many p

/-- Exactly the character `c`. -/
def char (c : Char) : Pattern := one (· == c)

/-- At least one blank. -/
def blanks1 : Pattern := many1 isBlank

/-- Any number of blanks. -/
def blanks : Pattern := many isBlank

/-- A pattern that must be followed by something a test accepts; what the test sees is not covered. -/
def followedBy (p : Pattern) (test : List Char → Bool) : Pattern := fun cs =>
  match p cs with
  | none => none
  | some n => if test (cs.drop n) then some n else none

/-- The letters of a keyword, written in small ASCII letters, in any case. -/
def letters : List Char → Pattern
  | [] => empty
  | k :: ks => one (sameLetter k) >> letters ks

/-- A keyword's letters, whatever follows them. -/
def keyword (w : String) : Pattern := letters w.toList

/-- Whether no word character follows. -/
def wordEnds : List Char → Bool
  | [] => true
  | c :: _ => !isWord c

/-- A keyword that ends where its word ends. -/
def wholeWord (w : String) : Pattern := (keyword w).followedBy wordEnds

/-- Keywords with blanks between them, whatever follows the last. -/
def phrase : List String → Pattern
  | [] => empty
  | [w] => keyword w
  | w :: v :: ws => keyword w >> blanks1 >> phrase (v :: ws)

/-- The first keyword of a list that fits. -/
def oneOf : List String → Pattern
  | [] => fun _ => none
  | w :: ws => keyword w <|> oneOf ws

/-- Exactly these characters. -/
def exactly : List Char → Pattern
  | [] => empty
  | c :: cs => char c >> exactly cs

/-- How much a pattern covers when it is used again and again, as long as it fits and covers
something. The text is the bound on the number of rounds. -/
def coverAgain (p : Pattern) : Nat → List Char → Nat
  | 0, _ => 0
  | rounds + 1, cs =>
    match p cs with
    | some (n + 1) => (n + 1) + coverAgain p rounds (cs.drop (n + 1))
    | _ => 0

/-- A pattern any number of times. -/
def star (p : Pattern) : Pattern := fun cs => some (coverAgain p cs.length cs)

/-- What a pattern covers at its occurrences, from left to right without overlap. The counter says
how many characters of the last occurrence are still to be passed over. -/
def findAllFrom (p : Pattern) : Nat → List Char → List (List Char)
  | _, [] => []
  | passing + 1, _ :: rest => findAllFrom p passing rest
  | 0, c :: rest =>
    match p (c :: rest) with
    | some (n + 1) => (c :: rest.take n) :: findAllFrom p n rest
    | _ => findAllFrom p 0 rest

/-- The occurrences of a pattern that covers at least one character. -/
def findAll (p : Pattern) (cs : List Char) : List (List Char) :=
  findAllFrom p 0 cs

/-- A text in which each occurrence of a pattern gives way to `new`; the counter is as above. -/
def replaceAllFrom (p : Pattern) (new : List Char) : Nat → List Char → List Char
  | _, [] => []
  | passing + 1, _ :: rest => replaceAllFrom p new passing rest
  | 0, c :: rest =>
    match p (c :: rest) with
    | some (n + 1) => new ++ replaceAllFrom p new n rest
    | _ => c :: replaceAllFrom p new 0 rest

/-- A text in which each occurrence of a pattern gives way to `new`. -/
def replaceAll (p : Pattern) (new cs : List Char) : List Char :=
  replaceAllFrom p new 0 cs

/-- Whether a pattern fits at the front of a text. -/
def fits (p : Pattern) (cs : List Char) : Bool := (p cs).isSome

/-- A pattern never reaches beyond the text. -/
def Bounded (p : Pattern) : Prop := ∀ cs n, p cs = some n → n ≤ cs.length

theorem bounded_one (f : Char → Bool) : (one f).Bounded := by
  intro cs n h
  cases cs with
  | nil => simp [one] at h
  | cons c rest =>
    simp only [one] at h
    split at h
    · injection h with h; subst h; simp
    · simp at h

theorem bounded_many (f : Char → Bool) : (many f).Bounded := by
  intro cs n h
  simp only [many, Option.some.injEq] at h
  subst h
  exact (List.takeWhile_prefix f).length_le

theorem bounded_andThen {p q : Pattern} (hp : p.Bounded) (hq : q.Bounded) :
    (andThen p q).Bounded := by
  intro cs n h
  simp only [andThen] at h
  split at h
  · simp at h
  · next m hm =>
    obtain ⟨k, hk, rfl⟩ := Option.map_eq_some_iff.1 h
    have h1 := hp _ _ hm
    have h2 := hq _ _ hk
    rw [List.length_drop] at h2
    omega

theorem bounded_orElse {p q : Pattern} (hp : p.Bounded) (hq : q.Bounded) :
    (orElse p q).Bounded := by
  intro cs n h
  simp only [orElse] at h
  split at h
  · next m hm => exact hp _ _ (hm.trans h)
  · exact hq _ _ h

end Pattern

/-! ## Readers

A reader takes a value off the front of a text and leaves the rest. -/

/-- A value read off the front of a text, with what is left. -/
abbrev Reader (α : Type) := StateT (List Char) Option α

namespace Reader

/-- The characters that a pattern covers. -/
def take (p : Pattern) : Reader (List Char) := fun cs =>
  (p cs).map fun n => (cs.take n, cs.drop n)

/-- A pattern whose text is of no interest. -/
def skip (p : Pattern) : Reader Unit := fun cs =>
  (p cs).map fun n => ((), cs.drop n)

end Reader

namespace Text

/-- The first position, from left to right, at which a reader succeeds. The reader is told the
character before the position. -/
def searchAfter {α : Type} (read : Option Char → List Char → Option α) (before : Option Char) :
    List Char → Option α
  | [] => read before []
  | c :: rest =>
    match read before (c :: rest) with
    | some a => some a
    | none => searchAfter read (some c) rest

/-- The first success of a reader in a text. -/
def search {α : Type} (read : Option Char → List Char → Option α) (cs : List Char) : Option α :=
  searchAfter read none cs

/-- Whether a word may begin after this character: it is no word character itself. -/
def wordMayBegin : Option Char → Bool
  | none => true
  | some c => !isWord c

/-- The first success of a reader at a place where a word may begin. -/
def searchWord {α : Type} (read : Reader α) (cs : List Char) : Option (α × List Char) :=
  search (fun before here => if wordMayBegin before then read here else none) cs

/-- Whether a pattern fits at some place where a word may begin. -/
def hasWord (p : Pattern) (cs : List Char) : Bool :=
  (searchWord (Reader.skip p) cs).isSome

end Text
end SchemaSketch
