import SchemaSketch.Proofs.Text.Search

/-!
# Texts of words and marks

A text that is written out is a row of words with a mark behind each (`spell`). A search for something that begins
with a word looks at the beginning of each word and nowhere else. So if a reader reads nothing at the beginning of the
words (`Piece.Avoids`), it passes over the whole row (`passes_spell`), and what it finds is what it finds behind
(`searchWord_spell`).
-/

namespace SchemaSketch

open Text

/-- A word and the mark behind it. -/
structure Piece where
  /-- the word, which may be empty -/
  word : List Char
  /-- the mark -/
  mark : Char

/-- The characters of a piece. -/
def Piece.text (p : Piece) : List Char := p.word ++ [p.mark]

/-- The text of pieces. -/
def spell (ps : List Piece) : List Char := ps.flatMap Piece.text

theorem spell_nil : spell [] = [] := rfl

theorem spell_cons (p : Piece) (ps : List Piece) : spell (p :: ps) = p.word ++ p.mark :: spell ps := by
  rw [spell, List.flatMap_cons, Piece.text, List.append_assoc, List.singleton_append]
  rfl

theorem spell_append (ps qs : List Piece) : spell (ps ++ qs) = spell ps ++ spell qs := List.flatMap_append

/-- A piece of word characters, which do not begin with a digit, and a space, a parenthesis or a semicolon. -/
structure Piece.Plain (p : Piece) : Prop where
  word : ∀ c ∈ p.word, isWord c = true
  begins : ∀ c ∈ p.word.head?, isDecimal c = false
  mark : p.mark ∈ [' ', '(', ')', ';']

variable {α : Type} {r : Reader α}

namespace Reader

/-! ## Passing over a text -/

/-- Nothing is read at any place of the first text where a word may begin, when the second text follows. -/
def Passes (r : Reader α) : Option Char → List Char → List Char → Prop
  | _, [], _ => True
  | before, c :: a, rest => (wordMayBegin before = true → r (c :: (a ++ rest)) = none) ∧ Passes r (some c) a rest

theorem Passes.append {before : Option Char} {a b rest : List Char} (ha : r.Passes before a (b ++ rest))
    (hb : r.Passes (a.getLast?.or before) b rest) : r.Passes before (a ++ b) rest := by
  induction a generalizing before with
  | nil => exact hb
  | cons c a ih =>
    have hassoc : a ++ b ++ rest = a ++ (b ++ rest) := List.append_assoc a b rest
    have hlast : (c :: a).getLast?.or before = a.getLast?.or (some c) := by
      rw [List.getLast?_cons]
      cases a.getLast? <;> rfl
    exact ⟨fun hword => (congrArg (fun here => r (c :: here)) hassoc).trans (ha.1 hword), ih ha.2 (hlast ▸ hb)⟩

/-- A search passes over such a text. -/
theorem Passes.searchAfter_eq {before : Option Char} {a rest : List Char} (h : r.Passes before a rest) :
    searchAfter (fun before here => if wordMayBegin before then r here else none) before (a ++ rest) =
      searchAfter (fun before here => if wordMayBegin before then r here else none) (a.getLast?.or before) rest := by
  induction a generalizing before with
  | nil => rfl
  | cons c a ih =>
    have hhere : (if wordMayBegin before then r (c :: (a ++ rest)) else none) = none := by
      split
      · next hword => exact h.1 hword
      · rfl
    rw [List.cons_append, searchAfter_cons, hhere, Option.none_or, ih h.2, List.getLast?_cons]
    cases a.getLast? <;> rfl

/-- Inside a word, and at the mark behind it, no word begins. -/
theorem passes_inside {w : List Char} (hw : ∀ c ∈ w, isWord c = true) (mark : Char) {before : Option Char}
    (hbefore : wordMayBegin before = false) (rest : List Char) : r.Passes before (w ++ [mark]) rest := by
  have hnot : ∀ here, wordMayBegin before = true → r here = none := fun here hword => by
    rw [hbefore] at hword
    cases hword
  induction w generalizing before with
  | nil => exact ⟨hnot _, trivial⟩
  | cons c w ih =>
    obtain ⟨hc, hw⟩ := List.forall_mem_cons.1 hw
    have hinside : wordMayBegin (some c) = false := by rw [wordMayBegin, hc]; rfl
    refine ⟨hnot _, ih hw hinside fun here hword => ?_⟩
    rw [hinside] at hword
    cases hword

end Reader

/-- Nothing is read at a word, nor at the mark behind it. -/
structure Piece.Avoids (r : Reader α) (p : Piece) : Prop where
  word : ∀ rest, r (p.word ++ p.mark :: rest) = none
  mark : ∀ rest, r (p.mark :: rest) = none

theorem Piece.passes {p : Piece} (hp : p.Plain) (h : p.Avoids r) (before : Option Char) (rest : List Char) :
    r.Passes before p.text rest := by
  rw [text]
  cases hword : p.word with
  | nil => exact ⟨fun _ => h.mark rest, trivial⟩
  | cons c w =>
    obtain ⟨hc, hw⟩ := List.forall_mem_cons.1 (hword ▸ hp.word)
    have hinside : wordMayBegin (some c) = false := by rw [wordMayBegin, hc]; rfl
    have hassoc : w ++ [p.mark] ++ rest = w ++ p.mark :: rest := List.append_assoc w [p.mark] rest
    have hhere := h.word rest
    rw [hword] at hhere
    exact ⟨fun _ => (congrArg (fun here => r (c :: here)) hassoc).trans hhere,
      Reader.passes_inside hw p.mark hinside rest⟩

theorem Piece.isWord_mark {p : Piece} (hp : p.Plain) : isWord p.mark = false := by
  have hmarks : [' ', '(', ')', ';'].all (! isWord ·) = true := by decide
  have hmark := List.all_eq_true.1 hmarks _ hp.mark
  rwa [Bool.not_eq_true'] at hmark

theorem Piece.wordMayBegin_mark {p : Piece} (hp : p.Plain) : wordMayBegin (some p.mark) = true := by
  rw [wordMayBegin, p.isWord_mark hp]
  rfl

theorem Piece.getLast?_text (p : Piece) : p.text.getLast? = some p.mark := List.getLast?_concat

section

variable {ps : List Piece} (hps : ∀ p ∈ ps, p.Plain) (h : ∀ p ∈ ps, p.Avoids r)

include hps

/-- A word may begin behind pieces. -/
theorem wordMayBegin_spell {before : Option Char} (hbefore : wordMayBegin before = true) :
    wordMayBegin ((spell ps).getLast?.or before) = true := by
  rcases List.eq_nil_or_concat ps with rfl | ⟨front, p, rfl⟩
  · exact hbefore
  · have hp := hps p (by simp)
    rw [List.concat_eq_append, spell_append, spell_cons, ← List.append_assoc]
    change wordMayBegin ((spell front ++ p.word ++ [p.mark]).getLast?.or before) = true
    rw [List.getLast?_concat]
    exact p.wordMayBegin_mark hp

include h

/-- **A row of words is passed over** where nothing is read at the beginning of a word. -/
theorem passes_spell (before : Option Char) (rest : List Char) : r.Passes before (spell ps) rest := by
  induction ps generalizing before with
  | nil => trivial
  | cons p ps ih =>
    obtain ⟨hp, hps⟩ := List.forall_mem_cons.1 hps
    obtain ⟨hfirst, h⟩ := List.forall_mem_cons.1 h
    rw [spell, List.flatMap_cons]
    exact (p.passes hp hfirst before _).append (ih hps h _)

/-- **What is found is found behind the pieces.** -/
theorem searchWord_spell_append (rest : List Char) : searchWord r (spell ps ++ rest) = searchWord r rest := by
  have hfront : wordMayBegin none = true := rfl
  have hbegins := wordMayBegin_spell hps hfront
  rw [searchWord, search, (passes_spell hps h none rest).searchAfter_eq, searchWord, search]
  cases rest with
  | nil => rw [searchAfter, searchAfter, if_pos hbegins, if_pos hfront]
  | cons c rest => rw [searchAfter_cons, searchAfter_cons, if_pos hbegins, if_pos hfront]

/-- What is read behind pieces is what is found. -/
theorem searchWord_spell {rest : List Char} {x : α × List Char} (hrest : r rest = some x) :
    searchWord r (spell ps ++ rest) = some x := by
  rw [searchWord_spell_append hps h]
  exact searchAfter_of_eq_some hrest

/-- Nothing is found in pieces. -/
theorem searchWord_spell_eq_none (hnil : r [] = none) : searchWord r (spell ps) = none := by
  rw [← List.append_nil (spell ps), searchWord_spell_append hps h]
  exact hnil

end

end SchemaSketch
