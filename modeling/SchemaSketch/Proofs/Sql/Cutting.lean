import SchemaSketch.Proofs.Sql.Lexing
import SchemaSketch.Proofs.Text.Squeeze
import SchemaSketch.Sql.Statement

/-!
# Cutting, token by token

Two counts of parentheses are kept while a script is cut into statements: the level of the segment being
read (`Blocks.level`), which says whether a semicolon ends the segment, and the depth inside a segment
(`Statement.recoverFrom`), which says whether a semicolon cuts although it does not end the segment.
Here both are followed along a list of tokens.

* **Segments.** `Progress` is what is known after some tokens: the finished segments, the state, and the
  segment being read. Cutting a list of tokens is a run of `Progress.next` (`cut_eq_segments`).
* **Quiet tokens.** Tokens that open or close no block change the level as they change the count of
  parentheses, and nothing else that matters (`Progress.run_quiet`).
* **Depth.** The depth follows the same count (`recoverFrom_append`).
-/

namespace SchemaSketch

open Text

/-! ## Quiet tokens -/

namespace Token

/-- Words by which a block is opened or closed. -/
def blockWords : List String :=
  ["DECLARE", "BEGIN", "FOR", "WHILE", "LOOP", "DO", "IF", "CASE", "END", "END IF", "END FOR",
    "END WHILE", "END CASE", "END LOOP"]

/-- Whether a token opens or closes no block, and ends no batch either. -/
def isQuiet (t : Token) : Bool :=
  !((t.kind == .keyword || t.kind == .definer) && blockWords.contains (String.ofList (upper t.text)))
    && !Blocks.endsBatch t

/-- What a token adds to the level by being a parenthesis. -/
def weight (t : Token) : Int := if t.isMark '(' then 1 else if t.isMark ')' then -1 else 0

/-- What tokens add to the level by being parentheses. -/
def weights : List Token → Int
  | [] => 0
  | t :: rest => t.weight + weights rest

end Token

namespace Blocks

theorem endsBatch_of_isQuiet {t : Token} (h : t.isQuiet = true) : endsBatch t = false := by
  rw [Token.isQuiet, Bool.and_eq_true] at h
  simpa using h.2

theorem afterWord_quiet {s : Blocks} (hs : s.sawBegin = false) (plain : Bool) {word : List Char}
    (hword : Token.blockWords.contains (String.ofList word) = false) :
    s.afterWord plain word = s := by
  simp only [Token.blockWords, List.contains_cons, List.contains_nil, Bool.or_false,
    Bool.or_eq_false_iff, beq_eq_false_iff_ne] at hword
  obtain ⟨h1, h2, h3, h4, h5, h6, h7, h8, h9, h10, h11, h12, h13, h14⟩ := hword
  have hblock : Block.ofWord? word = none := by
    rw [Block.ofWord?]
    split <;> simp_all
  have hinner : (if s.stack.contains .begin then Block.ofWord? word else none) = none := by
    rw [hblock]
    split <;> rfl
  rw [afterWord, hinner]
  simp_all

/-- What a quiet token that is no semicolon does to a state in which no `BEGIN` has just been read. -/
theorem shifted_quiet {s : Blocks} (hs : s.sawBegin = false) {t : Token} (ht : t.isQuiet = true)
    (hmark : t.isMark ';' = false) :
    (s.shifted t).stack = s.stack ∧ (s.shifted t).level = s.level + t.weight ∧
      (s.shifted t).sawBegin = false ∧ (s.shifted t).ended = s.ended := by
  have hword : t.kind = .keyword ∨ t.kind = .definer →
      Token.blockWords.contains (String.ofList (upper t.text)) = false := by
    intro hkind
    simp only [Token.isQuiet, Bool.and_eq_true, Bool.not_eq_true'] at ht
    rcases hkind with hkind | hkind <;> simpa [hkind] using ht.1
  have hplain : ∀ c, t.kind ≠ .punctuation → t.isMark c = false := fun c hkind => by
    simp [Token.isMark, hkind]
  cases hkind : t.kind with
  | punctuation =>
    have hmark' : (t.text == [';']) = false := by simpa [Token.isMark, hkind] using hmark
    rw [shifted, hkind]
    dsimp only
    rw [hmark', if_neg Bool.false_ne_true, Token.weight, Token.isMark, Token.isMark, hkind]
    by_cases hopen : t.text = ['(']
    · simp [hopen, hs]
    by_cases hclose : t.text = [')']
    · simp [hclose, hs, Int.sub_eq_add_neg]
    · simp [hopen, hclose, hs]
  | definer =>
    rw [shifted, hkind]
    dsimp only
    rw [afterWord_quiet hs false (hword (.inr hkind)), Token.weight, hplain '(' (by simp [hkind]),
      hplain ')' (by simp [hkind])]
    split <;> simp [hs]
  | keyword =>
    rw [shifted, hkind]
    dsimp only
    rw [afterWord_quiet hs true (hword (.inl hkind)), Token.weight, hplain '(' (by simp [hkind]),
      hplain ')' (by simp [hkind])]
    simp [hs]
  | blank | newline | lineComment | hintComment | blockComment | other =>
    rw [shifted, hkind, Token.weight, hplain '(' (by simp [hkind]), hplain ')' (by simp [hkind])]
    simp [hs]

theorem next_quiet {s : Blocks} (hs : s.sawBegin = false) {t : Token} (ht : t.isQuiet = true)
    (hmark : t.isMark ';' = false) :
    (s.next t).stack = s.stack ∧ (s.next t).level = s.level + t.weight ∧
      (s.next t).sawBegin = false ∧ (s.next t).ended = s.ended := by
  obtain ⟨hstack, hlevel, hbegin, hended⟩ := shifted_quiet hs ht hmark
  rw [next, hmark, if_neg Bool.false_ne_true, endsBatch_of_isQuiet ht, if_neg Bool.false_ne_true]
  split
  · exact ⟨hstack, hlevel, hbegin, hended⟩
  · exact ⟨hstack, hlevel, rfl, hended⟩

theorem ended_closedIf (s : Blocks) (bs : List Block) : (s.closedIf bs).ended = s.ended := by
  rw [closedIf]
  split
  · split <;> rfl
  · rfl

theorem ended_afterInnerWord (s : Blocks) (b : Block) : (s.afterInnerWord b).ended = s.ended := by
  cases b with
  | loop | «do» =>
    rw [afterInnerWord]
    cases s.loopHead <;> rfl
  | declare | begin | «for» | «while» | «if» | case => rfl

theorem ended_afterWord (s : Blocks) (plain : Bool) (word : List Char) :
    (s.afterWord plain word).ended = s.ended := by
  rw [afterWord]
  dsimp only
  split
  · rfl
  split
  · split <;> rfl
  split
  · exact ended_closedIf ..
  split
  · rfl
  · exact ended_afterInnerWord ..
  · split
    all_goals first | rfl | exact ended_closedIf ..

/-- No token ends a segment by its level alone. -/
theorem ended_shifted (s : Blocks) (t : Token) : (s.shifted t).ended = s.ended := by
  rw [shifted]
  split
  · split
    · dsimp only
      split
      · exact ended_closedIf ..
      · rfl
    · split
      · rfl
      split <;> rfl
  · dsimp only
    split
    · rfl
    · exact ended_afterWord ..
  · exact ended_afterWord ..
  · rfl

/-- Only a semicolon and the end of a batch end a segment. -/
theorem ended_next {s : Blocks} {t : Token} (hmark : t.isMark ';' = false)
    (hbatch : endsBatch t = false) : (s.next t).ended = s.ended := by
  rw [next, hmark, if_neg Bool.false_ne_true, hbatch, if_neg Bool.false_ne_true]
  split <;> exact ended_shifted s t

/-- A segment that has ended stays so. -/
theorem ended_next_of_ended {s : Blocks} (hs : s.ended = true) (t : Token) : (s.next t).ended = true := by
  have hshifted : (s.shifted t).ended = true := (ended_shifted s t).trans hs
  rw [next]
  split
  · dsimp only
    split
    · rfl
    · exact hshifted
  split
  · rfl
  split <;> exact hshifted

theorem ended_of_endsBatch {s : Blocks} {t : Token} (hbatch : endsBatch t = true) :
    (s.next t).ended = true := by
  have hmark : t.isMark ';' = false := by
    rw [endsBatch, Bool.and_eq_true, beq_iff_eq] at hbatch
    simp [Token.isMark, hbatch.1]
  rw [next, hmark, if_neg Bool.false_ne_true, hbatch, if_pos rfl]

/-- A semicolon ends a segment unless the level is above zero or a `BEGIN` is open. -/
theorem next_semicolon {s : Blocks} (hs : s.sawBegin = false) :
    (s.next Token.semicolon).stack = s.stack ∧ (s.next Token.semicolon).level = s.level ∧
      (s.next Token.semicolon).sawBegin = false ∧
      (s.next Token.semicolon).ended
        = (s.ended || (decide (s.level ≤ 0) && !s.stack.contains .begin)) := by
  have hshifted : s.shifted Token.semicolon = { s with loopHead := none } := by
    have h : s.shifted Token.semicolon
        = if s.sawBegin then { s with loopHead := none, sawBegin := false }.closedIf [.begin]
          else { s with loopHead := none } := rfl
    rw [h, hs]
    rfl
  have hmark : Token.semicolon.isMark ';' = true := by decide
  rw [next, hshifted, hmark, if_pos rfl]
  dsimp only
  split
  · next hends =>
    refine ⟨rfl, rfl, rfl, ?_⟩
    rw [hends, Bool.or_true]
  · next hends =>
    refine ⟨rfl, rfl, rfl, ?_⟩
    rw [Bool.eq_false_iff.2 hends, Bool.or_false]

/-- A semicolon that does not end a segment leaves its end blocked. -/
theorem blocked_of_open {s : Blocks} (hs : (s.next Token.semicolon).ended = false) :
    (s.next Token.semicolon).sawBegin = false ∧
      (decide ((s.next Token.semicolon).level ≤ 0)
        && !(s.next Token.semicolon).stack.contains .begin) = false := by
  have hmark : Token.semicolon.isMark ';' = true := by decide
  rw [next, hmark, if_pos rfl] at hs ⊢
  dsimp only at hs ⊢
  split at hs
  · cases hs
  · next hopen =>
    rw [if_neg hopen]
    exact ⟨rfl, Bool.eq_false_iff.2 hopen⟩

end Blocks

/-! ## Segments -/

namespace Script

/-- What is known after some tokens. -/
structure Progress where
  /-- the finished segments -/
  done : List (List Token)
  /-- what is remembered of the segment being read -/
  state : Blocks
  /-- the tokens of that segment, in reverse -/
  current : List Token

namespace Progress

/-- Nothing has been read. -/
def start : Progress := ⟨[], {}, []⟩

/-- One more token is read. -/
def next (p : Progress) (t : Token) : Progress :=
  if p.state.ended && !trails t then ⟨p.done ++ [p.current.reverse], Blocks.next {} t, [t]⟩
  else ⟨p.done, p.state.next t, t :: p.current⟩

/-- More tokens are read. -/
def run (p : Progress) (ts : List Token) : Progress := ts.foldl next p

/-- The segments, if nothing more is read. -/
def segments (p : Progress) : List (List Token) :=
  p.done ++ if p.current.all Token.isSpace then [] else [p.current.reverse]

theorem run_append (p : Progress) (a b : List Token) : p.run (a ++ b) = (p.run a).run b :=
  List.foldl_append ..

theorem segments_run (p : Progress) (ts : List Token) :
    (p.run ts).segments = p.done ++ cutFrom p.state p.current ts := by
  induction ts generalizing p with
  | nil => rfl
  | cons t rest ih =>
    have hrun : p.run (t :: rest) = (p.next t).run rest := rfl
    rw [hrun, ih, cutFrom, next]
    split
    · exact List.append_assoc ..
    · rfl

/-- **Cutting is a run.** -/
theorem cut_eq_segments (ts : List Token) : cut ts = (start.run ts).segments :=
  (segments_run start ts).symm

theorem next_of_open {p : Progress} (hp : p.state.ended = false) (t : Token) :
    p.next t = ⟨p.done, p.state.next t, t :: p.current⟩ := by
  rw [next, hp]
  rfl

/-- Tokens that do not end the segment. -/
theorem run_open {p : Progress} {ts : List Token} (hp : p.state.ended = false)
    (hts : ∀ t ∈ ts, t.isMark ';' = false ∧ Blocks.endsBatch t = false) :
    p.run ts = ⟨p.done, ts.foldl Blocks.next p.state, ts.reverse ++ p.current⟩ ∧
      (p.run ts).state.ended = false := by
  induction ts generalizing p with
  | nil => exact ⟨rfl, hp⟩
  | cons t rest ih =>
    obtain ⟨ht, hrest⟩ := List.forall_mem_cons.1 hts
    have hstep := next_of_open hp t
    have hended : (p.next t).state.ended = false := by
      rw [hstep]
      exact (Blocks.ended_next ht.1 ht.2).trans hp
    have hrun : p.run (t :: rest) = (p.next t).run rest := rfl
    obtain ⟨hrest, hended'⟩ := ih hended hrest
    rw [hrun]
    refine ⟨hrest.trans ?_, hended'⟩
    rw [hstep, List.reverse_cons, List.append_assoc]
    rfl

/-- Tokens that still belong to a segment that has ended, and those from the first that does not. -/
theorem exists_trailing (ts : List Token) : ∃ front back, ts = front ++ back ∧
    (∀ t ∈ front, trails t = true) ∧ ∀ t, back.head? = some t → trails t = false := by
  refine ⟨ts.takeWhile trails, ts.dropWhile trails, List.takeWhile_append_dropWhile.symm,
    List.all_eq_true.1 List.all_takeWhile, fun t ht => ?_⟩
  have hfirst := List.head?_dropWhile_not trails ts
  rw [ht] at hfirst
  exact hfirst

/-- Tokens that still belong to a segment that has ended. -/
theorem run_trailing {p : Progress} {ts : List Token} (hp : p.state.ended = true)
    (hts : ∀ t ∈ ts, trails t = true) :
    (p.run ts).done = p.done ∧ (p.run ts).current = ts.reverse ++ p.current ∧
      (p.run ts).state.ended = true := by
  induction ts generalizing p with
  | nil => exact ⟨rfl, rfl, hp⟩
  | cons t rest ih =>
    obtain ⟨ht, hrest⟩ := List.forall_mem_cons.1 hts
    have hstep : p.next t = ⟨p.done, p.state.next t, t :: p.current⟩ := by
      rw [next, ht, Bool.not_true, Bool.and_false]
      rfl
    have hended : (p.next t).state.ended = true := by
      rw [hstep]
      exact Blocks.ended_next_of_ended hp t
    obtain ⟨hdone, hcurrent, hended'⟩ := ih hended hrest
    have hrun : p.run (t :: rest) = (p.next t).run rest := rfl
    rw [hrun, hdone, hcurrent, hstep, List.reverse_cons, List.append_assoc]
    exact ⟨rfl, rfl, by rw [← hstep]; exact hended'⟩

/-- Quiet tokens without a semicolon do not end a segment, and change its level as they change the count
of parentheses. -/
theorem run_quiet {p : Progress} {ts : List Token} (hp : p.state.ended = false)
    (hbegin : p.state.sawBegin = false) (hts : ∀ t ∈ ts, t.isMark ';' = false ∧ t.isQuiet = true) :
    (p.run ts).done = p.done ∧ (p.run ts).current = ts.reverse ++ p.current ∧
      (p.run ts).state.ended = false ∧ (p.run ts).state.sawBegin = false ∧
      (p.run ts).state.stack = p.state.stack ∧
      (p.run ts).state.level = p.state.level + Token.weights ts := by
  induction ts generalizing p with
  | nil => exact ⟨rfl, rfl, hp, hbegin, rfl, (Int.add_zero _).symm⟩
  | cons t rest ih =>
    obtain ⟨ht, hrest⟩ := List.forall_mem_cons.1 hts
    have hstep := next_of_open hp t
    obtain ⟨hstack, hlevel, hbegin', hended⟩ := Blocks.next_quiet hbegin ht.2 ht.1
    obtain ⟨hdone, hcurrent, hended', hbegin'', hstack', hlevel'⟩ :=
      @ih (p.next t) (by rw [hstep]; exact hended.trans hp) (by rw [hstep]; exact hbegin') hrest
    have hrun : p.run (t :: rest) = (p.next t).run rest := rfl
    rw [hrun, hdone, hcurrent, hstack', hlevel', hstep]
    refine ⟨rfl, ?_, by rw [← hstep]; exact hended', by rw [← hstep]; exact hbegin'', hstack, ?_⟩
    · rw [List.reverse_cons, List.append_assoc]
      rfl
    · rw [hlevel, Token.weights, Int.add_assoc]

end Progress
end Script
end SchemaSketch
