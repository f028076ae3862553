import SchemaSketch.Proofs.Sql.Cutting

/-!
# Depth along a segment

The depth inside a segment follows the count of open parentheses (`recoverFrom_append`), and so does the
level that says where segments end (`weights_eq`).

* **Without a semicolon.** A segment is one run of tokens then, and white space around it changes nothing
  (`ofSegment_append`).
* **A statement in order.** Quiet tokens with balanced parentheses and a semicolon behind them are a
  segment of their own if the segment before them has ended (`Progress.run_statement`).
-/

namespace SchemaSketch

open Text

namespace Statement

/-! ## Depth -/

theorem textOf_append (a b : List Token) : textOf (a ++ b) = textOf a ++ textOf b :=
  List.flatMap_append

theorem textOf_lex (cs : List Char) : textOf (Token.lex cs) = cs := Token.lex_texts cs

/-- Tokens of plain text without a semicolon. -/
def Inner (ts : List Token) : Prop := ∀ t ∈ ts, t.Plain ∧ ';' ∉ t.text

theorem isMark_of_not_mem {t : Token} {c : Char} (h : c ∉ t.text) : t.isMark c = false := by
  rw [Token.isMark, Bool.and_eq_false_imp]
  intro _
  rw [beq_eq_false_iff_ne]
  rintro htext
  exact h (htext ▸ List.mem_singleton_self c)

theorem Inner.left {a b : List Token} (h : Inner (a ++ b)) : Inner a :=
  fun t ht => h t (List.mem_append_left b ht)

theorem Inner.right {a b : List Token} (h : Inner (a ++ b)) : Inner b :=
  fun t ht => h t (List.mem_append_right a ht)

theorem Inner.plain {ts : List Token} (h : Inner ts) : ∀ t ∈ ts, t.Plain := fun t ht => (h t ht).1

theorem Inner.isMark {ts : List Token} (h : Inner ts) {t : Token} (ht : t ∈ ts) : t.isMark ';' = false :=
  isMark_of_not_mem (h t ht).2

theorem Inner.not_mem {ts : List Token} (h : Inner ts) : ';' ∉ textOf ts := by
  rw [textOf, List.mem_flatMap]
  rintro ⟨t, ht, hmem⟩
  exact (h t ht).2 hmem

/-- The depth inside a segment follows the count of open parentheses. -/
theorem recoverFrom_append {ts : List Token} (hts : Inner ts) {n m : Nat}
    (h : openAfter n (textOf ts) = some m) (current rest : List Token) :
    recoverFrom n current (ts ++ rest) = recoverFrom m (ts.reverse ++ current) rest := by
  induction ts generalizing n current with
  | nil =>
    cases h
    rfl
  | cons t ts ih =>
    obtain ⟨⟨hplain, hmark⟩, hrest⟩ := List.forall_mem_cons.1 hts
    rw [List.reverse_cons, List.append_assoc, List.cons_append, recoverFrom]
    rcases hplain.mark_or_neutral with rfl | rfl | ⟨hneutral, hopen, hclose⟩
    · rw [if_pos (by decide)]
      exact ih hrest h (_ :: current)
    · rw [if_neg (by decide), if_pos (by decide)]
      refine ih hrest ?_ (_ :: current)
      by_cases hn : n = 0
      · subst hn
        cases h
      · have hstep : openAfter n (textOf (⟨.punctuation, [')']⟩ :: ts))
            = if n = 0 then none else openAfter (n - 1) (textOf ts) := rfl
        rw [hstep, if_neg hn] at h
        exact h
    · rw [hopen, hclose, isMark_of_not_mem hmark]
      refine ih hrest ?_ (_ :: current)
      have hsplit : textOf (t :: ts) = t.text ++ textOf ts := rfl
      rw [hsplit, openAfter_append, hneutral n] at h
      exact h

/-- So does the level. -/
theorem weights_eq {ts : List Token} (hts : Inner ts) {n m : Nat}
    (h : openAfter n (textOf ts) = some m) : Token.weights ts = m - n := by
  induction ts generalizing n with
  | nil =>
    cases h
    exact (Int.sub_self _).symm
  | cons t ts ih =>
    obtain ⟨⟨hplain, -⟩, hrest⟩ := List.forall_mem_cons.1 hts
    rw [Token.weights]
    rcases hplain.mark_or_neutral with rfl | rfl | ⟨hneutral, hopen, hclose⟩
    · have hweight : Token.weight ⟨.punctuation, ['(']⟩ = 1 := by decide
      rw [hweight, @ih hrest (n + 1) h]
      omega
    · have hweight : Token.weight ⟨.punctuation, [')']⟩ = -1 := by decide
      have hstep : openAfter n (textOf (⟨.punctuation, [')']⟩ :: ts))
          = if n = 0 then none else openAfter (n - 1) (textOf ts) := rfl
      rw [hstep] at h
      split at h
      · cases h
      · rw [hweight, @ih hrest (n - 1) h]
        omega
    · have hsplit : textOf (t :: ts) = t.text ++ textOf ts := rfl
      rw [hsplit, openAfter_append, hneutral n] at h
      rw [Token.weight, hopen, hclose, @ih hrest n h]
      simp

/-- A semicolon inside parentheses cuts if a word that opens a statement follows it. -/
theorem recoverFrom_semicolon (n : Nat) (current rest : List Token) :
    recoverFrom n current (Token.semicolon :: rest)
      = if 0 < n ∧ opensNext rest = true then current.reverse :: recoverFrom 0 [] rest
        else recoverFrom n (Token.semicolon :: current) rest := by
  have hopen : Token.semicolon.isMark '(' = false := by decide
  have hclose : Token.semicolon.isMark ')' = false := by decide
  have hmark : Token.semicolon.isMark ';' = true := by decide
  rw [recoverFrom, hopen, hclose, hmark, if_neg Bool.false_ne_true, if_neg Bool.false_ne_true]
  by_cases hn : 0 < n
  · simp [hn]
  · simp [hn]

/-! ## One segment -/

/-- Without a semicolon a segment is one run of tokens. -/
theorem recoverFrom_inner {ts : List Token} (hts : ∀ t ∈ ts, t.isMark ';' = false) (n : Nat)
    (current : List Token) : recoverFrom n current ts = [current.reverse ++ ts] := by
  induction ts generalizing n current with
  | nil => rw [recoverFrom, List.append_nil]
  | cons t ts ih =>
    obtain ⟨ht, hrest⟩ := List.forall_mem_cons.1 hts
    have hstep : ∀ depth, recoverFrom depth (t :: current) ts = [current.reverse ++ t :: ts] := by
      intro depth
      rw [ih hrest, List.reverse_cons, List.append_assoc]
      rfl
    rw [recoverFrom, ht, Bool.false_and, Bool.false_and, if_neg Bool.false_ne_true, hstep, hstep, hstep]
    split
    · rfl
    split <;> rfl

theorem trimmed_of_not_mem {ts : List Token} (h : ';' ∉ textOf ts) : trimmed ts = trim (textOf ts) := by
  obtain ⟨b, hb, hend⟩ := exists_dropEnd (· == ';') (trim (textOf ts))
  have hfree : dropEnd (· == ';') (trim (textOf ts)) = trim (textOf ts) := by
    cases b with
    | nil => exact (hend.trans (List.append_nil _)).symm
    | cons x b =>
      have hx : x = ';' := beq_iff_eq.1 (hb x (List.mem_cons_self ..))
      exact absurd (subset_trim _ (hend ▸ by simp [hx])) h
  rw [trimmed, hfree, trim_trim]

/-- A statement that is not empty is kept. -/
theorem filter_singleton {text : List Char} (h : text ≠ []) :
    [text].filter (! ·.isEmpty) = [text] := by
  rw [List.filter_cons_of_pos (by simpa using h)]
  rfl

theorem ofSegment_inner {ts : List Token} (hts : Inner ts) :
    ofSegment ts = [trim (textOf ts)].filter (! ·.isEmpty) := by
  have hruns := recoverFrom_inner (fun t ht => hts.isMark ht) 0 []
  rw [ofSegment, hruns, List.map_singleton, List.reverse_nil, List.nil_append,
    trimmed_of_not_mem hts.not_mem]

theorem trimmed_append_semicolon {ts : List Token} (h : ';' ∉ textOf ts) :
    trimmed (ts ++ [Token.semicolon]) = trim (textOf ts) := by
  rw [trimmed, textOf_append]
  exact trim_dropEnd_trim (by decide) fun hlast => h (List.mem_of_getLast? hlast)

/-- Blank tokens of white space. -/
def Spaces (ts : List Token) : Prop := ∀ t ∈ ts, t.isSpace = true ∧ Blank t.text

theorem neutral_of_blank {cs : List Char} (h : Blank cs) : Neutral cs := by
  refine neutral_of_forall fun c hc => ?_
  rw [isParen, Bool.or_eq_false_iff, beq_eq_false_iff_ne, beq_eq_false_iff_ne]
  have hblank := h c hc
  refine ⟨?_, ?_⟩ <;> rintro rfl <;> exact absurd hblank (by decide)

theorem blank_textOf {ts : List Token} (h : Spaces ts) : Blank (textOf ts) := by
  intro c hc
  obtain ⟨t, ht, hc⟩ := List.mem_flatMap.1 hc
  exact (h t ht).2 c hc

theorem openAfter_spaces_append {spaces : List Token} (h : Spaces spaces) (n : Nat) (ts : List Token) :
    openAfter n (textOf (spaces ++ ts)) = openAfter n (textOf ts) := by
  rw [textOf_append, openAfter_append, neutral_of_blank (blank_textOf h) n]
  rfl

theorem isMark_of_isSpace {t : Token} (h : t.isSpace = true) (c : Char) : t.isMark c = false := by
  rw [Token.isSpace, Bool.or_eq_true, beq_iff_eq, beq_iff_eq] at h
  rw [Token.isMark]
  rcases h with h | h <;> rw [h] <;> rfl

theorem opensNext_append {spaces : List Token} (h : Spaces spaces) (ts : List Token) :
    opensNext (ts ++ spaces) = opensNext ts := by
  have hall : spaces.dropWhile Token.isSpace = [] := by
    rw [← List.append_nil spaces, List.dropWhile_append_of_pos fun t ht => (h t ht).1]
    rfl
  rw [opensNext, opensNext, List.dropWhile_append, hall]
  cases ts.dropWhile Token.isSpace <;> rfl

theorem map_recoverFrom_append {spaces : List Token} (h : Spaces spaces) (n : Nat)
    (current ts : List Token) :
    (recoverFrom n current (ts ++ spaces)).map trimmed = (recoverFrom n current ts).map trimmed := by
  induction ts generalizing n current with
  | nil =>
    have hinner := recoverFrom_inner (fun t ht => isMark_of_isSpace (h t ht).1 ';') n current
    rw [List.nil_append, hinner, recoverFrom, List.map_singleton, List.map_singleton, trimmed, trimmed,
      textOf_append, trim_append_blank (blank_textOf h)]
  | cons t ts ih =>
    rw [List.cons_append, recoverFrom, recoverFrom, opensNext_append h]
    split
    · exact ih ..
    split
    · exact ih ..
    split
    · rw [List.map_cons, List.map_cons, ih]
    · exact ih ..

/-- White space after a segment changes none of its statements. -/
theorem ofSegment_append {spaces : List Token} (h : Spaces spaces) (ts : List Token) :
    ofSegment (ts ++ spaces) = ofSegment ts := by
  rw [ofSegment, ofSegment, map_recoverFrom_append h]

theorem spaces_of_isSpace {ts : List Token} (hts : ∀ t ∈ ts, t.Plain)
    (h : ∀ t ∈ ts, t.isSpace = true) : Spaces ts := by
  intro t ht
  have hblank := (hts t ht).isSpace_eq
  rw [h t ht] at hblank
  exact ⟨h t ht, List.all_eq_true.1 hblank.symm⟩

theorem spaces_of_trails {ts : List Token} (hts : ∀ t ∈ ts, t.Plain)
    (htrails : ∀ t ∈ ts, Script.trails t = true) : Spaces ts := by
  refine spaces_of_isSpace hts fun t ht => ?_
  have hcomment := (hts t ht).isComment_eq
  have htrail := htrails t ht
  rw [Script.trails, Bool.or_eq_true, beq_iff_eq, beq_iff_eq] at htrail
  rcases htrail with hkind | hkind
  · simp [Token.isSpace, hkind]
  · simp [Token.isComment, hkind] at hcomment

/-- Neither quotes nor comments begin in a blank text. -/
theorem isPlain_of_blank {cs : List Char} (h : Blank cs) : isPlain cs = true := by
  induction cs with
  | nil => rfl
  | cons c rest ih =>
    obtain ⟨hc, hrest⟩ := List.forall_mem_cons.1 h
    rw [isPlain, ih hrest, Bool.and_true, isCalm.eq_def]
    split
    all_goals first | rfl | exact absurd hc (by decide)

/-- The tokens of a blank text are white space. -/
theorem spaces_lexAfter {cs : List Char} (h : Blank cs) (before : Option Char) :
    Spaces (Token.lexAfter before cs) := by
  intro t ht
  have hblank : Blank t.text := fun c hc => by
    refine h c ?_
    rw [← Token.lexFrom_texts cs.length before cs]
    exact List.mem_flatMap.2 ⟨t, ht, hc⟩
  refine ⟨?_, hblank⟩
  rw [(Token.plain_of_mem_lexAfter (isPlain_of_blank h) ht).isSpace_eq]
  exact List.all_eq_true.2 hblank

/-- Tokens of nothing but blanks are white space. -/
theorem all_isSpace_of_inked {ts : List Token} (hts : ∀ t ∈ ts, t.Plain)
    (h : inked (textOf ts) = []) : ts.all Token.isSpace = true := by
  rw [List.all_eq_true]
  intro t ht
  rw [(hts t ht).isSpace_eq, List.all_eq_true]
  intro c hc
  have hblank := List.filter_eq_nil_iff.1 h c (List.mem_flatMap.2 ⟨t, ht, hc⟩)
  simpa using hblank

theorem trim_textOf_ne_nil {ts : List Token} (hts : ∀ t ∈ ts, t.Plain) {t : Token} (ht : t ∈ ts)
    (hspace : t.isSpace = false) : trim (textOf ts) ≠ [] := by
  intro hnil
  have hinked : inked (textOf ts) = [] := by
    rw [← inked_trim, hnil]
    rfl
  rw [List.all_eq_true.1 (all_isSpace_of_inked hts hinked) t ht] at hspace
  cases hspace

theorem isQuiet_of_isSpace {t : Token} (h : t.isSpace = true) : t.isQuiet = true := by
  rw [Token.isSpace, Bool.or_eq_true, beq_iff_eq, beq_iff_eq] at h
  rw [Token.isQuiet, Blocks.endsBatch]
  rcases h with h | h <;> rw [h] <;> rfl

theorem isSpace_of_endsBatch {t : Token} (h : Blocks.endsBatch t = true) : t.isSpace = false := by
  rw [Blocks.endsBatch, Bool.and_eq_true, beq_iff_eq] at h
  rw [Token.isSpace, h.1]
  rfl

end Statement

/-! ## A statement in order -/

namespace Script.Progress

open Statement

/-- The statements of the segments, if nothing more is read. -/
def statements (p : Progress) : List (List Char) := (p.done ++ [p.current.reverse]).flatMap ofSegment

/-- After the end of a segment, a token that does not belong to it begins one afresh. -/
theorem run_fresh {p : Progress} (hp : p.state.ended = true) {t : Token} (ht : trails t = false)
    (rest : List Token) :
    p.run (t :: rest) = (⟨p.done ++ [p.current.reverse], {}, []⟩ : Progress).run (t :: rest) := by
  have hstep : p.next t = (⟨p.done ++ [p.current.reverse], {}, []⟩ : Progress).next t := by
    rw [next, hp, ht]
    rfl
  exact congrArg (List.foldl next · rest) hstep

/-- Quiet tokens with balanced parentheses, and then a semicolon, end the segment that they begin. -/
theorem run_balanced (done : List (List Token)) {ts : List Token} (hts : Inner ts)
    (hquiet : ∀ t ∈ ts, t.isQuiet = true) (hbalanced : openAfter 0 (textOf ts) = some 0) :
    ((⟨done, {}, []⟩ : Progress).run (ts ++ [Token.semicolon])).done = done ∧
      ((⟨done, {}, []⟩ : Progress).run (ts ++ [Token.semicolon])).current.reverse
        = ts ++ [Token.semicolon] ∧
      ((⟨done, {}, []⟩ : Progress).run (ts ++ [Token.semicolon])).state.ended = true := by
  obtain ⟨hdone, hcurrent, hended, hbegin, hstack, hlevel⟩ :=
    @run_quiet ⟨done, {}, []⟩ ts rfl rfl fun t ht => ⟨hts.isMark ht, hquiet t ht⟩
  rw [weights_eq hts hbalanced] at hlevel
  have hrun : (⟨done, {}, []⟩ : Progress).run (ts ++ [Token.semicolon])
      = ((⟨done, {}, []⟩ : Progress).run ts).next Token.semicolon := run_append ..
  rw [hrun, next_of_open hended]
  refine ⟨hdone, ?_, ?_⟩
  · rw [hcurrent, List.append_nil, List.reverse_cons, List.reverse_reverse]
  · rw [(Blocks.next_semicolon hbegin).2.2.2, hstack, hlevel, hended]
    rfl

/-- Quiet tokens with balanced parentheses, and then a semicolon: what is read after the end of a segment
is a segment by itself, and has ended. -/
theorem run_statement {p : Progress} (hp : p.state.ended = true) {ts : List Token} (hts : Inner ts)
    (hquiet : ∀ t ∈ ts, t.isQuiet = true) (hbalanced : openAfter 0 (textOf ts) = some 0) :
    ∃ spaces main, ts = spaces ++ main ∧ Spaces spaces ∧
      (p.run (ts ++ [Token.semicolon])).done = p.done ++ [p.current.reverse ++ spaces] ∧
      (p.run (ts ++ [Token.semicolon])).current.reverse = main ++ [Token.semicolon] ∧
      (p.run (ts ++ [Token.semicolon])).state.ended = true := by
  obtain ⟨spaces, main, rfl, htrails, hhead⟩ := exists_trailing ts
  have hspaces : Spaces spaces := spaces_of_trails hts.left.plain htrails
  have hmain : Inner main := hts.right
  rw [openAfter_spaces_append hspaces] at hbalanced
  -- the blanks in front still belong to what was read before
  obtain ⟨hdone, hcurrent, hended⟩ := run_trailing hp htrails
  have hrun : p.run (spaces ++ main ++ [Token.semicolon])
      = (⟨p.done ++ [p.current.reverse ++ spaces], {}, []⟩ : Progress).run
          (main ++ [Token.semicolon]) := by
    have hstart : (p.run spaces).done ++ [(p.run spaces).current.reverse]
        = p.done ++ [p.current.reverse ++ spaces] := by
      rw [hdone, hcurrent, List.reverse_append, List.reverse_reverse]
    rw [List.append_assoc, run_append, ← hstart]
    cases main with
    | nil => exact run_fresh hended (by decide) []
    | cons t main => exact run_fresh hended (hhead t rfl) (main ++ [Token.semicolon])
  -- the rest is a segment of its own, whose level comes back to zero
  rw [hrun]
  exact ⟨spaces, main, rfl, hspaces, run_balanced _ hmain (fun t ht => hquiet t (by simp [ht])) hbalanced⟩

/-! ## Runs of statements -/

/-- A text without a semicolon, and one behind it: even inside parentheses the semicolon does not cut,
since nothing follows it. -/
theorem ofSegment_append_semicolon {ts : List Token} (hts : Inner ts) {m : Nat}
    (hopen : openAfter 0 (textOf ts) = some m) :
    ofSegment (ts ++ [Token.semicolon]) = [trim (textOf ts)].filter (! ·.isEmpty) := by
  have hnil : ¬ (0 < m ∧ opensNext [] = true) := fun h => Bool.false_ne_true h.2
  have hruns : recoverFrom 0 [] (ts ++ [Token.semicolon]) = [ts ++ [Token.semicolon]] := by
    rw [recoverFrom_append hts hopen, List.append_nil, recoverFrom_semicolon, if_neg hnil, recoverFrom,
      List.reverse_cons, List.reverse_reverse]
  rw [ofSegment, hruns, List.map_singleton, trimmed_append_semicolon hts.not_mem]

/-- After the end of a segment in which there is more than white space: the statements that have been
found. -/
structure Settled (p : Progress) (found : List (List Char)) : Prop where
  /-- the segment has ended -/
  ended : p.state.ended = true
  /-- there is more than white space in it -/
  inked : p.current.all Token.isSpace = false
  /-- these are the statements so far -/
  statements_eq : p.statements = found

/-- After a semicolon in the first segment at which it has not ended. -/
structure Blocked (p : Progress) (ts : List Token) : Prop where
  /-- no segment is finished -/
  done_eq : p.done = []
  /-- the segment has not ended -/
  ended : p.state.ended = false
  /-- no `BEGIN` has just been read -/
  sawBegin : p.state.sawBegin = false
  /-- a parenthesis is open, or a `BEGIN` -/
  blocked : (decide (p.state.level ≤ 0) && !p.state.stack.contains .begin) = false
  /-- there is more than white space in the segment -/
  inked : p.current.all Token.isSpace = false
  /-- these are the tokens so far -/
  current_eq : p.current.reverse = ts

theorem Settled.segments {p : Progress} {found : List (List Char)} (h : Settled p found) :
    p.segments.flatMap ofSegment = found := by
  rw [Progress.segments, h.inked]
  exact h.statements_eq

theorem Blocked.segments {p : Progress} {ts : List Token} (h : Blocked p ts) : p.segments = [ts] := by
  rw [Progress.segments, h.inked, h.done_eq, h.current_eq]
  rfl

/-- **A statement in order is found** after the end of a segment. -/
theorem Settled.run {p : Progress} {found : List (List Char)} (hp : Settled p found) {ts : List Token}
    (hts : Inner ts) (hquiet : ∀ t ∈ ts, t.isQuiet = true)
    (hbalanced : openAfter 0 (textOf ts) = some 0) :
    Settled (p.run (ts ++ [Token.semicolon]))
      (found ++ [trim (textOf ts)].filter (! ·.isEmpty)) := by
  obtain ⟨spaces, main, rfl, hspaces, hdone, hcurrent, hended⟩ :=
    run_statement hp.ended hts hquiet hbalanced
  rw [openAfter_spaces_append hspaces] at hbalanced
  refine ⟨hended, ?_, ?_⟩
  · rw [← List.all_reverse, hcurrent, List.all_append, Bool.and_comm]
    rfl
  · rw [statements, hdone, hcurrent, List.flatMap_append, List.flatMap_append, List.flatMap_singleton,
      List.flatMap_singleton, ofSegment_append hspaces,
      ofSegment_append_semicolon hts.right hbalanced, textOf_append,
      trim_blank_append (blank_textOf hspaces), ← hp.statements_eq, statements, List.flatMap_append,
      List.flatMap_singleton]

/-- **A statement in order does not end a segment** whose end is blocked. -/
theorem Blocked.run {p : Progress} {before : List Token} (hp : Blocked p before) {ts : List Token}
    (hts : Inner ts) (hquiet : ∀ t ∈ ts, t.isQuiet = true)
    (hbalanced : openAfter 0 (textOf ts) = some 0) :
    Blocked (p.run (ts ++ [Token.semicolon])) (before ++ (ts ++ [Token.semicolon])) := by
  obtain ⟨hdone, hcurrent, hended, hbegin, hstack, hlevel⟩ :=
    run_quiet hp.ended hp.sawBegin fun t ht => ⟨hts.isMark ht, hquiet t ht⟩
  rw [weights_eq hts hbalanced] at hlevel
  have hrun : p.run (ts ++ [Token.semicolon]) = (p.run ts).next Token.semicolon := run_append ..
  rw [hrun, next_of_open hended]
  obtain ⟨hstack', hlevel', hbegin', hended'⟩ := Blocks.next_semicolon hbegin
  have hsame : (p.run ts).state.level = p.state.level := hlevel.trans (Int.add_zero _)
  have hblocked : (decide ((p.run ts).state.level ≤ 0) && !(p.run ts).state.stack.contains .begin)
      = false := by
    rw [hsame, hstack]
    exact hp.blocked
  refine ⟨hdone.trans hp.done_eq, ?_, hbegin', ?_, rfl, ?_⟩
  · rw [hended', hended, hblocked]
    rfl
  · rw [hlevel', hstack']
    exact hblocked
  · rw [hcurrent, List.reverse_cons, List.reverse_append, List.reverse_reverse, hp.current_eq,
      List.append_assoc]

end Script.Progress
end SchemaSketch
