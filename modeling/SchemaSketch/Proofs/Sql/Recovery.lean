import SchemaSketch.Proofs.Sql.Unclosed

/-!
# Statements after an unclosed one

Cutting a script that begins with an unclosed statement means to recover: the semicolon after the unclosed
list stands inside parentheses, but a word that opens a statement follows it.

* **Once.** The cut resets the depth, which is kept for each run of tokens, but not the level, which
  decides where segments end. So the level stays above zero, all that follows is one segment
  (`Progress.Blocked`), and in it no semicolon stands inside parentheses any more: the second statement is
  not told from the third (`ofSegment_script`).
* **Exactly when.** The statements come out one by one if and only if there is only one of them, or the
  segment ends after the unclosed list for another reason (`flatMap_cut_script_iff`).
-/

namespace SchemaSketch

open Text

/-! ## Up to the semicolon behind the unclosed text -/

namespace Script

/-- Whether nothing but white space stands behind the first token that ends a batch. -/
def endsWhole (ts : List Token) : Bool :=
  ((ts.dropWhile (! Blocks.endsBatch ·)).drop 1).all Token.isSpace

/-- Whether the segment that begins with these tokens has ended with a semicolon behind them. -/
def endsBefore (ts : List Token) : Bool :=
  ((ts ++ [Token.semicolon]).foldl Blocks.next {}).ended

/-- Tokens among which none ends a batch, or those before and behind the first that does. -/
theorem batch_cases (ts : List Token) :
    ((∀ t ∈ ts, Blocks.endsBatch t = false) ∧ endsWhole ts = true) ∨
      ∃ a g b, ts = a ++ g :: b ∧ (∀ t ∈ a, Blocks.endsBatch t = false) ∧
        Blocks.endsBatch g = true ∧ endsWhole ts = b.all Token.isSpace := by
  have hsplit := @List.takeWhile_append_dropWhile _ (! Blocks.endsBatch ·) ts
  have hfront : ∀ t ∈ ts.takeWhile (! Blocks.endsBatch ·), Blocks.endsBatch t = false := by
    intro t ht
    simpa using List.all_eq_true.1 List.all_takeWhile t ht
  cases hdrop : ts.dropWhile (! Blocks.endsBatch ·) with
  | nil =>
    rw [hdrop, List.append_nil] at hsplit
    rw [hsplit] at hfront
    exact .inl ⟨hfront, by rw [endsWhole, hdrop]; rfl⟩
  | cons g b =>
    rw [hdrop] at hsplit
    have hg := List.head?_dropWhile_not (! Blocks.endsBatch ·) ts
    rw [hdrop] at hg
    exact .inr ⟨_, g, b, hsplit.symm, hfront, by simpa using hg, by rw [endsWhole, hdrop]; rfl⟩

theorem endsWhole_of_forall {ts : List Token} (h : ∀ t ∈ ts, Blocks.endsBatch t = false) :
    endsWhole ts = true := by
  obtain ⟨-, hwhole⟩ | ⟨a, g, b, rfl, -, hg, -⟩ := batch_cases ts
  · exact hwhole
  · rw [h g (by simp)] at hg
    cases hg

/-- The end of a batch ends the segment, before any semicolon. -/
theorem endsBefore_of_batch (a b : List Token) {g : Token} (hg : Blocks.endsBatch g = true) :
    endsBefore (a ++ g :: b) = true := by
  have hstay : ∀ (ts : List Token) (s : Blocks), s.ended = true → (ts.foldl Blocks.next s).ended = true := by
    intro ts
    induction ts with
    | nil => exact fun _ h => h
    | cons t ts ih => exact fun s h => ih (s.next t) (Blocks.ended_next_of_ended h t)
  rw [endsBefore, List.append_assoc, List.foldl_append]
  exact hstay (b ++ [Token.semicolon]) _ (Blocks.ended_of_endsBatch hg)

namespace Progress

open Statement

theorem run_start {ts : List Token} (hts : Inner ts) (hbatch : ∀ t ∈ ts, Blocks.endsBatch t = false) :
    start.run ts = ⟨[], ts.foldl Blocks.next {}, ts.reverse⟩ ∧ (start.run ts).state.ended = false := by
  obtain ⟨hrun, hopen⟩ := @run_open start ts rfl fun t ht => ⟨hts.isMark ht, hbatch t ht⟩
  refine ⟨hrun.trans ?_, hopen⟩
  rw [start, List.append_nil]

/-- The end of a segment at the first semicolon. -/
theorem run_semicolon {ts : List Token} (hts : Inner ts)
    (hbatch : ∀ t ∈ ts, Blocks.endsBatch t = false) :
    start.run (ts ++ [Token.semicolon])
      = ⟨[], (ts ++ [Token.semicolon]).foldl Blocks.next {}, Token.semicolon :: ts.reverse⟩ := by
  obtain ⟨hrun, hopen⟩ := run_start hts hbatch
  have hnext : start.run (ts ++ [Token.semicolon]) = (start.run ts).next Token.semicolon :=
    run_append ..
  rw [hnext, next_of_open hopen, hrun, List.foldl_append]
  rfl

/-- The end of a batch ends the first segment. -/
theorem run_batch {a : List Token} (ha : Inner a) (hbatch : ∀ t ∈ a, Blocks.endsBatch t = false)
    {g : Token} (hg : Blocks.endsBatch g = true) :
    (start.run (a ++ [g])).done = [] ∧ (start.run (a ++ [g])).current = g :: a.reverse ∧
      (start.run (a ++ [g])).state.ended = true := by
  obtain ⟨hrun, hopen⟩ := run_start ha hbatch
  have hnext : start.run (a ++ [g]) = (start.run a).next g := run_append ..
  rw [hnext, next_of_open hopen, hrun]
  exact ⟨rfl, rfl, Blocks.ended_of_endsBatch hg⟩

theorem settled_of_endsBefore {ts : List Token} (hts : Inner ts)
    (hbatch : ∀ t ∈ ts, Blocks.endsBatch t = false) {m : Nat}
    (hopen : openAfter 0 (textOf ts) = some m) (hends : endsBefore ts = true) :
    Settled (start.run (ts ++ [Token.semicolon])) ([trim (textOf ts)].filter (! ·.isEmpty)) := by
  rw [run_semicolon hts hbatch]
  refine ⟨hends, rfl, ?_⟩
  rw [statements, List.nil_append, List.flatMap_singleton, List.reverse_cons, List.reverse_reverse,
    ofSegment_append_semicolon hts hopen]

theorem blocked_of_not_endsBefore {ts : List Token} (hts : Inner ts)
    (hbatch : ∀ t ∈ ts, Blocks.endsBatch t = false) (hends : endsBefore ts = false) :
    Blocked (start.run (ts ++ [Token.semicolon])) (ts ++ [Token.semicolon]) := by
  rw [run_semicolon hts hbatch]
  rw [endsBefore, List.foldl_append] at hends
  obtain ⟨hbegin, hblocked⟩ := Blocks.blocked_of_open hends
  refine ⟨rfl, ?_, ?_, ?_, rfl, ?_⟩
  · rw [List.foldl_append]
    exact hends
  · rw [List.foldl_append]
    exact hbegin
  · rw [List.foldl_append]
    exact hblocked
  · rw [List.reverse_cons, List.reverse_reverse]

/-- White space behind the end of a batch makes no statement of its own. -/
theorem settled_of_batch {a b : List Token} {g : Token} (hts : Inner (a ++ g :: b))
    (hbatch : ∀ t ∈ a, Blocks.endsBatch t = false) (hg : Blocks.endsBatch g = true)
    (hb : b.all Token.isSpace = true) :
    Settled (start.run (a ++ g :: b ++ [Token.semicolon]))
      ([trim (textOf (a ++ g :: b))].filter (! ·.isEmpty)) := by
  have hsplit : a ++ g :: b = a ++ [g] ++ b := by simp
  rw [hsplit] at hts ⊢
  have hspaces : Spaces b := spaces_of_isSpace hts.right.plain (List.all_eq_true.1 hb)
  have hblank := blank_textOf hspaces
  have hsettled : Settled (start.run (a ++ [g])) ([trim (textOf (a ++ [g]))].filter (! ·.isEmpty)) := by
    obtain ⟨hdone, hcurrent, hended⟩ := run_batch hts.left.left hbatch hg
    refine ⟨hended, ?_, ?_⟩
    · rw [hcurrent, List.all_cons, isSpace_of_endsBatch hg, Bool.false_and]
    · rw [statements, hdone, hcurrent, List.nil_append, List.flatMap_singleton, List.reverse_cons,
        List.reverse_reverse, ofSegment_inner hts.left]
  have hrest := hsettled.run hts.right (fun t ht => isQuiet_of_isSpace (hspaces t ht).1)
    (neutral_of_blank hblank 0)
  have hempty : [trim (textOf b)].filter (! ·.isEmpty) = [] := by
    rw [← List.append_nil (textOf b), trim_blank_append hblank]
    rfl
  rw [hempty, List.append_nil, ← run_append, ← List.append_assoc] at hrest
  rw [textOf_append, trim_append_blank hblank]
  exact hrest

/-- If more than white space follows the end of a batch, the first statement ends before that. -/
theorem head_of_batch {a b : List Token} {g : Token} (hts : Inner (a ++ g :: b))
    (hbatch : ∀ t ∈ a, Blocks.endsBatch t = false) (hg : Blocks.endsBatch g = true)
    (hb : b.all Token.isSpace = false) (more : List Token) :
    ∃ front back rest, a ++ g :: b = front ++ back ∧ back.all Token.isSpace = false ∧
      (cut (a ++ g :: b ++ more)).flatMap ofSegment = trim (textOf front) :: rest := by
  obtain ⟨spaces, back, rfl, htrails, hhead⟩ := exists_trailing b
  have hsplit : a ++ g :: (spaces ++ back) = a ++ [g] ++ spaces ++ back := by simp
  rw [hsplit] at hts ⊢
  have hspaces : Spaces spaces := spaces_of_trails hts.left.right.plain htrails
  rw [List.all_append, List.all_eq_true.2 fun t ht => (hspaces t ht).1, Bool.true_and] at hb
  cases back with
  | nil => cases hb
  | cons t back =>
    obtain ⟨hdone, hcurrent, hended⟩ := run_batch hts.left.left.left hbatch hg
    obtain ⟨hdone', hcurrent', hended'⟩ := run_trailing hended htrails
    have hcut : cut (a ++ [g] ++ spaces ++ t :: back ++ more)
        = (a ++ [g] ++ spaces) :: cutFrom (Blocks.next {} t) [t] (back ++ more) := by
      rw [cut_eq_segments, List.append_assoc, run_append, segments_run, run_append, hdone', hdone,
        List.cons_append, cutFrom, hended', hhead t rfl, hcurrent', hcurrent]
      simp
    -- the token that ends the batch is no white space, so the statement is not empty
    have hinked : trim (textOf (a ++ [g] ++ spaces)) ≠ [] :=
      trim_textOf_ne_nil hts.left.plain (by simp) (isSpace_of_endsBatch hg)
    refine ⟨a ++ [g] ++ spaces, t :: back,
      (cutFrom (Blocks.next {} t) [t] (back ++ more)).flatMap ofSegment, rfl, hb, ?_⟩
    rw [hcut, List.flatMap_cons, ofSegment_inner hts.left, filter_singleton hinked]
    rfl

/-! ## The statements behind the unclosed text -/

theorem Settled.run_tokensOf {p : Progress} {found : List (List Char)} (hp : Settled p found)
    {others : List (List Char)} (hothers : ∀ S ∈ others, Closed S) :
    Settled (p.run (tokensOf others)) (found ++ others.map trim) := by
  induction others generalizing p found with
  | nil =>
    rw [List.map_nil, List.append_nil]
    exact hp
  | cons S others ih =>
    obtain ⟨hS, hothers⟩ := List.forall_mem_cons.1 hothers
    have hnext := ih (hp.run hS.inner hS.quiet hS.openAfter_lex) hothers
    rw [textOf_lex, filter_singleton hS.trim_ne_nil, ← run_append, List.append_assoc,
      List.append_assoc] at hnext
    rw [tokensOf_cons]
    exact hnext

theorem Blocked.run_tokensOf {p : Progress} {before : List Token} (hp : Blocked p before)
    {others : List (List Char)} (hothers : ∀ S ∈ others, Closed S) :
    Blocked (p.run (tokensOf others)) (before ++ tokensOf others) := by
  induction others generalizing p before with
  | nil =>
    rw [tokensOf, List.flatMap_nil, List.append_nil]
    exact hp
  | cons S others ih =>
    obtain ⟨hS, hothers⟩ := List.forall_mem_cons.1 hothers
    have hnext := ih (hp.run hS.inner hS.quiet hS.openAfter_lex) hothers
    rw [← run_append, List.append_assoc, List.append_assoc, List.append_assoc] at hnext
    rw [tokensOf_cons]
    exact hnext

end Progress

/-- If nothing opens or closes a block or ends a batch, an open parenthesis keeps the segment from
ending. -/
theorem endsBefore_of_quiet {ts : List Token} (hts : Statement.Inner ts)
    (hquiet : ∀ t ∈ ts, t.isQuiet = true) {m : Nat}
    (hopen : openAfter 0 (Statement.textOf ts) = some (m + 1)) : endsBefore ts = false := by
  obtain ⟨hrun, -⟩ := Progress.run_start hts fun t ht => Blocks.endsBatch_of_isQuiet (hquiet t ht)
  obtain ⟨-, -, hended, hbegin, hstack, hlevel⟩ := @Progress.run_quiet .start ts rfl rfl
    fun t ht => ⟨hts.isMark ht, hquiet t ht⟩
  rw [Statement.weights_eq hts hopen] at hlevel
  have hpositive : ¬ (Progress.start.run ts).state.level ≤ 0 := by
    have hzero : Progress.start.state.level = 0 := rfl
    omega
  have hlast := (Blocks.next_semicolon hbegin).2.2.2
  rw [hended, decide_eq_false hpositive, hrun] at hlast
  rw [endsBefore, List.foldl_append]
  exact hlast

end Script

namespace Statement

/-! ## The whole script -/

section

open Script Script.Progress

variable {first : List Char} (hfirst : Unclosed first)
variable {others : List (List Char)} (hothers : ∀ S ∈ others, Closed S)
include hfirst hothers

theorem cut_script :
    cut (Token.lex (script first others))
      = ((start.run (Token.lex first ++ [Token.semicolon])).run (tokensOf others)).segments := by
  rw [lex_script hothers hfirst.plain, cut_eq_segments, ← run_append, List.append_assoc,
    List.singleton_append]

/-- **One cut, and no more.** A script that is one segment is cut behind the unclosed text only. -/
theorem ofSegment_script (hne : others ≠ []) :
    ofSegment (Token.lex first ++ [Token.semicolon] ++ tokensOf others)
      = trim first :: [trimmed (tokensOf others)].filter (! ·.isEmpty) := by
  obtain ⟨m, hopen⟩ := hfirst.openAfter_lex
  have hruns : recoverFrom 0 [] (Token.lex first ++ [Token.semicolon] ++ tokensOf others)
      = [Token.lex first, tokensOf others] := by
    rw [List.append_assoc, recoverFrom_append hfirst.inner hopen, List.singleton_append,
      recoverFrom_semicolon, if_pos ⟨Nat.succ_pos m, opensNext_tokensOf hothers hne⟩,
      recoverFrom_tokensOf hothers]
    simp
  have htrimmed : trimmed (Token.lex first) = trim first := by
    rw [trimmed_of_not_mem hfirst.inner.not_mem, textOf_lex]
  rw [ofSegment, hruns, List.map_cons, List.map_singleton, htrimmed,
    List.filter_cons_of_pos (by simpa using hfirst.trim_ne_nil)]

/-- Once the segment of the unclosed text has ended, the others are found one by one. -/
theorem found_of_settled
    (h : Settled (start.run (Token.lex first ++ [Token.semicolon])) [trim first]) :
    (cut (Token.lex (script first others))).flatMap ofSegment = trim first :: others.map trim := by
  rw [cut_script hfirst hothers]
  exact (h.run_tokensOf hothers).segments

/-- If the segment of the unclosed text does not end, only one other is found. -/
theorem found_iff_of_blocked (hne : others ≠ [])
    (h : Blocked (start.run (Token.lex first ++ [Token.semicolon]))
      (Token.lex first ++ [Token.semicolon])) :
    (cut (Token.lex (script first others))).flatMap ofSegment = trim first :: others.map trim ↔
      others.length = 1 := by
  rw [cut_script hfirst hothers, (h.run_tokensOf hothers).segments, List.flatMap_singleton,
    ofSegment_script hfirst hothers hne, List.cons_inj_right]
  constructor
  · intro h
    have hlength := List.length_filter_le (! ·.isEmpty) [trimmed (tokensOf others)]
    rw [h, List.length_map, List.length_singleton] at hlength
    exact Nat.le_antisymm hlength (List.length_pos_iff.2 hne)
  · intro h
    obtain ⟨S, rfl⟩ := List.length_eq_one_iff.1 h
    have hS := hothers S (List.mem_singleton_self S)
    rw [tokensOf, List.flatMap_singleton, trimmed_append_semicolon hS.inner.not_mem, textOf_lex,
      filter_singleton hS.trim_ne_nil, List.map_singleton]

/-- If more than white space follows the end of a batch, the first statement is not the unclosed text. -/
theorem not_found_of_batch {a b : List Token} {g : Token} (hsplit : Token.lex first = a ++ g :: b)
    (hbatch : ∀ t ∈ a, Blocks.endsBatch t = false) (hg : Blocks.endsBatch g = true)
    (hb : b.all Token.isSpace = false) :
    (cut (Token.lex (script first others))).flatMap ofSegment ≠ trim first :: others.map trim := by
  have hinner := hfirst.inner
  rw [hsplit] at hinner
  obtain ⟨front, back, rest, hfront, hback, hcut⟩ :=
    head_of_batch hinner hbatch hg hb (Token.semicolon :: tokensOf others)
  rw [lex_script hothers hfirst.plain, hsplit, hcut]
  intro h
  have hhead : trim (textOf front) = trim first := (List.cons.inj h).1
  -- the statement that ends with the batch has fewer characters than the unclosed text
  have hinked : inked (textOf front) = inked (textOf front) ++ inked (textOf back) :=
    calc inked (textOf front) = inked first := by rw [← inked_trim, hhead, inked_trim]
      _ = inked (textOf (front ++ back)) := by rw [← hfront, ← hsplit, textOf_lex]
      _ = _ := by rw [textOf_append, inked_append]
  rw [hfront] at hinner
  rw [all_isSpace_of_inked hinner.right.plain (List.self_eq_append_right.1 hinked)] at hback
  cases hback

/-- **The statements behind an unclosed one** come out one by one if and only if the unclosed text is
whole, and there is only one of them or the segment of the unclosed text has ended before them. -/
theorem flatMap_cut_script_iff (hne : others ≠ []) :
    (cut (Token.lex (script first others))).flatMap ofSegment = trim first :: others.map trim ↔
      endsWhole (Token.lex first) = true ∧
        (others.length = 1 ∨ endsBefore (Token.lex first) = true) := by
  obtain ⟨m, hopen⟩ := hfirst.openAfter_lex
  have hinner := hfirst.inner
  have hfound : [trim (textOf (Token.lex first))].filter (! ·.isEmpty) = [trim first] := by
    rw [textOf_lex, filter_singleton hfirst.trim_ne_nil]
  obtain ⟨hbatch, hwhole⟩ | ⟨a, g, b, hsplit, hbatch, hg, hwhole⟩ := batch_cases (Token.lex first)
  · rw [hwhole]
    cases hends : endsBefore (Token.lex first) with
    | true =>
      have h := settled_of_endsBefore hinner hbatch hopen hends
      simp [found_of_settled hfirst hothers (hfound ▸ h)]
    | false =>
      have h := blocked_of_not_endsBefore hinner hbatch hends
      simp [found_iff_of_blocked hfirst hothers hne h]
  · have hends : endsBefore (Token.lex first) = true := by
      rw [hsplit]
      exact endsBefore_of_batch a b hg
    rw [hends, hwhole]
    cases hb : b.all Token.isSpace with
    | true =>
      have h := settled_of_batch (hsplit ▸ hinner) hbatch hg hb
      rw [← hsplit, hfound] at h
      simp [found_of_settled hfirst hothers h]
    | false => simp [not_found_of_batch hfirst hothers hsplit hbatch hg hb]

/-- If nothing in the unclosed text opens or closes a block or ends a batch, its parenthesis alone decides:
no second statement behind it is found. -/
theorem flatMap_cut_script_iff_of_quiet (hquiet : ∀ t ∈ Token.lex first, t.isQuiet = true)
    (hne : others ≠ []) :
    (cut (Token.lex (script first others))).flatMap ofSegment = trim first :: others.map trim ↔
      others.length = 1 := by
  obtain ⟨m, hopen⟩ := hfirst.openAfter_lex
  have hbatch : ∀ t ∈ Token.lex first, Blocks.endsBatch t = false :=
    fun t ht => Blocks.endsBatch_of_isQuiet (hquiet t ht)
  rw [flatMap_cut_script_iff hfirst hothers hne, endsWhole_of_forall hbatch,
    endsBefore_of_quiet hfirst.inner hquiet hopen]
  simp

end

end Statement
end SchemaSketch
