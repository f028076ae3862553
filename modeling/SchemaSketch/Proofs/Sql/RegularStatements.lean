import SchemaSketch.Proofs.Sql.Entries
import SchemaSketch.Proofs.Sql.RegularTokens

/-!
# Scripts of regular statements

A regular text in which the parentheses are balanced, and in which no semicolon counts, is a statement if a semicolon is
written behind it (`Statement.prepare_regular`). Nothing is left open behind the semicolon (`Script.finished_regular`),
and so a script that is made up of such statements and of comments, each beginning on a line of its own, is read part by
part (`Statement.prepare_intercalate`).
-/

namespace SchemaSketch

open Text

/-! ## Balanced parentheses -/

namespace Text

/-- Whether the parentheses that count close `depth` ones and those that they open, and no semicolon counts. -/
def isBalanced (depth : Nat) : List (Char × Bool) → Bool
  | [] => depth == 0
  | (c, counts) :: rest =>
    if counts && c == '(' then isBalanced (depth + 1) rest
    else if counts && c == ')' then depth != 0 && isBalanced (depth - 1) rest
    else !(counts && c == ';') && isBalanced depth rest

theorem isBalanced_uncounted (cs : List Char) (depth : Nat) (rest : List (Char × Bool)) :
    isBalanced depth (cs.map (·, false) ++ rest) = isBalanced depth rest := by
  induction cs with
  | nil => rfl
  | cons c cs ih => exact ih

/-- What closes its own parentheses may stand in front of anything. -/
theorem isBalanced_append {depth : Nat} {a : List (Char × Bool)} (ha : isBalanced depth a = true) (more : Nat)
    (b : List (Char × Bool)) : isBalanced (depth + more) (a ++ b) = isBalanced more b := by
  induction a generalizing depth with
  | nil =>
    obtain rfl := beq_iff_eq.1 ha
    rw [Nat.zero_add, List.nil_append]
  | cons sign a ih =>
    obtain ⟨c, counts⟩ := sign
    rw [isBalanced] at ha
    rw [List.cons_append, isBalanced]
    split
    · next hopen =>
      rw [if_pos hopen] at ha
      rw [Nat.add_right_comm, ih ha]
    · next hopen =>
      rw [if_neg hopen] at ha
      split
      · next hclose =>
        rw [if_pos hclose, Bool.and_eq_true, bne_iff_ne] at ha
        have hdepth : depth + more - 1 = depth - 1 + more := by omega
        rw [bne_iff_ne.2 (show depth + more ≠ 0 by omega), Bool.true_and, hdepth, ih ha.2]
      · next hclose =>
        rw [if_neg hclose, Bool.and_eq_true] at ha
        rw [ha.1, Bool.true_and, ih ha.2]

/-- A part of a statement: a regular text in which the parentheses are balanced and no semicolon counts. -/
structure IsPhrase (cs : List Char) : Prop where
  /-- it is words, numbers, quoted text and marks -/
  regular : isRegular cs = true
  /-- its parentheses are balanced, and no semicolon counts -/
  balanced : isBalanced 0 (counted none cs) = true

instance (cs : List Char) : Decidable (IsPhrase cs) :=
  decidable_of_iff (isRegular cs = true ∧ isBalanced 0 (counted none cs) = true)
    ⟨fun h => ⟨h.1, h.2⟩, fun h => ⟨h.regular, h.balanced⟩⟩

namespace IsPhrase

variable {a b c : List Char} {mark : Char}

theorem counted_append (ha : IsPhrase a) (more : List Char) :
    counted none (a ++ more) = counted none a ++ counted none more := counted_regular_append ha.regular more

/-- Two phrases, apart from each other. -/
theorem apart (ha : IsPhrase a) (hmark : mark = ' ' ∨ mark = '\n' ∨ mark = ',') (hb : IsPhrase b) :
    IsPhrase (a ++ mark :: b) := by
  have hlone : loneMarks.contains mark = true := by rcases hmark with rfl | rfl | rfl <;> decide
  have hskip : isBalanced 0 (counted none (mark :: b)) = isBalanced 0 (counted none b) := by
    rcases hmark with rfl | rfl | rfl <;> rfl
  refine ⟨(isRegular_append_mark ha.regular hlone).trans hb.regular, ?_⟩
  rw [ha.counted_append]
  exact (isBalanced_append ha.balanced 0 _).trans (hskip.trans hb.balanced)

/-- A phrase in parentheses, between two others. -/
theorem enclose (ha : IsPhrase a) (hb : IsPhrase b) (hc : IsPhrase c) : IsPhrase (a ++ '(' :: (b ++ ')' :: c)) := by
  refine ⟨?_, ?_⟩
  · rw [isRegular_append_mark ha.regular (by decide), isRegular_append_mark hb.regular (by decide), hc.regular]
  · have hopen : counted none ('(' :: (b ++ ')' :: c)) = ('(', true) :: counted none (b ++ ')' :: c) := rfl
    have hclose : counted none (')' :: c) = (')', true) :: counted none c := rfl
    rw [ha.counted_append, hopen, hb.counted_append, hclose]
    exact (isBalanced_append ha.balanced 0 _).trans ((isBalanced_append hb.balanced 1 _).trans hc.balanced)

/-- Characters that are neither quotes nor marks count for nothing. -/
theorem of_isWord (hword : ∀ c ∈ a, isWord c = true) (hregular : isRegular a = true) : IsPhrase a := by
  have hnot : Pattern.edges.all (! isWord ·) = true := by decide
  have hedges : ∀ c ∈ a, c ∉ Pattern.edges := by
    intro c hc hmem
    have hedge := List.all_eq_true.1 hnot c hmem
    rw [hword c hc] at hedge
    cases hedge
  have hcounted := Text.counted_append hedges []
  rw [List.append_nil] at hcounted
  refine ⟨hregular, ?_⟩
  rw [hcounted, isBalanced_uncounted]
  rfl

/-- A word that opens and closes no block. -/
theorem word (hne : a ≠ []) (hword : ∀ c ∈ a, isWord c = true) (hfirst : ∀ c ∈ a.head?, isDecimal c = false)
    (hquiet : isLoud a = false) : IsPhrase a := by
  have hrun : ∀ (b passed : List Char), (∀ c ∈ b, isWord c = true) →
      (Spot.word passed).run b = some (.word (b.reverse ++ passed)) := by
    intro b
    induction b with
    | nil => exact fun passed _ => rfl
    | cons c b ih =>
      intro passed h
      obtain ⟨hc, hb⟩ := List.forall_mem_cons.1 h
      rw [Spot.run, Spot.next, if_pos hc, Option.bind_some, ih _ hb, List.reverse_cons, List.append_assoc]
      rfl
  refine of_isWord hword ?_
  obtain ⟨c, rest, rfl⟩ := List.exists_cons_of_ne_nil hne
  obtain ⟨hc, hrest⟩ := List.forall_mem_cons.1 hword
  rw [isRegular, Spot.reads_cons, Spot.next_word hc (hfirst c rfl), Option.any_some, Spot.reads, hrun rest [c] hrest,
    Option.any_some, Spot.isSettled, List.reverse_append, List.reverse_reverse]
  exact congrArg (! ·) hquiet

/-- A number without a sign. -/
theorem number (h : ∀ c ∈ a, c.isDigit = true) : IsPhrase a := by
  have hnext : ∀ s, s = Spot.open ∨ s = .digits → ∀ c ∈ "0123456789".toList, s.next c = some .digits := by
    rintro s (rfl | rfl)
    · exact List.forall_iff_forall_mem.1 (by decide)
    · exact List.forall_iff_forall_mem.1 (by decide)
  have hrun : ∀ s, s = Spot.open ∨ s = .digits → s.reads a = true := by
    induction a with
    | nil => rintro s (rfl | rfl) <;> rfl
    | cons c a ih =>
      intro s hs
      obtain ⟨hc, ha⟩ := List.forall_mem_cons.1 h
      rw [Spot.reads_cons, hnext s hs c (mem_figures hc), Option.any_some]
      exact ih ha _ (.inr rfl)
  exact of_isWord (fun c hc => Spot.isWord_of_isDigit (h c hc)) (hrun _ (.inl rfl))

theorem nil : IsPhrase [] := ⟨rfl, rfl⟩

/-- Blanks in front of a phrase. -/
theorem indent {gap : List Char} (hgap : ∀ c ∈ gap, c = ' ' ∨ c = '\n') (ha : IsPhrase a) : IsPhrase (gap ++ a) := by
  induction gap with
  | nil => exact ha
  | cons c gap ih =>
    obtain ⟨hc, hgap⟩ := List.forall_mem_cons.1 hgap
    exact nil.apart (hc.imp_right .inl) (ih hgap)

/-- Phrases with blanks between them. -/
theorem join {c : Char} {gap : List Char} (hgap : ∀ d ∈ c :: gap, d = ' ' ∨ d = '\n') {lines : List (List Char)}
    (h : ∀ line ∈ lines, IsPhrase line) : IsPhrase (Text.join (c :: gap) lines) := by
  obtain ⟨hc, hblank⟩ := List.forall_mem_cons.1 hgap
  induction lines with
  | nil => exact nil
  | cons line rest ih =>
    obtain ⟨hline, hrest⟩ := List.forall_mem_cons.1 h
    cases rest with
    | nil => exact hline
    | cons next rest =>
      rw [Text.join, List.append_assoc, List.cons_append]
      exact hline.apart (hc.imp_right .inl) (indent hblank (ih hrest))

end IsPhrase

/-- A text that is a statement if a semicolon is written behind it. -/
structure IsStatement (cs : List Char) : Prop extends IsPhrase cs where
  /-- it ends neither with a blank nor with a semicolon -/
  last : ∃ c, cs.getLast? = some c ∧ isBlank c = false ∧ c ≠ ';'

theorem IsPhrase.isStatement {a : List Char} {c : Char} (h : IsPhrase (a ++ [c]))
    (hc : (isBlank c || c == ';') = false) : IsStatement (a ++ [c]) := by
  rw [Bool.or_eq_false_iff, beq_eq_false_iff_ne] at hc
  exact ⟨h, c, List.getLast?_concat, hc⟩

end Text

namespace Token

/-- The token of a mark that counts is that mark. -/
theorem exists_of_isCounted {t : Token} (h : t.isCounted = true) :
    ∃ c, t = ⟨.punctuation, [c]⟩ ∧ (c = '(' ∨ c = ')' ∨ c = ',' ∨ c = ';') := by
  obtain ⟨kind, text⟩ := t
  simp only [isCounted, isSign, isMark, Bool.or_eq_true, Bool.and_eq_true, beq_iff_eq] at h
  rcases h with ((⟨rfl, rfl⟩ | ⟨rfl, rfl⟩) | ⟨rfl, rfl⟩) | ⟨rfl, rfl⟩
  · exact ⟨'(', rfl, .inl rfl⟩
  · exact ⟨')', rfl, .inr (.inl rfl)⟩
  · exact ⟨',', rfl, .inr (.inr (.inl rfl))⟩
  · exact ⟨';', rfl, .inr (.inr (.inr rfl))⟩

/-- What a token does to the count of open parentheses. -/
theorem isBalanced_counted_append (t : Token) (depth : Nat) (rest : List (Char × Bool)) :
    isBalanced depth (t.counted ++ rest) =
      if t.isMark '(' then isBalanced (depth + 1) rest
      else if t.isMark ')' then depth != 0 && isBalanced (depth - 1) rest
      else !t.isMark ';' && isBalanced depth rest := by
  cases hcounted : t.isCounted with
  | true =>
    obtain ⟨c, rfl, hc⟩ := exists_of_isCounted hcounted
    rcases hc with rfl | rfl | rfl | rfl <;> rfl
  | false =>
    rw [counted, hcounted, isBalanced_uncounted]
    simp only [isCounted, isSign, Bool.or_eq_false_iff] at hcounted
    rw [hcounted.1.1.1, hcounted.1.1.2, hcounted.2]
    rfl

/-- **Balanced parentheses** add nothing to the level, and no semicolon is among the tokens. -/
theorem weights_of_isBalanced {ts : List Token} {depth : Nat} (h : isBalanced depth (ts.flatMap counted) = true) :
    weights ts = -(depth : Int) ∧ ∀ t ∈ ts, t.isMark ';' = false := by
  induction ts generalizing depth with
  | nil =>
    obtain rfl := beq_iff_eq.1 h
    exact ⟨rfl, fun _ ht => absurd ht List.not_mem_nil⟩
  | cons t ts ih =>
    rw [List.flatMap_cons, isBalanced_counted_append] at h
    rw [weights, weight]
    by_cases hopen : t.isMark '(' = true
    · rw [if_pos hopen] at h
      obtain ⟨hweights, hrest⟩ := ih h
      rw [if_pos hopen, hweights]
      exact ⟨by omega, List.forall_mem_cons.2 ⟨isMark_eq_false hopen (by decide), hrest⟩⟩
    rw [if_neg hopen] at h ⊢
    by_cases hclose : t.isMark ')' = true
    · rw [if_pos hclose, Bool.and_eq_true, bne_iff_ne] at h
      obtain ⟨hweights, hrest⟩ := ih h.2
      rw [if_pos hclose, hweights]
      exact ⟨by omega, List.forall_mem_cons.2 ⟨isMark_eq_false hclose (by decide), hrest⟩⟩
    · rw [if_neg hclose, Bool.and_eq_true, Bool.not_eq_true'] at h
      obtain ⟨hweights, hrest⟩ := ih h.2
      rw [if_neg hclose, hweights]
      exact ⟨by omega, List.forall_mem_cons.2 ⟨h.1, hrest⟩⟩

end Token

/-! ## One statement -/

namespace Script

open Statement

variable {cs : List Char} (h : IsStatement cs)

include h

/-- The tokens of a statement, and the semicolon behind it, are one segment, which has ended. -/
theorem run_regular :
    Progress.start.run (Token.lex cs ++ [Token.semicolon]) =
        ⟨[], (Progress.start.run (Token.lex cs ++ [Token.semicolon])).state,
          (Token.lex cs ++ [Token.semicolon]).reverse⟩ ∧
      (Progress.start.run (Token.lex cs ++ [Token.semicolon])).state.ended = true := by
  obtain ⟨hcounted, hquiet, -⟩ := Token.lex_regular h.regular
  obtain ⟨hweights, hmarks⟩ := Token.weights_of_isBalanced (hcounted ▸ h.balanced)
  obtain ⟨hdone, hcurrent, hended, hbegin, hstack, hlevel⟩ :=
    @Progress.run_quiet Progress.start (Token.lex cs) rfl rfl fun t ht => ⟨hmarks t ht, hquiet t ht⟩
  have hrun : Progress.start.run (Token.lex cs ++ [Token.semicolon])
      = (Progress.start.run (Token.lex cs)).next Token.semicolon := Progress.run_append ..
  rw [hrun, Progress.next_of_open hended, hdone, hcurrent]
  have hlevel : (Progress.start.run (Token.lex cs)).state.level = 0 := hlevel.trans (by rw [hweights]; rfl)
  refine ⟨?_, ?_⟩
  · rw [List.reverse_append, show Progress.start.current = [] from rfl, List.append_nil]
    rfl
  · rw [(Blocks.next_semicolon hbegin).2.2.2, hstack, hlevel, hended]
    rfl

/-- **Nothing is left open behind a statement.** -/
theorem finished_regular : Finished (cs ++ [';']) := by
  have hwhole : isRegular (cs ++ [';']) = true := isRegular_append_mark h.regular (by decide)
  obtain ⟨hstrip, hends⟩ := strip_regular hwhole
  refine ⟨hends, ?_⟩
  rw [hstrip]
  exact .semicolon (Token.lex_regular h.regular).2.2 (run_regular h).2 (List.forall_mem_nil _)

theorem segmentsOf_regular : segmentsOf (cs ++ [';']) = [Token.lex cs ++ [Token.semicolon]] := by
  have hwhole : isRegular (cs ++ [';']) = true := isRegular_append_mark h.regular (by decide)
  have hlex : Token.lex (cs ++ [';']) = Token.lex cs ++ [Token.semicolon] :=
    Token.lex_shut (Token.lex_regular h.regular).2.2 []
  rw [segmentsOf_eq_cut, (strip_regular hwhole).1, hlex, Progress.cut_eq_segments, (run_regular h).1, Progress.segments,
    List.reverse_reverse, List.all_reverse, List.all_append]
  have hink : ([Token.semicolon].all Token.isSpace) = false := rfl
  rw [hink, Bool.and_false]
  rfl

end Script

namespace Statement

/-- A last semicolon does not cut, since nothing follows it. -/
theorem recoverFrom_last {ts : List Token} (hts : ∀ t ∈ ts, t.isMark ';' = false) (n : Nat) (current : List Token) :
    recoverFrom n current (ts ++ [Token.semicolon]) = [current.reverse ++ (ts ++ [Token.semicolon])] := by
  induction ts generalizing n current with
  | nil =>
    rw [List.nil_append, recoverFrom_semicolon, if_neg fun hnext => Bool.false_ne_true hnext.2, recoverFrom,
      List.reverse_cons]
  | cons t ts ih =>
    obtain ⟨ht, hts⟩ := List.forall_mem_cons.1 hts
    have hgo : ∀ n, recoverFrom n (t :: current) (ts ++ [Token.semicolon])
        = [current.reverse ++ t :: (ts ++ [Token.semicolon])] := fun n => by
      rw [ih hts, List.reverse_cons, List.append_assoc, List.singleton_append]
    rw [List.cons_append, recoverFrom, ht, Bool.false_and, Bool.false_and, if_neg Bool.false_ne_true, hgo, hgo, hgo]
    split
    · rfl
    split <;> rfl

/-- **A regular text with a semicolon behind it is a statement.** -/
theorem prepare_regular {cs : List Char} (h : IsStatement cs) {statements : List (List Char)}
    (hstatements : prepare (cs ++ [';']) = .ok statements) : statements = [squeeze cs] := by
  obtain ⟨-, rfl⟩ := prepare_eq_ok.1 hstatements
  obtain ⟨hcounted, -, -⟩ := Token.lex_regular h.regular
  obtain ⟨-, hmarks⟩ := Token.weights_of_isBalanced (hcounted ▸ h.balanced)
  obtain ⟨c, hlast, hblank, hc⟩ := h.last
  have htrimmed : trimmed (Token.lex cs ++ [Token.semicolon]) = trim cs := by
    rw [trimmed, textOf_append, textOf_lex]
    exact trim_dropEnd_trim (by decide) fun hsemicolon => hc (Option.some.inj (hlast.symm.trans hsemicolon))
  have hne : trim cs ≠ [] := by
    obtain ⟨front, rfl⟩ := List.getLast?_eq_some_iff.1 hlast
    intro hnil
    have hink : c ∈ inked (front ++ [c]) := List.mem_filter.2 ⟨by simp, by rw [hblank]; rfl⟩
    rw [← inked_trim, hnil] at hink
    cases hink
  rw [Script.segmentsOf_regular h, List.flatMap_singleton, ofSegment, recoverFrom_last hmarks, List.map_singleton,
    List.reverse_nil, List.nil_append, htrimmed, filter_singleton hne, List.map_singleton, squeeze_trim]

/-! ## Part by part -/

/-- A part of a script in which nothing is left open, and which has these statements, if it is not refused. -/
structure Says (part : List Char) (statements : List (List Char)) : Prop where
  finished : Script.Finished part
  prepared : ∀ found, prepare part = .ok found → found = statements

theorem says_nil : Says [] [] :=
  ⟨⟨rfl, .blank (List.forall_mem_nil _)⟩, fun _ h => (Except.ok.inj h).symm⟩

theorem says_regular {cs : List Char} (h : IsStatement cs) : Says (cs ++ [';']) [squeeze cs] :=
  ⟨Script.finished_regular h, fun _ => prepare_regular h⟩

/-- **A script whose parts stand on lines of their own** has the statements of its parts, in their order. -/
theorem prepare_intercalate {parts : List (List Char × List (List Char))} (h : ∀ p ∈ parts, Says p.1 p.2)
    {statements : List (List Char)} (hstatements : prepare (['\n'].intercalate (parts.map (·.1))) = .ok statements) :
    statements = parts.flatMap (·.2) := by
  induction parts generalizing statements with
  | nil => exact (Except.ok.inj hstatements).symm
  | cons part rest ih =>
    obtain ⟨hpart, hrest⟩ := List.forall_mem_cons.1 h
    rw [List.flatMap_cons]
    cases rest with
    | nil =>
      rw [List.map_singleton, List.intercalate_singleton] at hstatements
      rw [List.flatMap_nil, List.append_nil]
      exact hpart.prepared _ hstatements
    | cons next rest =>
      rw [List.map_cons, List.map_cons, List.intercalate_cons_cons, List.append_assoc,
        List.singleton_append] at hstatements
      obtain ⟨mine, others, hmine, hothers, rfl⟩ := prepare_join hpart.finished hstatements
      rw [hpart.prepared _ hmine, ih hrest hothers]

end Statement
end SchemaSketch
