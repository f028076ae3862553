import SchemaSketch.Proofs.Sql.Shut

/-!
# Two scripts joined by a line end

What are the segments of two scripts when one is written under the other? Those of the first and those of the
second, if the first is *finished*: its last statement is closed by a semicolon, and nothing that began in it
is still open at its end, be it a quote, a comment, a tagged body, a bracket or a block (`segmentsOf_join`).
The readers are followed over the border one by one:

* the one that takes comments out is outside of everything at the end of the first script (`strip_join`);
* the one that cuts a text into tokens sees nothing behind the last semicolon (`lex_join`);
* the one that cuts tokens into segments has ended a segment there.

Blanks behind the last semicolon, and the line end, stand in front of the first segment of the second
script. They change no statement, but they count as tokens.
-/

namespace SchemaSketch

open Text

/-! ## Comments -/

namespace Comment

/-- Whether the tagged body that may open at the front of a text is closed in it. -/
def bodyCloses (cs : List Char) : Bool :=
  match tag cs with
  | some n => (indexOf? (cs.take n) (cs.drop n)).isSome
  | none => true

/-- Whether the reader is outside of quotes, tagged bodies and block comments at the end of a text. -/
def endsOutside (mode : Mode) (before : Option Char) : List Char → Bool
  | [] => mode == .code || mode == .line
  | c :: rest =>
    (mode != .code || !bodyMayOpen before || bodyCloses (c :: rest))
      && endsOutside (step mode before c rest).2 (some c) rest

/-- No mark of a body reaches over a line end. -/
theorem tag_append_newline (cs more : List Char) : tag (cs ++ '\n' :: more) = tag cs := by
  refine Option.ext fun n => ?_
  rw [tag_eq_some, tag_eq_some]
  constructor
  · rintro ⟨w, rest, hsplit, hw, rfl⟩
    rcases List.append_eq_append_iff.1 hsplit with ⟨front, hmark, hrest⟩ | ⟨rest', rfl, -⟩
    · cases front with
      | nil => exact ⟨w, [], by rw [hmark, List.append_nil, List.append_nil], hw, rfl⟩
      | cons d front =>
        obtain ⟨rfl, -⟩ := List.cons.inj hrest
        have hmem : '\n' ∈ mark w := hmark ▸ by simp
        have hword := isWord_of_isTagName hw '\n'
        simp only [mark, List.mem_cons, List.mem_append, List.not_mem_nil, or_false] at hmem
        rcases hmem with h | h | h
        · cases h
        · exact absurd (hword h) (by decide)
        · cases h
    · exact ⟨w, rest', rfl, hw, rfl⟩
  · rintro ⟨w, rest, rfl, hw, rfl⟩
    exact ⟨w, rest ++ '\n' :: more, by rw [List.append_assoc], hw, rfl⟩

/-- A body that is closed ends where it did before a line end. -/
theorem bodyLength?_append_newline {cs : List Char} (h : bodyCloses cs = true) (more : List Char) :
    bodyLength? (cs ++ '\n' :: more) = bodyLength? cs := by
  rw [bodyLength?, bodyLength?, tag_append_newline]
  cases hn : tag cs with
  | none => rfl
  | some n =>
    obtain ⟨w, rest, rfl, -, rfl⟩ := tag_eq_some.1 hn
    rw [bodyCloses, hn] at h
    dsimp only at h
    rw [List.take_left, List.drop_left] at h
    rw [Option.map_some, Option.map_some, List.append_assoc, List.take_left, List.drop_left,
      List.take_left, List.drop_left, Token.indexOf?_append_of_isSome h]
    obtain ⟨found, hfound⟩ := Option.isSome_iff_exists.1 h
    rw [hfound]

/-- A line end behind a text is the second half of no mark. -/
theorem step_append_newline {mode : Mode} {before : Option Char} {c : Char} {rest : List Char}
    (hbody : (mode != .code || !bodyMayOpen before || bodyCloses (c :: rest)) = true) (more : List Char) :
    step mode before c (rest ++ '\n' :: more) = step mode before c rest := by
  have hhead : ∀ x, x ≠ '\n' → ((rest ++ '\n' :: more).head? == some x) = (rest.head? == some x) := by
    intro x hx
    cases rest with
    | nil =>
      rw [Bool.eq_iff_iff, beq_iff_eq, beq_iff_eq]
      exact ⟨fun h => absurd (Option.some.inj h).symm hx, fun h => by cases h⟩
    | cons d rest => rfl
  cases mode with
  | code =>
    rw [step, step, hhead '-' (by decide), hhead '*' (by decide)]
    by_cases hopen : bodyMayOpen before = true
    · have hcloses : bodyCloses (c :: rest) = true := by simpa [hopen] using hbody
      have hlength : bodyLength? (c :: (rest ++ '\n' :: more)) = bodyLength? (c :: rest) :=
        bodyLength?_append_newline hcloses more
      rw [hlength]
    · rw [Bool.eq_false_iff.2 hopen, Bool.and_false, if_neg Bool.false_ne_true, if_neg Bool.false_ne_true]
  | line => rfl
  | block outer =>
    rw [step.eq_def, step.eq_def]
    dsimp only
    rw [hhead '*' (by decide), hhead '/' (by decide)]
  | quote mark => rw [step, step, hhead '\'' (by decide)]
  | body left => cases left <;> rfl
  | drop next => rfl
  | keep next => rfl

/-- Outside of quotes and comments only one thing counts of the character before. -/
theorem stripFrom_congr {before before' : Option Char} (h : bodyMayOpen before = bodyMayOpen before')
    (cs : List Char) : stripFrom .code before cs = stripFrom .code before' cs := by
  cases cs with
  | nil => rfl
  | cons c rest =>
    have hstep : step .code before c rest = step .code before' c rest := by rw [step, step, h]
    rw [stripFrom, stripFrom, hstep]

theorem stripFrom_join {mode : Mode} {before : Option Char} {cs : List Char}
    (h : endsOutside mode before cs = true) (more : List Char) :
    stripFrom mode before (cs ++ '\n' :: more) = stripFrom mode before cs ++ '\n' :: strip more := by
  induction cs generalizing mode before with
  | nil =>
    have hmore : stripFrom .code (some '\n') more = strip more :=
      stripFrom_congr (by decide : bodyMayOpen (some '\n') = bodyMayOpen none) more
    rw [endsOutside, Bool.or_eq_true, beq_iff_eq, beq_iff_eq] at h
    rcases h with rfl | rfl
    all_goals
      rw [List.nil_append, stripFrom, ← hmore]
      rfl
  | cons c rest ih =>
    rw [endsOutside, Bool.and_eq_true] at h
    rw [List.cons_append, stripFrom, stripFrom, step_append_newline h.1, List.append_assoc]
    exact congrArg _ (ih h.2)

/-- **The comments of two scripts** are taken out of each by itself. -/
theorem strip_join {script : List Char} (h : endsOutside .code none script = true) (more : List Char) :
    strip (script ++ '\n' :: more) = strip script ++ '\n' :: strip more := stripFrom_join h more

end Comment

/-! ## White space -/

namespace Token

open Statement Pattern

/-- A character that ends a line. -/
def endsLine (c : Char) : Bool := c == '\r' || c == '\n'

theorem lineEnd_isSome (c : Char) (cs : List Char) : (lineEnd (c :: cs)).isSome = endsLine c := by
  have hcr : char '\r' (c :: cs) = if c == '\r' then some 1 else none := rfl
  have hlf : char '\n' (c :: cs) = if c == '\n' then some 1 else none := rfl
  change (Pattern.orElse (exactly ['\r', '\n']) (Pattern.orElse (char '\r') (char '\n')) (c :: cs)).isSome = _
  rw [Pattern.orElse, Pattern.orElse, hcr, hlf, endsLine]
  cases hpair : exactly ['\r', '\n'] (c :: cs) with
  | none => cases (c == '\r') <;> cases (c == '\n') <;> rfl
  | some n =>
    obtain rfl : c = '\r' := Option.some.inj (heads_of_exactly hpair).1
    rfl

/-- Blanks that end no line are one token each. -/
theorem lexAfter_blanks {blanks : List Char} (h : ∀ c ∈ blanks, isBlank c = true ∧ endsLine c = false)
    (before : Option Char) (cs : List Char) :
    lexAfter before (blanks ++ cs)
      = blanks.map (⟨.blank, [·]⟩) ++ lexAfter (blanks.getLast?.or before) cs := by
  induction blanks generalizing before with
  | nil => rfl
  | cons c rest ih =>
    obtain ⟨⟨hblank, hline⟩, hrest⟩ := List.forall_mem_cons.1 h
    have hsome := lineEnd_isSome c (rest ++ cs)
    rcases first_blank hblank before (rest ++ cs) with ⟨n, -, hn⟩ | ⟨hfirst, -⟩
    · rw [hn, hline] at hsome
      cases hsome
    · rw [List.cons_append, lexAfter_cons, hfirst]
      dsimp only
      rw [Nat.sub_self, List.take_zero, List.drop_zero, ih hrest]
      cases rest with
      | nil => rfl
      | cons d rest => simp [List.getLast?_cons]

/-- At the end of a line stands a token that begins a new segment. -/
theorem head?_lexAfter {before : Option Char} {c : Char} {cs : List Char} (hc : endsLine c = true) {t : Token}
    (h : (lexAfter before (c :: cs)).head? = some t) : Script.trails t = false := by
  have hblank : isBlank c = true := by
    rw [endsLine, Bool.or_eq_true, beq_iff_eq, beq_iff_eq] at hc
    rcases hc with rfl | rfl <;> decide
  have hsome := lineEnd_isSome c cs
  rw [hc] at hsome
  rcases first_blank hblank before cs with ⟨n, hfirst, -⟩ | ⟨-, hnone⟩
  · rw [lexAfter_cons, hfirst] at h
    obtain rfl := Option.some.inj h
    rfl
  · rw [hnone] at hsome
    cases hsome

/-- A token of white space ends before blanks do of which the last is a line end. -/
theorem first_white {c : Char} (hc : isBlank c = true) {white : List Char}
    (hlast : (c :: white).getLast? = some '\n') (before : Option Char) (cs : List Char) :
    ∃ kind n, first before (c :: (white ++ cs)) = (kind, n) ∧ (kind = .blank ∨ kind = .newline) ∧
      0 < n ∧ n ≤ white.length + 1 := by
  rcases first_blank hc before (white ++ cs) with ⟨n, hfirst, hn⟩ | ⟨hfirst, -⟩
  · refine ⟨_, n, hfirst, .inr rfl, (isBlank_of_lineEnd hn).1, ?_⟩
    rcases eq_some_of_orElse hn with hpair | hone
    · obtain ⟨m, k, hm, hk, rfl⟩ := andThen_eq_some.1 hpair
      obtain ⟨hcr, rfl⟩ := char_eq_some.1 hm
      obtain rfl : c = '\r' := Option.some.inj hcr
      obtain ⟨i, j, hi, hj, rfl⟩ := andThen_eq_some.1 hk
      obtain ⟨-, rfl⟩ := char_eq_some.1 hi
      cases hj
      cases white with
      | nil => cases hlast
      | cons d white => exact Nat.le_add_left ..
    · rcases eq_some_of_orElse hone with h | h
      all_goals
        obtain ⟨-, rfl⟩ := char_eq_some.1 h
        exact Nat.le_add_left ..
  · exact ⟨_, 1, hfirst, .inl rfl, Nat.one_pos, Nat.le_add_left ..⟩

/-- Blanks of which the last is a line end. -/
theorem lexAfter_lines {white : List Char} (hwhite : Blank white) {before : Option Char}
    (hend : white.getLast?.or before = some '\n') (cs : List Char) :
    ∃ spaces, lexAfter before (white ++ cs) = spaces ++ lex cs ∧ Spaces spaces ∧
      spaces.length ≤ white.length := by
  induction hlength : white.length using Nat.strongRecOn generalizing before white with
  | _ length ih =>
    cases white with
    | nil =>
      obtain rfl : before = some '\n' := hend
      exact ⟨[], lexAfter_newline cs, fun t ht => absurd ht List.not_mem_nil, Nat.zero_le _⟩
    | cons c white =>
      rw [List.length_cons] at hlength
      have hlast : (c :: white).getLast? = some '\n' := by simpa [List.getLast?_cons] using hend
      obtain ⟨kind, n, hfirst, hkind, hpos, hn⟩ :=
        first_white (hwhite c (List.mem_cons_self ..)) hlast before cs
      have htake : n - 1 ≤ white.length := by omega
      rw [List.cons_append, lexAfter_cons, hfirst]
      dsimp only
      rw [List.take_append_of_le_length htake, List.drop_append_of_le_length htake]
      have hsplit : c :: white.take (n - 1) ++ white.drop (n - 1) = c :: white :=
        congrArg (c :: ·) (List.take_append_drop ..)
      obtain ⟨spaces, hspaces, hall, hle⟩ := @ih (white.drop (n - 1)).length
        (by rw [List.length_drop]; omega) (white.drop (n - 1))
        (fun x hx => hwhite x (List.mem_cons_of_mem _ (List.mem_of_mem_drop hx)))
        (c :: white.take (n - 1)).getLast? (by
          rw [← List.getLast?_append, hsplit]
          exact hlast) rfl
      refine ⟨⟨kind, c :: white.take (n - 1)⟩ :: spaces, ?_, ?_, ?_⟩
      · rw [hspaces]
        rfl
      · refine List.forall_mem_cons.2 ⟨⟨?_, fun x hx => ?_⟩, hall⟩
        · rcases hkind with rfl | rfl <;> rfl
        · refine hwhite x ?_
          rw [← hsplit]
          exact List.mem_append_left _ hx
      · rw [List.length_drop] at hle
        rw [List.length_cons]
        omega

/-- **Blanks and a line end** are white space by themselves, whatever stands behind them. -/
theorem lexAfter_white {white : List Char} (hwhite : Blank white) (before : Option Char) (cs : List Char) :
    ∃ spaces, lexAfter before (white ++ '\n' :: cs) = spaces ++ lex cs ∧ Spaces spaces ∧
      spaces.length ≤ white.length + 1 := by
  have hlines : Blank (white ++ ['\n']) := by
    intro c hc
    rcases List.mem_append.1 hc with hc | hc
    · exact hwhite c hc
    · rw [List.mem_singleton.1 hc]
      decide
  obtain ⟨spaces, hlex, hspaces, hle⟩ := @lexAfter_lines _ hlines before (by simp) cs
  rw [List.append_assoc] at hlex
  exact ⟨spaces, hlex, hspaces, by simpa using hle⟩

end Token

/-! ## Segments -/

theorem Blocks.next_of_isSpace (s : Blocks) {t : Token} (ht : t.isSpace = true) : s.next t = s := by
  have hshifted : s.shifted t = s := by
    rw [Token.isSpace, Bool.or_eq_true, beq_iff_eq, beq_iff_eq] at ht
    rw [shifted]
    rcases ht with hkind | hkind <;> rw [hkind]
  rw [next, hshifted, Statement.isMark_of_isSpace ht, if_neg Bool.false_ne_true,
    endsBatch_of_isQuiet (Statement.isQuiet_of_isSpace ht), if_neg Bool.false_ne_true, ht]
  rfl

namespace Script

open Statement

/-- Segments of which the first one has more in front. -/
def indent (front : List Token) : List (List Token) → List (List Token)
  | [] => []
  | segment :: rest => (front ++ segment) :: rest

theorem cutFrom_indent {spaces : List Token} (hspaces : Spaces spaces) (s : Blocks)
    (current ts : List Token) :
    cutFrom s (current ++ spaces.reverse) ts = indent spaces (cutFrom s current ts) := by
  induction ts generalizing s current with
  | nil =>
    have hall : spaces.reverse.all Token.isSpace = true :=
      List.all_eq_true.2 fun t ht => (hspaces t (List.mem_reverse.1 ht)).1
    rw [cutFrom, cutFrom, List.all_append, hall, Bool.and_true]
    split
    · rfl
    · rw [List.reverse_append, List.reverse_reverse]
      rfl
  | cons t rest ih =>
    rw [cutFrom, cutFrom]
    split
    · rw [List.reverse_append, List.reverse_reverse]
      rfl
    · exact ih (s.next t) (t :: current)

/-- White space in front stands in the first segment. -/
theorem cut_indent {spaces : List Token} (hspaces : Spaces spaces) (ts : List Token) :
    cut (spaces ++ ts) = indent spaces (cut ts) := by
  have hread : ∀ current, cutFrom {} current (spaces ++ ts) = cutFrom {} (spaces.reverse ++ current) ts := by
    induction spaces with
    | nil => exact fun _ => rfl
    | cons t spaces ih =>
      obtain ⟨ht, hspaces⟩ := List.forall_mem_cons.1 hspaces
      intro current
      have hstep : cutFrom {} current (t :: (spaces ++ ts)) = cutFrom (Blocks.next {} t) (t :: current)
          (spaces ++ ts) := rfl
      rw [List.cons_append, hstep, Blocks.next_of_isSpace {} ht.1, ih hspaces, List.reverse_cons,
        List.append_assoc]
      rfl
  rw [cut, hread, List.append_nil]
  exact cutFrom_indent hspaces {} [] ts

/-- What is read after the end of a segment that is no white space makes segments by itself. -/
theorem Progress.segments_run_fresh {p : Progress} (hp : p.state.ended = true)
    (hcurrent : p.current.all Token.isSpace = false) {ts : List Token}
    (hts : ∀ t, ts.head? = some t → trails t = false) :
    (p.run ts).segments = p.done ++ [p.current.reverse] ++ cut ts := by
  cases ts with
  | nil =>
    have hrun : (p.run []).segments
        = p.done ++ if p.current.all Token.isSpace then [] else [p.current.reverse] := rfl
    rw [hrun, hcurrent, if_neg Bool.false_ne_true]
    exact (List.append_nil _).symm
  | cons t rest =>
    rw [run_fresh hp (hts t rfl), segments_run]
    rfl

/-! ## Finished scripts -/

/-- A text without comments that ends with a statement, and in which nothing is left open. -/
inductive Ends : List Char → Prop where
  /-- there is no statement -/
  | blank {text : List Char} (h : Blank text) : Ends text
  /-- the last statement is closed by a semicolon, which ends its segment -/
  | semicolon {text white : List Char} (hshut : Token.isShut (Token.lex text) = true)
      (hended : (Progress.start.run (Token.lex text ++ [Token.semicolon])).state.ended = true)
      (hwhite : Blank white) : Ends (text ++ ';' :: white)

/-- A script that ends with a statement, and in which nothing is left open. -/
structure Finished (script : List Char) : Prop where
  /-- the reader that takes comments out is outside of everything at the end -/
  outside : Comment.endsOutside .code none script = true
  /-- so are those that come after it -/
  ends : Ends (Comment.strip script)

/-- After the last semicolon of a finished text, blanks up to the end of the line belong to the segment that
has ended, and what is behind them makes segments by itself. -/
theorem cut_semicolon {text : List Char} (hshut : Token.isShut (Token.lex text) = true)
    (hended : (Progress.start.run (Token.lex text ++ [Token.semicolon])).state.ended = true)
    {blanks : List Char} (hblanks : ∀ c ∈ blanks, isBlank c = true ∧ Token.endsLine c = false) :
    ∃ segments, ∀ rest, (∀ c, rest.head? = some c → Token.endsLine c = true) →
      cut (Token.lex (text ++ ';' :: (blanks ++ rest)))
        = segments ++ cut (Token.lexAfter blanks.getLast? rest) := by
  obtain ⟨p, hrun, hp, hink⟩ : ∃ p, Progress.start.run (Token.lex text ++ [Token.semicolon]
      ++ blanks.map (⟨.blank, [·]⟩)) = p ∧ p.state.ended = true ∧ p.current.all Token.isSpace = false := by
    have htrails : ∀ t ∈ blanks.map (⟨.blank, [·]⟩), trails t = true := by
      intro t ht
      obtain ⟨c, -, rfl⟩ := List.mem_map.1 ht
      rfl
    -- the semicolon is in the segment that it ends
    have hsemicolon : ∀ p : Progress, (p.next Token.semicolon).current.all Token.isSpace = false := by
      intro p
      rw [Progress.next]
      split <;> rfl
    have hink :
        (Progress.start.run (Token.lex text ++ [Token.semicolon])).current.all Token.isSpace = false := by
      rw [Progress.run_append]
      exact hsemicolon _
    obtain ⟨-, hcurrent, hended'⟩ := Progress.run_trailing hended htrails
    refine ⟨_, Progress.run_append .., hended', ?_⟩
    rw [hcurrent, List.all_append, hink, Bool.and_false]
  refine ⟨p.done ++ [p.current.reverse], fun rest hrest => ?_⟩
  have hlex : Token.lex (text ++ ';' :: (blanks ++ rest))
      = Token.lex text ++ [Token.semicolon] ++ blanks.map (⟨.blank, [·]⟩)
        ++ Token.lexAfter blanks.getLast? rest := by
    have hbehind := Token.lexAfter_blanks hblanks none rest
    rw [Option.or_none] at hbehind
    rw [Token.lex_shut hshut, List.append_assoc, List.append_assoc, ← hbehind]
    rfl
  rw [hlex, Progress.cut_eq_segments, Progress.run_append, hrun]
  refine Progress.segments_run_fresh hp hink fun t ht => ?_
  cases rest with
  | nil => cases ht
  | cons c rest => exact Token.head?_lexAfter (hrest c rfl) ht

/-- **The segments of two texts** without comments, if the first is finished. -/
theorem cut_join {text : List Char} (h : Ends text) (more : List Char) :
    ∃ spaces, Spaces spaces ∧ spaces.length ≤ text.length + 1 ∧
      cut (Token.lex (text ++ '\n' :: more))
        = cut (Token.lex text) ++ indent spaces (cut (Token.lex more)) := by
  cases h with
  | blank hblank =>
    obtain ⟨spaces, hlex, hspaces, hle⟩ := Token.lexAfter_white hblank none more
    refine ⟨spaces, hspaces, hle, ?_⟩
    rw [cut_of_blank hblank, List.nil_append, ← cut_indent hspaces]
    exact congrArg cut hlex
  | @semicolon text white hshut hended hwhite =>
    obtain ⟨blanks, lines, rfl, hline, hlines⟩ : ∃ blanks lines, white = blanks ++ lines ∧
        (∀ c ∈ blanks, Token.endsLine c = false) ∧ ∀ c, lines.head? = some c → Token.endsLine c = true := by
      refine ⟨white.takeWhile (! Token.endsLine ·), white.dropWhile (! Token.endsLine ·),
        List.takeWhile_append_dropWhile.symm, fun c hc => ?_, fun c hc => ?_⟩
      · simpa using List.all_eq_true.1 List.all_takeWhile c hc
      · have hfirst := List.head?_dropWhile_not (! Token.endsLine ·) white
        rw [hc] at hfirst
        simpa using hfirst
    have hblank : Blank lines := fun c hc => hwhite c (List.mem_append_right _ hc)
    obtain ⟨segments, hsegments⟩ := @cut_semicolon text hshut hended blanks fun c hc =>
      ⟨hwhite c (List.mem_append_left _ hc), hline c hc⟩
    obtain ⟨spaces, hlex, hspaces, hle⟩ := Token.lexAfter_white hblank blanks.getLast? more
    refine ⟨spaces, hspaces, ?_, ?_⟩
    · simp only [List.length_append, List.length_cons]
      omega
    · have halone : cut (Token.lex (text ++ ';' :: (blanks ++ lines))) = segments := by
        have hnone : cut (Token.lexAfter blanks.getLast? lines) = [] :=
          cutFrom_of_spaces (spaces_lexAfter hblank _) rfl rfl
        rw [hsegments lines hlines, hnone, List.append_nil]
      have hjoined := hsegments (lines ++ '\n' :: more) (by
        cases lines with
        | nil => exact fun c hc => (Option.some.inj hc) ▸ rfl
        | cons d lines => exact hlines)
      rw [halone, ← cut_indent hspaces, ← hlex, ← hjoined, List.append_assoc, List.cons_append,
        List.append_assoc]

theorem segmentsOf_eq_cut (script : List Char) :
    segmentsOf script = cut (Token.lex (Comment.strip script)) := by
  rw [segmentsOf]
  split
  · next hblank =>
    have hblank : Blank script := List.all_eq_true.1 hblank
    rw [strip_of_blank hblank, cut_of_blank hblank]
  · rfl

/-- **The segments of two scripts**, if the first is finished. -/
theorem segmentsOf_join {first : List Char} (h : Finished first) (second : List Char) :
    ∃ spaces, Spaces spaces ∧ spaces.length ≤ (Comment.strip first).length + 1 ∧
      segmentsOf (first ++ '\n' :: second) = segmentsOf first ++ indent spaces (segmentsOf second) := by
  rw [segmentsOf_eq_cut, segmentsOf_eq_cut, segmentsOf_eq_cut, Comment.strip_join h.outside]
  exact cut_join h.ends _

/-! ## Limits -/

theorem nesting_spaces_append {spaces : List Token} (h : Spaces spaces) (ts : List Token) :
    nesting (spaces ++ ts) = nesting ts := by
  have hread : ∀ pending highest,
      nestingFrom pending highest (spaces ++ ts) = nestingFrom pending highest ts := by
    induction spaces with
    | nil => exact fun _ _ => rfl
    | cons t spaces ih =>
      obtain ⟨ht, hspaces⟩ := List.forall_mem_cons.1 h
      intro pending highest
      rw [List.cons_append, nestingFrom.eq_def]
      dsimp only
      rw [isMark_of_isSpace ht.1, isMark_of_isSpace ht.1]
      exact ih hspaces pending highest
  exact hread [] 0

/-- White space in front counts as tokens and no more. -/
theorem fits_spaces_append {spaces : List Token} (h : Spaces spaces) (segment : List Token) :
    Fits (spaces ++ segment) ↔ spaces.length + segment.length ≤ maxTokens ∧ nesting segment ≤ maxDepth := by
  rw [← nesting_spaces_append h segment, ← List.length_append]
  exact ⟨fun hfits => ⟨hfits.length_le, hfits.nesting_le⟩, fun hfits => ⟨hfits.1, hfits.2⟩⟩

/-- Segments that are not too much are not so without the white space in front. -/
theorem fits_of_indent {spaces : List Token} (h : Spaces spaces) {segments : List (List Token)}
    (hfits : ∀ segment ∈ indent spaces segments, Fits segment) : ∀ segment ∈ segments, Fits segment := by
  cases segments with
  | nil => exact fun _ hsegment => absurd hsegment List.not_mem_nil
  | cons segment rest =>
    obtain ⟨hfirst, hrest⟩ := List.forall_mem_cons.1 hfits
    obtain ⟨hlength, hnesting⟩ := (fits_spaces_append h segment).1 hfirst
    exact List.forall_mem_cons.2 ⟨⟨by omega, hnesting⟩, hrest⟩

/-- Nor are they with it, if there is room for it. -/
theorem fits_indent {spaces : List Token} (h : Spaces spaces) {segments : List (List Token)}
    (hroom : ∀ segment ∈ segments, spaces.length + segment.length ≤ maxTokens)
    (hfits : ∀ segment ∈ segments, Fits segment) : ∀ segment ∈ indent spaces segments, Fits segment := by
  cases segments with
  | nil => exact fun _ hsegment => absurd hsegment List.not_mem_nil
  | cons segment rest =>
    obtain ⟨hfirst, hrest⟩ := List.forall_mem_cons.1 hfits
    have hsegment := hroom segment (List.mem_cons_self ..)
    exact List.forall_mem_cons.2 ⟨(fits_spaces_append h segment).2 ⟨hsegment, hfirst.nesting_le⟩, hrest⟩

end Script

/-! ## Statements -/

namespace Statement

open Script

theorem map_recoverFrom_spaces {spaces : List Token} (h : Spaces spaces) (n : Nat)
    (current ts : List Token) :
    (recoverFrom n (current ++ spaces.reverse) ts).map trimmed = (recoverFrom n current ts).map trimmed := by
  have htrimmed : ∀ current : List Token,
      trimmed (current ++ spaces.reverse).reverse = trimmed current.reverse := by
    intro current
    rw [List.reverse_append, List.reverse_reverse, trimmed, trimmed, textOf_append,
      trim_blank_append (blank_textOf h)]
  induction ts generalizing n current with
  | nil => rw [recoverFrom, recoverFrom, List.map_singleton, List.map_singleton, htrimmed]
  | cons t ts ih =>
    rw [recoverFrom, recoverFrom]
    split
    · exact ih _ (t :: current)
    split
    · exact ih _ (t :: current)
    split
    · rw [List.map_cons, List.map_cons, htrimmed]
    · exact ih _ (t :: current)

/-- White space before a segment changes none of its statements. -/
theorem ofSegment_spaces_append {spaces : List Token} (h : Spaces spaces) (ts : List Token) :
    ofSegment (spaces ++ ts) = ofSegment ts := by
  have hread : ∀ current,
      recoverFrom 0 current (spaces ++ ts) = recoverFrom 0 (spaces.reverse ++ current) ts := by
    induction spaces with
    | nil => exact fun _ => rfl
    | cons t spaces ih =>
      obtain ⟨ht, hspaces⟩ := List.forall_mem_cons.1 h
      intro current
      rw [List.cons_append, recoverFrom, isMark_of_isSpace ht.1, isMark_of_isSpace ht.1,
        isMark_of_isSpace ht.1, List.reverse_cons, List.append_assoc]
      exact ih hspaces (t :: current)
  rw [ofSegment, ofSegment, hread, List.append_nil]
  exact congrArg _ (map_recoverFrom_spaces h 0 [] ts)

theorem flatMap_indent {spaces : List Token} (h : Spaces spaces) (segments : List (List Token)) :
    (indent spaces segments).flatMap ofSegment = segments.flatMap ofSegment := by
  cases segments with
  | nil => rfl
  | cons segment rest => rw [indent, List.flatMap_cons, List.flatMap_cons, ofSegment_spaces_append h]

/-- **The statements of two scripts** are those of the first and those of the second, if the first is
finished. -/
theorem prepare_join {first : List Char} (h : Finished first) {second : List Char}
    {statements : List (List Char)} (hstatements : prepare (first ++ '\n' :: second) = .ok statements) :
    ∃ mine others, prepare first = .ok mine ∧ prepare second = .ok others ∧ statements = mine ++ others := by
  obtain ⟨spaces, hspaces, -, hjoin⟩ := segmentsOf_join h second
  obtain ⟨hfits, rfl⟩ := prepare_eq_ok.1 hstatements
  rw [hjoin] at hfits ⊢
  obtain ⟨hfirst, hsecond⟩ := List.forall_mem_append.1 hfits
  refine ⟨_, _, prepare_eq_ok.2 ⟨hfirst, rfl⟩, prepare_eq_ok.2 ⟨fits_of_indent hspaces hsecond, rfl⟩, ?_⟩
  rw [List.flatMap_append, List.map_append, flatMap_indent hspaces]

/-- They are not refused, if each is not and there is room for the blanks between them. -/
theorem prepare_join_eq_ok {first : List Char} (h : Finished first) {second : List Char}
    (hroom : ∀ segment ∈ segmentsOf second, segment.length + (Comment.strip first).length < maxTokens)
    {mine others : List (List Char)} (hmine : prepare first = .ok mine)
    (hothers : prepare second = .ok others) :
    prepare (first ++ '\n' :: second) = .ok (mine ++ others) := by
  obtain ⟨spaces, hspaces, hlength, hjoin⟩ := segmentsOf_join h second
  obtain ⟨hfirst, rfl⟩ := prepare_eq_ok.1 hmine
  obtain ⟨hsecond, rfl⟩ := prepare_eq_ok.1 hothers
  refine prepare_eq_ok.2 ⟨?_, ?_⟩
  · rw [hjoin]
    refine List.forall_mem_append.2 ⟨hfirst, fits_indent hspaces (fun segment hsegment => ?_) hsecond⟩
    have := hroom segment hsegment
    omega
  · rw [hjoin, List.flatMap_append, List.map_append, flatMap_indent hspaces]

end Statement
end SchemaSketch
