import SchemaSketch.Import.Report
import SchemaSketch.Proofs.Sql.Body
import SchemaSketch.Proofs.Sql.Depth
import SchemaSketch.Proofs.Sql.Limits

/-!
# Comments are taken out once and for all

A text without its comments is read as the text was read with them. `reading` tells what the reader takes
a text for: the characters that are kept, each with the mode in which it leaves a reader to whom the
comments are not shown. The stripped text has the same reading (`reading_strip`), so

* no character of it is dropped: taking the comments out twice is taking them out once;
* where a comment was, nothing new begins: neither a comment, nor a quote, nor a tagged body.

The proof follows the two readers side by side (`Follows`). They can only part where the reader of the text
looks ahead, and there a comment has left a space, the end of its line, or nothing behind it: none of these
is the second half of a mark.
-/

namespace SchemaSketch

open Text

namespace Comment

/-! ## What a text is read as -/

/-- The mode of a reader to whom the comments are not shown. -/
def Mode.outside : Mode → Mode
  | .code => .code
  | .line => .code
  | .block _ => .code
  | .quote mark => .quote mark
  | .body left => .body left
  | .drop next => next.outside
  | .keep next => .keep next.outside

/-- The characters that are kept of a text, each with the mode that it leads to, comments aside. -/
def readFrom (mode : Mode) (before : Option Char) : List Char → List (Char × Mode)
  | [] => []
  | c :: rest =>
    let (written, next) := step mode before c rest
    written.map (·, next.outside) ++ readFrom next (some c) rest

/-- What the reader takes a text for. -/
def reading (cs : List Char) : List (Char × Mode) := readFrom .code none cs

theorem Mode.outside_outside (mode : Mode) : mode.outside.outside = mode.outside := by
  induction mode with
  | code | line | block _ | quote _ | body _ => rfl
  | drop next ih => exact ih
  | keep next ih => exact congrArg Mode.keep ih

/-- The characters of the reading are what is written. -/
theorem map_readFrom (mode : Mode) (before : Option Char) (cs : List Char) :
    (readFrom mode before cs).map Prod.fst = stripFrom mode before cs := by
  induction cs generalizing mode before with
  | nil => rfl
  | cons c rest ih =>
    rw [readFrom, stripFrom, List.map_append, List.map_map, ih]
    exact congrArg (· ++ _) (List.map_id _)

/-- A character that is kept. -/
theorem stripFrom_kept {mode next : Mode} {before : Option Char} {c d : Char} {rest : List Char}
    (h : step mode before c rest = ([d], next)) :
    stripFrom mode before (c :: rest) = d :: stripFrom next (some c) rest := by
  rw [stripFrom, h]
  rfl

/-- A character that is dropped. -/
theorem stripFrom_dropped {mode next : Mode} {before : Option Char} {c : Char} {rest : List Char}
    (h : step mode before c rest = ([], next)) :
    stripFrom mode before (c :: rest) = stripFrom next (some c) rest := by
  rw [stripFrom, h]
  rfl

/-! ## What begins at a character -/

/-- A mark of quoted text. -/
def isQuote (c : Char) : Bool := c == '\'' || c == '"' || c == '`'

/-- Neither a quote nor a tagged body nor a comment begins at a character of a text. -/
structure Inert (before : Option Char) (c : Char) (rest : List Char) : Prop where
  /-- it is no quote -/
  quote : isQuote c = false
  /-- it opens no tagged body -/
  body : c = '$' → bodyMayOpen before = true → tag (c :: rest) = none
  /-- it opens no comment up to the end of the line -/
  line : c = '-' → rest.head? ≠ some '-'
  /-- it opens no block comment -/
  block : c = '/' → rest.head? ≠ some '*'

/-- What begins at a character outside of quotes and comments. -/
theorem step_code_cases (before : Option Char) (c : Char) (rest : List Char) :
    (isQuote c = true ∧ step .code before c rest = ([c], .quote c)) ∨
    (c = '$' ∧ bodyMayOpen before = true ∧ ∃ n, bodyLength? (c :: rest) = some (n + 2) ∧
      step .code before c rest = ([c], .body n)) ∨
    (c = '-' ∧ rest.head? = some '-' ∧ step .code before c rest = ([], .drop .line)) ∨
    (c = '/' ∧ rest.head? = some '*' ∧ step .code before c rest = ([], .drop (.block 0))) ∨
    (Inert before c rest ∧ step .code before c rest = ([c], .code)) := by
  by_cases hquote : isQuote c = true
  · exact .inl ⟨hquote, if_pos hquote⟩
  have hquote' : ¬ (c == '\'' || c == '"' || c == '`') = true := hquote
  have hnone := Bool.eq_false_iff.2 hquote
  rw [step, if_neg hquote']
  by_cases hdollar : (c == '$' && bodyMayOpen before) = true
  · obtain ⟨rfl, hbefore⟩ : c = '$' ∧ bodyMayOpen before = true := by simpa using hdollar
    rw [if_pos hdollar]
    cases hlength : bodyLength? ('$' :: rest) with
    | none =>
      have htag : tag ('$' :: rest) = none := by
        rw [bodyLength?] at hlength
        exact Option.map_eq_none_iff.1 hlength
      refine .inr (.inr (.inr (.inr ⟨⟨hnone, fun _ _ => htag, ?_, ?_⟩, rfl⟩)))
      · exact fun h => absurd h (by decide)
      · exact fun h => absurd h (by decide)
    | some n =>
      -- a body is at least as long as its mark
      obtain ⟨w, more, hw, hname⟩ := exists_of_bodyLength? hlength
      have hlong : 2 ≤ n := by
        rw [hw, bodyLength?_mark hname] at hlength
        have hmark := length_mark w
        cases hindex : indexOf? (mark w) more with
        | none =>
          rw [hindex, Option.elim_none, List.length_append] at hlength
          have := Option.some.inj hlength
          omega
        | some found =>
          rw [hindex, Option.elim_some] at hlength
          have := Option.some.inj hlength
          omega
      obtain ⟨m, rfl⟩ := Nat.exists_eq_add_of_le' hlong
      exact .inr (.inl ⟨rfl, hbefore, m, rfl, rfl⟩)
  rw [if_neg hdollar]
  by_cases hline : (c == '-' && rest.head? == some '-') = true
  · rw [if_pos hline]
    rw [Bool.and_eq_true, beq_iff_eq, beq_iff_eq] at hline
    exact .inr (.inr (.inl ⟨hline.1, hline.2, rfl⟩))
  rw [if_neg hline]
  by_cases hblock : (c == '/' && rest.head? == some '*') = true
  · rw [if_pos hblock]
    rw [Bool.and_eq_true, beq_iff_eq, beq_iff_eq] at hblock
    exact .inr (.inr (.inr (.inl ⟨hblock.1, hblock.2, rfl⟩)))
  rw [if_neg hblock]
  refine .inr (.inr (.inr (.inr ⟨⟨hnone, ?_, ?_, ?_⟩, rfl⟩)))
  · rintro rfl hbefore
    exact absurd hbefore (by simpa using hdollar)
  · rintro rfl hhead
    exact hline (by rw [hhead]; rfl)
  · rintro rfl hhead
    exact hblock (by rw [hhead]; rfl)

theorem step_of_inert {before : Option Char} {c : Char} {rest : List Char} (h : Inert before c rest) :
    step .code before c rest = ([c], .code) := by
  have hquote : ¬ (c == '\'' || c == '"' || c == '`') = true := Bool.eq_false_iff.1 h.quote
  have hline : ¬ (c == '-' && rest.head? == some '-') = true := by
    rw [Bool.and_eq_true, beq_iff_eq, beq_iff_eq]
    exact fun hmark => h.line hmark.1 hmark.2
  have hblock : ¬ (c == '/' && rest.head? == some '*') = true := by
    rw [Bool.and_eq_true, beq_iff_eq, beq_iff_eq]
    exact fun hmark => h.block hmark.1 hmark.2
  rw [step, if_neg hquote, if_neg hline, if_neg hblock]
  split
  · next hdollar =>
    rw [Bool.and_eq_true, beq_iff_eq] at hdollar
    rw [bodyLength?, h.body hdollar.1 hdollar.2]
    rfl
  · rfl

/-! ## What a comment leaves behind -/

/-- A mode inside a comment. -/
def Mode.inComment : Mode → Bool
  | .line | .block _ => true
  | .drop next => next.inComment
  | .code | .quote _ | .body _ | .keep _ => false

/-- Of a comment the end of its line is left, or a space in place of its end. -/
theorem step_inComment {mode : Mode} (hmode : mode.inComment = true) (before : Option Char) (c : Char)
    (rest : List Char) :
    (∃ next, next.inComment = true ∧ step mode before c rest = ([], next)) ∨
      (c = '\n' ∧ step mode before c rest = (['\n'], .code)) ∨
      (rest.head? = some '/' ∧ step mode before c rest = ([' '], .drop .code)) := by
  cases mode with
  | code | quote _ | body _ | keep _ => cases hmode
  | drop next => exact .inl ⟨next, hmode, rfl⟩
  | line =>
    have hstep : step .line before c rest = if c == '\n' then ([c], .code) else ([], .line) := rfl
    rw [hstep]
    split
    · next hc => exact .inr (.inl ⟨beq_iff_eq.1 hc, by rw [beq_iff_eq.1 hc]⟩)
    · exact .inl ⟨.line, rfl, rfl⟩
  | block outer =>
    rw [step.eq_def]
    dsimp only
    split
    · exact .inl ⟨_, rfl, rfl⟩
    split
    · next hend =>
      rw [Bool.and_eq_true, beq_iff_eq, beq_iff_eq] at hend
      cases outer with
      | zero => exact .inr (.inr ⟨hend.2, rfl⟩)
      | succ less => exact .inl ⟨_, rfl, rfl⟩
    · exact .inl ⟨_, rfl, rfl⟩

theorem head?_stripFrom_inComment {mode : Mode} (hmode : mode.inComment = true) (before : Option Char)
    (cs : List Char) {d : Char} (h : (stripFrom mode before cs).head? = some d) : d = ' ' ∨ d = '\n' := by
  induction cs generalizing mode before with
  | nil => cases h
  | cons c rest ih =>
    rcases step_inComment hmode before c rest with ⟨next, hnext, hstep⟩ | ⟨-, hstep⟩ | ⟨-, hstep⟩
    · rw [stripFrom_dropped hstep] at h
      exact ih hnext _ h
    · rw [stripFrom_kept hstep] at h
      exact .inr (Option.some.inj h).symm
    · rw [stripFrom_kept hstep] at h
      exact .inl (Option.some.inj h).symm

/-- **What comes first in the stripped text** came first in the text, if it is not what a comment leaves. -/
theorem head?_of_stripFrom {before : Option Char} {cs : List Char} {d : Char} (hspace : d ≠ ' ')
    (hend : d ≠ '\n') (h : (stripFrom .code before cs).head? = some d) : cs.head? = some d := by
  cases cs with
  | nil => cases h
  | cons c rest =>
    have hcomment : ∀ {next : Mode}, next.inComment = true → step .code before c rest = ([], next) → False := by
      intro next hnext hstep
      rw [stripFrom_dropped hstep] at h
      rcases head?_stripFrom_inComment hnext _ rest h with rfl | rfl
      · exact hspace rfl
      · exact hend rfl
    have hkept : ∀ {next : Mode}, step .code before c rest = ([c], next) → (c :: rest).head? = some d := by
      intro next hstep
      rw [stripFrom_kept hstep] at h
      exact h
    rcases step_code_cases before c rest with ⟨-, hstep⟩ | ⟨-, -, n, -, hstep⟩ | ⟨-, -, hstep⟩ |
      ⟨-, -, hstep⟩ | ⟨-, hstep⟩
    · exact hkept hstep
    · exact hkept hstep
    · exact (hcomment rfl hstep).elim
    · exact (hcomment rfl hstep).elim
    · exact hkept hstep

/-! ## The same begins at each character -/

theorem isQuote_of_isWord {c : Char} (h : isWord c = true) : isQuote c = false := by
  rw [isQuote, Bool.or_eq_false_iff, Bool.or_eq_false_iff, beq_eq_false_iff_ne, beq_eq_false_iff_ne,
    beq_eq_false_iff_ne]
  refine ⟨⟨?_, ?_⟩, ?_⟩ <;> rintro rfl <;> exact absurd h (by decide)

/-- Nothing begins at a character of a word. -/
theorem inert_of_isWord {c : Char} (h : isWord c = true) (before : Option Char) (rest : List Char) :
    Inert before c rest := by
  refine ⟨isQuote_of_isWord h, ?_, ?_, ?_⟩ <;> rintro rfl <;> exact absurd h (by decide)

theorem isWord_of_isTagStart {c : Char} (h : isTagStart c = true) : isWord c = true := by
  rw [isTagStart, Bool.or_eq_true] at h
  rw [isWord, Bool.or_eq_true]
  refine h.symm.imp_right fun halpha => ?_
  have hval : c.val ≤ 'z'.val := by
    rcases Bool.or_eq_true_iff.1 halpha with hupper | hlower
    · exact UInt32.le_trans (of_decide_eq_true hupper).2 (by decide)
    · exact of_decide_eq_true (Bool.and_eq_true_iff.1 hlower).2
  have hsmall : c.toNat < 0x80 := Nat.lt_of_le_of_lt (UInt32.le_iff_toNat_le.1 hval) (by decide)
  rw [isAlnum, if_pos hsmall, Char.isAlphanum, halpha, Bool.true_or]

theorem isWord_of_isTagName {w : List Char} (hw : IsTagName isTagStart w) : ∀ c ∈ w, isWord c = true := by
  rcases hw with rfl | ⟨a, v, rfl, ha, hv⟩
  · exact fun c hc => absurd hc List.not_mem_nil
  · exact List.forall_mem_cons.2 ⟨isWord_of_isTagStart ha, hv⟩

/-- A word and a dollar sign that come first in the stripped text came first in the text. -/
theorem exists_of_stripFrom_word {w more : List Char} (hw : ∀ c ∈ w, isWord c = true)
    {before : Option Char} {cs : List Char} (h : stripFrom .code before cs = w ++ '$' :: more) :
    ∃ more', cs = w ++ '$' :: more' := by
  induction w generalizing before cs with
  | nil => exact List.head?_eq_some_iff.1 (head?_of_stripFrom (by decide) (by decide) (congrArg List.head? h))
  | cons c w ih =>
    obtain ⟨hc, hw⟩ := List.forall_mem_cons.1 hw
    have hspace : c ≠ ' ' := by rintro rfl; exact absurd hc (by decide)
    have hend : c ≠ '\n' := by rintro rfl; exact absurd hc (by decide)
    obtain ⟨rest, rfl⟩ := List.head?_eq_some_iff.1 (head?_of_stripFrom hspace hend (congrArg List.head? h))
    rw [stripFrom_kept (step_of_inert (inert_of_isWord hc before rest))] at h
    obtain ⟨more', rfl⟩ := ih hw (List.cons.inj h).2
    exact ⟨more', rfl⟩

/-- **Nothing new begins** at a character that is kept. -/
theorem Inert.strip {before before' : Option Char} (hbefore : bodyMayOpen before = bodyMayOpen before')
    {c : Char} {rest : List Char} (h : Inert before c rest) :
    Inert before' c (stripFrom .code (some c) rest) := by
  refine ⟨h.quote, fun hc hopen => ?_, fun hc hhead => ?_, fun hc hhead => ?_⟩
  · subst hc
    rw [Option.eq_none_iff_forall_ne_some]
    intro n hn
    obtain ⟨w, more, hsplit, hw, -⟩ := tag_eq_some.1 hn
    rw [mark_append] at hsplit
    obtain ⟨more', rfl⟩ := exists_of_stripFrom_word (isWord_of_isTagName hw) (List.cons.inj hsplit).2
    have htag : tag ('$' :: (w ++ '$' :: more')) = some (mark w).length :=
      tag_eq_some.2 ⟨w, more', (mark_append w more').symm, hw, rfl⟩
    rw [h.body rfl (hbefore.trans hopen)] at htag
    cases htag
  · exact h.line hc (head?_of_stripFrom (by decide) (by decide) hhead)
  · exact h.block hc (head?_of_stripFrom (by decide) (by decide) hhead)

/-- A tagged body is kept as it is. -/
theorem stripFrom_body (left : Nat) (before : Option Char) (cs : List Char) :
    ∃ before', stripFrom (.body left) before cs
      = cs.take (left + 1) ++ stripFrom .code before' (cs.drop (left + 1)) := by
  induction left generalizing before cs with
  | zero =>
    cases cs with
    | nil => exact ⟨none, rfl⟩
    | cons c rest => exact ⟨some c, rfl⟩
  | succ left ih =>
    cases cs with
    | nil => exact ⟨none, rfl⟩
    | cons c rest =>
      obtain ⟨before', h⟩ := ih (some c) rest
      exact ⟨before', congrArg (c :: ·) h⟩

/-- **A tagged body has the same length** in the stripped text. -/
theorem bodyLength?_strip {rest : List Char} {n : Nat} (h : bodyLength? ('$' :: rest) = some (n + 2)) :
    bodyLength? ('$' :: stripFrom (.body n) (some '$') rest) = some (n + 2) := by
  obtain ⟨w, more, hsplit, hw⟩ := exists_of_bodyLength? h
  obtain ⟨before', hkept⟩ := stripFrom_body n (some '$') rest
  rw [hkept]
  have hlength := h
  rw [hsplit, bodyLength?_mark hw] at hlength
  cases hindex : indexOf? (mark w) more with
  | none =>
    -- a body that is not closed takes all
    rw [hindex, Option.elim_none, ← hsplit] at hlength
    have hall : rest.length ≤ n + 1 := by
      have := Option.some.inj hlength
      rw [List.length_cons] at this
      omega
    rw [List.take_of_length_le hall, List.drop_of_length_le hall]
    simpa [stripFrom] using h
  | some found =>
    rw [hindex, Option.elim_some] at hlength
    obtain ⟨a, b, rfl, rfl⟩ := exists_of_indexOf? hindex
    have hfront : '$' :: rest.take (n + 1) = mark w ++ (a ++ mark w) := by
      have htake : ('$' :: rest).take (n + 2) = '$' :: rest.take (n + 1) := rfl
      have hn : n + 2 = (mark w ++ (a ++ mark w)).length := by
        rw [List.length_append, List.length_append, ← Nat.add_assoc]
        exact (Option.some.inj hlength).symm
      have hwhole : '$' :: rest = (mark w ++ (a ++ mark w)) ++ b := by
        rw [hsplit, List.append_assoc, List.append_assoc]
      rw [← htake, hwhole, hn, List.take_left]
    rw [← List.cons_append, hfront, List.append_assoc, List.append_assoc, bodyLength?_closed hw hindex,
      ← hlength, List.length_append, List.length_append, Nat.add_assoc]

/-! ## Two readers side by side -/

/-- How a reader of the text, in a mode and after a character, is followed by a reader of the stripped
text, after a character of that. Only outside of quotes and comments does the character before matter. -/
inductive Follows : Mode → Option Char → Option Char → List Char → Prop where
  /-- outside, where a body may open after both characters or after neither -/
  | code {before before' : Option Char} {cs : List Char}
      (h : bodyMayOpen before = bodyMayOpen before') : Follows .code before before' cs
  /-- between quotes -/
  | quote {mark : Char} {before before' : Option Char} {cs : List Char} :
      Follows (.quote mark) before before' cs
  /-- before the second of two quotes, or of a backslash and a quote -/
  | keep {mark : Char} {before before' : Option Char} {cs : List Char} :
      Follows (.keep (.quote mark)) before before' cs
  /-- in a tagged body -/
  | body {left : Nat} {before before' : Option Char} {cs : List Char} :
      Follows (.body left) before before' cs
  /-- in a comment -/
  | comment {mode : Mode} {before before' : Option Char} {cs : List Char}
      (h : mode.inComment = true) : Follows mode before before' cs
  /-- before the slash that ends a comment; its space is behind the reader of the stripped text -/
  | ending {before : Option Char} {cs : List Char} (h : ∀ c, cs.head? = some c → c = '/') :
      Follows (.drop .code) before (some ' ') cs

theorem outside_of_inComment {mode : Mode} (h : mode.inComment = true) : mode.outside = .code := by
  induction mode with
  | code | quote _ | body _ | keep _ _ => cases h
  | line | block _ => rfl
  | drop next ih => exact ih h

/-- A character that both readers keep. -/
theorem readFrom_kept {mode next : Mode} {before before' : Option Char} {c d : Char} {rest : List Char}
    (h : step mode before c rest = ([d], next))
    (h' : step mode.outside before' d (stripFrom next (some c) rest) = ([d], next.outside))
    (ih : readFrom next.outside (some d) (stripFrom next (some c) rest) = readFrom next (some c) rest) :
    readFrom mode.outside before' (stripFrom mode before (c :: rest)) = readFrom mode before (c :: rest) := by
  rw [stripFrom_kept h, readFrom, readFrom, h, h']
  dsimp only
  rw [Mode.outside_outside, ih]

/-- A character that only the reader of the text sees. -/
theorem readFrom_dropped {mode next : Mode} {before before' : Option Char} {c : Char} {rest : List Char}
    (h : step mode before c rest = ([], next)) (hmode : next.outside = mode.outside)
    (ih : readFrom next.outside before' (stripFrom next (some c) rest) = readFrom next (some c) rest) :
    readFrom mode.outside before' (stripFrom mode before (c :: rest)) = readFrom mode before (c :: rest) := by
  rw [stripFrom_dropped h, readFrom, h, ← hmode]
  exact ih

/-- Between quotes all that counts of the text behind is whether a single quote is next. -/
theorem step_quote_congr {mark : Char} {before before' : Option Char} {c : Char} {rest rest' : List Char}
    (h : mark = '\'' → (rest.head? = some '\'' ↔ rest'.head? = some '\'')) :
    step (.quote mark) before c rest = step (.quote mark) before' c rest' := by
  by_cases hmark : mark = '\''
  · have hhead : (rest.head? == some '\'') = (rest'.head? == some '\'') := by
      rw [Bool.eq_iff_iff, beq_iff_eq, beq_iff_eq, h hmark]
    rw [step, step, hhead]
  · rw [step, step, beq_eq_false_iff_ne.2 hmark]
    rfl

/-- What is done with a character between quotes: it is kept. -/
theorem step_quote_cases (mark : Char) (before : Option Char) (c : Char) (rest : List Char) :
    (∃ rest', rest = '\'' :: rest' ∧ step (.quote mark) before c rest = ([c], .keep (.quote mark))) ∨
    ((mark = '\'' → rest.head? ≠ some '\'') ∧ step (.quote mark) before c rest = ([c], .code)) ∨
    step (.quote mark) before c rest = ([c], .quote mark) := by
  rw [step]
  split
  · next hescape =>
    simp only [Bool.and_eq_true, beq_iff_eq] at hescape
    obtain ⟨rest', rfl⟩ := List.head?_eq_some_iff.1 hescape.2
    exact .inl ⟨rest', rfl, rfl⟩
  split
  · split
    · next hdouble =>
      simp only [Bool.and_eq_true, beq_iff_eq] at hdouble
      obtain ⟨rest', rfl⟩ := List.head?_eq_some_iff.1 hdouble.2
      exact .inl ⟨rest', rfl, rfl⟩
    · next hdouble =>
      refine .inr (.inl ⟨?_, rfl⟩)
      rintro rfl hhead
      exact hdouble (by rw [hhead]; rfl)
  · exact .inr (.inr rfl)

theorem head?_stripFrom_quote (mark : Char) (before : Option Char) (cs : List Char) :
    (stripFrom (.quote mark) before cs).head? = cs.head? := by
  cases cs with
  | nil => rfl
  | cons c rest =>
    rcases step_quote_cases mark before c rest with ⟨rest', -, hstep⟩ | ⟨-, hstep⟩ | hstep
    all_goals
      rw [stripFrom_kept hstep]
      rfl

/-- **The reader of the stripped text goes on as the reader of the text.** -/
theorem readFrom_stripFrom {mode : Mode} {before before' : Option Char} {cs : List Char}
    (h : Follows mode before before' cs) :
    readFrom mode.outside before' (stripFrom mode before cs) = readFrom mode before cs := by
  induction cs generalizing mode before before' with
  | nil => rfl
  | cons c rest ih =>
    cases h with
    | code hbefore =>
      rcases step_code_cases before c rest with ⟨hquote, hstep⟩ | ⟨rfl, hopen, n, hlength, hstep⟩ |
        ⟨-, -, hstep⟩ | ⟨-, -, hstep⟩ | ⟨hinert, hstep⟩
      · exact readFrom_kept hstep (if_pos hquote) (ih .quote)
      · refine readFrom_kept hstep ?_ (ih .body)
        have hdollar : ('$' == '$' && bodyMayOpen before') = true := by rw [← hbefore, hopen]; rfl
        have hquote : ¬ ('$' == '\'' || '$' == '"' || '$' == '`') = true := by decide
        rw [Mode.outside, step, if_neg hquote, if_pos hdollar, bodyLength?_strip hlength]
        rfl
      · exact readFrom_dropped hstep rfl (ih (.comment rfl))
      · exact readFrom_dropped hstep rfl (ih (.comment rfl))
      · exact readFrom_kept hstep (step_of_inert (hinert.strip hbefore)) (ih (.code rfl))
    | @quote mark =>
      rcases step_quote_cases mark before c rest with ⟨rest', rfl, hstep⟩ | ⟨hhead, hstep⟩ | hstep
      · have hsame : step (.quote mark) before' c (stripFrom (.keep (.quote mark)) (some c) ('\'' :: rest'))
            = step (.quote mark) before c ('\'' :: rest') := step_quote_congr fun _ => Iff.rfl
        exact readFrom_kept hstep (hsame.trans hstep) (ih .keep)
      · refine readFrom_kept hstep ((step_quote_congr fun hmark => ?_).trans hstep) (ih (.code rfl))
        refine ⟨fun hnext => ?_, fun hnext => absurd hnext (hhead hmark)⟩
        exact head?_of_stripFrom (by decide) (by decide) hnext
      · refine readFrom_kept hstep ((step_quote_congr fun _ => ?_).trans hstep) (ih .quote)
        rw [head?_stripFrom_quote]
    | keep => exact readFrom_kept rfl rfl (ih .quote)
    | @body left =>
      cases left with
      | zero => exact readFrom_kept rfl rfl (ih (.code rfl))
      | succ left => exact readFrom_kept rfl rfl (ih .body)
    | comment hmode =>
      have houtside := outside_of_inComment hmode
      rcases step_inComment hmode before c rest with ⟨next, hnext, hstep⟩ | ⟨rfl, hstep⟩ | ⟨hslash, hstep⟩
      · exact readFrom_dropped hstep ((outside_of_inComment hnext).trans houtside.symm)
          (ih (.comment hnext))
      · exact readFrom_kept hstep (by rw [houtside]; rfl) (ih (.code rfl))
      · refine readFrom_kept hstep (by rw [houtside]; rfl) (ih (.ending fun d hd => ?_))
        exact Option.some.inj (hd.symm.trans hslash)
    | ending hslash =>
      obtain rfl := hslash c rfl
      exact readFrom_dropped rfl rfl (ih (.code rfl))

/-- **The stripped text is read as the text is.** -/
theorem reading_strip (cs : List Char) : reading (strip cs) = reading cs := readFrom_stripFrom (.code rfl)

/-- **Taking the comments out twice** is taking them out once. -/
theorem strip_strip (cs : List Char) : strip (strip cs) = strip cs := by
  calc strip (strip cs) = (reading (strip cs)).map Prod.fst := (map_readFrom .code none _).symm
    _ = (reading cs).map Prod.fst := by rw [reading_strip]
    _ = strip cs := map_readFrom .code none cs

end Comment

/-! ## Scripts without their comments -/

namespace Statement

/-- A blank text has no comments. -/
theorem strip_of_blank {cs : List Char} (h : Blank cs) : Comment.strip cs = cs := by
  have hkept : ∀ before, Comment.stripFrom .code before cs = cs := by
    induction cs with
    | nil => exact fun _ => rfl
    | cons c rest ih =>
      obtain ⟨hc, hrest⟩ := List.forall_mem_cons.1 h
      have hinert : ∀ before, Comment.Inert before c rest := by
        intro before
        refine ⟨?_, ?_, ?_, ?_⟩
        · rw [Comment.isQuote, Bool.or_eq_false_iff, Bool.or_eq_false_iff, beq_eq_false_iff_ne,
            beq_eq_false_iff_ne, beq_eq_false_iff_ne]
          refine ⟨⟨?_, ?_⟩, ?_⟩ <;> rintro rfl <;> exact absurd hc (by decide)
        all_goals
          rintro rfl
          exact absurd hc (by decide)
      intro before
      rw [Comment.stripFrom_kept (Comment.step_of_inert (hinert before)), ih hrest]
  exact hkept none

/-- White space makes no segment. -/
theorem cutFrom_of_spaces {ts : List Token} (hts : Spaces ts) {s : Blocks} (hs : s.ended = false)
    {current : List Token} (hcurrent : current.all Token.isSpace = true) :
    Script.cutFrom s current ts = [] := by
  induction ts generalizing s current with
  | nil => rw [Script.cutFrom, if_pos hcurrent]
  | cons t rest ih =>
    obtain ⟨⟨ht, -⟩, hrest⟩ := List.forall_mem_cons.1 hts
    have hnext : (s.next t).ended = false :=
      (Blocks.ended_next (isMark_of_isSpace ht ';')
        (Blocks.endsBatch_of_isQuiet (isQuiet_of_isSpace ht))).trans hs
    rw [Script.cutFrom, hs, Bool.false_and, if_neg Bool.false_ne_true]
    exact ih hrest hnext (by rw [List.all_cons, ht, hcurrent]; rfl)

/-- A blank text has no segments. -/
theorem cut_of_blank {cs : List Char} (h : Blank cs) : Script.cut (Token.lex cs) = [] :=
  cutFrom_of_spaces (spaces_lexAfter h none) rfl rfl

/-- A blank text has no statements. -/
theorem split_of_blank {cs : List Char} (h : Blank cs) : split cs = .ok [] := by
  refine split_eq_ok.2 ⟨fun segment hsegment => ?_, ?_⟩
  · rw [cut_of_blank h] at hsegment
    exact absurd hsegment List.not_mem_nil
  · rw [cut_of_blank h]
    rfl

/-- **The statements of a script** are those of the script without its comments. -/
theorem prepare_strip (script : List Char) : prepare (Comment.strip script) = prepare script := by
  rw [prepare, prepare, Comment.strip_strip]
  by_cases hblank : script.all isBlank = true
  · rw [if_pos hblank, strip_of_blank (List.all_eq_true.1 hblank), if_pos hblank]
  rw [if_neg hblank]
  by_cases hstripped : (Comment.strip script).all isBlank = true
  · rw [if_pos hstripped, split_of_blank (List.all_eq_true.1 hstripped)]
    rfl
  · rw [if_neg hstripped]

end Statement

/-- **Comments make no difference.** Taking them out twice is taking them out once, and what is left is read
as it was before, character by character. So a script without its comments is imported as the script
is: with the same design and the same report, or with the same fault. -/
theorem Comment.strip_transparent (script : List Char) :
    strip (strip script) = strip script ∧
    (reading script).map Prod.fst = strip script ∧
    reading (strip script) = reading script ∧
    ∀ base, Design.ofScript base (strip script) = Design.ofScript base script ∧
      Import.run base (strip script) = Import.run base script := by
  refine ⟨strip_strip script, map_readFrom .code none script, reading_strip script, fun base => ?_⟩
  rw [Design.ofScript, Import.run, Statement.prepare_strip]
  exact ⟨rfl, rfl⟩

end SchemaSketch
