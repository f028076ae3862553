import SchemaSketch.Proofs.Sql.Survivors

/-!
# A text as code, quoted text and comments

Here an SQL text is told part by part: stretches of code, quoted text of every kind, comments up to the end
of their line and block comments (`Comment.Part`). Which texts are parts of which kind is told without the
reader that takes comments out (`Part.Fits`), and so is what becomes of a part: code and quoted text are kept,
of a comment with its line the line end is left, and of a block comment one space (`Part.kept`).

The reader does this part by part: behind each it is outside of quotes and comments again, whatever follows
(`Part.stripFrom_append`). So a text that is made up of parts loses its comments and nothing else
(`Comment.strip_parts`). Only a dash at the end of code, and two stretches of code side by side, could make a
mark at a border that is in neither part.
-/

namespace SchemaSketch.Comment

open Text

/-! ## Parts -/

/-- A part of an SQL text, with the marks that belong to it. -/
inductive Part where
  /-- code, outside of quotes and comments -/
  | code (cs : List Char)
  /-- quoted text or a tagged body -/
  | quoted (cs : List Char)
  /-- a comment up to the end of its line -/
  | line (cs : List Char)
  /-- a comment between marks, with those inside it -/
  | block (cs : List Char)
  deriving DecidableEq, Repr

/-- Whether the quote that closes a literal is the last character of what stands behind its opening quote.
A doubled quote does not close it, and neither does one behind a backslash. -/
def literalCloses : List Char → Bool
  | [] => false
  | [c] => c == '\''
  | c :: d :: rest =>
    if (c == '\'' || c == '\\') && d == '\'' then literalCloses rest
    else c != '\'' && literalCloses (d :: rest)

/-- Whether a text that begins inside a comment and `outer` others around it ends with the mark that closes the
outermost one. Each mark that opens counts for one more open comment and each that closes for one less; the
count falls to zero at the end and not before. -/
def blockCloses (outer : Nat) : List Char → Bool
  | [] => false
  | [_] => false
  | c :: d :: rest =>
    if c == '/' && d == '*' then blockCloses (outer + 1) rest
    else if c == '*' && d == '/' then
      match outer with
      | 0 => rest.isEmpty
      | less + 1 => blockCloses less rest
    else blockCloses outer (d :: rest)

/-- Quoted text that may stand behind a character, with its quotes. -/
inductive IsQuoted (before : Option Char) : List Char → Prop where
  /-- between single quotes -/
  | literal {cs : List Char} (hcs : literalCloses cs = true) : IsQuoted before ('\'' :: cs)
  /-- between double quotes or backticks -/
  | name {quote : Char} {cs : List Char} (hquote : quote = '"' ∨ quote = '`') (hcs : quote ∉ cs) :
      IsQuoted before (quote :: (cs ++ [quote]))
  /-- between two equal marks, the second of which is the first behind the one that opens -/
  | body {w cs : List Char} (hw : IsTagName isTagStart w)
      (hcs : indexOf? (mark w) (cs ++ mark w) = some cs.length) (hbefore : bodyMayOpen before = true) :
      IsQuoted before (mark w ++ (cs ++ mark w))

/-- Code: no quote and no dollar sign, and no mark of a comment. -/
structure IsCode (cs : List Char) : Prop where
  /-- nothing quoted begins in it -/
  calm : ∀ c ∈ cs, isQuote c = false ∧ c ≠ '$'
  /-- no comment up to the end of a line does -/
  line : ¬ ['-', '-'] <:+: cs
  /-- no block comment does -/
  block : ¬ ['/', '*'] <:+: cs

namespace Part

/-- The text of a part. -/
def text : Part → List Char
  | code cs | quoted cs | line cs | block cs => cs

/-- What becomes of a part when the comments are taken out. -/
def kept : Part → List Char
  | code cs | quoted cs => cs
  | line _ => ['\n']
  | block _ => [' ']

/-- A part that may stand behind a character of a text. -/
def Fits (before : Option Char) : Part → Prop
  | code cs => IsCode cs
  | quoted cs => IsQuoted before cs
  | line cs => ∃ inner, cs = '-' :: '-' :: (inner ++ ['\n']) ∧ '\n' ∉ inner
  | block cs => ∃ inner, cs = '/' :: '*' :: inner ∧ blockCloses 0 inner = true

/-- Whether a part may stand directly before another one. -/
def mayPrecede : Part → Part → Bool
  | code _, code _ => false
  | code cs, line _ => cs.getLast? != some '-'
  | _, _ => true

end Part

/-- Parts that make up a text behind a character. -/
def MadeUp (before : Option Char) : List Part → Prop
  | [] => True
  | p :: rest =>
    p.Fits before ∧ (∀ q, rest.head? = some q → p.mayPrecede q = true) ∧ MadeUp (lastOf before p.text) rest

/-! ## Code -/

theorem IsCode.tail {c : Char} {cs : List Char} (h : IsCode (c :: cs)) : IsCode cs where
  calm d hd := h.calm d (List.mem_cons_of_mem c hd)
  line hline := h.line (hline.trans (List.suffix_cons c cs).isInfix)
  block hblock := h.block (hblock.trans (List.suffix_cons c cs).isInfix)

/-- Nothing begins at a character of code, unless a mark reaches over its end. -/
theorem IsCode.inert {c : Char} {cs : List Char} (h : IsCode (c :: cs)) {rest : List Char}
    (hdash : (c :: cs).getLast? = some '-' → rest.head? ≠ some '-')
    (hslash : (c :: cs).getLast? = some '/' → rest.head? ≠ some '*') (before : Option Char) :
    Inert before c (cs ++ rest) := by
  obtain ⟨hquote, hdollar⟩ := h.calm c (List.mem_cons_self ..)
  refine ⟨hquote, fun hc => absurd hc hdollar, ?_, ?_⟩
  · rintro rfl
    cases cs with
    | nil => exact hdash rfl
    | cons d cs =>
      intro hhead
      obtain rfl : d = '-' := Option.some.inj hhead
      exact h.line (List.prefix_append ['-', '-'] cs).isInfix
  · rintro rfl
    cases cs with
    | nil => exact hslash rfl
    | cons d cs =>
      intro hhead
      obtain rfl : d = '*' := Option.some.inj hhead
      exact h.block (List.prefix_append ['/', '*'] cs).isInfix

/-- **Code is kept**, if no mark reaches over its end. -/
theorem IsCode.stripFrom_append {cs : List Char} (h : IsCode cs) {rest : List Char}
    (hdash : cs.getLast? = some '-' → rest.head? ≠ some '-')
    (hslash : cs.getLast? = some '/' → rest.head? ≠ some '*') (before : Option Char) :
    stripFrom .code before (cs ++ rest) = cs ++ stripFrom .code (lastOf before cs) rest := by
  induction cs generalizing before with
  | nil => rfl
  | cons c cs ih =>
    rw [List.cons_append, stripFrom_kept (step_of_inert (h.inert hdash hslash before)), lastOf_cons,
      List.cons_append]
    refine congrArg (c :: ·) (ih h.tail (fun hlast => hdash ?_) (fun hlast => hslash ?_) (some c))
    all_goals rw [List.getLast?_cons, hlast, Option.getD_some]

/-! ## Quoted text -/

/-- A doubled quote goes on with a literal just as a new literal would begin. -/
theorem stripFrom_keep_quote (before : Option Char) {rest : List Char} (h : rest.head? = some '\'') :
    stripFrom (.keep (.quote '\'')) before rest = stripFrom .code before rest := by
  obtain ⟨more, rfl⟩ := List.head?_eq_some_iff.1 h
  rfl

/-- Behind the quote that closes a literal the reader is outside. If one more quote follows, the reader takes
the two for one; the literal that begins there is then kept all the same. -/
theorem stripFrom_literal {cs : List Char} (h : literalCloses cs = true) (before : Option Char)
    (rest : List Char) :
    stripFrom (.quote '\'') before (cs ++ rest) = cs ++ stripFrom .code (lastOf before cs) rest := by
  fun_induction literalCloses cs generalizing before with
  | case1 => cases h
  | case2 c =>
    obtain rfl := beq_iff_eq.1 h
    have hstep : step (.quote '\'') before '\'' rest
        = if rest.head? == some '\'' then (['\''], .keep (.quote '\'')) else (['\''], .code) := rfl
    by_cases hhead : rest.head? = some '\''
    · rw [if_pos (beq_iff_eq.2 hhead)] at hstep
      exact (stripFrom_kept hstep).trans (congrArg ('\'' :: ·) (stripFrom_keep_quote _ hhead))
    · rw [if_neg (fun hbeq => hhead (beq_iff_eq.1 hbeq))] at hstep
      exact stripFrom_kept hstep
  | case3 c d more hpair ih =>
    rw [Bool.and_eq_true, Bool.or_eq_true, beq_iff_eq, beq_iff_eq, beq_iff_eq] at hpair
    obtain ⟨hc, rfl⟩ := hpair
    have hstep : step (.quote '\'') before c ('\'' :: (more ++ rest)) = ([c], .keep (.quote '\'')) := by
      rcases hc with rfl | rfl <;> rfl
    rw [List.cons_append, List.cons_append, stripFrom_kept hstep, lastOf_cons, lastOf_cons]
    exact congrArg (c :: '\'' :: ·) (ih h (some '\''))
  | case4 c d more hpair ih =>
    rw [Bool.and_eq_true, bne_iff_ne] at h
    have hescape : ¬ ('\'' == '\'' && c == '\\' && (d :: (more ++ rest)).head? == some '\'') = true := by
      simp only [List.head?_cons, Bool.and_eq_true, beq_iff_eq, Option.some.injEq]
      exact fun hback => hpair (by rw [hback.1.2, hback.2]; rfl)
    have hstep : step (.quote '\'') before c (d :: (more ++ rest)) = ([c], .quote '\'') := by
      rw [step, if_neg hescape, if_neg (by simpa using h.1)]
    rw [List.cons_append, List.cons_append, stripFrom_kept hstep, lastOf_cons, List.cons_append]
    exact congrArg (c :: ·) (ih h.2 (some c))

theorem stripFrom_name {quote : Char} (hquote : quote = '"' ∨ quote = '`') {cs : List Char} (h : quote ∉ cs)
    (before : Option Char) (rest : List Char) :
    stripFrom (.quote quote) before (cs ++ quote :: rest) = cs ++ quote :: stripFrom .code (some quote) rest := by
  induction cs generalizing before with
  | nil => rcases hquote with rfl | rfl <;> rfl
  | cons c cs ih =>
    obtain ⟨hc, hcs⟩ := not_or.1 (mt List.mem_cons.2 h)
    have hstep : step (.quote quote) before c (cs ++ quote :: rest) = ([c], .quote quote) := by
      have hmark : (quote == '\'') = false := by rcases hquote with rfl | rfl <;> rfl
      rw [step, hmark, Bool.false_and, Bool.false_and, if_neg Bool.false_ne_true, if_neg (by simpa using Ne.symm hc)]
    rw [List.cons_append, stripFrom_kept hstep, ih hcs]
    rfl

theorem stripFrom_body_append {left : Nat} {cs : List Char} (h : cs.length = left + 1)
    (before : Option Char) (rest : List Char) :
    stripFrom (.body left) before (cs ++ rest) = cs ++ stripFrom .code (lastOf before cs) rest := by
  induction left generalizing before cs with
  | zero =>
    obtain ⟨c, rfl⟩ := List.length_eq_one_iff.1 h
    rfl
  | succ left ih =>
    cases cs with
    | nil => cases h
    | cons c cs =>
      rw [lastOf_cons]
      exact congrArg (c :: ·) (ih (Nat.succ.inj h) (some c))

/-- **Quoted text is kept.** -/
theorem IsQuoted.stripFrom_append {before : Option Char} {cs : List Char} (h : IsQuoted before cs)
    (rest : List Char) :
    stripFrom .code before (cs ++ rest) = cs ++ stripFrom .code (lastOf before cs) rest := by
  cases h with
  | @literal cs hcs =>
    rw [lastOf_cons]
    exact congrArg ('\'' :: ·) (stripFrom_literal hcs (some '\'') rest)
  | @name quote cs hquote hcs =>
    have hstep : step .code before quote (cs ++ quote :: rest) = ([quote], .quote quote) := by
      rcases hquote with rfl | rfl <;> rfl
    have hlast : lastOf before (quote :: (cs ++ [quote])) = some quote := by
      rw [lastOf, ← List.cons_append, List.getLast?_concat]
      rfl
    rw [hlast, List.cons_append, List.append_assoc, List.singleton_append, stripFrom_kept hstep,
      stripFrom_name hquote hcs, List.cons_append, List.append_assoc, List.singleton_append]
  | @body w cs hw hcs hbefore =>
    have hclosed : indexOf? (mark w) (cs ++ (mark w ++ [])) = some cs.length := by
      rwa [List.append_nil]
    have hlength := bodyLength?_closed hw hclosed rest
    obtain ⟨more, hmore⟩ : ∃ more, mark w ++ (cs ++ mark w) = '$' :: more := ⟨_, List.cons_append⟩
    have hwhole : mark w ++ (cs ++ (mark w ++ rest)) = '$' :: (more ++ rest) := by
      rw [← List.cons_append, ← hmore, List.append_assoc, List.append_assoc]
    have hpositive : 2 ≤ (mark w ++ (cs ++ mark w)).length := by
      rw [List.length_append, length_mark]
      omega
    obtain ⟨n, hn⟩ := Nat.exists_eq_add_of_le' hpositive
    have hstep : step .code before '$' (more ++ rest) = (['$'], .body n) := by
      have hquote : ¬ ('$' == '\'' || '$' == '"' || '$' == '`') = true := by decide
      have hopen : ('$' == '$' && bodyMayOpen before) = true := by rw [hbefore]; rfl
      rw [hwhole, hn] at hlength
      rw [step, if_neg hquote, if_pos hopen, hlength]
    rw [hmore, List.length_cons] at hn
    rw [hmore, List.cons_append, stripFrom_kept hstep, lastOf_cons,
      stripFrom_body_append (Nat.succ.inj hn) (some '$') rest]
    rfl

/-! ## Comments -/

theorem stripFrom_line {inner : List Char} (h : '\n' ∉ inner) (before : Option Char) (rest : List Char) :
    stripFrom .line before (inner ++ '\n' :: rest) = '\n' :: stripFrom .code (some '\n') rest := by
  induction inner generalizing before with
  | nil => rfl
  | cons c inner ih =>
    obtain ⟨hc, hinner⟩ := not_or.1 (mt List.mem_cons.2 h)
    have hstep : step .line before c (inner ++ '\n' :: rest) = ([], .line) :=
      if_neg (fun hbeq => hc (beq_iff_eq.1 hbeq).symm)
    rw [List.cons_append, stripFrom_dropped hstep, ih hinner]

/-- **A block comment** with all that is nested in it leaves one space. -/
theorem stripFrom_block {outer : Nat} {cs : List Char} (h : blockCloses outer cs = true)
    (before : Option Char) (rest : List Char) :
    stripFrom (.block outer) before (cs ++ rest) = ' ' :: stripFrom .code (lastOf before cs) rest := by
  fun_induction blockCloses outer cs generalizing before with
  | case1 => cases h
  | case2 => cases h
  | case3 outer c d more hopen ih =>
    rw [Bool.and_eq_true, beq_iff_eq, beq_iff_eq] at hopen
    obtain ⟨rfl, rfl⟩ := hopen
    rw [lastOf_cons, lastOf_cons]
    exact ih h (some '*')
  | case4 c d more hopen hclose =>
    rw [Bool.and_eq_true, beq_iff_eq, beq_iff_eq] at hclose
    obtain ⟨rfl, rfl⟩ := hclose
    obtain rfl := List.isEmpty_iff.1 h
    rfl
  | case5 c d more hopen hclose less ih =>
    rw [Bool.and_eq_true, beq_iff_eq, beq_iff_eq] at hclose
    obtain ⟨rfl, rfl⟩ := hclose
    rw [lastOf_cons, lastOf_cons]
    exact ih h (some '/')
  | case6 outer c d more hopen hclose ih =>
    have hstep : step (.block outer) before c (d :: (more ++ rest)) = ([], .block outer) := by
      rw [step.eq_def]
      dsimp only
      rw [List.head?_cons, if_neg (by simpa using hopen), if_neg (by simpa using hclose)]
    rw [List.cons_append, List.cons_append, stripFrom_dropped hstep, lastOf_cons]
    exact ih h (some c)

/-! ## A text made up of parts -/

namespace Part

/-- **What becomes of a part** does not depend on what follows, and the reader is outside behind it. -/
theorem stripFrom_append {before : Option Char} {p : Part} (hp : p.Fits before) {rest : List Char}
    (hrest : ∀ cs, p = code cs → (cs.getLast? = some '-' → rest.head? ≠ some '-') ∧
      (cs.getLast? = some '/' → rest.head? ≠ some '*')) :
    stripFrom .code before (p.text ++ rest) = p.kept ++ stripFrom .code (lastOf before p.text) rest := by
  cases p with
  | code cs => exact IsCode.stripFrom_append hp (hrest cs rfl).1 (hrest cs rfl).2 before
  | quoted cs => exact IsQuoted.stripFrom_append hp rest
  | line cs =>
    obtain ⟨inner, rfl, hinner⟩ := hp
    have hlast : lastOf before ('-' :: '-' :: (inner ++ ['\n'])) = some '\n' := by
      rw [lastOf, ← List.cons_append, ← List.cons_append, List.getLast?_concat]
      rfl
    change stripFrom .code before ('-' :: '-' :: (inner ++ ['\n'] ++ rest)) = _
    rw [stripFrom_dropped rfl, stripFrom_dropped rfl, List.append_assoc, List.singleton_append,
      stripFrom_line hinner, text, hlast]
    rfl
  | block cs =>
    obtain ⟨inner, rfl, hinner⟩ := hp
    change stripFrom .code before ('/' :: '*' :: (inner ++ rest)) = _
    rw [stripFrom_dropped rfl, stripFrom_dropped rfl, stripFrom_block hinner, text, lastOf_cons, lastOf_cons]
    rfl

/-- What a part begins with, unless it is code: no star, and a dash only if it is a comment with its line. -/
theorem exists_text {before : Option Char} {p : Part} (hp : p.Fits before) :
    (∃ cs, p = code cs) ∨ ∃ c cs, p.text = c :: cs ∧ c ≠ '*' ∧ (c = '-' → ∃ cs, p = line cs) := by
  cases p with
  | code cs => exact .inl ⟨cs, rfl⟩
  | quoted cs =>
    cases hp with
    | literal _ => exact .inr ⟨_, _, rfl, by decide, fun h => absurd h (by decide)⟩
    | name hquote _ => rcases hquote with rfl | rfl <;> exact .inr ⟨_, _, rfl, by decide, fun h => absurd h (by decide)⟩
    | body _ _ _ => exact .inr ⟨_, _, rfl, by decide, fun h => absurd h (by decide)⟩
  | line cs =>
    obtain ⟨inner, rfl, -⟩ := hp
    exact .inr ⟨_, _, rfl, by decide, fun _ => ⟨_, rfl⟩⟩
  | block cs =>
    obtain ⟨inner, rfl, -⟩ := hp
    exact .inr ⟨_, _, rfl, by decide, fun h => absurd h (by decide)⟩

/-- No mark reaches from code into a part that it may precede. -/
theorem head?_text {before : Option Char} {cs : List Char} {p : Part} (hp : p.Fits before)
    (h : (code cs).mayPrecede p = true) (rest : List Char) :
    (cs.getLast? = some '-' → (p.text ++ rest).head? ≠ some '-') ∧ (p.text ++ rest).head? ≠ some '*' := by
  rcases exists_text hp with ⟨_, rfl⟩ | ⟨c, more, htext, hstar, hdash⟩
  · cases h
  · rw [htext, List.cons_append, List.head?_cons]
    refine ⟨fun hlast hhead => ?_, fun hhead => hstar (Option.some.inj hhead)⟩
    obtain ⟨_, rfl⟩ := hdash (Option.some.inj hhead)
    exact bne_iff_ne.1 h hlast

end Part

theorem stripFrom_parts {before : Option Char} {parts : List Part} (h : MadeUp before parts) :
    stripFrom .code before (parts.flatMap Part.text) = parts.flatMap Part.kept := by
  induction parts generalizing before with
  | nil => rfl
  | cons p rest ih =>
    obtain ⟨hp, hnext, hrest⟩ := h
    rw [List.flatMap_cons, List.flatMap_cons, Part.stripFrom_append hp, ih hrest]
    rintro cs rfl
    cases rest with
    | nil => exact ⟨fun _ h => (by cases h), fun _ h => (by cases h)⟩
    | cons q rest =>
      have hhead := Part.head?_text hrest.1 (hnext q rfl) (rest.flatMap Part.text)
      exact ⟨hhead.1, fun _ => hhead.2⟩

/-- **The comments are taken out and nothing else.** Of a text that is made up of parts, code and quoted text
are kept as they are, a comment with its line leaves the line end and a block comment one space, whatever is
nested in it. -/
theorem strip_parts {parts : List Part} (h : MadeUp none parts) :
    strip (parts.flatMap Part.text) = parts.flatMap Part.kept := stripFrom_parts h

/-- Parts of every kind, each with marks of the others inside, and quotes of one kind side by side. -/
def everyKind : List Part := [
  .code "a-".toList,
  .quoted ('\'' :: "it''s \\'--'".toList),
  .quoted ('\'' :: "/*'".toList),
  .line ('-' :: '-' :: (" '/*".toList ++ ['\n'])),
  .quoted ('"' :: ("--'".toList ++ ['"'])),
  .block ('/' :: '*' :: "/* */ ' --*/".toList),
  .code "*/ ".toList,
  .quoted (mark ['t'] ++ (" --$ $$ /*".toList ++ mark ['t'])),
  .quoted ('`' :: ("/*".toList ++ ['`'])),
  .block ('/' :: '*' :: "*/".toList)]

theorem madeUp_everyKind : MadeUp none everyKind := by
  have hcode : ∀ {cs : List Char}, (cs.all fun c => !isQuote c && c != '$') = true →
      ¬ ['-', '-'] <:+: cs → ¬ ['/', '*'] <:+: cs → IsCode cs := fun hcalm hline hblock =>
    ⟨fun c hc => by simpa using List.all_eq_true.1 hcalm c hc, hline, hblock⟩
  have hnext : ∀ {p q : Part} {rest : List Part}, p.mayPrecede q = true →
      ∀ q', (q :: rest).head? = some q' → p.mayPrecede q' = true :=
    fun h q' hq' => Option.some.inj hq' ▸ h
  refine ⟨hcode (by decide) (by decide) (by decide), hnext (by decide),
    .literal (by decide), hnext rfl, .literal (by decide), hnext rfl,
    ⟨_, rfl, by decide⟩, hnext rfl, .name (.inl rfl) (by decide), hnext rfl,
    ⟨_, rfl, by decide⟩, hnext rfl,
    hcode (by decide) (by decide) (by decide), hnext rfl,
    .body (.inr ⟨'t', [], rfl, rfl, fun c hc => absurd hc List.not_mem_nil⟩) (by decide)
      (by decide), hnext rfl, .name (.inr rfl) (by decide), hnext rfl,
    ⟨_, rfl, by decide⟩, fun q hq => (by cases hq), trivial⟩

theorem strip_parts_everyKind : MadeUp none everyKind ∧
    strip (everyKind.flatMap Part.text)
      = "a-'it''s \\'--''/*'\n\"--'\" */ $t$ --$ $$ /*$t$`/*` ".toList := by
  refine ⟨madeUp_everyKind, (strip_parts madeUp_everyKind).trans ?_⟩
  decide

end SchemaSketch.Comment
