import SchemaSketch.Proofs.Sql.Stripping

/-!
# Comments that survive

Two readers tell where quoted text ends: the one that takes the comments out (`Comment.step`) and the one
that cuts a text into tokens (`Token.first`). They do not know of each other. What follows from it is told
here exactly (`Comment.survives_iff`): a comment is still there after the comments have been taken out
just where a token begins with a mark of a comment at a place that is quoted for the first reader.
-/

namespace SchemaSketch

open Text

namespace Comment

/-! ## The reader that takes comments out -/

/-- The mode of the reader behind the front part of a text, with the rest of it ahead. -/
def modeAfter (mode : Mode) (before : Option Char) : List Char → List Char → Mode
  | [], _ => mode
  | c :: front, rest => modeAfter (step mode before c (front ++ rest)).2 (some c) front rest

/-- The character before what stands behind a front part. -/
def lastOf (before : Option Char) (front : List Char) : Option Char := front.getLast?.or before

theorem lastOf_cons (before : Option Char) (c : Char) (front : List Char) :
    lastOf before (c :: front) = lastOf (some c) front := by
  rw [lastOf, lastOf, List.getLast?_cons]
  cases front.getLast? <;> rfl

/-- A mode in quoted text, tagged bodies included. -/
def Mode.inQuotes : Mode → Bool
  | .quote _ | .body _ => true
  | .keep next => next.inQuotes
  | .code | .line | .block _ | .drop _ => false

/-- A mode outside of comments: outside of quotes too, or between them. -/
def Mode.shows (mode : Mode) : Prop := mode = .code ∨ mode.inQuotes = true

/-- Outside of comments a character is kept, and none begins with it, unless it is the first of a mark. -/
theorem step_of_shows {mode : Mode} (hmode : mode.shows) (before : Option Char) (c : Char)
    (rest : List Char) :
    (∃ next, next.shows ∧ step mode before c rest = ([c], next)) ∨
      (mode = .code ∧ ∃ next, step mode before c rest = ([], next)) := by
  rcases hmode with rfl | hquotes
  · rcases step_code_cases before c rest with ⟨-, hstep⟩ | ⟨-, -, n, -, hstep⟩ | ⟨-, -, hstep⟩ |
      ⟨-, -, hstep⟩ | ⟨-, hstep⟩
    · exact .inl ⟨_, .inr rfl, hstep⟩
    · exact .inl ⟨_, .inr rfl, hstep⟩
    · exact .inr ⟨rfl, _, hstep⟩
    · exact .inr ⟨rfl, _, hstep⟩
    · exact .inl ⟨_, .inl rfl, hstep⟩
  · refine .inl ?_
    cases mode with
    | code | line | block _ | drop _ => cases hquotes
    | quote mark =>
      rcases step_quote_cases mark before c rest with ⟨-, -, hstep⟩ | ⟨-, hstep⟩ | hstep
      · exact ⟨_, .inr rfl, hstep⟩
      · exact ⟨_, .inl rfl, hstep⟩
      · exact ⟨_, .inr rfl, hstep⟩
    | keep next => exact ⟨next, .inr hquotes, rfl⟩
    | body left =>
      cases left with
      | zero => exact ⟨.code, .inl rfl, rfl⟩
      | succ left => exact ⟨.body left, .inr rfl, rfl⟩

theorem length_step_le (mode : Mode) (before : Option Char) (c : Char) (rest : List Char) :
    (step mode before c rest).1.length ≤ 1 := by
  have hshows : ∀ {mode : Mode}, mode.shows → (step mode before c rest).1.length ≤ 1 := by
    intro mode hmode
    rcases step_of_shows hmode before c rest with ⟨_, -, hstep⟩ | ⟨-, _, hstep⟩
    · rw [hstep]
      exact Nat.le_refl 1
    · rw [hstep]
      exact Nat.zero_le 1
  have hcomment : ∀ {mode : Mode}, mode.inComment = true → (step mode before c rest).1.length ≤ 1 := by
    intro mode hmode
    rcases step_inComment hmode before c rest with ⟨_, -, hstep⟩ | ⟨-, hstep⟩ | ⟨-, hstep⟩
    · rw [hstep]
      exact Nat.zero_le 1
    all_goals
      rw [hstep]
      exact Nat.le_refl 1
  cases mode with
  | code => exact hshows (.inl rfl)
  | quote _ | body _ => exact hshows (.inr rfl)
  | line | block _ => exact hcomment rfl
  | drop _ => exact Nat.zero_le 1
  | keep _ => exact Nat.le_refl 1

theorem length_stripFrom_le (mode : Mode) (before : Option Char) (cs : List Char) :
    (stripFrom mode before cs).length ≤ cs.length := by
  induction cs generalizing mode before with
  | nil => exact Nat.le_refl 0
  | cons c rest ih =>
    rw [stripFrom, List.length_append, List.length_cons, Nat.add_comm]
    exact Nat.add_le_add (ih _ _) (length_step_le mode before c rest)

/-- A text from which something is dropped is not left as it is. -/
theorem stripFrom_ne_of_dropped {mode next : Mode} {before : Option Char} {c : Char} {rest : List Char}
    (h : step mode before c rest = ([], next)) : stripFrom mode before (c :: rest) ≠ c :: rest := by
  intro hsame
  have hshort := length_stripFrom_le next (some c) rest
  rw [← stripFrom_dropped h, hsame, List.length_cons] at hshort
  omega

/-- **In a text without comments** the reader is never in one. -/
theorem shows_modeAfter {mode : Mode} (hmode : mode.shows) {before : Option Char} {front rest : List Char}
    (h : stripFrom mode before (front ++ rest) = front ++ rest) :
    (modeAfter mode before front rest).shows ∧
      stripFrom (modeAfter mode before front rest) (lastOf before front) rest = rest := by
  induction front generalizing mode before with
  | nil => exact ⟨hmode, h⟩
  | cons c front ih =>
    rw [List.cons_append] at h
    rcases step_of_shows hmode before c (front ++ rest) with ⟨next, hnext, hstep⟩ | ⟨-, _, hstep⟩
    · rw [stripFrom_kept hstep] at h
      rw [modeAfter, hstep, lastOf_cons]
      exact ih hnext (List.cons.inj h).2
    · exact absurd h (stripFrom_ne_of_dropped hstep)

/-- Whether a comment begins at the front of a text, for the reader of tokens. -/
def opens (cs : List Char) : Bool :=
  ['-', '-'].isPrefixOf cs
    || (['/', '*'].isPrefixOf cs && (Token.upTo ['/', '*'] ['*', '/'] cs).isSome)

theorem opens_eq_true {cs : List Char} (h : opens cs = true) :
    (∃ rest, cs = '-' :: '-' :: rest) ∨
      ∃ rest n, cs = '/' :: '*' :: rest ∧ Token.upTo ['/', '*'] ['*', '/'] cs = some n := by
  rw [opens, Bool.or_eq_true, Bool.and_eq_true, List.isPrefixOf_iff_prefix,
    List.isPrefixOf_iff_prefix] at h
  rcases h with ⟨rest, rfl⟩ | ⟨⟨rest, rfl⟩, hclosed⟩
  · exact .inl ⟨rest, rfl⟩
  · obtain ⟨n, hn⟩ := Option.isSome_iff_exists.1 hclosed
    exact .inr ⟨rest, n, rfl, hn⟩

/-- Outside of quotes and comments the mark of a comment is dropped. -/
theorem stripFrom_ne_of_opens {cs : List Char} (h : opens cs = true) (before : Option Char) :
    stripFrom .code before cs ≠ cs := by
  rcases opens_eq_true h with ⟨rest, rfl⟩ | ⟨rest, -, rfl, -⟩
  all_goals exact stripFrom_ne_of_dropped rfl

end Comment

/-! ## The reader of tokens -/

namespace Token

/-- A comment that begins with one of the marks by which comments are taken out. -/
def isMarked (t : Token) : Bool :=
  t.isComment && (['-', '-'].isPrefixOf t.text || ['/', '*'].isPrefixOf t.text)

/-- Two dashes begin a comment that ends with the line. -/
theorem first_dashes (before : Option Char) (rest : List Char) :
    ∃ kind n, first before ('-' :: '-' :: rest) = (kind, n) ∧
      (kind = .hintComment ∨ kind = .lineComment) ∧ 2 ≤ n := by
  have hdelimited : delimited before ('-' :: '-' :: rest) = none := rfl
  obtain ⟨k, hk⟩ : ∃ k, toLineEnd rest = some k :=
    ⟨_, Pattern.andThen_eq_some.2 ⟨_, _, rfl, Pattern.optional_apply .., rfl⟩⟩
  have hline : (commentMark >> toLineEnd) ('-' :: '-' :: rest) = some (2 + k) :=
    Pattern.andThen_eq_some.2 ⟨2, k, rfl, hk, rfl⟩
  rw [first, hdelimited]
  dsimp only
  -- the rule for hints comes first, then the one for other comments
  cases hhint : (commentMark >> Pattern.char '+' >> toLineEnd) ('-' :: '-' :: rest) with
  | some n =>
    refine ⟨.hintComment, n, ?_, .inl rfl, ?_⟩
    · have hfit : firstFit before ('-' :: '-' :: rest) rules = some (.hintComment, n) :=
        firstFit_cons_some rfl hhint
      rw [hfit]
    · obtain ⟨m, k, hm, -, rfl⟩ := Pattern.andThen_eq_some.1 hhint
      obtain rfl : 2 = m := Option.some.inj hm
      exact Nat.le_add_right 2 k
  | none =>
    refine ⟨.lineComment, 2 + k, ?_, .inr rfl, Nat.le_add_right 2 k⟩
    have hfit : firstFit before ('-' :: '-' :: rest) rules = some (.lineComment, 2 + k) :=
      (firstFit_cons_none hhint).trans (firstFit_cons_some rfl hline)
    rw [hfit]

/-- A mark that is closed begins a block comment. -/
theorem first_block (before : Option Char) {rest : List Char} {n : Nat}
    (h : upTo ['/', '*'] ['*', '/'] ('/' :: '*' :: rest) = some n) :
    first before ('/' :: '*' :: rest) = (.blockComment, n) ∧ 4 ≤ n := by
  have hdelimited : delimited before ('/' :: '*' :: rest) = some (.blockComment, n) :=
    congrArg (Option.map (TokenKind.blockComment, ·)) h
  rw [first, hdelimited]
  rw [upTo] at h
  obtain ⟨m, -, rfl⟩ := Option.map_eq_some_iff.1 h
  refine ⟨rfl, ?_⟩
  simp only [List.length_cons, List.length_nil]
  omega

/-- **Where the first token is a comment.** -/
theorem isMarked_first {before : Option Char} {c : Char} {cs : List Char} {kind : TokenKind} {n : Nat}
    (h : first before (c :: cs) = (kind, n)) :
    isMarked ⟨kind, c :: cs.take (n - 1)⟩ = Comment.opens (c :: cs) := by
  rw [Bool.eq_iff_iff]
  constructor
  · intro hmarked
    rw [isMarked, Bool.and_eq_true, Bool.or_eq_true, List.isPrefixOf_iff_prefix,
      List.isPrefixOf_iff_prefix] at hmarked
    obtain ⟨hcomment, hmark⟩ := hmarked
    have hfront : c :: cs.take (n - 1) <+: c :: cs :=
      (List.prefix_cons_inj c).2 (List.take_prefix ..)
    rw [Comment.opens, Bool.or_eq_true, Bool.and_eq_true, List.isPrefixOf_iff_prefix,
      List.isPrefixOf_iff_prefix]
    refine hmark.imp (·.trans hfront) fun hblock => ⟨hblock.trans hfront, ?_⟩
    obtain ⟨rest, hrest⟩ := hblock.trans hfront
    obtain ⟨rfl, rfl⟩ := List.cons.inj hrest
    -- no rule for comments fits at a slash, so it is a delimited stretch
    rcases first_origin h with hfound | ⟨rule, hmem, rfl, hn⟩ | hother
    · rcases delimited_eq_some hfound with ⟨-, -, _, _, hdollar, -⟩ | ⟨-, _, -, hclosed⟩
      · cases hdollar
      · exact Option.isSome_iff_exists.2 ⟨n, hclosed⟩
    · rcases cases_of_mem_rules hmem with ⟨-, p, hp⟩ | ⟨hkind, -⟩ | ⟨hkind, -⟩ | hother
      · rw [hp, Pattern.andThen_eq_none rfl] at hn
        cases hn
      · simp [isComment, hkind] at hcomment
      · simp [isComment, hkind] at hcomment
      · simp only [List.mem_cons, List.not_mem_nil, or_false] at hother
        rcases hother with hkind | hkind | hkind | hkind <;> simp [isComment, hkind] at hcomment
    · simp only [List.mem_cons, List.not_mem_nil, or_false] at hother
      rcases hother with rfl | rfl | rfl | rfl <;> simp [isComment] at hcomment
  · intro hopens
    rcases Comment.opens_eq_true hopens with ⟨rest, hrest⟩ | ⟨rest, m, hrest, hm⟩
    · obtain ⟨rfl, rfl⟩ := List.cons.inj hrest
      obtain ⟨kind', n', hfirst, hkind, hlong⟩ := first_dashes before rest
      obtain ⟨rfl, rfl⟩ := Prod.mk.inj (h.symm.trans hfirst)
      obtain ⟨m, rfl⟩ := Nat.exists_eq_add_of_le' hlong
      rcases hkind with rfl | rfl <;> rfl
    · obtain ⟨rfl, rfl⟩ := List.cons.inj hrest
      obtain ⟨hfirst, hlong⟩ := first_block before hm
      obtain ⟨rfl, rfl⟩ := Prod.mk.inj (h.symm.trans hfirst)
      obtain ⟨m, rfl⟩ := Nat.exists_eq_add_of_le' hlong
      rfl

/-- Each token is the first of what is left of the text. -/
theorem exists_first (before : Option Char) {cs : List Char} {front back : List Token} {t : Token}
    (h : lexAfter before cs = front ++ t :: back) :
    ∃ before' c rest n, Statement.textOf (t :: back) = c :: rest ∧ first before' (c :: rest) = (t.kind, n) ∧
      t.text = c :: rest.take (n - 1) := by
  induction front generalizing before cs with
  | nil =>
    cases cs with
    | nil => cases h
    | cons c rest =>
      have htext : Statement.textOf (t :: back) = c :: rest := by
        rw [← List.nil_append (t :: back), ← h]
        exact lexFrom_texts ..
      rw [lexAfter_cons, List.nil_append] at h
      obtain ⟨rfl, -⟩ := List.cons.inj h
      exact ⟨before, c, rest, _, htext, rfl, rfl⟩
  | cons u front ih =>
    cases cs with
    | nil => cases h
    | cons c rest =>
      rw [lexAfter_cons, List.cons_append] at h
      exact ih _ (List.cons.inj h).2

end Token

/-! ## The two readers together -/

open Statement Token in
/-- **Which comments survive.** After the comments have been taken out of a script, a comment is found in it
if and only if a token begins with a mark of a comment where the text is quoted for the reader that takes
comments out. -/
theorem Comment.survives_iff (script : List Char) :
    (∃ t ∈ lex (strip script), t.isMarked = true) ↔
      ∃ front t back, lex (strip script) = front ++ t :: back ∧ opens (textOf (t :: back)) = true ∧
        (modeAfter .code none (textOf front) (textOf (t :: back))).inQuotes = true := by
  constructor
  · rintro ⟨t, hmem, hmarked⟩
    obtain ⟨front, back, hsplit⟩ := List.append_of_mem hmem
    obtain ⟨before, c, rest, n, hrest, hfirst, htext⟩ := exists_first none hsplit
    have hopens : opens (textOf (t :: back)) = true := by
      rw [hrest, ← isMarked_first hfirst, ← htext]
      exact hmarked
    have hscript : textOf front ++ textOf (t :: back) = strip script := by
      rw [← textOf_append, ← hsplit]
      exact textOf_lex _
    have hkept : stripFrom .code none (textOf front ++ textOf (t :: back))
        = textOf front ++ textOf (t :: back) := by
      rw [hscript]
      exact strip_strip script
    obtain ⟨hcode | hquotes, hrest'⟩ := shows_modeAfter (.inl rfl) hkept
    · rw [hcode] at hrest'
      exact absurd hrest' (stripFrom_ne_of_opens hopens _)
    · exact ⟨front, t, back, hsplit, hopens, hquotes⟩
  · rintro ⟨front, t, back, hsplit, hopens, -⟩
    obtain ⟨before, c, rest, n, hrest, hfirst, htext⟩ := exists_first none hsplit
    refine ⟨t, by rw [hsplit]; simp, ?_⟩
    rw [hrest, ← isMarked_first hfirst, ← htext] at hopens
    exact hopens

end SchemaSketch
