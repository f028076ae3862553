import SchemaSketch.Proofs.Sql.Comment
import SchemaSketch.Proofs.Sql.Depth
import SchemaSketch.Proofs.Sql.Heading

/-!
# Scripts that begin with an unclosed statement

A script begins with a `CREATE TABLE` whose column list is never closed (`Unclosed`), and goes on with
statements that are in order (`Closed`), each with a semicolon behind it.

* **Its tokens** are those of its statements, with the semicolons between them (`lex_script`), and it has
  no comments (`strip_script`).
* **The unclosed list** has no closing parenthesis, however much of it is read
  (`inParentheses?_ne_some`).
-/

namespace SchemaSketch

open Text

namespace Statement

/-! ## Scripts -/

/-- A text and others after it, with a semicolon behind each. -/
def script (first : List Char) (others : List (List Char)) : List Char :=
  first ++ ';' :: others.flatMap (· ++ [';'])

/-- A plain text without a semicolon that begins like the creation of a table and does not close the
column list. -/
structure Unclosed (cs : List Char) : Prop where
  /-- neither quotes nor comments begin in it -/
  plain : isPlain cs = true
  /-- there is no semicolon in it -/
  single : ';' ∉ cs
  /-- what follows the parenthesis of the column list closes no more than it opens -/
  opened : ∃ written rest, Heading.created (squeeze cs) = some (written, '(' :: rest) ∧
    (openAfter 0 rest).isSome = true

/-- A plain text without a semicolon and with balanced parentheses that creates a table. -/
structure Closed (cs : List Char) : Prop where
  /-- neither quotes nor comments begin in it -/
  plain : isPlain cs = true
  /-- it closes no bracket that was opened before it -/
  opensFirst : opensFirst cs = true
  /-- there is no semicolon in it -/
  single : ';' ∉ cs
  /-- it closes the parentheses that it opens, and no others -/
  balanced : openAfter 0 cs = some 0
  /-- it begins with the word `CREATE` -/
  creates : Heading.definingWord? (Token.lex cs) = some "CREATE".toList
  /-- it goes on with the name of a table and a parenthesis -/
  created : (Heading.created (squeeze cs)).isSome = true
  /-- none of its words opens or closes a block or ends a batch -/
  quiet : ∀ t ∈ Token.lex cs, t.isQuiet = true

theorem inner_lex {cs : List Char} (hplain : isPlain cs = true) (hsingle : ';' ∉ cs) :
    Inner (Token.lex cs) := by
  refine fun t ht => ⟨Token.plain_of_mem_lex hplain ht, fun hmem => hsingle ?_⟩
  rw [← textOf_lex cs]
  exact List.mem_flatMap.2 ⟨t, ht, hmem⟩

theorem Unclosed.inner {cs : List Char} (h : Unclosed cs) : Inner (Token.lex cs) :=
  inner_lex h.plain h.single

theorem Closed.inner {cs : List Char} (h : Closed cs) : Inner (Token.lex cs) :=
  inner_lex h.plain h.single

/-- A parenthesis is open at the end of an unclosed text. -/
theorem Unclosed.openAfter_lex {cs : List Char} (h : Unclosed cs) :
    ∃ m, openAfter 0 (textOf (Token.lex cs)) = some (m + 1) := by
  obtain ⟨written, rest, hcreated, hopen⟩ := h.opened
  obtain ⟨m, hm⟩ := Option.isSome_iff_exists.1 hopen
  obtain ⟨front, hfront, hneutral⟩ := Heading.exists_of_created (isPlain_squeeze h.plain) hcreated
  refine ⟨m, ?_⟩
  calc openAfter 0 (textOf (Token.lex cs)) = openAfter 0 cs := by rw [textOf_lex]
    _ = openAfter 0 (front ++ '(' :: rest) := by rw [← hfront, openAfter_squeeze]
    _ = openAfter 1 rest := by rw [openAfter_append, hneutral 0]; rfl
    _ = some (m + 1) := by rw [← Nat.zero_add 1]; exact openAfter_add hm 1

theorem Closed.openAfter_lex {cs : List Char} (h : Closed cs) :
    openAfter 0 (textOf (Token.lex cs)) = some 0 := by
  rw [textOf_lex]
  exact h.balanced

/-- The word that defines something opens a statement. -/
theorem Closed.opensNext {cs : List Char} (h : Closed cs) (rest : List Token) :
    opensNext (Token.lex cs ++ rest) = true := by
  have hcreates := h.creates
  rw [Heading.definingWord?] at hcreates
  split at hcreates
  · next t more hdrop =>
    split at hcreates
    · next hkind =>
      have hword : upper t.text = "CREATE".toList := Option.some.inj hcreates
      have hsplit := @List.takeWhile_append_dropWhile _ (fun t => t.isSpace || t.isComment)
        (Token.lex cs)
      -- no token is a comment, so there is only white space before the word
      have hbefore : ∀ b ∈ (Token.lex cs).takeWhile (fun t => t.isSpace || t.isComment),
          b.isSpace = true := by
        intro b hb
        have hskip := List.all_eq_true.1 List.all_takeWhile b hb
        rwa [(h.inner b (hsplit ▸ List.mem_append_left _ hb)).1.isComment_eq, Bool.or_false] at hskip
      have hfirst : t.isSpace = false := by
        rw [Token.isSpace, beq_iff_eq.1 hkind]
        rfl
      rw [Statement.opensNext, ← hsplit, hdrop, List.append_assoc, List.dropWhile_append_of_pos hbefore,
        List.cons_append, List.dropWhile_cons_of_neg (by simp [hfirst])]
      dsimp only
      rw [hword]
      decide
    · cases hcreates
  · cases hcreates

theorem trim_ne_nil_of_created {cs : List Char} (h : (Heading.created (squeeze cs)).isSome = true) :
    trim cs ≠ [] := by
  intro hnil
  rw [← squeeze_trim, hnil] at h
  exact absurd h (by decide)

theorem Unclosed.trim_ne_nil {cs : List Char} (h : Unclosed cs) : trim cs ≠ [] := by
  obtain ⟨written, rest, hcreated, -⟩ := h.opened
  exact trim_ne_nil_of_created (by rw [hcreated]; rfl)

theorem Closed.trim_ne_nil {cs : List Char} (h : Closed cs) : trim cs ≠ [] :=
  trim_ne_nil_of_created h.created

theorem opensFirst_append {cs rest : List Char} (hcs : Text.opensFirst cs = true)
    (hrest : Text.opensFirst rest = true) : Text.opensFirst (cs ++ ';' :: rest) = true := by
  rw [Text.opensFirst, List.dropWhile_append]
  split
  · rw [List.dropWhile_cons_of_pos (by decide)]
    exact hrest
  · next hsome =>
    rw [Text.opensFirst] at hcs
    cases hdrop : cs.dropWhile isInBracket with
    | nil => rw [hdrop] at hsome; exact absurd rfl hsome
    | cons c more => rw [hdrop] at hcs; exact hcs

/-- The tokens of statements, with a semicolon behind each. -/
def tokensOf (others : List (List Char)) : List Token :=
  others.flatMap fun S => Token.lex S ++ [Token.semicolon]

theorem tokensOf_cons (S : List Char) (others : List (List Char)) :
    tokensOf (S :: others) = Token.lex S ++ Token.semicolon :: tokensOf others :=
  List.append_assoc ..

section

variable {others : List (List Char)} (hothers : ∀ S ∈ others, Closed S)
include hothers

theorem opensFirst_others : Text.opensFirst (others.flatMap (· ++ [';'])) = true := by
  induction others with
  | nil => rfl
  | cons S others ih =>
    obtain ⟨hS, hothers⟩ := List.forall_mem_cons.1 hothers
    rw [List.flatMap_cons, List.append_assoc]
    exact opensFirst_append hS.opensFirst (ih hothers)

theorem lex_others : Token.lex (others.flatMap (· ++ [';'])) = tokensOf others := by
  induction others with
  | nil => rfl
  | cons S others ih =>
    obtain ⟨hS, hothers⟩ := List.forall_mem_cons.1 hothers
    rw [List.flatMap_cons, List.append_assoc, List.singleton_append, tokensOf_cons,
      Token.lex_append hS.plain (opensFirst_others hothers), ih hothers]

/-- **The tokens of a script** are those of its statements. -/
theorem lex_script {first : List Char} (hfirst : isPlain first = true) :
    Token.lex (script first others) = Token.lex first ++ Token.semicolon :: tokensOf others := by
  rw [script, Token.lex_append hfirst (opensFirst_others hothers), lex_others hothers]

/-- A script has no comments. -/
theorem strip_script {first : List Char} (hfirst : isPlain first = true) :
    Comment.strip (script first others) = script first others := by
  have hrest : ∀ before, Comment.stripFrom .code before (others.flatMap (· ++ [';']))
      = others.flatMap (· ++ [';']) := by
    induction others with
    | nil => exact fun _ => rfl
    | cons S others ih =>
      obtain ⟨hS, hothers⟩ := List.forall_mem_cons.1 hothers
      intro before
      rw [List.flatMap_cons, List.append_assoc, List.singleton_append,
        Comment.stripFrom_append hS.plain (opensFirst_others hothers), ih hothers]
  rw [Comment.strip, script, Comment.stripFrom_append hfirst (opensFirst_others hothers), hrest]

/-- The semicolon before them is one after which a statement is opened. -/
theorem opensNext_tokensOf (hne : others ≠ []) : opensNext (tokensOf others) = true := by
  obtain ⟨S, others, rfl⟩ := List.exists_cons_of_ne_nil hne
  rw [tokensOf_cons]
  exact (hothers S (List.mem_cons_self ..)).opensNext _

/-- None of their semicolons stands inside parentheses. -/
theorem recoverFrom_tokensOf (current : List Token) :
    recoverFrom 0 current (tokensOf others) = [current.reverse ++ tokensOf others] := by
  induction others generalizing current with
  | nil => rw [tokensOf, List.flatMap_nil, recoverFrom, List.append_nil]
  | cons S others ih =>
    obtain ⟨hS, hothers⟩ := List.forall_mem_cons.1 hothers
    have hclosed : ¬ (0 < 0 ∧ opensNext (tokensOf others) = true) := fun h => Nat.lt_irrefl 0 h.1
    rw [tokensOf_cons, recoverFrom_append hS.inner hS.openAfter_lex, recoverFrom_semicolon,
      if_neg hclosed, ih hothers]
    simp

end

/-! ## Reading the unclosed text -/

/-- The segments leave out white space at the end and nothing else. -/
theorem exists_flatten_cutFrom (s : Blocks) (current ts : List Token) :
    ∃ spaces, (∀ t ∈ spaces, t.isSpace = true) ∧
      current.reverse ++ ts = (Script.cutFrom s current ts).flatten ++ spaces := by
  induction ts generalizing s current with
  | nil =>
    rw [Script.cutFrom, List.append_nil]
    split
    · next hspace =>
      exact ⟨current.reverse, fun t ht => List.all_eq_true.1 hspace t (List.mem_reverse.1 ht), rfl⟩
    · exact ⟨[], fun t ht => absurd ht List.not_mem_nil, by simp⟩
  | cons t rest ih =>
    rw [Script.cutFrom]
    split
    · obtain ⟨spaces, hspaces, h⟩ := ih (Blocks.next {} t) [t]
      refine ⟨spaces, hspaces, ?_⟩
      rw [List.flatten_cons, List.append_assoc, ← h]
      rfl
    · obtain ⟨spaces, hspaces, h⟩ := ih (s.next t) (t :: current)
      rw [List.reverse_cons, List.append_assoc] at h
      exact ⟨spaces, hspaces, h⟩

/-- The tokens of the segments are tokens of the script. -/
theorem flatten_cutFrom (s : Blocks) (current ts : List Token) :
    (Script.cutFrom s current ts).flatten <+: current.reverse ++ ts := by
  obtain ⟨spaces, -, h⟩ := exists_flatten_cutFrom s current ts
  exact ⟨spaces, h.symm⟩

/-- No parenthesis is the closing one of a list if what follows its beginning closes no more than it
opens. -/
theorem untilClosed_eq_none {ts : List Token} (hts : ∀ t ∈ ts, t.Plain) {n m : Nat}
    (h : openAfter n (textOf ts) = some m) (inner : List Token) :
    untilClosed (n + 1) inner ts = none := by
  induction ts generalizing n inner with
  | nil => rfl
  | cons t ts ih =>
    obtain ⟨hplain, hrest⟩ := List.forall_mem_cons.1 hts
    rw [untilClosed]
    rcases hplain.mark_or_neutral with rfl | rfl | ⟨hneutral, hopen, hclose⟩
    · rw [if_pos (by decide), if_neg (by rw [beq_iff_eq]; omega)]
      exact @ih hrest (n + 1) h _
    · rw [if_neg (by decide), if_pos (by decide)]
      have hstep : openAfter n (textOf (⟨.punctuation, [')']⟩ :: ts))
          = if n = 0 then none else openAfter (n - 1) (textOf ts) := rfl
      rw [hstep] at h
      split at h
      · cases h
      · next hn =>
        obtain ⟨k, rfl⟩ := Nat.exists_eq_succ_of_ne_zero hn
        rw [if_neg (by rw [beq_iff_eq]; omega)]
        have hdepth : ((k.succ : Nat) : Int) + 1 - 1 = (k : Int) + 1 := by omega
        rw [hdepth]
        exact @ih hrest k h _
    · rw [hopen, hclose]
      have hsplit : textOf (t :: ts) = t.text ++ textOf ts := rfl
      rw [hsplit, openAfter_append, hneutral n] at h
      exact ih hrest h _

/-- A parenthesis at the front is a token. -/
theorem lex_paren (rest : List Char) :
    Token.lex ('(' :: rest) = ⟨.punctuation, ['(']⟩ :: Token.lexAfter (some '(') rest := by
  have h := Token.lexAfter_cons none '(' rest
  rw [Token.first_mark (.inl rfl)] at h
  exact h

/-- Not even a part of the tokens of an unclosed list closes the parenthesis at the front. -/
theorem untilClosed_of_prefix {rest : List Char} (hrest : isPlain rest = true) {m : Nat}
    (hopen : openAfter 0 rest = some m) {read : List Token} (hread : read <+: Token.lex ('(' :: rest)) :
    untilClosed 0 [] read = none := by
  have htext : textOf (Token.lexAfter (some '(') rest) = rest := by
    have h := textOf_lex ('(' :: rest)
    rw [lex_paren] at h
    exact (List.cons.inj h).2
  rw [lex_paren] at hread
  cases read with
  | nil => rfl
  | cons t front =>
    obtain ⟨rfl, back, hback⟩ := List.cons_prefix_cons.1 hread
    have hplain : ∀ t ∈ front, t.Plain := fun t ht =>
      Token.plain_of_mem_lexAfter hrest (hback ▸ List.mem_append_left _ ht)
    rw [← htext, ← hback, textOf_append, openAfter_append, Option.bind_eq_some_iff] at hopen
    obtain ⟨k, hk, -⟩ := hopen
    rw [untilClosed, if_pos (by decide), if_pos (by decide)]
    exact untilClosed_eq_none hplain hk []

/-- The parenthesis at the front of an unclosed list has no closing one. -/
theorem inParentheses?_ne_some {rest : List Char} (hrest : isPlain rest = true)
    (hopen : (openAfter 0 rest).isSome = true) (body : List Char) :
    inParentheses? ('(' :: rest) ≠ .ok (some body) := by
  intro h
  obtain ⟨m, hm⟩ := Option.isSome_iff_exists.1 hopen
  have hnone := untilClosed_of_prefix hrest hm (flatten_cutFrom {} [] (Token.lex ('(' :: rest)))
  rw [inParentheses?, Script.tokens, Script.segments] at h
  cases hcheck : (Script.cut (Token.lex ('(' :: rest))).forM Script.check with
  | error cause =>
    rw [hcheck] at h
    cases h
  | ok _ =>
    rw [hcheck] at h
    have hsome : untilClosed 0 [] (Script.cut (Token.lex ('(' :: rest))).flatten = some body :=
      Except.ok.inj h
    cases hnone.symm.trans hsome

end Statement
end SchemaSketch
