import SchemaSketch.Proofs.Sql.Body
import SchemaSketch.Proofs.Sql.Rules

/-!
# Tokens of plain text

A plain text is cut into the same tokens whatever stands behind the semicolon that follows it
(`lex_append`), since all rules of the token grammar are tame. Of its tokens much is known (`Plain`): a
parenthesis is a token by itself, any other token leaves the count of open parentheses as it was, none is
a comment, and those that count as white space are the blank ones.
-/

namespace SchemaSketch

open Text

namespace Token

open Pattern

/-! ## The first token -/

theorem firstFit_eq_some {before : Option Char} {cs : List Char} {l : List Rule} {kind : TokenKind}
    {n : Nat} (h : firstFit before cs l = some (kind, n)) :
    ∃ rule ∈ l, rule.kind = kind ∧ rule.pattern cs = some n := by
  induction l with
  | nil => cases h
  | cons rule rest ih =>
    rw [firstFit] at h
    split at h
    · split at h
      · next m hm =>
        cases h
        exact ⟨rule, List.mem_cons_self .., rfl, hm⟩
      · obtain ⟨rule', hmem, hrule'⟩ := ih h
        exact ⟨rule', List.mem_cons_of_mem _ hmem, hrule'⟩
    · obtain ⟨rule', hmem, hrule'⟩ := ih h
      exact ⟨rule', List.mem_cons_of_mem _ hmem, hrule'⟩

theorem firstFit_cons_none {before : Option Char} {cs : List Char} {rule : Rule} {l : List Rule}
    (h : rule.pattern cs = none) : firstFit before cs (rule :: l) = firstFit before cs l := by
  rw [firstFit, h]
  split <;> rfl

theorem firstFit_cons_some {before : Option Char} {cs : List Char} {rule : Rule} {l : List Rule}
    {n : Nat} (hafter : rule.after before = true) (h : rule.pattern cs = some n) :
    firstFit before cs (rule :: l) = some (rule.kind, n) := by
  rw [firstFit, if_pos hafter, h]

theorem firstFit_congr {before before' : Option Char} {cs cs' : List Char} {l : List Rule}
    (hafter : ∀ rule ∈ l, rule.after before = rule.after before')
    (hpattern : ∀ rule ∈ l, rule.pattern cs = rule.pattern cs') :
    firstFit before cs l = firstFit before' cs' l := by
  induction l with
  | nil => rfl
  | cons rule rest ih =>
    obtain ⟨hafter, hafters⟩ := List.forall_mem_cons.1 hafter
    obtain ⟨hpattern, hpatterns⟩ := List.forall_mem_cons.1 hpattern
    rw [firstFit, firstFit, hafter, hpattern, ih hafters hpatterns]

theorem firstFit_eq_none {before : Option Char} {cs : List Char} {l : List Rule}
    (h : ∀ rule ∈ l, rule.pattern cs = none) : firstFit before cs l = none := by
  rw [Option.eq_none_iff_forall_ne_some]
  rintro ⟨kind, n⟩ hfit
  obtain ⟨rule, hmem, -, hn⟩ := firstFit_eq_some hfit
  rw [h rule hmem] at hn
  cases hn

/-- No rule but the one for punctuation covers a parenthesis or a semicolon at the front. -/
theorem rules_mark {c : Char} (hc : c = '(' ∨ c = ')' ∨ c = ';') (cs : List Char) :
    ∀ rule ∈ rules, rule.pattern (c :: cs) = none := by
  simp only [rules, nameRules, literalRules, phraseRules, List.cons_append, List.nil_append,
    List.forall_mem_cons, List.not_mem_nil, false_implies, implies_true, and_true]
  rcases hc with rfl | rfl | rfl
  all_goals
    and_intros
    all_goals rfl

theorem first_mark {c : Char} (hc : c = '(' ∨ c = ')' ∨ c = ';') (before : Option Char)
    (cs : List Char) : first before (c :: cs) = (.punctuation, 1) := by
  have hrules := @firstFit_eq_none before _ _ (rules_mark hc cs)
  rcases hc with rfl | rfl | rfl
  all_goals
    rw [first, hrules]
    rfl

/-- No tag stands between two dollar signs of a plain text. -/
theorem tag_eq_none {f : Char → Bool} (hf : ∀ c, f c = true → isTagChar c = true) {rest : List Char}
    (h : isCalm rest '$' = true) :
    (char '$' >> optional (one f >> many isWord) >> char '$') ('$' :: rest) = none := by
  rw [Option.eq_none_iff_forall_ne_some]
  intro n hn
  have hdollar : f '$' = false := Bool.eq_false_iff.2 fun h => absurd (hf _ h) (by decide)
  obtain ⟨w, more, hsplit, hw, -⟩ := (Comment.tagged_eq_some hdollar).1 hn
  rw [Comment.mark_append] at hsplit
  obtain rfl : rest = w ++ '$' :: more := (List.cons.inj hsplit).2
  have htag : ∀ c ∈ w, isTagChar c = true := by
    rcases hw with rfl | ⟨a, v, rfl, ha, hv⟩
    · exact fun c hc => absurd hc List.not_mem_nil
    · exact List.forall_mem_cons.2 ⟨hf a ha, fun c hc => by rw [isTagChar, hv c hc]; rfl⟩
  rw [isCalm, dropWhile_append_cons htag (by decide)] at h
  cases h

theorem stops_bodyTag : Stops bodyTag :=
  (stops_one (by decide)).andThen
    (((tame_one (by decide)).andThen (tame_many (by decide))).optional.toStops.andThen
      (stops_one (by decide)))

/-- No delimited stretch begins in a plain text, whatever follows. -/
theorem delimited_eq_none {c : Char} {cs : List Char} (hcs : isPlain (c :: cs) = true)
    (before : Option Char) {more : List Char}
    (hmore : more = [] ∨ ∃ rest, more = ';' :: rest ∧ opensFirst rest = true) :
    delimited before (c :: (cs ++ more)) = none := by
  have hcalm : isCalm cs c = true := (isPlain_cons hcs).1
  rw [delimited.eq_def]
  split
  · next hsplit =>
    obtain ⟨rfl, -⟩ := List.cons.inj hsplit
    have htag : bodyTag ('$' :: (cs ++ more)) = none := by
      have halone : bodyTag ('$' :: cs) = none := tag_eq_none (fun c hc => by simp [isTagChar, hc]) hcalm
      rcases hmore with rfl | ⟨rest, rfl, hrest⟩
      · rw [List.append_nil, halone]
      · exact (stops_bodyTag.eq ('$' :: cs) rest hcs hrest).trans halone
    rw [htag]
    split <;> rfl
  · next hsplit =>
    obtain ⟨rfl, hrest⟩ := List.cons.inj hsplit
    have hhead : cs.head? ≠ some '*' := by simpa [isCalm] using hcalm
    cases cs with
    | nil =>
      rcases hmore with rfl | ⟨rest, rfl, -⟩
      · cases hrest
      · cases hrest
    | cons d cs =>
      cases hrest
      exact absurd rfl hhead
  · rfl

/-- What the rules for signs cover in a plain text. -/
theorem tame_of_mem_signRules {rule : Rule} (h : rule ∈ signRules) :
    rule.pattern = one isPunctuationMark ∨ Tame rule.pattern := by
  simp only [signRules, List.mem_cons, List.not_mem_nil, or_false] at h
  rcases h with rfl | rfl | rfl | rfl
  · exact .inl rfl
  · exact .inr tame_operator
  · exact .inr (tame_many1 (by decide))
  · exact .inr (tame_many1 (by decide))

theorem first_append {c : Char} {cs rest : List Char} (before : Option Char)
    (hcs : isPlain (c :: cs) = true) (hrest : opensFirst rest = true) :
    first before (c :: (cs ++ ';' :: rest)) = first before (c :: cs) := by
  have hlong := delimited_eq_none hcs before (.inr ⟨rest, rfl, hrest⟩)
  have hshort := delimited_eq_none hcs before (.inl rfl)
  rw [List.append_nil] at hshort
  have hrules : firstFit before (c :: (cs ++ ';' :: rest)) rules = firstFit before (c :: cs) rules :=
    firstFit_congr (fun _ _ => rfl) fun rule hrule => (tame_rules rule hrule).eq (c :: cs) rest hcs hrest
  have hsigns : firstFit before (c :: (cs ++ ';' :: rest)) signRules
      = firstFit before (c :: cs) signRules := by
    refine firstFit_congr (fun _ _ => rfl) fun rule hrule => ?_
    rcases tame_of_mem_signRules hrule with hpattern | htame
    · rw [hpattern]
      rfl
    · exact htame.eq (c :: cs) rest hcs hrest
  have hword : plainWord (c :: (cs ++ ';' :: rest)) = plainWord (c :: cs) :=
    tame_plainWord.eq (c :: cs) rest hcs hrest
  rw [first, first, hlong, hshort, hrules, hsigns, hword]
  cases hn : plainWord (c :: cs) with
  | none => rfl
  | some n =>
    have hbound : n ≤ (c :: cs).length := tame_plainWord.bounded _ n hcs hn
    have htake : (c :: cs ++ ';' :: rest).take n = (c :: cs).take n :=
      List.take_append_of_le_length hbound
    rw [List.cons_append] at htake
    dsimp only
    rw [htake]

/-- The kinds of tokens that are neither white space nor comments. -/
abbrev solidKinds : List TokenKind := [.punctuation, .keyword, .definer, .other]

/-- What kinds the rules give: comments begin with their mark, white space comes from two rules, and the
other rules give neither. -/
theorem cases_of_mem_rules {rule : Rule} (h : rule ∈ rules) :
    ((rule.kind = .hintComment ∨ rule.kind = .lineComment) ∧ ∃ p, rule.pattern = commentMark >> p) ∨
      (rule.kind = .newline ∧ rule.pattern = lineEnd) ∨
      (rule.kind = .blank ∧ rule.pattern = one isBlank) ∨
      rule.kind ∈ solidKinds := by
  have hothers : ∀ rule ∈ nameRules.drop 4 ++ literalRules ++ phraseRules,
      rule.kind ∈ solidKinds := by decide
  rcases List.mem_cons.1 h with rfl | h
  · exact .inl ⟨.inl rfl, _, rfl⟩
  rcases List.mem_cons.1 h with rfl | h
  · exact .inl ⟨.inr rfl, _, rfl⟩
  rcases List.mem_cons.1 h with rfl | h
  · exact .inr (.inl ⟨rfl, rfl⟩)
  rcases List.mem_cons.1 h with rfl | h
  · exact .inr (.inr (.inl ⟨rfl, rfl⟩))
  · exact .inr (.inr (.inr (hothers rule h)))

/-- In a plain text the rules for comments never fit. -/
theorem kinds_of_mem_rules {rule : Rule} (h : rule ∈ rules) :
    Absent rule.pattern ∨ (rule.kind = .newline ∧ rule.pattern = lineEnd) ∨
      (rule.kind = .blank ∧ rule.pattern = one isBlank) ∨
      rule.kind ∈ solidKinds := by
  refine (cases_of_mem_rules h).imp_left ?_
  rintro ⟨-, p, hp⟩
  exact hp ▸ absent_commentMark.andThen p

/-- A delimited stretch is a tagged body or a block comment. -/
theorem delimited_eq_some {before : Option Char} {cs : List Char} {kind : TokenKind} {n : Nat}
    (h : delimited before cs = some (kind, n)) :
    (kind = .other ∧ bodyMayBegin before = true ∧ ∃ rest k, cs = '$' :: rest ∧
      bodyTag cs = some k ∧ upTo (cs.take k) (cs.take k) cs = some n) ∨
    (kind = .blockComment ∧ ∃ rest, cs = '/' :: '*' :: rest ∧
      upTo ['/', '*'] ['*', '/'] cs = some n) := by
  rw [delimited.eq_def] at h
  split at h
  · next rest =>
    split at h
    · next hbefore =>
      split at h
      · next k hk =>
        obtain ⟨m, hm, heq⟩ := Option.map_eq_some_iff.1 h
        cases heq
        exact .inl ⟨rfl, hbefore, rest, k, rfl, hk, hm⟩
      · cases h
    · cases h
  · next rest =>
    obtain ⟨m, hm, heq⟩ := Option.map_eq_some_iff.1 h
    cases heq
    exact .inr ⟨rfl, rest, rfl, hm⟩
  · cases h

/-- Where the first token of a text comes from. -/
inductive Origin (before : Option Char) (cs : List Char) : TokenKind → Nat → Prop where
  /-- it is a delimited stretch -/
  | stretch {kind : TokenKind} {n : Nat} (h : delimited before cs = some (kind, n)) : Origin before cs kind n
  /-- a rule fits -/
  | rule (hdelimited : delimited before cs = none) {r : Rule} {n : Nat} (hmem : r ∈ rules)
      (h : r.pattern cs = some n) : Origin before cs r.kind n
  /-- it is a word that no rule knows -/
  | word (hdelimited : delimited before cs = none) {n : Nat} (h : plainWord cs = some n) :
      Origin before cs (wordKind (cs.take n)) n
  /-- a rule for signs fits -/
  | sign (hdelimited : delimited before cs = none) {r : Rule} {n : Nat} (hmem : r ∈ signRules)
      (h : r.pattern cs = some n) : Origin before cs r.kind n
  /-- nothing fits, and it is a single character -/
  | single (hdelimited : delimited before cs = none) : Origin before cs .other 1

theorem origin_of_first {before : Option Char} {cs : List Char} {kind : TokenKind} {n : Nat}
    (h : first before cs = (kind, n)) : Origin before cs kind n := by
  rw [first] at h
  cases hdelimited : delimited before cs with
  | some found =>
    rw [hdelimited] at h
    exact .stretch (hdelimited.trans (congrArg some h))
  | none =>
    rw [hdelimited] at h
    dsimp only at h
    cases hfit : firstFit before cs rules with
    | some found =>
      rw [hfit] at h
      obtain ⟨rule, hmem, rfl, hn⟩ := firstFit_eq_some (hfit.trans (congrArg some h))
      exact .rule hdelimited hmem hn
    | none =>
      rw [hfit] at h
      dsimp only at h
      cases hword : plainWord cs with
      | some m =>
        rw [hword] at h
        cases h
        exact .word hdelimited hword
      | none =>
        rw [hword] at h
        dsimp only at h
        cases hsign : firstFit before cs signRules with
        | some found =>
          rw [hsign] at h
          obtain ⟨rule, hmem, rfl, hn⟩ := firstFit_eq_some (hsign.trans (congrArg some h))
          exact .sign hdelimited hmem hn
        | none =>
          rw [hsign] at h
          cases h
          exact .single hdelimited

theorem wordKind_mem (word : List Char) : wordKind word ∈ solidKinds := by
  rw [wordKind]
  split
  · decide
  split <;> decide

theorem kind_mem_of_mem_signRules : ∀ rule ∈ signRules, rule.kind ∈ solidKinds := by decide

/-- White space and comments are delimited stretches or come from a rule. -/
theorem first_origin {before : Option Char} {cs : List Char} {kind : TokenKind} {n : Nat}
    (h : first before cs = (kind, n)) :
    delimited before cs = some (kind, n) ∨
      (∃ rule ∈ rules, rule.kind = kind ∧ rule.pattern cs = some n) ∨ kind ∈ solidKinds := by
  cases origin_of_first h with
  | stretch h => exact .inl h
  | @rule _ r _ hmem h => exact .inr (.inl ⟨r, hmem, rfl, h⟩)
  | word _ _ => exact .inr (.inr (wordKind_mem _))
  | @sign _ r _ hmem _ => exact .inr (.inr (kind_mem_of_mem_signRules r hmem))
  | single _ => exact .inr (.inr (by decide))

/-- Where the first token of a plain text comes from. -/
theorem first_cases {c : Char} {cs : List Char} (hcs : isPlain (c :: cs) = true)
    (before : Option Char) {kind : TokenKind} {n : Nat} (h : first before (c :: cs) = (kind, n)) :
    (∃ rule ∈ rules, rule.kind = kind ∧ rule.pattern (c :: cs) = some n) ∨
      (kind ∈ solidKinds ∧ n ≤ (c :: cs).length ∧ (isParen c = false → Neutral ((c :: cs).take n))) := by
  have hone : isParen c = false → Neutral ((c :: cs).take 1) := fun hc =>
    neutral_of_forall fun x hx => List.mem_singleton.1 hx ▸ hc
  cases origin_of_first h with
  | stretch hfound =>
    have hdelimited := delimited_eq_none hcs before (.inl rfl)
    rw [List.append_nil, hfound] at hdelimited
    cases hdelimited
  | @rule _ r _ hmem h => exact .inl ⟨r, hmem, rfl, h⟩
  | word _ hn =>
    exact .inr ⟨wordKind_mem _, tame_plainWord.bounded _ n hcs hn, fun _ => tame_plainWord.closes _ n hcs hn⟩
  | @sign _ r _ hmem hn =>
    refine .inr ⟨kind_mem_of_mem_signRules r hmem, ?_⟩
    rcases tame_of_mem_signRules hmem with hpattern | htame
    · rw [hpattern] at hn
      obtain ⟨_, _, -, -, rfl⟩ := one_eq_some.1 hn
      exact ⟨by simp, hone⟩
    · exact ⟨htame.bounded _ n hcs hn, fun _ => htame.closes _ n hcs hn⟩
  | single _ => exact .inr ⟨by decide, by simp, hone⟩

theorem bound_first {c : Char} {cs : List Char} (hcs : isPlain (c :: cs) = true)
    (before : Option Char) : (first before (c :: cs)).2 ≤ (c :: cs).length := by
  rcases first_cases hcs before rfl with ⟨rule, hmem, -, hn⟩ | ⟨-, hn, -⟩
  · exact (tame_rules rule hmem).bounded _ _ hcs hn
  · exact hn

/-- A line end is made of blanks. -/
theorem isBlank_of_lineEnd {cs : List Char} {n : Nat} (h : lineEnd cs = some n) :
    0 < n ∧ (cs.take n).all isBlank = true := by
  rcases eq_some_of_orElse h with h | h
  · obtain ⟨hfirst, hsecond⟩ := heads_of_exactly h
    obtain ⟨rest, rfl⟩ := List.head?_eq_some_iff.1 hfirst
    obtain ⟨rest', hrest⟩ := List.head?_eq_some_iff.1 hsecond
    obtain rfl : rest = '\n' :: rest' := hrest
    cases h
    exact ⟨by decide, rfl⟩
  rcases eq_some_of_orElse h with h | h
  all_goals
    obtain ⟨hhead, rfl⟩ := char_eq_some.1 h
    obtain ⟨rest, rfl⟩ := List.head?_eq_some_iff.1 hhead
    exact ⟨by decide, rfl⟩

/-- At a blank stands a token of white space. -/
theorem first_blank {c : Char} (hc : isBlank c = true) (before : Option Char) (cs : List Char) :
    (∃ n, first before (c :: cs) = (.newline, n) ∧ lineEnd (c :: cs) = some n) ∨
      (first before (c :: cs) = (.blank, 1) ∧ lineEnd (c :: cs) = none) := by
  have hne : ∀ {x : Char}, isBlank x = false → c ≠ x := by
    rintro x hx rfl
    rw [hc] at hx
    cases hx
  have hdelimited : delimited before (c :: cs) = none := by
    rw [delimited.eq_def]
    split
    · next h => exact absurd (List.cons.inj h).1 (hne (by decide))
    · next h => exact absurd (List.cons.inj h).1 (hne (by decide))
    · rfl
  have hcomment : ∀ p, (commentMark >> p) (c :: cs) = none := by
    intro p
    refine andThen_eq_none ?_
    rw [Option.eq_none_iff_forall_ne_some]
    intro n hn
    rcases eq_some_of_orElse hn with h | h
    · exact hne (by decide) (Option.some.inj (heads_of_exactly h).1)
    · exact hne (by decide) (Option.some.inj (heads_of_exactly h).1)
  have hone : one isBlank (c :: cs) = some 1 := one_eq_some.2 ⟨c, cs, rfl, hc, rfl⟩
  -- the rules for comments come first, then those for line ends and blanks
  have hfit : firstFit before (c :: cs) rules
      = (lineEnd (c :: cs)).elim (some (.blank, 1)) fun n => some (.newline, n) := by
    refine (firstFit_cons_none (hcomment _)).trans ((firstFit_cons_none (hcomment _)).trans ?_)
    cases hend : lineEnd (c :: cs) with
    | some n => exact firstFit_cons_some rfl hend
    | none => exact (firstFit_cons_none hend).trans (firstFit_cons_some rfl hone)
  rw [first, hdelimited, hfit]
  cases lineEnd (c :: cs) with
  | some n => exact .inl ⟨n, rfl, rfl⟩
  | none => exact .inr ⟨rfl, rfl⟩

/-! ## All tokens -/

theorem length_drop_le {cs : List Char} {n k : Nat} (h : cs.length + 1 ≤ k + 1) :
    (cs.drop n).length ≤ k := by
  rw [List.length_drop]
  omega

/-- More rounds than there are characters make no difference. -/
theorem lexFrom_congr {rounds rounds' : Nat} {before : Option Char} {cs : List Char}
    (h : cs.length ≤ rounds) (h' : cs.length ≤ rounds') :
    lexFrom rounds before cs = lexFrom rounds' before cs := by
  induction rounds generalizing rounds' before cs with
  | zero =>
    obtain rfl := List.length_eq_zero_iff.1 (Nat.le_zero.1 h)
    cases rounds' <;> rfl
  | succ rounds ih =>
    cases cs with
    | nil => cases rounds' <;> rfl
    | cons c rest =>
      cases rounds' with
      | zero => cases h'
      | succ rounds' =>
        rw [List.length_cons] at h h'
        rw [lexFrom, lexFrom]
        exact congrArg _ (ih (length_drop_le h) (length_drop_le h'))

/-- The tokens of a text that stands after a character. -/
def lexAfter (before : Option Char) (cs : List Char) : List Token := lexFrom cs.length before cs

theorem lexAfter_cons (before : Option Char) (c : Char) (rest : List Char) :
    lexAfter before (c :: rest) =
      let (kind, n) := first before (c :: rest)
      let text := c :: rest.take (n - 1)
      ⟨kind, text⟩ :: lexAfter text.getLast? (rest.drop (n - 1)) := by
  rw [lexAfter, List.length_cons, lexFrom]
  exact congrArg _ (lexFrom_congr (length_drop_le (Nat.le_refl _)) (Nat.le_refl _))

/-- A character before which nothing is forbidden is as good as none. -/
theorem lexAfter_eq_lex {before : Option Char} (hrules : ∀ rule ∈ rules, rule.after before = rule.after none)
    (hbody : bodyMayBegin before = true) (cs : List Char) : lexAfter before cs = lex cs := by
  cases cs with
  | nil => rfl
  | cons c rest =>
    have hfirst : first before (c :: rest) = first none (c :: rest) := by
      have hdelimited : delimited before (c :: rest) = delimited none (c :: rest) := by
        rw [delimited.eq_def, delimited.eq_def, hbody]
        rfl
      have hsigns : firstFit before (c :: rest) signRules = firstFit none (c :: rest) signRules := rfl
      rw [first, first, hdelimited, firstFit_congr hrules fun _ _ => rfl, hsigns]
    rw [lexAfter_cons, hfirst]
    exact (lexAfter_cons none c rest).symm

/-- A semicolon before a text is as good as nothing before it. -/
theorem lexAfter_semicolon (cs : List Char) : lexAfter (some ';') cs = lex cs :=
  lexAfter_eq_lex (by decide) rfl cs

/-- So is a line end. -/
theorem lexAfter_newline (cs : List Char) : lexAfter (some '\n') cs = lex cs :=
  lexAfter_eq_lex (by decide) rfl cs

/-- The token of a semicolon. -/
def semicolon : Token := ⟨.punctuation, [';']⟩

theorem lexAfter_append (before : Option Char) {cs rest : List Char} (hcs : isPlain cs = true)
    (hrest : opensFirst rest = true) :
    lexAfter before (cs ++ ';' :: rest) = lexAfter before cs ++ semicolon :: lex rest := by
  -- the induction is on the length: each token takes at least one character
  induction hlength : cs.length using Nat.strongRecOn generalizing before cs with
  | _ length ih =>
    cases cs with
    | nil =>
      rw [List.nil_append, lexAfter_cons, first_mark (.inr (.inr rfl)) before rest]
      exact congrArg (semicolon :: ·) (lexAfter_semicolon rest)
    | cons c cs =>
      have hbound := bound_first hcs before
      rw [List.length_cons] at hbound hlength
      rw [List.cons_append, lexAfter_cons, lexAfter_cons, first_append before hcs hrest]
      generalize first before (c :: cs) = found at hbound
      obtain ⟨kind, n⟩ := found
      have hn : n - 1 ≤ cs.length := by
        dsimp only at hbound
        omega
      dsimp only
      rw [List.take_append_of_le_length hn, List.drop_append_of_le_length hn,
        ih (cs.drop (n - 1)).length (by rw [List.length_drop]; omega) _
          (isPlain_drop (isPlain_cons hcs).2 _) rfl]
      rfl

/-- **A plain text has its own tokens**, whatever stands behind a semicolon after it. -/
theorem lex_append {cs rest : List Char} (hcs : isPlain cs = true) (hrest : opensFirst rest = true) :
    lex (cs ++ ';' :: rest) = lex cs ++ semicolon :: lex rest :=
  lexAfter_append none hcs hrest

/-! ## One token -/

/-- What is known of a token of a plain text. -/
structure Plain (t : Token) : Prop where
  /-- it is a parenthesis or leaves the count of open parentheses as it was -/
  mark_or_neutral : t = ⟨.punctuation, ['(']⟩ ∨ t = ⟨.punctuation, [')']⟩ ∨
    (Neutral t.text ∧ t.isMark '(' = false ∧ t.isMark ')' = false)
  /-- it is no comment -/
  isComment_eq : t.isComment = false
  /-- it is white space if it is blank -/
  isSpace_eq : t.isSpace = t.text.all isBlank

/-- The stretch that a token takes, by its first character. -/
theorem take_eq_cons {c : Char} {cs : List Char} {n : Nat} (hn : 0 < n) :
    (c :: cs).take n = c :: cs.take (n - 1) := by
  obtain ⟨m, rfl⟩ := Nat.exists_eq_add_of_lt hn
  rw [Nat.zero_add, List.take_succ_cons]
  rfl

theorem kind_first {c : Char} {cs : List Char} (hcs : isPlain (c :: cs) = true)
    (before : Option Char) {kind : TokenKind} {n : Nat} (h : first before (c :: cs) = (kind, n)) :
    (kind = .newline ∧ lineEnd (c :: cs) = some n) ∨ (kind = .blank ∧ isBlank c = true ∧ n = 1) ∨
      kind ∈ solidKinds := by
  rcases first_cases hcs before h with ⟨rule, hmem, rfl, hn⟩ | ⟨hkind, -⟩
  · rcases kinds_of_mem_rules hmem with habsent | ⟨hkind, hpattern⟩ | ⟨hkind, hpattern⟩ | hkind
    · rw [habsent.alone _ hcs] at hn
      cases hn
    · exact .inl ⟨hkind, hpattern ▸ hn⟩
    · rw [hpattern] at hn
      obtain ⟨x, rest, hx, hblank, rfl⟩ := one_eq_some.1 hn
      cases hx
      exact .inr (.inl ⟨hkind, hblank, rfl⟩)
    · exact .inr (.inr hkind)
  · exact .inr (.inr hkind)

theorem neutral_first {c : Char} {cs : List Char} (hcs : isPlain (c :: cs) = true)
    (before : Option Char) {kind : TokenKind} {n : Nat} (h : first before (c :: cs) = (kind, n))
    (hc : isParen c = false) : Neutral (c :: cs.take (n - 1)) := by
  by_cases hn : 0 < n
  · rw [← take_eq_cons hn]
    rcases first_cases hcs before h with ⟨rule, hmem, -, hrule⟩ | ⟨-, -, hneutral⟩
    · exact (tame_rules rule hmem).closes _ n hcs hrule
    · exact hneutral hc
  · obtain rfl : n = 0 := by omega
    exact neutral_of_forall fun x hx => List.mem_singleton.1 hx ▸ hc

theorem plain_first {c : Char} {cs : List Char} (hcs : isPlain (c :: cs) = true)
    (before : Option Char) {kind : TokenKind} {n : Nat} (h : first before (c :: cs) = (kind, n)) :
    Plain ⟨kind, c :: cs.take (n - 1)⟩ := by
  have hkind := kind_first hcs before h
  refine ⟨?_, ?_, ?_⟩
  · by_cases hparen : isParen c = true
    · rw [isParen, Bool.or_eq_true, beq_iff_eq, beq_iff_eq] at hparen
      rw [first_mark (hparen.imp_right .inl)] at h
      cases h
      rcases hparen with rfl | rfl
      · exact .inl rfl
      · exact .inr (.inl rfl)
    · rw [Bool.not_eq_true] at hparen
      refine .inr (.inr ⟨neutral_first hcs before h hparen, ?_, ?_⟩)
      all_goals
        rw [isParen, Bool.or_eq_false_iff, beq_eq_false_iff_ne, beq_eq_false_iff_ne] at hparen
        simp [isMark, hparen.1, hparen.2]
  · rcases hkind with ⟨rfl, -⟩ | ⟨rfl, -⟩ | hkind
    · rfl
    · rfl
    · simp only [List.mem_cons, List.not_mem_nil, or_false] at hkind
      rcases hkind with rfl | rfl | rfl | rfl <;> rfl
  · by_cases hblank : isBlank c = true
    · rcases first_blank hblank before cs with ⟨m, hm, hend⟩ | ⟨hm, -⟩
      · rw [h] at hm
        cases hm
        obtain ⟨hpos, hall⟩ := isBlank_of_lineEnd hend
        rw [take_eq_cons hpos] at hall
        exact hall.symm
      · rw [h] at hm
        cases hm
        simp [isSpace, hblank]
    · have hall : (c :: cs.take (n - 1)).all isBlank = false := by
        rw [List.all_cons, Bool.eq_false_iff.2 hblank]
        rfl
      rcases hkind with ⟨rfl, hend⟩ | ⟨-, hc, -⟩ | hkind
      · obtain ⟨hpos, hends⟩ := isBlank_of_lineEnd hend
        rw [take_eq_cons hpos, hall] at hends
        cases hends
      · exact absurd hc hblank
      · rw [hall]
        simp only [List.mem_cons, List.not_mem_nil, or_false] at hkind
        rcases hkind with rfl | rfl | rfl | rfl <;> rfl

theorem plain_of_mem_lexAfter {before : Option Char} {cs : List Char} (hcs : isPlain cs = true)
    {t : Token} (h : t ∈ lexAfter before cs) : Plain t := by
  induction hlength : cs.length using Nat.strongRecOn generalizing before cs with
  | _ length ih =>
    cases cs with
    | nil => exact absurd h List.not_mem_nil
    | cons c cs =>
      rw [lexAfter_cons] at h
      cases hfirst : first before (c :: cs) with
      | mk kind n =>
        rw [hfirst] at h
        rcases List.mem_cons.1 h with rfl | h
        · exact plain_first hcs before hfirst
        · refine ih (cs.drop (n - 1)).length ?_ (isPlain_drop (isPlain_cons hcs).2 _) h rfl
          rw [List.length_drop, ← hlength, List.length_cons]
          omega

theorem plain_of_mem_lex {cs : List Char} (hcs : isPlain cs = true) {t : Token} (h : t ∈ lex cs) :
    Plain t := plain_of_mem_lexAfter hcs h

end Token
end SchemaSketch
