import SchemaSketch.Proofs.Sql.Agreement
import SchemaSketch.Proofs.Table.Masks
import SchemaSketch.Proofs.Text.Keywords
import SchemaSketch.Proofs.Text.Marks

/-!
# Parentheses and commas that count

A column list is cut at tokens. In a text that is *even* the cut can be told from its characters: a parenthesis or a
comma counts unless it stands in a literal (`signs`). A text is even if its literals are closed, do not begin in the
middle of words and have no backslash in front of a quote, and if nothing else begins in it that could hide a
parenthesis or a comma: no other quote, no comment, no tagged body, no placeholder, and no name in brackets that has
one in it (`isEven`).

For this all rules of the token grammar are gone through once more. Most of them cover neither a quote nor a sign
(`Pattern.Clear`), two go on to the end of a literal, and the others fit nowhere in an even text (`Token.spared_rules`).
So every token of an even text is a sign by itself or has none that counts (`Token.signs_lexAfter`).
-/

namespace SchemaSketch

open Text Comment

namespace Text

/-! ## Signs -/

/-- A parenthesis or a comma. -/
def isSign (c : Char) : Bool := c == '(' || c == ')' || c == ','

/-- The characters of a text, and which of them are signs that count; `inside` says whether a literal is open. -/
def signs (inside : Bool) : List Char → List (Char × Bool)
  | [] => []
  | c :: rest => (c, !inside && isSign c) :: signs (inside != (c == '\'')) rest

/-- Whether a character that stands outside of literals before `rest` begins nothing that hides what follows. -/
def isOpen (rest : List Char) : Char → Bool
  | '"' | '`' | '´' | '$' | '#' => false
  | '%' => rest.head? != some '('
  | '-' => rest.head? != some '-'
  | '/' => rest.head? != some '*'
  | '[' => rest.contains ']' && (rest.takeWhile (· != ']')).all fun c => !isSign c && c != '\''
  | _ => true

/-- Whether literals are closed, and nothing else hides a sign. -/
def isEven (inside : Bool) (before : Option Char) : List Char → Bool
  | [] => !inside
  | c :: rest =>
    if c == '\'' then (inside || wordMayBegin before) && isEven (!inside) (some c) rest
    else (if inside then c != '\\' || rest.head? != some '\'' else isOpen rest c) && isEven inside (some c) rest

end Text

/-! ## The rules -/

namespace Pattern

/-- The characters between which tokens are told apart: the signs, and the quote. -/
def borders : List Char := ['(', ')', ',', '\'']

/-- These characters, the semicolon and the double quote. -/
def edges : List Char := [';', '"'] ++ borders

theorem borders_subset_edges : borders ⊆ edges := List.subset_append_right ..

theorem not_mem_borders {c : Char} : c ∉ borders ↔ isSign c = false ∧ c ≠ '\'' := by
  simp only [borders, isSign, List.mem_cons, List.not_mem_nil, or_false, Bool.or_eq_false_iff,
    beq_eq_false_iff_ne, not_or, and_assoc, ne_eq]

theorem clear_blanks1 : Clear edges blanks1 := clear_many1 (by decide)

theorem Clear.extended {p q : Pattern} (hp : Clear edges p) (hq : Clear edges q) :
    Clear edges (Token.extended p q) :=
  ((hp.andThen hq).followedBy _).orElse (hp.followedBy _)

theorem Clear.apart {p : Pattern} (hp : Clear edges p) : Clear edges (Token.apart p) := clear_blanks1.andThen hp

theorem Clear.lead {p : Pattern} (hp : Clear edges p) : Clear edges (Token.lead p) :=
  (hp.andThen clear_blanks1).optional

theorem Clear.digitsBeforeLetter {start : Pattern} (hs : Clear edges start) (least : Nat) :
    Clear edges (Token.digitsBeforeLetter start least) := by
  have hdigits : clears edges isDecimal = true := by decide
  intro cs n h c hc
  obtain ⟨m, k, hm, hk, rfl⟩ := digitsBeforeLetter_eq_some h
  rw [List.take_add, List.mem_append] at hc
  rcases hc with hc | hc
  · exact hs cs m hm c hc
  · have hfront : (cs.drop m).take k <+: (cs.drop m).takeWhile isDecimal :=
      List.prefix_of_prefix_length_le (List.take_prefix ..) (List.takeWhile_prefix _)
        (Nat.le_trans (List.length_take_le ..) hk)
    exact not_mem_of_clears hdigits (List.all_eq_true.1 List.all_takeWhile c (hfront.subset hc))

end Pattern

namespace Token

open Pattern

/-- A pattern that covers neither a sign nor a quote where it begins outside of literals in an even text. -/
def Spared (p : Pattern) : Prop :=
  ∀ c rest n, c ≠ '\'' → isOpen rest c = true → p (c :: rest) = some n → ∀ x ∈ (c :: rest).take n, x ∉ edges

theorem spared_of_clear {p : Pattern} (hp : Clear edges p) : Spared p := fun c rest n _ _ => hp (c :: rest) n

/-- A pattern that does not fit there at all. -/
theorem spared_of_eq_none {p : Pattern} (hp : ∀ c rest, c ≠ '\'' → isOpen rest c = true → p (c :: rest) = none) :
    Spared p := by
  intro c rest n hc hopen hn
  rw [hp c rest hc hopen] at hn
  cases hn

theorem spared_comment (p : Pattern) : Spared (commentMark >> p) := by
  refine spared_of_eq_none fun c rest _ hopen => andThen_eq_none ?_
  rw [Option.eq_none_iff_forall_ne_some]
  intro n hn
  rcases eq_some_of_orElse hn with hn | hn
  · obtain ⟨hfirst, hsecond⟩ := heads_of_exactly hn
    obtain rfl := Option.some.inj hfirst
    have hrest : rest.head? = some '-' := by rwa [List.drop_one] at hsecond
    rw [isOpen, hrest] at hopen
    cases hopen
  · obtain ⟨hfirst, -⟩ := heads_of_exactly hn
    obtain rfl := Option.some.inj hfirst
    cases hopen

theorem spared_quotedBy {quote : Char} (hquote : ∀ rest, isOpen rest quote = true → quote = '\'') (escapes : Bool) :
    Spared (quotedBy quote escapes) := by
  refine spared_of_eq_none fun c rest hc hopen => ?_
  rw [quotedBy]
  split
  · next heq =>
    obtain rfl := beq_iff_eq.1 heq
    exact absurd (hquote rest hopen) hc
  · rfl

/-- A placeholder may have a name in parentheses, but not there. -/
theorem spared_percent :
    Spared (char '%' >> optional (char '(' >> many1 isWord >> char ')') >> keyword "s") := by
  intro c rest n _ hopen hn
  obtain ⟨m, k, hm, hk, rfl⟩ := andThen_eq_some.1 hn
  obtain ⟨hfirst, rfl⟩ := char_eq_some.1 hm
  obtain rfl := Option.some.inj hfirst
  have hnone : (char '(' >> many1 isWord >> char ')') rest = none := by
    refine andThen_eq_none (Option.eq_none_iff_forall_ne_some.2 fun j hj => ?_)
    rw [isOpen, (char_eq_some.1 hj).1] at hopen
    cases hopen
  rw [List.drop_one, List.tail_cons, Pattern.optional_andThen hnone] at hk
  rw [Nat.add_comm, List.take_succ_cons]
  exact List.forall_mem_cons.2 ⟨by decide, clear_keyword (by decide) rest k hk⟩

/-- A name in brackets may stand there, but it has no sign and no quote in it. -/
theorem not_mem_bracketed {rest : List Char} {n : Nat} (hopen : isOpen rest '[' = true)
    (hn : bracketed ('[' :: rest) = some n) : ∀ x ∈ ('[' :: rest).take n, x ∉ borders := by
  obtain ⟨inner, tail, hsplit, -, hinner, rfl⟩ := bracketed_eq_some.1 hn
  obtain ⟨-, rfl⟩ := List.cons.inj hsplit
  have hbefore : (inner ++ ']' :: tail).takeWhile (· != ']') = inner := by
    rw [List.takeWhile_append_of_pos fun d hd => (Bool.and_eq_true_iff.1 (hinner d hd)).2,
      List.takeWhile_cons_of_neg (by decide), List.append_nil]
  rw [isOpen, hbefore, Bool.and_eq_true] at hopen
  rw [List.take_succ_cons, List.take_length_add_append]
  refine List.forall_mem_cons.2
    ⟨by decide, List.forall_mem_append.2 ⟨fun d hd => ?_, List.forall_mem_singleton.2 (by decide)⟩⟩
  have hd := List.all_eq_true.1 hopen.2 d hd
  rw [Bool.and_eq_true, Bool.not_eq_true', bne_iff_ne] at hd
  exact not_mem_borders.2 hd

theorem clear_identifier : Clear edges identifier := (clear_one (by decide)).andThen (clear_many (by decide))

theorem clear_sign : Clear edges (optional (char '-')) := (clear_char (by decide)).optional

theorem clear_digits1 : Clear edges digits1 := clear_many1 (by decide)

theorem spared_nameRules : ∀ rule ∈ nameRules, Spared rule.pattern := by
  have hword : Clear edges (many1 isWord) := clear_many1 (by decide)
  have hclear : ∀ {p : Pattern}, Clear edges p → Spared p := spared_of_clear
  have hquotes : ∀ rest, isOpen rest '`' = true → '`' = '\'' := fun _ hopen => by cases hopen
  have haccents : ∀ rest, isOpen rest '´' = true → '´' = '\'' := fun _ hopen => by cases hopen
  simp only [nameRules, List.forall_mem_cons, List.not_mem_nil, false_implies, implies_true, and_true]
  refine ⟨spared_comment _, spared_comment _, hclear ?_, hclear (clear_one (by decide)),
    hclear (clear_exactly (by decide)), hclear (clear_exactly (by decide)), hclear (clear_char (by decide)),
    spared_quotedBy hquotes _, spared_quotedBy haccents _, hclear (clear_char (by decide)), spared_percent, hclear ?_,
    hclear ?_, hclear ((clear_oneOf (by decide)).followedBy _), hclear ?_, hclear (clear_identifier.followedBy _),
    hclear clear_identifier, hclear (clear_identifier.followedBy _)⟩
  · exact (clear_exactly (by decide)).orElse ((clear_char (by decide)).orElse (clear_char (by decide)))
  · exact (clear_one (by decide)).andThen hword
  · exact (clear_char (by decide)).andThen hword
  · refine Clear.andThen ?_ ((clear_one (by decide)).andThen hword)
    exact (clear_char (by decide)).orElse ((clear_exactly (by decide)).orElse (clear_char (by decide)))

theorem spared_literalRules : ∀ rule ∈ literalRules, Spared rule.pattern ∨ rule.pattern = bracketed := by
  have hclear : ∀ {p : Pattern} {q : Prop}, Clear edges p → Spared p ∨ q := fun hp => .inl (spared_of_clear hp)
  have hpoint : Clear edges (char '.') := clear_char (by decide)
  have hquotes : ∀ rest, isOpen rest '"' = true → '"' = '\'' := fun _ hopen => by cases hopen
  simp only [literalRules, List.forall_mem_cons, List.not_mem_nil, false_implies, implies_true, and_true]
  refine ⟨hclear ?_, hclear ?_, hclear ?_, hclear (clear_sign.digitsBeforeLetter 1),
    .inl (spared_quotedBy (fun _ _ => rfl) _), .inl (spared_quotedBy hquotes _), .inr rfl⟩
  · exact clear_sign.andThen ((clear_char (by decide)).andThen
      ((clear_keyword (by decide)).andThen (clear_many1 (by decide))))
  · exact clear_sign.andThen (clear_digits1.andThen ((hpoint.andThen clear_digits1).optional.andThen
      ((clear_keyword (by decide)).andThen (clear_sign.andThen clear_digits1))))
  · exact ((clear_sign.andThen (clear_digits1.andThen hpoint)).digitsBeforeLetter 0).orElse
      ((clear_sign.andThen hpoint).digitsBeforeLetter 1)

theorem spared_phraseRules : ∀ rule ∈ phraseRules, Spared rule.pattern ∨ rule.pattern = zone := by
  have hclear : ∀ {p : Pattern} {q : Prop}, Clear edges p → Spared p ∨ q := fun hp => .inl (spared_of_clear hp)
  have hnot : Clear edges (lead (keyword "not")) := (clear_keyword (by decide)).lead
  have hfirst : Clear edges (apart (oneOf ["first", "last"])) := (clear_oneOf (by decide)).apart
  have hphrase : ∀ {ws : List String} {q : Prop}, ws.all (areClear edges ·.toList) = true →
      Spared ((phrase ws).followedBy wordEnds) ∨ q := fun h => hclear ((clear_phrase (by decide) h).followedBy _)
  simp only [phraseRules, List.forall_mem_cons, List.not_mem_nil, false_implies, implies_true, and_true]
  refine ⟨hclear ?_, hclear ?_, hclear ?_, hclear ?_, hphrase (by decide), hclear ?_, hclear ?_, hphrase (by decide),
    hclear ?_, hphrase (by decide), hphrase (by decide), hphrase (by decide), hphrase (by decide), hphrase (by decide),
    hclear ?_, hclear ?_, .inr ?_, hclear ?_, hclear ?_⟩
  · exact ((clear_oneOf (by decide)).lead.andThen
      ((clear_oneOf (by decide)).lead.andThen (clear_keyword (by decide)))).followedBy _
  · exact ((clear_oneOf (by decide)).lead.andThen (clear_keyword (by decide))).followedBy _
  · exact (clear_keyword (by decide)).extended (clear_oneOf (by decide)).apart
  · exact ((clear_keyword (by decide)).andThen
      (clear_blanks1.andThen (hnot.andThen (clear_keyword (by decide))))).followedBy _
  · exact (clear_oneOf (by decide)).extended ((clear_keyword (by decide)).apart.andThen hfirst)
  · exact ((clear_keyword (by decide)).andThen hfirst).followedBy _
  · exact (clear_keyword (by decide)).extended (clear_phrase (by decide) (by decide)).apart
  · exact ((clear_keyword (by decide)).andThen ((clear_one (by decide)).andThen clear_digits1)).followedBy _
  · exact ((clear_phrase (by decide) (by decide)).andThen (clear_oneOf (by decide)).apart).followedBy _
  · rw [zone, zoneHead, andThen_assoc, andThen_assoc]
  · exact (hnot.andThen (clear_oneOf (by decide))).followedBy _
  · exact (hnot.andThen (clear_keyword (by decide))).extended (clear_keyword (by decide)).apart

/-- **No rule covers a sign or a quote in an even text**, but for the one of time zones and, if it is closed, the one of
names in brackets. -/
theorem spared_rules : ∀ rule ∈ rules, Spared rule.pattern ∨ rule.pattern = zone ∨ rule.pattern = bracketed := by
  intro rule h
  rcases List.mem_append.1 h with h | h
  · rcases List.mem_append.1 h with h | h
    · exact .inl (spared_nameRules rule h)
    · exact (spared_literalRules rule h).imp_right .inr
  · exact (spared_phraseRules rule h).imp_right .inl

theorem clear_plainWord : Clear edges plainWord := (clear_one (by decide)).andThen (clear_many (by decide))

theorem clear_operator : Clear edges operator :=
  (clear_exactly (by decide)).orElse <| (clear_exactly (by decide)).orElse <|
    (clear_exactly (by decide)).orElse <| (clear_exactly (by decide)).orElse <|
    (clear_exactly (by decide)).orElse <| (clear_exactly (by decide)).orElse <|
    (clear_exactly (by decide)).orElse <| (clear_char (by decide)).orElse <|
    (clear_char (by decide)).orElse (clear_exactly (by decide))

theorem clear_of_mem_signRules {rule : Rule} (h : rule ∈ signRules) :
    rule.pattern = one isPunctuationMark ∨ Clear edges rule.pattern := by
  simp only [signRules, List.mem_cons, List.not_mem_nil, or_false] at h
  rcases h with rfl | rfl | rfl | rfl
  · exact .inl rfl
  · exact .inr clear_operator
  · exact .inr (clear_many1 (by decide))
  · exact .inr (clear_many1 (by decide))

end Token

/-! ## Stretches of an even text -/

namespace Text

section

variable {inside : Bool} {before : Option Char} {c : Char} {rest : List Char}

theorem isEven_quote : isEven inside before ('\'' :: rest) =
    ((inside || wordMayBegin before) && isEven (!inside) (some '\'') rest) := by
  rw [isEven]
  rfl

theorem isEven_inside (hc : c ≠ '\'') : isEven true before (c :: rest) =
    ((c != '\\' || rest.head? != some '\'') && isEven true (some c) rest) := by
  rw [isEven, if_neg (by simpa using hc), if_pos rfl]

theorem isEven_outside (hc : c ≠ '\'') :
    isEven false before (c :: rest) = (isOpen rest c && isEven false (some c) rest) := by
  rw [isEven, if_neg (by simpa using hc), if_neg Bool.false_ne_true]

theorem signs_quote : signs inside ('\'' :: rest) = ('\'', false) :: signs (!inside) rest := by
  cases inside <;> rfl

theorem signs_inside (hc : c ≠ '\'') : signs true (c :: rest) = (c, false) :: signs true rest := by
  rw [signs, beq_eq_false_iff_ne.2 hc]
  rfl

theorem signs_outside (hc : c ≠ '\'') : signs false (c :: rest) = (c, isSign c) :: signs false rest := by
  rw [signs, beq_eq_false_iff_ne.2 hc]
  rfl

end

/-- What is before a text without quotes is outside of literals, and so is what is behind it. -/
theorem isEven_append {a : List Char} (ha : '\'' ∉ a) {before : Option Char} {b : List Char}
    (h : isEven false before (a ++ b) = true) : isEven false (a.getLast?.or before) b = true := by
  induction a generalizing before with
  | nil => exact h
  | cons c a ih =>
    obtain ⟨hc, ha⟩ := not_or.1 (mt List.mem_cons.2 ha)
    rw [List.cons_append, isEven_outside (Ne.symm hc), Bool.and_eq_true] at h
    have hlast : (c :: a).getLast?.or before = a.getLast?.or (some c) := by
      rw [List.getLast?_cons]
      cases a.getLast? <;> rfl
    rw [hlast]
    exact ih ha h.2

theorem signs_append {a : List Char} (ha : ∀ c ∈ a, c ∉ Pattern.borders) (b : List Char) :
    signs false (a ++ b) = a.map (·, false) ++ signs false b := by
  induction a with
  | nil => rfl
  | cons c a ih =>
    obtain ⟨hc, ha⟩ := List.forall_mem_cons.1 ha
    obtain ⟨hsign, hquote⟩ := Pattern.not_mem_borders.1 hc
    rw [List.cons_append, signs_outside hquote, hsign, ih ha]
    rfl

/-- In a literal nothing counts up to the next quote. -/
theorem inside_append {content : List Char} (hcontent : '\'' ∉ content) {before : Option Char} {rest : List Char}
    (h : isEven true before (content ++ '\'' :: rest) = true) :
    isEven false (some '\'') rest = true ∧
      signs true (content ++ '\'' :: rest) = (content ++ ['\'']).map (·, false) ++ signs false rest := by
  induction content generalizing before with
  | nil =>
    rw [List.nil_append, isEven_quote, Bool.and_eq_true] at h
    exact ⟨h.2, signs_quote⟩
  | cons c content ih =>
    obtain ⟨hc, hcontent⟩ := not_or.1 (mt List.mem_cons.2 hcontent)
    rw [List.cons_append, isEven_inside (Ne.symm hc), Bool.and_eq_true] at h
    obtain ⟨heven, hsigns⟩ := ih hcontent h.2
    rw [List.cons_append, signs_inside (Ne.symm hc), hsigns]
    exact ⟨heven, rfl⟩

/-- A literal that is open is closed, and behind it the text is even. -/
theorem exists_literal (rest : List Char) {before : Option Char} (h : isEven true before rest = true) :
    ∃ literal tail, rest = literal ++ tail ∧ literalCloses literal = true ∧ tail.head? ≠ some '\'' ∧
      isEven false (some '\'') tail = true ∧ signs true rest = literal.map (·, false) ++ signs false tail := by
  match rest with
  | [] => cases h
  | c :: rest =>
    by_cases hc : c = '\''
    · subst hc
      rw [isEven_quote, Bool.and_eq_true] at h
      match rest with
      | [] => exact ⟨['\''], [], rfl, rfl, nofun, rfl, rfl⟩
      | d :: more =>
        by_cases hd : d = '\''
        · -- a pair stands for a quote, and the literal goes on
          subst hd
          obtain ⟨literal, tail, rfl, hcloses, htail, heven, hsigns⟩ :=
            exists_literal more (Bool.and_eq_true_iff.1 (isEven_quote ▸ h.2)).2
          refine ⟨'\'' :: '\'' :: literal, tail, rfl, ?_, htail, heven, ?_⟩
          · rw [literalCloses]
            exact hcloses
          · rw [signs_quote, signs_quote]
            exact congrArg (('\'', false) :: ('\'', false) :: ·) hsigns
        · exact ⟨['\''], d :: more, rfl, rfl, fun heq => hd (Option.some.inj heq), h.2, signs_quote⟩
    · rw [isEven_inside hc, Bool.and_eq_true] at h
      obtain ⟨literal, tail, rfl, hcloses, htail, heven, hsigns⟩ := exists_literal rest h.2
      refine ⟨c :: literal, tail, rfl, ?_, htail, heven, ?_⟩
      · obtain ⟨d, more, rfl⟩ : ∃ d more, literal = d :: more := by
          cases literal with
          | nil => cases hcloses
          | cons d more => exact ⟨d, more, rfl⟩
        -- a backslash does not stand in front of a quote
        have hpair : ((c == '\'' || c == '\\') && d == '\'') = false := by
          rw [beq_eq_false_iff_ne.2 hc, Bool.false_or]
          rcases Bool.or_eq_true_iff.1 h.1 with h | h
          · rw [beq_eq_false_iff_ne.2 (bne_iff_ne.1 h)]
            rfl
          · rw [beq_eq_false_iff_ne.2 fun hd => bne_iff_ne.1 h (congrArg some hd), Bool.and_false]
        rw [literalCloses, hpair, if_neg Bool.false_ne_true, hcloses, bne_iff_ne.2 hc]
        rfl
      · rw [signs_inside hc, hsigns]
        rfl

end Text

/-! ## The first token -/

namespace Token

open Pattern

/-- The first word of a time zone has no sign in it, or it is a word and what may be a quote. -/
theorem zoneWord_eq_some {cs : List Char} {n : Nat} (hn : (keyword "at" <|> keyword "with'") cs = some n) :
    (∀ c ∈ cs.take n, c ∉ edges) ∨ ∃ word e q rest, cs = word ++ e :: q :: rest ∧ n = (word ++ [e, q]).length ∧
      (∀ c ∈ word ++ [e], isWord c = true ∧ c ∉ edges) ∧ sameLetter '\'' q = true := by
  have hletter : ∀ {k : Char} {ks cs : List Char} {n : Nat}, letters (k :: ks) cs = some n →
      ∃ c rest m, cs = c :: rest ∧ sameLetter k c = true ∧ letters ks rest = some m ∧ n = m + 1 := by
    intro k ks cs n h
    obtain ⟨m, l, hm, hl, rfl⟩ := andThen_eq_some.1 h
    obtain ⟨c, rest, rfl, hc, rfl⟩ := one_eq_some.1 hm
    exact ⟨c, rest, l, rfl, hc, hl, Nat.add_comm ..⟩
  have hword : ∀ {k c : Char}, (k.isLower && clears edges (sameLetter k)) = true → sameLetter k c = true →
      isWord c = true ∧ c ∉ edges := fun hk hc =>
    ⟨isWord_of_sameLetter (Bool.and_eq_true_iff.1 hk).1 hc, not_mem_of_clears (Bool.and_eq_true_iff.1 hk).2 hc⟩
  rcases eq_some_of_orElse hn with hn | hn
  · exact .inl (clear_keyword (by decide) cs n hn)
  · have hletters : letters ['w', 'i', 't', 'h', '\''] cs = some n := hn
    obtain ⟨w, _, _, rfl, hw, hith, rfl⟩ := hletter hletters
    obtain ⟨i, _, _, rfl, hi, hth, rfl⟩ := hletter hith
    obtain ⟨t, _, _, rfl, ht, hh, rfl⟩ := hletter hth
    obtain ⟨e, _, _, rfl, he, hend, rfl⟩ := hletter hh
    obtain ⟨q, rest, _, rfl, hq, hnothing, rfl⟩ := hletter hend
    obtain rfl := Option.some.inj hnothing
    refine .inr ⟨[w, i, t], e, q, rest, rfl, rfl, ?_, hq⟩
    simp only [List.cons_append, List.nil_append, List.forall_mem_cons, List.not_mem_nil, false_implies, implies_true,
      and_true]
    exact ⟨hword (by decide) hw, hword (by decide) hi, hword (by decide) ht, hword (by decide) he⟩

/-- The words in front of the literal of a time zone have no quote in an even text. -/
theorem spared_zoneWord {before : Option Char} {cs : List Char} (h : isEven false before cs = true) {n : Nat}
    (hn : (keyword "at" <|> keyword "with'") cs = some n) : ∀ c ∈ cs.take n, c ∉ borders := by
  rcases zoneWord_eq_some hn with hclear | ⟨word, e, q, rest, rfl, rfl, hword, hq⟩
  · exact fun c hc => mt (@borders_subset_edges c) (hclear c hc)
  have hfront : ∀ c ∈ word ++ [e], c ∉ borders := fun c hc => mt (@borders_subset_edges c) (hword c hc).2
  have hsplit : word ++ e :: q :: rest = word ++ [e] ++ q :: rest := List.append_cons ..
  have hquote : q ≠ '\'' := by
    -- behind a word no literal begins
    rintro rfl
    have hfree : '\'' ∉ word ++ [e] := fun hmem => absurd (hfront _ hmem) (by decide)
    have heven := isEven_append hfree (hsplit ▸ h)
    rw [List.getLast?_concat, Option.some_or, isEven_quote, wordMayBegin, (hword e (by simp)).1] at heven
    cases heven
  have hsign : isSign q = false := by
    refine Bool.eq_false_iff.2 fun hsign => ?_
    simp only [isSign, Bool.or_eq_true, beq_iff_eq] at hsign
    rcases hsign with (rfl | rfl) | rfl <;> exact absurd hq (by decide)
  have htake : (word ++ e :: q :: rest).take (word ++ [e, q]).length = word ++ [e] ++ [q] := by
    rw [List.append_assoc, show word ++ e :: q :: rest = word ++ [e, q] ++ rest by simp, List.take_left]
    rfl
  rw [htake, List.forall_mem_append, List.forall_mem_singleton]
  exact ⟨hfront, not_mem_borders.2 ⟨hsign, hquote⟩⟩

/-- A literal behind a time zone. -/
theorem zoneLiteral_eq_some {cs : List Char} {n : Nat}
    (h : (char '\'' >> many1 (· != '\'') >> char '\'') cs = some n) :
    ∃ content tail, cs = '\'' :: (content ++ '\'' :: tail) ∧ '\'' ∉ content ∧ n = content.length + 2 := by
  obtain ⟨m, k, hm, hk, rfl⟩ := andThen_eq_some.1 h
  obtain ⟨hhead, rfl⟩ := char_eq_some.1 hm
  obtain ⟨rest, rfl⟩ := List.head?_eq_some_iff.1 hhead
  obtain ⟨i, j, hi, hj, rfl⟩ := andThen_eq_some.1 hk
  obtain ⟨hclose, rfl⟩ := char_eq_some.1 hj
  obtain ⟨tail, htail⟩ := List.head?_eq_some_iff.1 hclose
  rw [List.drop_one, List.tail_cons] at hi htail
  refine ⟨rest.take i, tail, ?_, fun hmem => ?_, ?_⟩
  · rw [← htail, List.take_append_drop]
  · exact absurd (class_of_many1 hi _ hmem) (by decide)
  · have hlength : i ≤ rest.length := by
      have hback := congrArg List.length htail
      rw [List.length_drop, List.length_cons] at hback
      omega
    rw [List.length_take_of_le hlength]
    omega

/-- A time zone is words and a literal; the words have no sign in them if the first of them has none. -/
theorem zone_eq_some {marks : List Char} (hmarks : marks ⊆ edges) {cs : List Char} {n : Nat} (hn : zone cs = some n)
    (hword : ∀ m, (keyword "at" <|> keyword "with'") cs = some m → ∀ c ∈ cs.take m, c ∉ marks) :
    ∃ front content tail, cs = front ++ '\'' :: (content ++ '\'' :: tail) ∧ (∀ c ∈ front, c ∉ marks) ∧
      '\'' ∉ content ∧ n = front.length + (content.length + 2) := by
  have hwords : Clear marks (apart (phrase ["time", "zone"]) >> blanks1) :=
    (Clear.andThen (clear_phrase (by decide) (by decide)).apart clear_blanks1).mono hmarks
  have hparts : zone = (keyword "at" <|> keyword "with'") >>
      ((apart (phrase ["time", "zone"]) >> blanks1) >> (char '\'' >> many1 (· != '\'') >> char '\'')) := by
    rw [zone, zoneHead, apart, apart, andThen_assoc, andThen_assoc, andThen_assoc, andThen_assoc, andThen_assoc,
      andThen_assoc]
  rw [hparts] at hn
  obtain ⟨i, k, hi, hk, rfl⟩ := andThen_eq_some.1 hn
  obtain ⟨j, l, hj, hl, rfl⟩ := andThen_eq_some.1 hk
  obtain ⟨content, tail, hrest, hcontent, rfl⟩ := zoneLiteral_eq_some hl
  refine ⟨cs.take (i + j), content, tail, ?_, fun c hc => ?_, hcontent, ?_⟩
  · rw [← hrest, List.drop_drop, List.take_append_drop]
  · rw [List.take_add, List.mem_append] at hc
    exact hc.elim (hword i hi c) (hwords _ j hj c)
  · have hlength := congrArg List.length hrest
    rw [List.drop_drop, List.length_drop, List.length_cons, List.length_append, List.length_cons] at hlength
    rw [List.length_take]
    omega

/-! ## The token of a sign -/

/-- A literal ends with its quote. -/
theorem getLast?_of_literalCloses {cs : List Char} (h : literalCloses cs = true) : cs.getLast? = some '\'' := by
  fun_induction literalCloses cs with
  | case1 => cases h
  | case2 c => exact congrArg some (beq_iff_eq.1 h)
  | case3 c d rest _ ih => rw [List.getLast?_cons, List.getLast?_cons, ih h]; rfl
  | case4 c d rest _ ih => rw [List.getLast?_cons, ih (Bool.and_eq_true_iff.1 h).2]; rfl

/-- The token of a sign that counts. -/
def isSign (t : Token) : Bool := t.isMark '(' || t.isMark ')' || t.isMark ','

/-- The characters of a token, and whether it is a sign that counts. -/
def signs (t : Token) : List (Char × Bool) := t.text.map (·, t.isSign)

theorem map_fst_signs (t : Token) : t.signs.map Prod.fst = t.text := by
  rw [signs, List.map_map]
  exact List.map_id _

theorem isSign_eq_false {t : Token} (h : ∀ c, t.text = [c] → Text.isSign c = false) : t.isSign = false := by
  rw [isSign, isMark, isMark, isMark]
  have hmark : ∀ {c : Char}, Text.isSign c = true → (t.text == [c]) = false := fun {c} hc =>
    beq_eq_false_iff_ne.2 fun htext => by
      rw [h c htext] at hc
      cases hc
  rw [hmark (c := '(') rfl, hmark (c := ')') rfl, hmark (c := ',') rfl, Bool.and_false]
  rfl

/-- What an even text begins with: a token that is a sign or has none that counts, and an even text. -/
def Begins (before : Option Char) (cs text tail : List Char) (kind : TokenKind) : Prop :=
  cs = text ++ tail ∧ isEven false (text.getLast?.or before) tail = true ∧
    Text.signs false cs = (Token.mk kind text).signs ++ Text.signs false tail

section

variable {before : Option Char} {kind : TokenKind}

/-- A stretch without signs and quotes. -/
theorem begins_clear {text tail : List Char} (h : isEven false before (text ++ tail) = true)
    (htext : ∀ c ∈ text, c ∉ borders) : Begins before (text ++ tail) text tail kind := by
  have hquote : '\'' ∉ text := fun hmem => (not_mem_borders.1 (htext _ hmem)).2 rfl
  have hsign : isSign ⟨kind, text⟩ = false := isSign_eq_false fun c hc => by
    have hc : c ∈ text := by
      rw [show text = [c] from hc]
      exact List.mem_cons_self ..
    exact (not_mem_borders.1 (htext c hc)).1
  exact ⟨rfl, isEven_append hquote h, by rw [signs, hsign, signs_append htext]⟩

/-- A stretch without signs, and a literal behind it. -/
theorem begins_literal {front rest literal tail : List Char} (hfront : ∀ c ∈ front, c ∉ borders)
    (hrest : rest = literal ++ tail) (hends : literal.getLast? = some '\'') (heven : isEven false (some '\'') tail = true)
    (hsigns : Text.signs true rest = literal.map (·, false) ++ Text.signs false tail) :
    Begins before (front ++ '\'' :: rest) (front ++ '\'' :: literal) tail kind := by
  have hquote : isSign ⟨kind, front ++ '\'' :: literal⟩ = false := isSign_eq_false fun c hc => by
    have hmem : '\'' ∈ [c] := by
      rw [← show front ++ '\'' :: literal = [c] from hc]
      exact List.mem_append_right _ (List.mem_cons_self ..)
    rw [← List.mem_singleton.1 hmem]
    rfl
  have hlast : (front ++ '\'' :: literal).getLast?.or before = some '\'' := by
    rw [List.getLast?_append, List.getLast?_cons, hends]
    rfl
  refine ⟨by rw [hrest, List.append_assoc, List.cons_append], hlast ▸ heven, ?_⟩
  rw [signs_append hfront, signs_quote, Bool.not_false, hsigns, signs, hquote, List.map_append, List.map_cons,
    List.append_assoc, List.cons_append]

/-- A time zone with its literal. -/
theorem begins_zone {cs : List Char} (h : isEven false before cs = true) {n : Nat} (hn : zone cs = some n) :
    0 < n ∧ Begins before cs (cs.take n) (cs.drop n) kind := by
  obtain ⟨front, content, tail, rfl, hfront, hcontent, rfl⟩ :=
    zone_eq_some borders_subset_edges hn fun _ => spared_zoneWord h
  have hquote : '\'' ∉ front := fun hmem => (not_mem_borders.1 (hfront _ hmem)).2 rfl
  have hinside := (Bool.and_eq_true_iff.1 (isEven_quote ▸ isEven_append hquote h)).2
  obtain ⟨heven, hsigns⟩ := inside_append hcontent hinside
  have hbehind : content ++ '\'' :: tail = content ++ ['\''] ++ tail := by rw [List.append_assoc]; rfl
  have hwhole : front ++ '\'' :: (content ++ '\'' :: tail) = front ++ '\'' :: (content ++ ['\'']) ++ tail := by
    rw [List.append_assoc, List.cons_append, hbehind]
  have hlength : front.length + (content.length + 2) = (front ++ '\'' :: (content ++ ['\''])).length := by
    simp only [List.length_append, List.length_cons, List.length_nil]
  have hbegins : Begins before (front ++ '\'' :: (content ++ '\'' :: tail)) (front ++ '\'' :: (content ++ ['\'']))
      tail kind :=
    begins_literal hfront hbehind (List.getLast?_concat ..) heven hsigns
  refine ⟨by omega, ?_⟩
  rwa [hlength, hwhole, List.take_left, List.drop_left, ← hwhole]

end

/-- A sign by itself. -/
theorem first_sign {c : Char} (hc : Text.isSign c = true) (before : Option Char) (rest : List Char) :
    first before (c :: rest) = (.punctuation, 1) := by
  simp only [Text.isSign, Bool.or_eq_true, beq_iff_eq] at hc
  rcases hc with (rfl | rfl) | rfl
  · exact first_mark (.inl rfl) before rest
  · exact first_mark (.inr (.inl rfl)) before rest
  · have hrules : ∀ rule ∈ rules, rule.pattern (',' :: rest) = none := by
      simp only [rules, nameRules, literalRules, phraseRules, List.cons_append, List.nil_append,
        List.forall_mem_cons, List.not_mem_nil, false_implies, implies_true, and_true]
      and_intros
      all_goals rfl
    rw [first, firstFit_eq_none hrules]
    rfl

/-- **What the first token covers** where nothing is hidden: no sign and no quote behind the front, unless it is a time
zone or a name in brackets. -/
theorem covers_first {before : Option Char} {c : Char} {rest : List Char} (hquote : c ≠ '\'')
    (hopen : isOpen rest c = true) {kind : TokenKind} {n : Nat} (hfirst : first before (c :: rest) = (kind, n)) :
    (∀ x ∈ (c :: rest).take n, x = c ∨ x ∉ edges) ∨ zone (c :: rest) = some n ∨ bracketed (c :: rest) = some n := by
  have hclear : (∀ x ∈ (c :: rest).take n, x ∉ edges) → ∀ x ∈ (c :: rest).take n, x = c ∨ x ∉ edges :=
    fun h x hx => .inr (h x hx)
  cases origin_of_first hfirst with
  | stretch hstretch =>
    rcases delimited_eq_some hstretch with ⟨-, -, rest', -, hcons, -⟩ | ⟨-, rest', hcons, -⟩
    · obtain ⟨rfl, rfl⟩ := List.cons.inj hcons
      cases hopen
    · obtain ⟨rfl, rfl⟩ := List.cons.inj hcons
      cases hopen
  | @rule _ r _ hmem hn =>
    rcases spared_rules r hmem with hspared | hzone | hbracketed
    · exact .inl (hclear (hspared c rest n hquote hopen hn))
    · exact .inr (.inl (hzone ▸ hn))
    · exact .inr (.inr (hbracketed ▸ hn))
  | word _ hn => exact .inl (hclear (clear_plainWord _ n hn))
  | @sign _ r _ hmem hn =>
    rcases clear_of_mem_signRules hmem with hmark | hr
    · rw [hmark] at hn
      obtain ⟨d, rest', hcons, -, rfl⟩ := one_eq_some.1 hn
      exact .inl fun x hx => .inl (List.mem_singleton.1 hx)
    · exact .inl (hclear (hr _ n hn))
  | single => exact .inl fun x hx => .inl (List.mem_singleton.1 hx)

/-- **The first token of an even text** is a sign or has none that counts. -/
theorem begins_first {before : Option Char} {c : Char} {rest : List Char} (h : isEven false before (c :: rest) = true)
    {kind : TokenKind} {n : Nat} (hfirst : first before (c :: rest) = (kind, n)) :
    Begins before (c :: rest) (c :: rest.take (n - 1)) (rest.drop (n - 1)) kind := by
  by_cases hquote : c = '\''
  · subst hquote
    have hinside := (Bool.and_eq_true_iff.1 (isEven_quote ▸ h)).2
    obtain ⟨literal, tail, rfl, hcloses, htail, heven, hsigns⟩ := exists_literal rest hinside
    obtain ⟨rfl, rfl⟩ := Prod.mk.inj (hfirst.symm.trans
      (first_quote (.head _) before (literal_apply hcloses htail)))
    rw [Nat.add_sub_cancel, List.take_left, List.drop_left]
    exact @begins_literal before .other [] _ _ _ (fun c hc => absurd hc List.not_mem_nil) rfl
      (getLast?_of_literalCloses hcloses) heven hsigns
  by_cases hsign : Text.isSign c = true
  · obtain ⟨rfl, rfl⟩ := Prod.mk.inj (hfirst.symm.trans (first_sign hsign before rest))
    rw [isEven_outside hquote, Bool.and_eq_true] at h
    have hmark : isSign ⟨.punctuation, [c]⟩ = true := by
      simp only [Text.isSign, Bool.or_eq_true, beq_iff_eq] at hsign
      rcases hsign with (rfl | rfl) | rfl <;> rfl
    refine ⟨rfl, h.2, ?_⟩
    rw [signs_outside hquote, hsign, Nat.sub_self, List.take_zero, List.drop_zero, signs, hmark]
    rfl
  -- no sign and no quote is at the front
  have hclear : c ∉ borders := not_mem_borders.2 ⟨Bool.eq_false_iff.2 hsign, hquote⟩
  have hopen : isOpen rest c = true := (Bool.and_eq_true_iff.1 (isEven_outside hquote ▸ h)).1
  have hbegins : (∀ x ∈ (c :: rest).take n, x ∉ borders) →
      Begins before (c :: rest) (c :: rest.take (n - 1)) (rest.drop (n - 1)) kind := by
    intro htext
    have hsplit : c :: rest = c :: rest.take (n - 1) ++ rest.drop (n - 1) := by
      rw [List.cons_append, List.take_append_drop]
    refine hsplit ▸ begins_clear (hsplit ▸ h) ?_
    cases n with
    | zero => exact fun x hx => List.mem_singleton.1 hx ▸ hclear
    | succ n => exact htext
  rcases covers_first hquote hopen hfirst with hcovers | hzone | hbracketed
  · refine hbegins fun x hx => ?_
    rcases hcovers x hx with rfl | hx
    · exact hclear
    · exact mt (@borders_subset_edges x) hx
  · obtain ⟨hpos, hzone⟩ := @begins_zone _ kind _ h n hzone
    rwa [take_eq_cons hpos, ← Nat.sub_add_cancel hpos, List.drop_succ_cons] at hzone
  · obtain ⟨_, _, hsplit, -⟩ := bracketed_eq_some.1 hbracketed
    obtain rfl := (List.cons.inj hsplit).1
    exact hbegins (not_mem_bracketed hopen hbracketed)

/-- **The signs of an even text are those of its tokens.** -/
theorem signs_lexAfter {before : Option Char} {cs : List Char} (h : isEven false before cs = true) :
    (lexAfter before cs).flatMap signs = Text.signs false cs := by
  -- the induction is on the length: each token takes at least one character
  induction hlength : cs.length using Nat.strongRecOn generalizing before cs with
  | _ length ih =>
    cases cs with
    | nil => rfl
    | cons c rest =>
      rw [lexAfter_cons]
      rcases hfirst : first before (c :: rest) with ⟨kind, n⟩
      obtain ⟨-, heven, hsigns⟩ := begins_first h hfirst
      have hlast : (c :: rest.take (n - 1)).getLast?.or before = (c :: rest.take (n - 1)).getLast? := by
        rw [List.getLast?_cons]
        rfl
      have hshort : (rest.drop (n - 1)).length < length := by
        rw [← hlength, List.length_drop, List.length_cons]
        omega
      rw [List.flatMap_cons, ih _ hshort (hlast ▸ heven) rfl, hsigns]

end Token
end SchemaSketch
