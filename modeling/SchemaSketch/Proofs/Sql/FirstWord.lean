import SchemaSketch.Proofs.Sql.Words
import SchemaSketch.Proofs.Text.Cased

/-!
# The first word of a statement

A statement that begins with `CREATE` or `ALTER`, blanks and another word begins with a token that defines an object,
and the token is the word (`Token.first_create`, `Token.first_alter`). The rules of the token grammar are gone through by
what they ask for. Some do not begin at a letter (`Pattern.Unworded`). Some fit at a few words and nowhere else
(`Pattern.Needs`): behind the letters of a word there must be an end of a word or a blank, and at a longer word there is
neither (`Pattern.Stuck`). Those for names look at what stands behind the name.
-/

namespace SchemaSketch

open Text

/-! ## Patterns that need a word -/

namespace Pattern

/-- A pattern that fits only at one of these words. -/
def Needs (ks : List String) (p : Pattern) : Prop := ∀ cs, (∀ k ∈ ks, wholeWord k cs = none) → p cs = none

/-- A pattern that at any other word than these is left stuck inside of the word, if it fits. -/
def Stuck (ks : List String) (p : Pattern) : Prop :=
  ∀ cs n, (∀ k ∈ ks, wholeWord k cs = none) → p cs = some n → wordEnds (cs.drop n) = false

/-- A pattern that does not begin inside of a word. -/
def Parted (p : Pattern) : Prop := ∀ cs, wordEnds cs = false → p cs = none

theorem parted_blank : Parted (one isBlank) := by
  intro cs hcs
  cases cs with
  | nil => cases hcs
  | cons c rest =>
    have hc : isWord c = true := by simpa [wordEnds] using hcs
    exact if_neg (Bool.eq_false_iff.1 (isBlank_of_isWord hc))

theorem Parted.andThen {p : Pattern} (hp : Parted p) (q : Pattern) : Parted (p >> q) := fun cs hcs =>
  andThen_eq_none (hp cs hcs)

theorem parted_blanks1 : Parted blanks1 := parted_blank.andThen _

theorem parted_apart (p : Pattern) : Parted (Token.apart p) := parted_blanks1.andThen p

variable {ks : List String} {p q : Pattern}

theorem Needs.andThen (hp : Needs ks p) (q : Pattern) : Needs ks (p >> q) := fun cs hcs => andThen_eq_none (hp cs hcs)

theorem Needs.orElse (hp : Needs ks p) (hq : Needs ks q) : Needs ks (p <|> q) := by
  intro cs hcs
  rw [orElse_apply, hp cs hcs, hq cs hcs]
  rfl

theorem Needs.followedBy (hp : Needs ks p) (test : List Char → Bool) : Needs ks (p.followedBy test) := by
  intro cs hcs
  rw [followedBy_apply, hp cs hcs]
  rfl

theorem stuck_keyword {k : String} (hk : k ∈ ks) : Stuck ks (keyword k) := by
  intro cs n hcs hn
  rw [Bool.eq_false_iff]
  intro hends
  have hword : wholeWord k cs = some n := followedBy_eq_some.2 ⟨hn, hends⟩
  rw [hcs k hk] at hword
  cases hword

theorem Stuck.orElse (hp : Stuck ks p) (hq : Stuck ks q) : Stuck ks (p <|> q) := fun cs n hcs hn =>
  (eq_some_of_orElse hn).elim (hp cs n hcs) (hq cs n hcs)

theorem stuck_oneOf {ws : List String} (hws : ∀ w ∈ ws, w ∈ ks) : Stuck ks (oneOf ws) := by
  induction ws with
  | nil => exact fun _ _ _ hn => nomatch hn
  | cons w ws ih =>
    obtain ⟨hw, hws⟩ := List.forall_mem_cons.1 hws
    exact (stuck_keyword hw).orElse (ih hws)

/-- Where the word has to end, the pattern needs it. -/
theorem Stuck.followedBy (hp : Stuck ks p) : Needs ks (p.followedBy wordEnds) := by
  intro cs hcs
  rw [Option.eq_none_iff_forall_ne_some]
  intro n hn
  obtain ⟨hn, hends⟩ := followedBy_eq_some.1 hn
  rw [hp cs n hcs hn] at hends
  cases hends

/-- So it does in front of a blank. -/
theorem Stuck.andThen (hp : Stuck ks p) (hq : Parted q) : Needs ks (p >> q) := by
  intro cs hcs
  rw [Option.eq_none_iff_forall_ne_some]
  intro n hn
  obtain ⟨m, l, hm, hl, -⟩ := andThen_eq_some.1 hn
  rw [hq _ (hp cs m hcs hm)] at hl
  cases hl

theorem Stuck.lead_andThen (hp : Stuck ks p) (hq : Stuck ks q) : Stuck ks (Token.lead p >> q) := by
  intro cs n hcs hn
  rw [Token.lead, optional_andThen (hp.andThen parted_blanks1 cs hcs)] at hn
  exact hq cs n hcs hn

theorem Stuck.extended (hp : Stuck ks p) (hq : Parted q) : Needs ks (Token.extended p q) :=
  ((hp.andThen hq).followedBy _).orElse hp.followedBy

theorem needs_phrase {k : String} (hk : k ∈ ks) (w : String) (ws : List String) : Needs ks (phrase (k :: w :: ws)) :=
  (stuck_keyword hk).andThen (parted_blanks1.andThen _)

/-! ## Where a pattern begins -/

/-- A pattern that fits only where one of these letters stands. -/
def Starts (ls : List Char) (p : Pattern) : Prop :=
  ∀ cs n, p cs = some n → ∃ l ∈ ls, ∃ c rest, cs = c :: rest ∧ sameLetter l c = true

variable {ls : List Char}

theorem starts_keyword {w : String} {l : Char} (hw : w.toList.head? = some l) (hl : l ∈ ls) : Starts ls (keyword w) := by
  intro cs n hn
  obtain ⟨more, hmore⟩ := List.head?_eq_some_iff.1 hw
  rw [keyword, hmore] at hn
  obtain ⟨_, _, hone, -, -⟩ := andThen_eq_some.1 hn
  obtain ⟨c, rest, rfl, hc, -⟩ := one_eq_some.1 hone
  exact ⟨l, hl, c, rest, rfl, hc⟩

theorem starts_oneOf {ws : List String} (hws : (ws.all fun w => w.toList.head?.any ls.contains) = true) :
    Starts ls (oneOf ws) := by
  induction ws with
  | nil => exact fun _ _ hn => nomatch hn
  | cons w ws ih =>
    rw [List.all_cons, Bool.and_eq_true, Option.any_eq_true] at hws
    obtain ⟨⟨l, hw, hl⟩, hws⟩ := hws
    exact fun cs n hn => (eq_some_of_orElse hn).elim (starts_keyword hw (List.contains_iff_mem.1 hl) cs n) (ih hws cs n)

theorem Starts.andThen (hp : Starts ls p) (q : Pattern) : Starts ls (p >> q) := by
  intro cs n hn
  obtain ⟨m, _, hm, -, -⟩ := andThen_eq_some.1 hn
  exact hp cs m hm

theorem Starts.lead_andThen (hp : Starts ls p) (hq : Starts ls q) : Starts ls (Token.lead p >> q) := by
  intro cs n hn
  cases hlead : (p >> blanks1) cs with
  | none =>
    rw [Token.lead, optional_andThen hlead] at hn
    exact hq cs n hn
  | some m => exact hp.andThen _ cs m hlead

/-! ## Letters of a keyword -/

/-- What stands for letters that have no other forms than the large and the small one spells them. -/
theorem sameLetters_of_letters {ks cs : List Char} (hks : ks.all isSteady = true) {n : Nat}
    (h : letters ks cs = some n) : SameLetters (cs.take n) ks := by
  induction ks generalizing cs n with
  | nil =>
    obtain rfl := Option.some.inj h
    rfl
  | cons k ks ih =>
    rw [List.all_cons, Bool.and_eq_true] at hks
    have hlower : k.isLower = true := (Bool.and_eq_true_iff.1 hks.1).1
    obtain ⟨m, l, hm, hl, rfl⟩ := andThen_eq_some.1 h
    obtain ⟨c, rest, rfl, hc, rfl⟩ := one_eq_some.1 hm
    have hsame : c.toLower = k := toLower_of_sameLetter hks.1 hc
    have hmore : SameLetters (rest.take l) ks := ih hks.2 hl
    rw [Nat.add_comm, List.take_succ_cons, SameLetters, List.map_cons, List.map_cons, hsame, toLower_of_isLower hlower, hmore]

/-- A keyword that is spelled in letters of either case is met. -/
theorem keyword_spelled {k : String} (hk : isKeyword k = true) (w : Cased k) (rest : List Char) :
    keyword k (w.text ++ rest) = some w.text.length := by
  have hletters : ∀ ls : List Char, letters ls (ls ++ rest) = some ls.length := by
    intro ls
    induction ls with
    | nil => rfl
    | cons l ls ih =>
      have hl : one (sameLetter l) (l :: (ls ++ rest)) = some 1 := if_pos (by simp [sameLetter])
      rw [List.cons_append, letters, andThen_of_eq_some hl, List.drop_one, List.tail_cons, ih, Option.map_some,
        List.length_cons, Nat.add_comm]
  rw [blind_keyword hk w.text k.toList rest w.spells, keyword, hletters, SameLetters.length_eq w.spells]

end Pattern

/-! ## How a statement opens -/

/-- A keyword in letters of either case, blanks, and a word that does not begin as `or` does. -/
structure Opening (k : String) where
  /-- the keyword -/
  word : Cased k
  /-- the blanks -/
  gap : List Char
  /-- the first character of the next word -/
  next : Char
  /-- what stands behind that -/
  rest : List Char
  gap_ne_nil : gap ≠ []
  blank_gap : Blank gap
  isWord_next : isWord next = true
  next_ne : sameLetter 'o' next = false

namespace Opening

open Pattern

variable {k : String} (o : Opening k)

/-- What stands behind the keyword. -/
def tail : List Char := o.gap ++ o.next :: o.rest

/-- The characters. -/
def text : List Char := o.word.text ++ o.tail

theorem exists_tail_eq : ∃ c more, o.tail = c :: more ∧ isBlank c = true := by
  obtain ⟨c, gap, hgap⟩ := List.exists_cons_of_ne_nil o.gap_ne_nil
  refine ⟨c, gap ++ o.next :: o.rest, by rw [tail, hgap]; rfl, o.blank_gap c ?_⟩
  rw [hgap]
  exact List.mem_cons_self ..

theorem wordEnds_tail : wordEnds o.tail = true := by
  obtain ⟨c, more, htail, hc⟩ := o.exists_tail_eq
  rw [htail, wordEnds, isWord_of_isBlank hc]
  rfl

theorem dropWhile_tail : o.tail.dropWhile isBlank = o.next :: o.rest :=
  dropWhile_append_cons o.blank_gap (isBlank_of_isWord o.isWord_next) o.rest

/-- A keyword, blanks and a pattern that begins with a letter. -/
theorem exists_of_keyword {ls : List Char} {q : Pattern} {cs : List Char} {n : Nat}
    (hk : k.toList.all isSteady = true) (hq : Starts ls q) (hls : (ls.all fun l => isSteady l && l != 'o') = true)
    (h : (keyword k >> blanks1 >> q) cs = some n) : ∃ o : Opening k, cs = o.text := by
  obtain ⟨m, _, hm, hbehind, -⟩ := andThen_eq_some.1 h
  obtain ⟨a, b, ha, hb, -⟩ := andThen_eq_some.1 hbehind
  obtain ⟨hpos, rfl⟩ := many1_eq_some.1 ha
  rw [drop_length_takeWhile] at hb
  obtain ⟨l, hl, c, rest, hrest, hc⟩ := hq _ b hb
  obtain ⟨hsteady, hne⟩ := Bool.and_eq_true_iff.1 (List.all_eq_true.1 hls l hl)
  have hword : isWord c = true := isWord_of_sameLetter (Bool.and_eq_true_iff.1 hsteady).1 hc
  have hor : sameLetter 'o' c = false := Bool.eq_false_iff.2 fun hor =>
    bne_iff_ne.1 hne ((toLower_of_sameLetter hsteady hc).symm.trans (toLower_of_sameLetter rfl hor))
  have hgap : Blank ((cs.drop m).takeWhile isBlank) := fun _ => List.mem_takeWhile_imp
  refine ⟨⟨⟨cs.take m, sameLetters_of_letters hk hm⟩, (cs.drop m).takeWhile isBlank, c, rest, List.ne_nil_of_length_pos hpos,
    hgap, hword, hor⟩, ?_⟩
  rw [text, tail, ← hrest, List.takeWhile_append_dropWhile, List.take_append_drop]

variable (hk : isKeyword k = true)

include hk

theorem isNameChar_word : ∀ c ∈ o.word.text, isNameChar c = true := by
  refine o.word.isNameChar (List.all_eq_true.2 fun c hc => ?_)
  have hlower := List.all_eq_true.1 (Bool.and_eq_true_iff.1 hk).2 c hc
  rw [isNameChar, Char.isAlphanum, Char.isAlpha, hlower, Bool.or_true, Bool.true_or, Bool.true_or]

/-- The keyword begins with a letter. -/
theorem exists_word_eq : ∃ c more, o.word.text = c :: more ∧ isWord c = true ∧ isDecimal c = false ∧
    Token.isLatin c = true ∧ k.toList.head? = some c.toLower := by
  obtain ⟨hne, hlower⟩ := Bool.and_eq_true_iff.1 hk
  obtain ⟨l, ls, hletters⟩ := List.exists_cons_of_ne_nil (by simpa using hne : k.toList ≠ [])
  have hl : l.isLower = true := List.all_eq_true.1 hlower l (hletters ▸ List.mem_cons_self ..)
  have hspells := o.word.spells
  rw [Spells, SameLetters, hletters] at hspells
  obtain ⟨c, more, hword, hc, -⟩ := List.map_eq_cons_iff.1 hspells
  rw [toLower_of_isLower hl] at hc
  have hname : isNameChar c = true := o.isNameChar_word hk c (hword ▸ List.mem_cons_self ..)
  obtain ⟨hdecimal, hlatin⟩ : isDecimal c = false ∧ Token.isLatin c = true :=
    of_isNameChar (motive := fun c => c.toLower.isLower = true → isDecimal c = false ∧ Token.isLatin c = true)
      (by decide +kernel) hname (hc ▸ hl)
  exact ⟨c, more, hword, isWord_of_isNameChar hname, hdecimal, hlatin, by rw [hletters, hc]; rfl⟩

/-- No other keyword is met. -/
theorem wholeWord_eq_none {w : String} (hw : isKeyword w = true) (hne : w ≠ k) : wholeWord w o.text = none := by
  rw [text, wholeWord_append_tail hw o.word.text o.wordEnds_tail]
  refine wholeWord_eq_none_of_name hw (o.isNameChar_word hk) fun hspells => hne ?_
  have hlower : ∀ {v : String}, isKeyword v = true → v.toList.map Char.toLower = v.toList := fun {v} hv =>
    (List.map_congr_left fun c hc =>
      toLower_of_isLower (List.all_eq_true.1 (Bool.and_eq_true_iff.1 hv).2 c hc)).trans (List.map_id _)
  have hsame : w.toList.map Char.toLower = k.toList.map Char.toLower := hspells.symm.trans o.word.spells
  rw [hlower hw, hlower hk] at hsame
  exact String.toList_injective hsame

/-- A class to which the characters of names belong, and blanks do not, ends where the keyword ends. -/
theorem run_text {f g : Char → Bool} (hname : ∀ c, isNameChar c = true → f c = true)
    (hblank : ∀ c, isBlank c = true → f c = false) (hfirst : ∀ c ∈ o.word.text.head?, g c = true) :
    (one g >> many f) o.text = some o.word.text.length := by
  obtain ⟨c, more, hword, -⟩ := o.exists_word_eq hk
  obtain ⟨b, blanks, htail, hb⟩ := o.exists_tail_eq
  have hone : one g (c :: (more ++ o.tail)) = some 1 := if_pos (hfirst c (by rw [hword]; rfl))
  have hrun : (more ++ o.tail).takeWhile f = more := by
    rw [htail]
    refine takeWhile_append_cons (fun d hd => hname d (o.isNameChar_word hk d ?_)) (hblank b hb) _
    rw [hword]
    exact List.mem_cons_of_mem _ hd
  rw [text, hword, List.cons_append, andThen_of_eq_some hone, List.drop_one, List.tail_cons, many, hrun, Option.map_some,
    List.length_cons, Nat.add_comm]

theorem identifier_text : Token.identifier o.text = some o.word.text.length := by
  obtain ⟨c, more, hword, -, -, hlatin, -⟩ := o.exists_word_eq hk
  refine o.run_text hk (fun _ => isWord_of_isNameChar) (fun _ => isWord_of_isBlank) ?_
  rw [hword]
  rintro _ ⟨⟩
  exact hlatin

theorem plainWord_text : Token.plainWord o.text = some o.word.text.length := by
  refine o.run_text hk (fun c hc => ?_) (fun c hc => ?_) fun c hc =>
    isWord_of_isNameChar (o.isNameChar_word hk c (List.mem_of_mem_head? hc))
  · rw [isWord_of_isNameChar hc]
    rfl
  · have hsign : ∀ {x : Char}, isBlank x = false → (c == x) = false := fun {x} hx =>
      beq_eq_false_iff_ne.2 fun heq => absurd hc (by rw [heq, hx]; exact Bool.false_ne_true)
    rw [isWord_of_isBlank hc, hsign (by decide), hsign (by decide)]
    rfl

end Opening

namespace Token

open Pattern

/-! ## The rules -/

/-- A rule that gives no token here. -/
def Rule.Silent (before : Option Char) (cs : List Char) (rule : Rule) : Prop :=
  rule.after before = false ∨ rule.pattern cs = none

/-- The rules that give no token can be left out. -/
theorem firstFit_filter {before : Option Char} {cs : List Char} {l : List Rule} {keep : Rule → Bool}
    (h : ∀ rule ∈ l, keep rule = true ∨ rule.Silent before cs) : firstFit before cs l = firstFit before cs (l.filter keep) := by
  induction l with
  | nil => rfl
  | cons rule l ih =>
    obtain ⟨hrule, hl⟩ := List.forall_mem_cons.1 h
    by_cases hkeep : keep rule = true
    · rw [List.filter_cons_of_pos hkeep, firstFit, firstFit, ih hl]
    · rw [List.filter_cons_of_neg hkeep, ← ih hl]
      rcases hrule.resolve_left hkeep with hafter | hpattern
      · rw [firstFit, hafter, if_neg Bool.false_ne_true]
      · exact firstFit_cons_none hpattern

/-- The words that rules begin with, but for the rule that gives a token of its own kind. -/
def ruleWords : List String :=
  ["case", "in", "values", "using", "from", "as", "left", "right", "full", "inner", "outer", "straight", "join", "cross",
    "natural", "end", "if", "not", "asc", "desc", "nulls", "union", "double", "group", "order", "primary", "handler", "go",
    "lateral", "at", "with'", "like", "ilike", "rlike", "regexp"]

/-- The rule that gives a token of its own kind. -/
def createRule : Rule :=
  ⟨.definer, extended (keyword "create") (apart (phrase ["or", "replace"])), fun _ => true⟩

theorem filter_rules : rules.filter (·.kind == .definer) = [createRule] := rfl

theorem cases_nameRules : ∀ rule ∈ nameRules, Unworded rule.pattern ∨ Needs ruleWords rule.pattern ∨
    rule.pattern = identifier.followedBy pointNext ∨ rule.pattern = identifier.followedBy (·.head? == some '(') ∨
      rule.after none = false := by
  simp only [nameRules, List.forall_mem_cons, List.not_mem_nil, false_implies, implies_true, and_true]
  and_intros
  all_goals first
    | exact .inl (unworded_commentMark.andThen _)
    | exact .inl unworded_lineEnd
    | exact .inl unworded_blank
    | exact .inl (unworded_exactly rfl _)
    | exact .inl (unworded_char rfl)
    | exact .inl ((unworded_char rfl).andThen _)
    | exact .inl (unworded_quotedBy rfl _)
    | exact .inl (unworded_placeholder.andThen _)
    | exact .inl (unworded_variable.andThen _)
    | exact .inr (.inl (stuck_oneOf (by decide)).followedBy)
    | exact .inr (.inr (.inl trivial))
    | exact .inr (.inr (.inr (.inl trivial)))
    | exact .inr (.inr (.inr (.inr rfl)))

theorem unworded_literalRules : ∀ rule ∈ literalRules, Unworded rule.pattern := by
  simp only [literalRules, List.forall_mem_cons, List.not_mem_nil, false_implies, implies_true, and_true]
  exact ⟨unworded_hexadecimal, unworded_powerNumber, unworded_pointNumber, unworded_wholeNumber,
    unworded_quotedBy rfl true, unworded_quotedBy rfl true, (unworded_char rfl).andThen _⟩

theorem needs_phraseRules : ∀ rule ∈ phraseRules, rule = createRule ∨ Needs ruleWords rule.pattern := by
  have hword : ∀ {k : String}, k ∈ ruleWords → Stuck ruleWords (keyword k) := stuck_keyword
  simp only [phraseRules, List.forall_mem_cons, List.not_mem_nil, false_implies, implies_true, and_true]
  and_intros
  · exact .inr ((stuck_oneOf (by decide)).lead_andThen
      ((stuck_oneOf (by decide)).lead_andThen (hword (by decide)))).followedBy
  · exact .inr ((stuck_oneOf (by decide)).lead_andThen (hword (by decide))).followedBy
  · exact .inr ((hword (by decide)).extended (parted_apart _))
  · exact .inr (((hword (by decide)).andThen (parted_blanks1.andThen _)).followedBy _)
  · exact .inr ((needs_phrase (by decide) _ _).followedBy _)
  · exact .inr ((stuck_oneOf (by decide)).extended ((parted_apart _).andThen _))
  · exact .inr (((hword (by decide)).andThen (parted_apart _)).followedBy _)
  · exact .inr ((needs_phrase (by decide) _ _).followedBy _)
  · exact .inl rfl
  · exact .inr ((needs_phrase (by decide) _ _).followedBy _)
  · exact .inr ((needs_phrase (by decide) _ _).followedBy _)
  · exact .inr ((needs_phrase (by decide) _ _).followedBy _)
  · exact .inr ((needs_phrase (by decide) _ _).followedBy _)
  · exact .inr ((needs_phrase (by decide) _ _).followedBy _)
  · exact .inr (((hword (by decide)).andThen (parted_blank.andThen _)).followedBy _)
  · exact .inr (((needs_phrase (by decide) _ _).andThen _).followedBy _)
  · exact .inr (((hword (by decide)).orElse (hword (by decide))).andThen ((parted_apart _).andThen _))
  · exact .inr ((hword (by decide)).lead_andThen (stuck_oneOf (by decide))).followedBy
  · exact .inr (((hword (by decide)).lead_andThen (hword (by decide))).extended (parted_apart _))

/-! ## The first token -/

variable {k : String} (o : Opening k)

/-- At a keyword that is no word of the rules only one rule can fit. -/
theorem firstFit_opening (hk : isKeyword k = true) (hrules : k ∉ ruleWords) (hfirst : k.toList.head? ≠ some 'w') :
    firstFit none o.text rules = firstFit none o.text [createRule] := by
  obtain ⟨c, more, hword, hc, hd, -, hletter⟩ := o.exists_word_eq hk
  have htext : o.text = c :: (more ++ o.tail) := by rw [Opening.text, hword]; rfl
  have hunworded : ∀ {p : Pattern}, Unworded p → p o.text = none := fun hp => by rw [htext, hp c _ hc hd]
  have hneeds : ∀ {p : Pattern}, Needs ruleWords p → p o.text = none := by
    intro p hp
    have hkeywords : ∀ w ∈ ruleWords, isKeyword w = true ∨ w = "with'" := by decide +kernel
    refine hp _ fun w hw => ?_
    rcases hkeywords w hw with hkeyword | rfl
    · exact o.wholeWord_eq_none hk hkeyword (ne_of_mem_of_not_mem hw hrules)
    · have hother : sameLetter 'w' c = false := by
        rw [sameLetter_eq rfl (o.isNameChar_word hk c (hword ▸ List.mem_cons_self ..)), beq_eq_false_iff_ne]
        exact fun heq => hfirst (heq ▸ hletter)
      have hnone : keyword "with'" (c :: (more ++ o.tail)) = none := keyword_cons (k := 'w') rfl hother _
      rw [wholeWord, followedBy_apply, htext, hnone]
      rfl
  have hnamed : ∀ {test : List Char → Bool}, test o.tail = false → (identifier.followedBy test) o.text = none := by
    intro test htest
    rw [Option.eq_none_iff_forall_ne_some]
    intro n hn
    obtain ⟨hn, hbehind⟩ := followedBy_eq_some.1 hn
    rw [o.identifier_text hk, Option.some.injEq] at hn
    rw [← hn, Opening.text, List.drop_left, htest] at hbehind
    cases hbehind
  have hpoint : pointNext o.tail = false := by
    rw [pointNext, o.dropWhile_tail]
    split
    · next heq =>
      have hnext := o.isWord_next
      rw [(List.cons.inj heq).1] at hnext
      cases hnext
    · rfl
  have hparen : (o.tail.head? == some '(') = false := by
    obtain ⟨b, blanks, htail, hb⟩ := o.exists_tail_eq
    rw [htail, beq_eq_false_iff_ne]
    rintro ⟨⟩
    cases hb
  rw [← filter_rules]
  refine firstFit_filter fun rule hrule => ?_
  rw [rules, List.mem_append, List.mem_append] at hrule
  rcases hrule with (hrule | hrule) | hrule
  · rcases cases_nameRules rule hrule with h | h | h | h | h
    · exact .inr (.inr (hunworded h))
    · exact .inr (.inr (hneeds h))
    · exact .inr (.inr (h ▸ hnamed hpoint))
    · exact .inr (.inr (h ▸ hnamed hparen))
    · exact .inr (.inl h)
  · exact .inr (.inr (hunworded (unworded_literalRules rule hrule)))
  · rcases needs_phraseRules rule hrule with rfl | h
    · exact .inl rfl
    · exact .inr (.inr (hneeds h))

/-- **The first token of a creation** is its first word. -/
theorem first_create (o : Opening "create") : first none o.text = (.definer, o.word.text.length) := by
  obtain ⟨c, more, hword, hc, -⟩ := o.exists_word_eq (by decide)
  have hdelimited : delimited none o.text = none := by
    rw [Opening.text, hword]
    exact delimited_word hc _ _
  have hkeyword : keyword "create" o.text = some o.word.text.length := keyword_spelled (by decide) o.word o.tail
  have hbehind : o.text.drop o.word.text.length = o.tail := List.drop_left
  have hor : phrase ["or", "replace"] (o.next :: o.rest) = none :=
    andThen_eq_none (keyword_cons (k := 'o') rfl o.next_ne o.rest)
  have hapart : apart (phrase ["or", "replace"]) o.tail = none := by
    rw [apart, blanks1_andThen_apply, o.dropWhile_tail, hor]
    split <;> rfl
  have hlong : (keyword "create" >> apart (phrase ["or", "replace"])) o.text = none := by
    rw [andThen_of_eq_some hkeyword, hbehind, hapart]
    rfl
  have hfits : createRule.pattern o.text = some o.word.text.length := by
    have hshort : (keyword "create").followedBy wordEnds o.text = some o.word.text.length :=
      followedBy_eq_some.2 ⟨hkeyword, hbehind ▸ o.wordEnds_tail⟩
    refine (orElse_apply _ _ _).trans ?_
    rw [followedBy_apply, hlong, hshort]
    rfl
  rw [first, hdelimited, firstFit_opening o (by decide) (by decide) (by decide), firstFit_cons_some rfl hfits]
  rfl

/-- **The first token of an alteration** is its first word. -/
theorem first_alter (o : Opening "alter") : first none o.text = (.definer, o.word.text.length) := by
  obtain ⟨c, more, hword, hc, -⟩ := o.exists_word_eq (by decide)
  have hdelimited : delimited none o.text = none := by
    rw [Opening.text, hword]
    exact delimited_word hc _ _
  have hneeds : Needs ["create"] createRule.pattern := (stuck_keyword (by decide)).extended (parted_apart _)
  have hcreate : createRule.pattern o.text = none := by
    refine hneeds _ fun w hw => ?_
    rw [List.mem_singleton.1 hw]
    exact o.wholeWord_eq_none (by decide) (by decide) (by decide)
  have hplain : plainWord o.text = some o.word.text.length := o.plainWord_text (by decide)
  have hkind : wordKind o.word.text = .definer := by
    have hupper : upper o.word.text = upper "alter".toList := SameLetters.upper_eq o.word.spells
    rw [wordKind, hupper]
    decide +kernel
  rw [first, hdelimited, firstFit_opening o (by decide) (by decide) (by decide), firstFit_cons_none hcreate]
  dsimp only [firstFit]
  rw [hplain]
  dsimp only
  rw [Opening.text, List.take_left, hkind]

end Token

end SchemaSketch
