import SchemaSketch.Proofs.Sql.Agreement
import SchemaSketch.Proofs.Sql.Cutting
import SchemaSketch.Proofs.Sql.Heading
import SchemaSketch.Proofs.Sql.Limits
import SchemaSketch.Proofs.Sql.Unclosed
import SchemaSketch.Proofs.Text.Pieces

/-!
# Words and marks as tokens

What a text is cut into, where it is written out.

* **One by one.** A word in front of a space is two tokens (`Token.lex_word`), a parenthesis is one
  (`Token.lexAfter_mark`), and behind a space the cut starts anew. Tokens without a semicolon among them are one
  segment (`Script.cut_eq_singleton`).
* **How many.** What a word is taken for depends on what it is and on the words behind it, but no rule of the token
  grammar stops inside of a word (`Token.endsWord_rules`). So a text of words and marks has at most one token for each
  of them (`Token.length_lexAfter_le`), and a text with few tokens is within the limits
  (`Script.segments_of_length_le`).
-/

namespace SchemaSketch

open Text Pattern

/-! ## Tokens -/

namespace Token

/-- The token of a space. -/
def space : Token := ⟨.blank, [' ']⟩

theorem lexAfter_space (before : Option Char) (tail : List Char) : lexAfter before (' ' :: tail) = space :: lex tail := by
  have hfirst : first before (' ' :: tail) = (.blank, 1) := by
    rcases first_blank (c := ' ') rfl before tail with ⟨n, -, hend⟩ | ⟨h, -⟩
    · cases hend
    · exact h
  have hbehind : lexAfter (some ' ') tail = lex tail := lexAfter_eq_lex (by decide) rfl tail
  rw [lexAfter_cons, hfirst]
  exact congrArg (space :: ·) hbehind

/-- A word in front of a space. -/
theorem lex_word {kind : TokenKind} {c : Char} {word tail : List Char}
    (h : first none (c :: (word ++ ' ' :: tail)) = (kind, word.length + 1)) :
    lex (c :: (word ++ ' ' :: tail)) = ⟨kind, c :: word⟩ :: space :: lex tail := by
  refine (lexAfter_cons none c _).trans ?_
  rw [h]
  dsimp only
  rw [Nat.add_sub_cancel, List.take_left, List.drop_left, lexAfter_space]

/-- A parenthesis. -/
theorem lexAfter_mark {c : Char} (hc : c = '(' ∨ c = ')' ∨ c = ';') (before : Option Char) (tail : List Char) :
    lexAfter before (c :: tail) = ⟨.punctuation, [c]⟩ :: lexAfter (some c) tail := by
  rw [lexAfter_cons, first_mark hc]
  rfl

end Token

/-! ## Segments -/

namespace Script

/-- Tokens without a semicolon, and without a word that ends a batch, are one segment. -/
theorem cut_eq_singleton {ts : List Token} (hts : ∀ t ∈ ts, t.isMark ';' = false ∧ Blocks.endsBatch t = false)
    (hspace : ts.all Token.isSpace = false) : cut ts = [ts] := by
  obtain ⟨hrun, -⟩ := Progress.run_open (p := Progress.start) rfl hts
  have hcurrent : (ts.reverse ++ []).all Token.isSpace = false := by
    rw [List.append_nil, List.all_reverse]
    exact hspace
  have hsegments := (congrArg Progress.segments hrun).trans (congrArg ([] ++ ·) (if_neg (Bool.eq_false_iff.1 hcurrent)))
  rw [Progress.cut_eq_segments, hsegments]
  exact congrArg (fun segment => [segment]) ((congrArg _ (List.append_nil _)).trans (List.reverse_reverse ts))

end Script

/-! ## Tokens at the beginning of a word -/

namespace Pattern

/-- A pattern that does not begin with a letter or a low line. -/
def Unworded (p : Pattern) : Prop := ∀ c cs, isWord c = true → isDecimal c = false → p (c :: cs) = none

theorem unworded_one {f : Char → Bool} (h : ∀ c, isWord c = true → isDecimal c = false → f c = false) :
    Unworded (one f) := fun c _ hc hd => if_neg (Bool.eq_false_iff.1 (h c hc hd))

theorem unworded_char {x : Char} (hx : (isWord x && !isDecimal x) = false) : Unworded (char x) := by
  refine unworded_one fun c hc hd => ?_
  rw [beq_eq_false_iff_ne]
  rintro rfl
  rw [hc, hd] at hx
  cases hx

theorem Unworded.andThen {p : Pattern} (hp : Unworded p) (q : Pattern) : Unworded (p >> q) := fun c cs hc hd =>
  andThen_eq_none (hp c cs hc hd)

theorem Unworded.orElse {p q : Pattern} (hp : Unworded p) (hq : Unworded q) : Unworded (p <|> q) := fun c cs hc hd => by
  rw [orElse_apply, hp c cs hc hd, hq c cs hc hd]
  rfl

theorem Unworded.optional_andThen {p q : Pattern} (hp : Unworded p) (hq : Unworded q) : Unworded (optional p >> q) :=
  fun c cs hc hd => by
    rw [Pattern.optional_andThen (hp c cs hc hd), hq c cs hc hd]

theorem unworded_exactly {x : Char} (hx : (isWord x && !isDecimal x) = false) (xs : List Char) :
    Unworded (exactly (x :: xs)) := (unworded_char hx).andThen _

theorem unworded_quotedBy {quote : Char} (hquote : isWord quote = false) (escapes : Bool) :
    Unworded (Token.quotedBy quote escapes) := by
  intro c cs hc _
  refine if_neg ?_
  rw [beq_iff_eq]
  rintro rfl
  rw [hc] at hquote
  cases hquote

theorem unworded_digitsBeforeLetter {start : Pattern} (hstart : Unworded start) (least : Nat) :
    Unworded (Token.digitsBeforeLetter start least) := fun c cs hc hd => by
  rw [Token.digitsBeforeLetter, hstart c cs hc hd]

/-- A pattern that, where a word begins with a letter or a low line, covers the word to its end or nothing. -/
def EndsWord (p : Pattern) : Prop :=
  ∀ c cs n, isWord c = true → isDecimal c = false → p (c :: cs) = some n → wordEnds ((c :: cs).drop n) = true

theorem Unworded.endsWord {p : Pattern} (hp : Unworded p) : EndsWord p := by
  intro c cs n hc hd hn
  rw [hp c cs hc hd] at hn
  cases hn

theorem endsWord_followedBy (p : Pattern) : EndsWord (p.followedBy wordEnds) := by
  intro c cs n _ _ h
  exact (followedBy_eq_some.1 h).2

theorem EndsWord.followedBy {p : Pattern} (hp : EndsWord p) (test : List Char → Bool) : EndsWord (p.followedBy test) := by
  intro c cs n hc hd h
  exact hp c cs n hc hd (followedBy_eq_some.1 h).1

theorem EndsWord.orElse {p q : Pattern} (hp : EndsWord p) (hq : EndsWord q) : EndsWord (p <|> q) := by
  intro c cs n hc hd h
  rcases eq_some_of_orElse h with h | h
  · exact hp c cs n hc hd h
  · exact hq c cs n hc hd h

/-- What takes all word characters ends where the word ends. -/
theorem endsWord_many (p : Pattern) {f : Char → Bool} (hf : ∀ c, isWord c = true → f c = true) :
    EndsWord (p >> many f) := by
  intro c cs n _ _ h
  obtain ⟨m, k, -, hk, rfl⟩ := andThen_eq_some.1 h
  obtain rfl : k = _ := (Option.some.inj hk).symm
  rw [← List.drop_drop]
  generalize (c :: cs).drop m = here
  rw [drop_length_takeWhile]
  cases hrest : here.dropWhile f with
  | nil => rfl
  | cons d rest =>
    have hfirst := List.head?_dropWhile_not f here
    rw [hrest] at hfirst
    have hd : f d = false := hfirst
    rw [wordEnds, Bool.not_eq_true']
    refine Bool.eq_false_iff.2 fun hword => ?_
    rw [hf d hword] at hd
    cases hd

/-- What needs a quote later on is not found where there is none. -/
theorem andThen_eq_none_of_quote {q : Pattern} (hq : ∀ cs, '\'' ∉ cs → q cs = none) (p : Pattern) :
    ∀ cs, '\'' ∉ cs → (p >> q) cs = none := by
  intro cs hquote
  rw [andThen_apply]
  cases p cs with
  | none => rfl
  | some n =>
    rw [Option.bind_some, hq _ fun hmem => hquote (List.drop_subset n cs hmem)]
    rfl

theorem char_quote_eq_none (cs : List Char) (hquote : '\'' ∉ cs) : char '\'' cs = none := by
  rw [Option.eq_none_iff_forall_ne_some]
  intro n hn
  exact hquote (List.mem_of_mem_head? (char_eq_some.1 hn).1)

end Pattern

namespace Token

theorem endsWord_identifier : EndsWord identifier := endsWord_many _ fun _ h => h

theorem endsWord_plainWord : EndsWord plainWord := endsWord_many _ fun c h => by rw [h]; rfl

theorem unworded_minus : Unworded (char '-') := unworded_char rfl

theorem unworded_digits1 : Unworded digits1 := (unworded_one fun _ _ hd => hd).andThen _

theorem unworded_commentMark : Unworded commentMark := (unworded_exactly rfl _).orElse (unworded_exactly rfl _)

theorem unworded_lineEnd : Unworded lineEnd :=
  (unworded_exactly rfl _).orElse ((unworded_char rfl).orElse (unworded_char rfl))

theorem unworded_wholeNumber : Unworded wholeNumber := by
  intro c cs hc hd
  have hsign : optional (char '-') (c :: cs) = some 0 := by
    rw [optional_apply, unworded_minus c cs hc hd]
    rfl
  have hrun : (((c :: cs).drop 0).takeWhile isDecimal).length = 0 := by
    rw [List.drop_zero, List.takeWhile_cons_of_neg (Bool.eq_false_iff.1 hd)]
    rfl
  rw [wholeNumber, digitsBeforeLetter, hsign]
  dsimp only
  rw [hrun]
  rfl

theorem unworded_blank : Unworded (one isBlank) := unworded_one fun _ hc _ => isBlank_of_isWord hc

theorem unworded_powerNumber : Unworded powerNumber := unworded_minus.optional_andThen (unworded_digits1.andThen _)

theorem unworded_pointNumber : Unworded pointNumber :=
  (unworded_digitsBeforeLetter (unworded_minus.optional_andThen (unworded_digits1.andThen _)) 0).orElse
    (unworded_digitsBeforeLetter (unworded_minus.optional_andThen (unworded_char rfl)) 1)

theorem unworded_placeholder : Unworded (one fun c => c == '$' || c == ':' || c == '?') := by
  refine unworded_one fun c hc _ => Bool.eq_false_iff.2 fun hsign => ?_
  rw [Bool.or_eq_true, Bool.or_eq_true, beq_iff_eq, beq_iff_eq, beq_iff_eq] at hsign
  rcases hsign with (rfl | rfl) | rfl <;> cases hc

theorem unworded_variable : Unworded (char '@' <|> exactly ['#', '#'] <|> char '#') :=
  (unworded_char rfl).orElse ((unworded_exactly rfl _).orElse (unworded_char rfl))

theorem unworded_hexadecimal : Unworded (optional (char '-') >> char '0' >> keyword "x" >> many1 isHexFigure) :=
  unworded_minus.optional_andThen ((unworded_char rfl).andThen _)

/-- Every rule ends a word that it begins with, but for the one of time zones, which ends with a quote. -/
theorem endsWord_rules : ∀ rule ∈ rules, EndsWord rule.pattern ∨ rule.pattern = zone := by
  have hends : ∀ {p : Pattern}, EndsWord p → EndsWord p ∨ p = zone := .inl
  simp only [rules, nameRules, literalRules, phraseRules, List.cons_append, List.nil_append,
      List.forall_mem_cons, List.not_mem_nil, false_implies, implies_true, and_true]
  and_intros
  all_goals first
    | exact hends (endsWord_followedBy _)
    | exact hends ((endsWord_followedBy _).orElse (endsWord_followedBy _))
    | exact hends endsWord_identifier
    | exact hends (endsWord_identifier.followedBy _)
    | exact hends (unworded_commentMark.andThen _).endsWord
    | exact hends (unworded_char rfl).endsWord
    | exact hends ((unworded_char rfl).andThen _).endsWord
    | exact hends (unworded_exactly rfl _).endsWord
    | exact hends (unworded_quotedBy rfl _).endsWord
    | exact hends unworded_lineEnd.endsWord
    | exact hends unworded_blank.endsWord
    | exact hends (unworded_placeholder.andThen _).endsWord
    | exact hends (unworded_variable.andThen _).endsWord
    | exact hends unworded_hexadecimal.endsWord
    | exact hends unworded_powerNumber.endsWord
    | exact hends unworded_pointNumber.endsWord
    | exact hends unworded_wholeNumber.endsWord
    | exact .inr (by rw [zone, zoneHead, andThen_assoc, andThen_assoc])

/-- No delimited stretch begins with a word. -/
theorem delimited_word {c : Char} (hc : isWord c = true) (before : Option Char) (cs : List Char) :
    delimited before (c :: cs) = none := by
  rw [delimited.eq_def]
  split
  · next h => rw [(List.cons.inj h).1] at hc; cases hc
  · next h => rw [(List.cons.inj h).1] at hc; cases hc
  · rfl

/-- A time zone ends with a quote. -/
theorem zone_eq_none {cs : List Char} (h : '\'' ∉ cs) : zone cs = none :=
  andThen_eq_none_of_quote (andThen_eq_none_of_quote char_quote_eq_none _) _ cs h

/-- A token that begins where a word begins ends where a word ends, or it is a time zone. -/
theorem ends_first {before : Option Char} {c : Char} {cs : List Char} (hc : isWord c = true)
    (hd : isDecimal c = false) {kind : TokenKind} {n : Nat} (h : first before (c :: cs) = (kind, n)) :
    wordEnds ((c :: cs).drop n) = true ∨ zone (c :: cs) = some n := by
  rw [first, delimited_word hc] at h
  dsimp only at h
  cases hfit : firstFit before (c :: cs) rules with
  | some found =>
    rw [hfit] at h
    obtain rfl : found = (kind, n) := h
    obtain ⟨rule, hrule, -, hn⟩ := firstFit_eq_some hfit
    rcases endsWord_rules rule hrule with hends | hzone
    · exact .inl (hends c cs n hc hd hn)
    · exact .inr (hzone ▸ hn)
  | none =>
    rw [hfit] at h
    dsimp only at h
    have hword : plainWord (c :: cs) = some (1 + (cs.takeWhile fun c => isWord c || c == '$' || c == '#').length) := by
      have hfirst : one isWord (c :: cs) = some 1 := if_pos hc
      exact andThen_of_eq_some hfirst _
    rw [hword] at h
    obtain ⟨-, rfl⟩ := Prod.mk.inj h
    exact .inl (endsWord_plainWord c cs _ hc hd hword)

/-- Without a quote it ends where a word ends. -/
theorem wordEnds_first {before : Option Char} {c : Char} {cs : List Char} (hc : isWord c = true)
    (hd : isDecimal c = false) (hquote : '\'' ∉ cs) {kind : TokenKind} {n : Nat}
    (h : first before (c :: cs) = (kind, n)) : wordEnds ((c :: cs).drop n) = true := by
  refine (ends_first hc hd h).resolve_right fun hzone => ?_
  have hnot : '\'' ∉ c :: cs := by
    rintro (_ | ⟨_, hmem⟩)
    · cases hc
    · exact hquote hmem
  rw [zone_eq_none hnot] at hzone
  cases hzone

/-! ## How many tokens there are -/

/-- Words and marks: a word does not begin with a digit, and `inWord` says that one is being read. -/
def isSpelled (inWord : Bool) : List Char → Bool
  | [] => true
  | c :: rest =>
    if isWord c then (inWord || !isDecimal c) && isSpelled true rest
    else [' ', '(', ')', ';'].contains c && isSpelled false rest

/-- How many marks there are. -/
def marks (cs : List Char) : Nat := cs.countP (! isWord ·)

theorem isSpelled_drop {inWord : Bool} {cs : List Char} (h : isSpelled inWord cs = true) (n : Nat) :
    ∃ inWord', isSpelled inWord' (cs.drop n) = true := by
  induction cs generalizing inWord n with
  | nil => exact ⟨inWord, by rw [List.drop_nil]; exact h⟩
  | cons c rest ih =>
    cases n with
    | zero => exact ⟨inWord, h⟩
    | succ n =>
      rw [isSpelled] at h
      split at h
      · exact ih (Bool.and_eq_true_iff.1 h).2 n
      · exact ih (Bool.and_eq_true_iff.1 h).2 n

/-- Where a word ends it does not matter that one has been read. -/
theorem isSpelled_of_wordEnds {inWord : Bool} {cs : List Char} (h : isSpelled inWord cs = true)
    (hends : wordEnds cs = true) : isSpelled false cs = true := by
  cases cs with
  | nil => rfl
  | cons c rest =>
    have hc : isWord c = false := by simpa [wordEnds] using hends
    rw [isSpelled, hc] at h ⊢
    exact h

theorem not_mem_of_isSpelled {inWord : Bool} {cs : List Char} (h : isSpelled inWord cs = true) : '\'' ∉ cs := by
  induction cs generalizing inWord with
  | nil => exact List.not_mem_nil
  | cons c rest ih =>
    rw [isSpelled] at h
    split at h
    · next hc =>
      rintro (_ | ⟨_, hmem⟩)
      · cases hc
      · exact ih (Bool.and_eq_true_iff.1 h).2 hmem
    · rintro (_ | ⟨_, hmem⟩)
      · cases (Bool.and_eq_true_iff.1 h).1
      · exact ih (Bool.and_eq_true_iff.1 h).2 hmem

theorem first_of_mark {before : Option Char} {c : Char} (hc : c ∈ [' ', '(', ')', ';']) (cs : List Char) :
    (first before (c :: cs)).2 = 1 := by
  simp only [List.mem_cons, List.not_mem_nil, or_false] at hc
  rcases hc with rfl | hc
  · rcases first_blank (c := ' ') rfl before cs with ⟨n, -, hend⟩ | ⟨h, -⟩
    · cases hend
    · rw [h]
  · rw [first_mark hc]

/-- **There is at most one token for each mark and one for each word.** -/
theorem length_lexAfter_le (before : Option Char) {cs : List Char} (h : isSpelled false cs = true) :
    (lexAfter before cs).length ≤ 2 * marks cs + 1 ∧
      (wordEnds cs = true → (lexAfter before cs).length ≤ 2 * marks cs) := by
  -- each token takes at least one character, and one that begins with a word takes all of it
  induction hlength : cs.length using Nat.strongRecOn generalizing before cs with
  | _ length ih =>
    cases cs with
    | nil => exact ⟨Nat.zero_le _, fun _ => Nat.zero_le _⟩
    | cons c rest =>
      have hquote : '\'' ∉ rest := fun hmem => not_mem_of_isSpelled h (List.mem_cons_of_mem c hmem)
      rw [List.length_cons] at hlength
      rw [lexAfter_cons]
      cases hfound : first before (c :: rest) with
      | mk kind n =>
        dsimp only
        cases hc : isWord c with
        | false =>
          rw [isSpelled, hc, if_neg Bool.false_ne_true, Bool.and_eq_true, List.contains_iff_mem] at h
          obtain rfl : n = 1 := by
            have hone : (first before (c :: rest)).2 = 1 := first_of_mark h.1 rest
            rw [hfound] at hone
            exact hone
          have hmarks : marks (c :: rest) = marks rest + 1 := List.countP_cons_of_pos (by rw [hc]; rfl)
          have hbound := (ih rest.length (by omega) ((c :: rest.take 0).getLast?) h.2 rfl).1
          rw [hmarks, List.length_cons, Nat.sub_self, List.drop_zero]
          exact ⟨by omega, fun _ => by omega⟩
        | true =>
          have hopen : wordEnds (c :: rest) = false := by rw [wordEnds, hc]; rfl
          rw [isSpelled, hc, if_pos rfl, Bool.false_or, Bool.and_eq_true, Bool.not_eq_true'] at h
          have hends := wordEnds_first hc h.1 hquote hfound
          cases n with
          | zero =>
            rw [List.drop_zero, hopen] at hends
            cases hends
          | succ n =>
            rw [List.drop_succ_cons] at hends
            obtain ⟨inWord, hdrop⟩ := isSpelled_drop h.2 n
            have hbehind := isSpelled_of_wordEnds hdrop hends
            have hmarks : marks (rest.drop n) ≤ marks (c :: rest) :=
              ((List.drop_sublist n rest).trans (List.sublist_cons_self c rest)).countP_le
            have hshorter : (rest.drop n).length < length := by
              rw [List.length_drop]
              omega
            have hbound := (ih _ hshorter ((c :: rest.take n).getLast?) hbehind rfl).2 hends
            rw [List.length_cons, Nat.add_sub_cancel]
            refine ⟨by omega, fun h => ?_⟩
            rw [hopen] at h
            cases h

/-- Pieces are words and marks, and have one mark each. -/
theorem isSpelled_spell {ps : List Piece} (h : ∀ p ∈ ps, p.Plain) :
    isSpelled false (spell ps) = true ∧ marks (spell ps) = ps.length := by
  induction ps with
  | nil => exact ⟨rfl, rfl⟩
  | cons p ps ih =>
    obtain ⟨hp, hps⟩ := List.forall_mem_cons.1 h
    obtain ⟨hrest, hmarks⟩ := ih hps
    have hmark := p.isWord_mark hp
    have hend : ∀ inWord, isSpelled inWord (p.mark :: spell ps) = true := by
      intro inWord
      rw [isSpelled, hmark, if_neg Bool.false_ne_true, Bool.and_eq_true, List.contains_iff_mem]
      exact ⟨hp.mark, hrest⟩
    -- inside a word any word character may follow
    have hinside : ∀ word : List Char, (∀ c ∈ word, isWord c = true) →
        isSpelled true (word ++ p.mark :: spell ps) = true := by
      intro word hword
      induction word with
      | nil => exact hend true
      | cons c word ih =>
        obtain ⟨hc, hword⟩ := List.forall_mem_cons.1 hword
        rw [List.cons_append, isSpelled, hc, if_pos rfl, Bool.true_or, Bool.true_and]
        exact ih hword
    rw [spell_cons]
    constructor
    · cases hword : p.word with
      | nil => exact hend false
      | cons c word =>
        have hfirst := hp.begins
        have hchars := hp.word
        rw [hword] at hfirst hchars
        obtain ⟨hc, hchars⟩ := List.forall_mem_cons.1 hchars
        rw [List.cons_append, isSpelled, hc, if_pos rfl, hfirst c rfl, hinside word hchars]
        rfl
    · have hnone : p.word.countP (! isWord ·) = 0 := by
        rw [List.countP_eq_zero]
        intro c hc
        rw [hp.word c hc]
        decide
      rw [marks, List.countP_append, hnone, List.countP_cons_of_pos (by rw [hmark]; rfl), List.length_cons,
        Nat.zero_add]
      exact congrArg (· + 1) hmarks

end Token

/-! ## Limits -/

namespace Script

/-- A nest is no higher than there are tokens. -/
theorem nestingFrom_le (pending : List Nat) (highest : Nat) (ts : List Token) {bound : Nat}
    (hpending : ∀ inner ∈ pending, inner ≤ bound) (hhighest : highest ≤ bound) :
    nestingFrom pending highest ts ≤ bound + ts.length := by
  induction ts generalizing pending highest bound with
  | nil => exact hhighest
  | cons t rest ih =>
    have hnext : ∀ {pending highest}, (∀ inner ∈ pending, inner ≤ bound + 1) → highest ≤ bound + 1 →
        nestingFrom pending highest rest ≤ bound + (t :: rest).length := by
      intro pending highest hpending hhighest
      have h := ih pending highest hpending hhighest
      rw [List.length_cons]
      omega
    have hkept : ∀ inner ∈ pending, inner ≤ bound + 1 := fun inner hinner => Nat.le_succ_of_le (hpending inner hinner)
    rw [nestingFrom.eq_def]
    dsimp only
    split
    · exact hnext (List.forall_mem_cons.2 ⟨Nat.zero_le _, hkept⟩) (Nat.le_succ_of_le hhighest)
    split
    · split
      · exact hnext (fun inner hinner => absurd hinner List.not_mem_nil) (Nat.le_succ_of_le hhighest)
      · next inner =>
        have hinner := hpending inner (List.mem_cons_self ..)
        exact hnext (fun inner hinner => absurd hinner List.not_mem_nil) (by omega)
      · next inner outer more =>
        have hinner := hpending inner (List.mem_cons_self ..)
        have houter := hkept outer (List.mem_cons_of_mem _ (List.mem_cons_self ..))
        refine hnext (List.forall_mem_cons.2 ⟨by omega, fun other hother => ?_⟩) (by omega)
        exact hkept other (List.mem_cons_of_mem _ (List.mem_cons_of_mem _ hother))
    · exact hnext hkept (Nat.le_succ_of_le hhighest)

/-- A text with few tokens is not too much. -/
theorem segments_of_length_le {cs : List Char} (h : (Token.lex cs).length ≤ maxDepth) :
    segments cs = .ok (cut (Token.lex cs)) := by
  have hfits : ∀ segment ∈ cut (Token.lex cs), Fits segment := by
    intro segment hsegment
    have hprefix : (cut (Token.lex cs)).flatten <+: Token.lex cs := Statement.flatten_cutFrom {} [] (Token.lex cs)
    have hlength : segment.length ≤ maxDepth :=
      ((List.sublist_flatten_of_mem hsegment).trans hprefix.sublist).length_le.trans h
    refine ⟨hlength.trans (by decide), ?_⟩
    have hnesting : nestingFrom [] 0 segment ≤ 0 + segment.length :=
      nestingFrom_le [] 0 segment (fun _ hinner => absurd hinner List.not_mem_nil) (Nat.le_refl 0)
    rw [nesting]
    omega
  rw [segments]
  exact map_forM_check_eq_ok.2 ⟨hfits, rfl⟩

/-- A text of few pieces is not too much either. -/
theorem segments_spell {ps : List Piece} (hps : ∀ p ∈ ps, p.Plain) (h : 2 * ps.length + 1 ≤ maxDepth) :
    segments (spell ps) = .ok (cut (Token.lex (spell ps))) := by
  obtain ⟨hspelled, hmarks⟩ := Token.isSpelled_spell hps
  have hlength := (Token.length_lexAfter_le none hspelled).1
  rw [hmarks] at hlength
  exact segments_of_length_le (hlength.trans h)

/-- The first segment begins with the first token. -/
theorem exists_cut_cons {t : Token} (ht : t.isSpace = false) (ts : List Token) :
    ∃ more rest, cut (t :: ts) = (t :: more) :: rest := by
  have hcurrent : ∀ (s : Blocks) (front us : List Token), ∃ more rest,
      cutFrom s (front ++ [t]) us = (t :: more) :: rest := by
    intro s front us
    induction us generalizing s front with
    | nil =>
      have hspace : (front ++ [t]).all Token.isSpace = false := by simp [ht]
      rw [cutFrom, hspace, if_neg Bool.false_ne_true, List.reverse_append, List.reverse_singleton]
      exact ⟨_, _, rfl⟩
    | cons u us ih =>
      rw [cutFrom]
      split
      · rw [List.reverse_append, List.reverse_singleton]
        exact ⟨_, _, rfl⟩
      · exact ih (s.next u) (u :: front)
  exact hcurrent _ [] ts

end Script
end SchemaSketch
