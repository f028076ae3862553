import SchemaSketch.Proofs.Sql.Regular
import SchemaSketch.Proofs.Sql.Words
import SchemaSketch.Proofs.Text.Capitals

/-!
# The tokens of a regular text

Of a regular text the cut into tokens can be told from the characters: a parenthesis, a comma or a semicolon is a token by
itself unless it stands between quotes, and no other token has anything to say in the cut into statements, if none of the
words is one by which blocks are opened or closed (`Token.counted_lexAfter`).

A token of a regular text begins where the reader is open, and leaves the reader open again (`Token.opens_first`). So the
tokens are followed one by one.
-/

namespace SchemaSketch

open Text Pattern

namespace Token

/-! ## Tokens that say nothing in the cut -/

/-- What is not a letter stays as it is in capitals. -/
theorem head?_upper {c : Char} (hc : capitalForm c = [c]) (cs : List Char) : (upper (c :: cs)).head? = some c := by
  rw [upper, List.flatMap_cons, hc]
  rfl

/-- What is no block word, and does not begin with the word that ends a batch. -/
theorem isQuiet_of_text {kind : TokenKind} {text : List Char}
    (hblock : blockWords.contains (String.ofList (upper text)) = false) (hbatch : (words text).head? ≠ some ['G', 'O']) :
    isQuiet ⟨kind, text⟩ = true := by
  rw [isQuiet, hblock, Bool.and_false, Blocks.endsBatch, beq_eq_false_iff_ne.2 hbatch, Bool.and_false]
  rfl

/-- A token that begins with something else than a letter. -/
theorem isQuiet_of_head {kind : TokenKind} {c : Char} {text : List Char}
    (hc : "-0123456789(),;.\'\"".toList.contains c = true) : isQuiet ⟨kind, c :: text⟩ = true := by
  have hfirst : "-0123456789(),;.\'\"".toList.all (fun c => capitalForm c == [c] && !isBlank c && c != 'G' &&
      blockWords.all (·.toList.head? != some c)) = true := by decide +kernel
  have hfirst := List.all_eq_true.1 hfirst c (List.contains_iff_mem.1 hc)
  simp only [Bool.and_eq_true, beq_iff_eq, Bool.not_eq_true', bne_iff_ne] at hfirst
  obtain ⟨⟨⟨hself, hblank⟩, hletter⟩, hblocks⟩ := hfirst
  have hblock : blockWords.contains (String.ofList (upper (c :: text))) = false := by
    rw [List.contains_eq_mem, decide_eq_false_iff_not]
    intro hmem
    have hnot := List.all_eq_true.1 hblocks _ hmem
    rw [String.toList_ofList, head?_upper hself] at hnot
    simp at hnot
  have hbatch : (words (c :: text)).head? ≠ some ['G', 'O'] := by
    obtain ⟨r, more, hwords⟩ := @exists_runsFrom isBlank [c] (List.cons_ne_nil _ _) text
    have hfirst : words (c :: text) = (c :: r) :: more := by
      rw [words, runs, runsFrom, hblank, if_neg Bool.false_ne_true]
      exact hwords
    rw [hfirst]
    rintro heq
    exact hletter (List.cons.inj (Option.some.inj heq)).1
  exact isQuiet_of_text hblock hbatch

/-- Behind a word stands a blank, or a mark that is in no block word. -/
theorem ends_of_loneMarks {c : Char} (hc : loneMarks.contains c = true) : isBlank c = true ∨
    (capitalForm c = [c] ∧ blockWords.all (! ·.toList.contains c) = true ∧ c ∉ ['G', 'O']) := by
  have hmarks := Spot.of_loneMarks (p := fun c => isBlank c ||
    (capitalForm c == [c] && blockWords.all (! ·.toList.contains c) && ! ['G', 'O'].contains c)) (by decide +kernel) hc
  rw [Bool.or_eq_true, Bool.and_eq_true, Bool.and_eq_true, beq_iff_eq, Bool.not_eq_true', List.contains_eq_mem,
    decide_eq_false_iff_not, and_assoc] at hmarks
  exact hmarks

/-- Capitals of blanks are blanks. -/
theorem isBlank_head_upper {c : Char} (hc : isBlank c = true) (cs : List Char) :
    ∀ d ∈ (upper (c :: cs)).head?, isBlank d = true := by
  intro d hd
  obtain ⟨e, more, hform⟩ := List.exists_cons_of_ne_nil (capitalForm_ne_nil c)
  rw [upper, List.flatMap_cons, hform] at hd
  cases hd
  rw [isBlank_of_mem_capitalForm (hform ▸ List.mem_cons_self ..), hc]

section

variable {word behind : List Char} (hword : ∀ c ∈ word, isWord c = true)
  (hbehind : ∀ c ∈ behind.head?, loneMarks.contains c = true)

include hword hbehind

/-- A word is the first of a block word only if a block word begins with it. -/
theorem not_blockWord_of_word (hloud : loudWords.contains (upper word) = false) :
    blockWords.contains (String.ofList (upper (word ++ behind))) = false := by
  have hcapitals : ∀ c ∈ upper word, isBlank c = false := fun d hd => by
    obtain ⟨c, hc, hd⟩ := List.mem_flatMap.1 hd
    rw [isBlank_of_mem_capitalForm hd, isBlank_of_isWord (hword c hc)]
  rw [List.contains_eq_mem, decide_eq_false_iff_not, upper_append]
  intro hmem
  have hfirst : (∀ c ∈ (upper behind).head?, isBlank c = true) → False := fun hrest => by
    refine Bool.eq_false_iff.1 hloud (List.contains_iff_mem.2 (List.mem_map.2 ⟨_, hmem, ?_⟩))
    rw [String.toList_ofList]
    exact takeWhile_append (fun c hc => by rw [hcapitals c hc]; rfl) fun c hc => by rw [hrest c hc]; rfl
  cases behind with
  | nil => exact hfirst (by rintro c ⟨⟩)
  | cons c behind =>
    rcases ends_of_loneMarks (hbehind c rfl) with hc | ⟨hself, hnone, -⟩
    · exact hfirst (isBlank_head_upper hc behind)
    · have hnot := List.all_eq_true.1 hnone _ hmem
      have hcapital : upper (c :: behind) = c :: upper behind := by rw [upper, List.flatMap_cons, hself]; rfl
      rw [String.toList_ofList, hcapital] at hnot
      simp at hnot

/-- A text that begins with a word ends a batch only if that word does. -/
theorem head?_words_ne_go (hne : word ≠ []) (hgo : word ≠ ['G', 'O']) :
    (words (word ++ behind)).head? ≠ some ['G', 'O'] := by
  have hblank : ∀ c ∈ word, isBlank c = false := fun c hc => isBlank_of_isWord (hword c hc)
  intro hhead
  by_cases hends : ∀ c ∈ behind.head?, isBlank c = true
  · rw [words_append hne hblank hends] at hhead
    exact hgo (Option.some.inj hhead)
  · -- the mark belongs to the first word
    obtain ⟨c, behind, rfl, hc⟩ : ∃ c more, behind = c :: more ∧ isBlank c ≠ true := by
      push Not at hends
      obtain ⟨c, hhead, hc⟩ := hends
      obtain ⟨more, rfl⟩ := List.head?_eq_some_iff.1 hhead
      exact ⟨c, more, rfl, hc⟩
    obtain ⟨-, -, hletter⟩ := (ends_of_loneMarks (hbehind c rfl)).resolve_left hc
    obtain ⟨r, more, hwords⟩ := @exists_runsFrom isBlank (c :: (word.reverse ++ [])) (List.cons_ne_nil _ _) behind
    rw [words, runs, runsFrom_append hblank, runsFrom, if_neg hc, hwords] at hhead
    refine hletter (Option.some.inj hhead ▸ ?_)
    simp

/-- A word that is not loud, and what a phrase has behind it. -/
theorem isQuiet_of_word {kind : TokenKind} (hne : word ≠ []) (hloud : isLoud word = false) :
    isQuiet ⟨kind, word ++ behind⟩ = true := by
  rw [isLoud, Bool.or_eq_false_iff, beq_eq_false_iff_ne] at hloud
  exact isQuiet_of_text (not_blockWord_of_word hword hbehind hloud.1) (head?_words_ne_go hword hbehind hne hloud.2)

end

/-! ## Tokens that count -/

/-- A parenthesis, a comma or a semicolon that counts. -/
def isCounted (t : Token) : Bool := t.isSign || t.isMark ';'

/-- The characters of a token, and whether they are marks that count. -/
def counted (t : Token) : List (Char × Bool) := t.text.map (·, t.isCounted)

theorem isCounted_eq_false {t : Token} (h : ∀ c, t.text = [c] → Text.isMark c = false) : t.isCounted = false := by
  have hsign : t.isSign = false := isSign_eq_false fun c hc => (Bool.or_eq_false_iff.1 (h c hc)).1
  have hsemicolon : (t.text == [';']) = false := by
    rw [beq_eq_false_iff_ne]
    intro htext
    cases h ';' htext
  rw [isCounted, hsign, isMark, hsemicolon, Bool.and_false]
  rfl

/-- What a regular text begins with: a token that says nothing in the cut, whose marks are those of the text, and a
regular text. -/
structure Opens (cs text tail : List Char) (kind : TokenKind) : Prop where
  /-- the token and the rest make up the text -/
  split : cs = text ++ tail
  /-- the marks that count are told by the token -/
  counted : Text.counted none cs = (Token.mk kind text).counted ++ Text.counted none tail
  /-- behind the token the text is regular -/
  regular : isRegular tail = true
  /-- the token opens and closes no block -/
  quiet : isQuiet ⟨kind, text⟩ = true

section

variable {kind : TokenKind}

/-- A stretch without marks and quotes. -/
theorem opens_clear {text tail : List Char} (htext : ∀ c ∈ text, c ∉ edges) (hregular : isRegular tail = true)
    (hquiet : isQuiet ⟨kind, text⟩ = true) : Opens (text ++ tail) text tail kind := by
  have hcounted : isCounted ⟨kind, text⟩ = false := isCounted_eq_false fun c hc => by
    have hmem : c ∈ text := by
      rw [show text = [c] from hc]
      exact List.mem_cons_self ..
    exact (not_mem_edges.1 (htext c hmem)).1
  refine ⟨rfl, ?_, hregular, hquiet⟩
  rw [counted_append htext, counted, hcounted]

/-- Quoted text. -/
theorem opens_quoted {mark : Char} (hmark : mark = '\'' ∨ mark = '"') {rest : List Char}
    (h : isRegular (mark :: rest) = true) {before : Option Char} {n : Nat}
    (hfirst : first before (mark :: rest) = (kind, n)) :
    Opens (mark :: rest) (mark :: rest.take (n - 1)) (rest.drop (n - 1)) kind := by
  have hinside : (Spot.quote mark).reads rest = true := Spot.reads_quoteMark hmark rest ▸ h
  obtain ⟨body, tail, rfl, hclosing, -, hregular, hcounted⟩ := Spot.closing_eq hmark true rest 1 none hinside
  have hquoted : quotedBy mark true (mark :: (body ++ tail)) = some (1 + body.length) :=
    (if_pos (beq_self_eq_true mark)).trans hclosing
  have hshared : (mark, true) ∈ Comment.sharedQuotes := by rcases hmark with rfl | rfl <;> decide
  obtain ⟨rfl, rfl⟩ := Prod.mk.inj (hfirst.symm.trans (first_quote hshared before hquoted))
  have hopen : Text.counted none (mark :: (body ++ tail)) = (mark, false) :: Text.counted (some mark) (body ++ tail) := by
    rcases hmark with rfl | rfl <;> rfl
  rw [Nat.add_sub_cancel_left, List.take_left, List.drop_left]
  refine ⟨rfl, ?_, hregular, isQuiet_of_head (by rcases hmark with rfl | rfl <;> decide)⟩
  have hplain : isCounted ⟨.other, mark :: body⟩ = false := rfl
  rw [hopen, hcounted, counted, hplain]
  rfl

end

/-! ## Words -/

/-- A word that may be followed by more words stays a word that is not loud. -/
theorem isQuiet_of_front {kind : TokenKind} {c : Char} {text tail : List Char}
    (h : isRegular (c :: (text ++ tail)) = true) (hc : isWord c = true) (hd : isDecimal c = false)
    (hends : wordEnds tail = true ∨ ∃ x ∈ text, isWord x = false) : isQuiet ⟨kind, c :: text⟩ = true := by
  have hword : (Spot.word [c]).reads (text ++ tail) = true := by
    rw [isRegular, Spot.reads_cons, Spot.next_word hc hd] at h
    exact h
  obtain ⟨hloud, hbehind⟩ := Spot.reads_word hword
  rw [List.reverse_singleton, List.singleton_append] at hloud
  have hfront : (text ++ tail).takeWhile isWord = text.takeWhile isWord ∧
      ∀ d ∈ (text.dropWhile isWord).head?, loneMarks.contains d = true := by
    by_cases hall : ∀ x ∈ text, isWord x = true
    · have htail : ∀ x ∈ tail.head?, isWord x = false := by
        rcases hends with hends | ⟨x, hx, hnot⟩
        · intro x hx
          cases tail with
          | nil => cases hx
          | cons y tail =>
            cases hx
            simpa [wordEnds] using hends
        · rw [hall x hx] at hnot
          cases hnot
      rw [takeWhile_append hall htail, List.takeWhile_eq_self_iff.2 hall, List.dropWhile_eq_nil_iff.2 hall]
      exact ⟨rfl, by rintro d ⟨⟩⟩
    · have hany : text.any (! isWord ·) = true := by
        simpa using hall
      obtain ⟨d, more, hdrop⟩ := List.exists_cons_of_ne_nil fun hnil => hall (List.dropWhile_eq_nil_iff.1 hnil)
      refine ⟨takeWhile_append_of_any hany tail, ?_⟩
      rw [List.dropWhile_append, hdrop] at hbehind
      rw [hdrop]
      exact hbehind
  rw [hfront.1] at hloud
  have hsplit : c :: text = (c :: text.takeWhile isWord) ++ text.dropWhile isWord :=
    congrArg (c :: ·) List.takeWhile_append_dropWhile.symm
  rw [hsplit]
  have hword : ∀ x ∈ c :: text.takeWhile isWord, isWord x = true :=
    List.forall_mem_cons.2 ⟨hc, fun x hx => List.all_eq_true.1 List.all_takeWhile x hx⟩
  exact isQuiet_of_word hword hfront.2 (List.cons_ne_nil _ _) hloud

/-- In a regular text no quote is taken for a letter of the words of a time zone. -/
theorem clear_zoneWord {c : Char} {rest : List Char} (h : isRegular (c :: rest) = true)
    (hc : isWord c = true) (hd : isDecimal c = false) {m : Nat}
    (hm : (keyword "at" <|> keyword "with'") (c :: rest) = some m) : ∀ x ∈ (c :: rest).take m, x ∉ edges := by
  have hbehind : ∀ d ∈ (rest.dropWhile isWord).head?, loneMarks.contains d = true := by
    rw [isRegular, Spot.reads_cons, Spot.next_word hc hd] at h
    exact (Spot.reads_word h).2
  rcases zoneWord_eq_some hm with hclear | ⟨word, e, q, more, hsplit, rfl, hword, hq⟩
  · exact hclear
  have hlast : q ∉ edges := by
    by_cases hqWord : isWord q = true
    · exact not_mem_of_clears (f := isWord) (by decide) hqWord
    · -- behind a word stands a mark, and no quote
      have hwords : ∀ x ∈ word ++ [e], isWord x = true := fun x hx => (hword x hx).1
      have hdrop : (c :: rest).dropWhile isWord = q :: more := by
        rw [hsplit, List.append_cons, List.dropWhile_append_of_pos hwords, List.dropWhile_cons_of_neg hqWord]
      rw [List.dropWhile_cons_of_pos hc] at hdrop
      have hlone := hbehind q (by rw [hdrop]; rfl)
      have hnot := Spot.of_loneMarks (p := (! sameLetter '\'' ·)) (by decide +kernel) hlone
      rw [hq] at hnot
      cases hnot
  have htake : (c :: rest).take (word ++ [e, q]).length = word ++ [e] ++ [q] := by
    rw [hsplit, List.append_assoc, show word ++ e :: q :: more = word ++ [e, q] ++ more by simp, List.take_left]
    rfl
  rw [htake, List.forall_mem_append, List.forall_mem_singleton]
  exact ⟨fun x hx => (hword x hx).2, hlast⟩

/-- A time zone with its literal. -/
theorem opens_zone {kind : TokenKind} {c : Char} {rest : List Char} (h : isRegular (c :: rest) = true)
    (hc : isWord c = true) (hd : isDecimal c = false) {n : Nat} (hn : zone (c :: rest) = some n) :
    Opens (c :: rest) (c :: rest.take (n - 1)) (rest.drop (n - 1)) kind := by
  obtain ⟨front, content, tail, hsplit, hfront, hcontent, rfl⟩ := 
    zone_eq_some (List.Subset.refl edges) hn fun _ => clear_zoneWord h hc hd
  obtain ⟨front, rfl⟩ : ∃ more, front = c :: more := by
    cases front with
    | nil =>
      rw [List.nil_append] at hsplit
      rw [(List.cons.inj hsplit).1] at hc
      cases hc
    | cons d more =>
      rw [List.cons_append] at hsplit
      exact ⟨more, by rw [(List.cons.inj hsplit).1]⟩
  obtain rfl : rest = front ++ '\'' :: (content ++ ['\'']) ++ tail := by
    rw [List.cons_append] at hsplit
    rw [(List.cons.inj hsplit).2, List.append_assoc, List.cons_append, List.append_assoc]
    rfl
  have hlength : (c :: front).length + (content.length + 2) - 1 = (front ++ '\'' :: (content ++ ['\''])).length := by
    simp only [List.length_append, List.length_cons, List.length_nil]
    omega
  rw [hlength, List.take_left, List.drop_left]
  have hparts : c :: (front ++ '\'' :: (content ++ ['\'']) ++ tail) =
      (c :: front) ++ '\'' :: (content ++ '\'' :: tail) := by simp
  have hplain : isCounted ⟨kind, c :: (front ++ '\'' :: (content ++ ['\'']))⟩ = false :=
    isCounted_eq_false fun x hx => by simp at hx
  have hregular : isRegular tail = true := Spot.reads_quoted (Spot.reads_quote (hparts ▸ h) hfront) hcontent
  refine ⟨rfl, ?_, hregular, isQuiet_of_front h hc hd (.inr ⟨'\'', by simp, rfl⟩)⟩
  have hopen : Text.counted none ('\'' :: (content ++ '\'' :: tail)) =
      ('\'', false) :: Text.counted (some '\'') (content ++ '\'' :: tail) := rfl
  rw [counted, hplain, hparts, counted_append hfront, hopen, counted_quote hcontent]
  simp

/-! ## Numbers -/

/-- The patterns of numbers. -/
def numberPatterns : List Pattern :=
  [optional (char '-') >> char '0' >> keyword "x" >> many1 isHexFigure, powerNumber, pointNumber, wholeNumber]

/-- The characters that a number begins with if it has no sign. -/
def figures : List Char := ['.', '0', '1', '2', '3', '4', '5', '6', '7', '8', '9']

/-- What holds of the figures can be looked up. -/
theorem of_figures {p : Char → Bool} (hp : figures.all p = true) {c : Char} (h : c ∈ figures) : p c = true :=
  List.all_eq_true.1 hp c h

theorem mem_figures_of_isDigit {c : Char} (h : c.isDigit = true) : c ∈ figures :=
  List.forall_iff_forall_mem.1 (by decide : "0123456789".toList.Forall (· ∈ figures)) c (mem_figures h)

/-- Where no word and no quoted text begins, only a number can. -/
theorem numeral_rules : ∀ rule ∈ rules, rule.pattern ∈ numberPatterns ∨
    (∀ c ∈ figures, ∀ rest, rule.pattern (c :: rest) = none) ∧
      ∀ d rest, d ≠ '-' → rule.pattern ('-' :: d :: rest) = none := by
  have hcomment : ∀ (p : Pattern) (d : Char) (rest : List Char), d ≠ '-' →
      (commentMark >> p) ('-' :: d :: rest) = none := by
    intro p d rest hd
    refine andThen_eq_none (Option.eq_none_iff_forall_ne_some.2 fun n hn => ?_)
    rcases eq_some_of_orElse hn with hn | hn
    · exact hd (Option.some.inj (heads_of_exactly hn).2)
    · cases (heads_of_exactly hn).1
  simp only [rules, nameRules, literalRules, phraseRules, List.cons_append, List.nil_append,
    List.forall_mem_cons, List.not_mem_nil, false_implies, implies_true, and_true]
  and_intros
  all_goals first
    | refine .inr ⟨?_, fun d rest hd => ?_⟩
      · simp only [figures, List.forall_mem_cons, List.not_mem_nil, false_implies, implies_true, and_true]
        and_intros
        all_goals
          intro rest
          rfl
      · first
        | rfl
        | exact hcomment _ d rest hd
    | exact .inl (by simp only [numberPatterns, List.mem_cons, true_or, or_true])

/-- Behind a sign a number goes on. -/
theorem reads_sign {cs : List Char} {m : Nat} (h : isRegular cs = true) (hm : optional (char '-') cs = some m) :
    ∃ s : Spot, s.BeginsNumber ∧ s.reads (cs.drop m) = true := by
  rcases eq_some_of_orElse hm with hm | hm
  · obtain ⟨hhead, rfl⟩ := char_eq_some.1 hm
    obtain ⟨rest, rfl⟩ := List.head?_eq_some_iff.1 hhead
    exact ⟨.hyphen, .hyphen, h⟩
  · obtain rfl := Option.some.inj hm
    exact ⟨.open, .open, h⟩

/-- Behind a point a text is regular. -/
theorem reads_point {s : Spot} (hs : s.BeginsNumber) {cs : List Char} {k : Nat}
    (h : s.reads cs = true) (hk : char '.' cs = some k) : isRegular (cs.drop k) = true := by
  obtain ⟨hhead, rfl⟩ := char_eq_some.1 hk
  obtain ⟨rest, rfl⟩ := List.head?_eq_some_iff.1 hhead
  rw [Spot.reads_cons, Option.any_eq_true] at h
  obtain ⟨t, ht, hrest⟩ := h
  obtain rfl : Spot.open = t := Option.some.inj (Spot.next_of_number hs ht)
  exact hrest

/-- Behind digits stands no letter. -/
theorem letters_eq_none {k : Char} (hk : (("0123456789".toList ++ loneMarks).all (! sameLetter k ·)) = true)
    {ks cs : List Char} (h : Spot.digits.reads cs = true) : letters (k :: ks) cs = none := by
  refine andThen_eq_none (Option.eq_none_iff_forall_ne_some.2 fun n hn => ?_)
  obtain ⟨c, rest, rfl, hc, -⟩ := one_eq_some.1 hn
  rw [List.all_append, Bool.and_eq_true] at hk
  rw [Spot.reads_cons, Spot.next] at h
  have hnot : (! sameLetter k c) = true := by
    split at h
    · next hdigit => exact List.all_eq_true.1 hk.1 c (mem_figures hdigit)
    split at h
    · next hlone => exact Spot.of_loneMarks hk.2 hlone
    · cases h
  rw [hc] at hnot
  cases hnot

/-- Digits, all or all but one, behind what a number begins with. -/
theorem isRegular_drop_digitsBeforeLetter {start : Pattern} {least : Nat} {cs : List Char} {n : Nat}
    (hstart : ∀ m, start cs = some m → ∃ s : Spot, s.BeginsNumber ∧ s.reads (cs.drop m) = true)
    (hn : digitsBeforeLetter start least cs = some n) : isRegular (cs.drop n) = true := by
  obtain ⟨m, k, hm, hk, rfl⟩ := digitsBeforeLetter_eq_some hn
  obtain ⟨s, hs, hrest⟩ := hstart m hm
  rw [← List.drop_drop]
  cases Nat.eq_zero_or_pos k with
  | inl hzero =>
    subst hzero
    exact Spot.reads_of_number hs hrest
  | inr hpos => exact Spot.reads_of_number .digits (Spot.reads_digits1 hs hrest hpos hk)

/-- Behind digits there are digits, or what may follow them. -/
theorem reads_of_digits1 {s : Spot} (hs : s.BeginsNumber) {cs : List Char} {k : Nat} (h : s.reads cs = true)
    (hk : digits1 cs = some k) : Spot.digits.reads (cs.drop k) = true := by
  obtain ⟨hpos, rfl⟩ := many1_eq_some.1 hk
  exact Spot.reads_digits1 hs h hpos (Nat.le_refl _)

section

variable {cs : List Char} (h : isRegular cs = true)

include h

/-- No letter follows a zero. -/
theorem hexNumber_eq_none : (optional (char '-') >> char '0' >> keyword "x" >> many1 isHexFigure) cs = none := by
  refine Option.eq_none_iff_forall_ne_some.2 fun n hn => ?_
  obtain ⟨m, _, hm, hzero, rfl⟩ := andThen_eq_some.1 hn
  obtain ⟨s, hs, hs'⟩ := reads_sign h hm
  obtain ⟨i, _, hi, hletter, rfl⟩ := andThen_eq_some.1 hzero
  obtain ⟨hhead, rfl⟩ := char_eq_some.1 hi
  obtain ⟨rest, hrest⟩ := List.head?_eq_some_iff.1 hhead
  rw [hrest, Spot.reads_cons, Option.any_eq_true] at hs'
  obtain ⟨t, ht, hs'⟩ := hs'
  obtain rfl : Spot.digits = t := Option.some.inj (Spot.next_of_number hs ht)
  have hnone : keyword "x" rest = none := @letters_eq_none 'x' (by decide +kernel) [] rest hs'
  rw [hrest, List.drop_one, List.tail_cons, andThen_eq_none hnone] at hletter
  cases hletter

/-- Nor does one follow other digits. -/
theorem powerNumber_eq_none : powerNumber cs = none := by
  refine Option.eq_none_iff_forall_ne_some.2 fun n hn => ?_
  obtain ⟨m, _, hm, hwhole, rfl⟩ := andThen_eq_some.1 hn
  obtain ⟨s, hs, hs'⟩ := reads_sign h hm
  obtain ⟨i, _, hi, hfraction, rfl⟩ := andThen_eq_some.1 hwhole
  obtain ⟨j, _, hj, hpower, -⟩ := andThen_eq_some.1 hfraction
  have hbehind : Spot.digits.reads (((cs.drop m).drop i).drop j) = true := by
    have hdigits := reads_of_digits1 hs hs' hi
    rcases eq_some_of_orElse hj with hj | hj
    · obtain ⟨a, b, ha, hb, rfl⟩ := andThen_eq_some.1 hj
      rw [← List.drop_drop]
      exact reads_of_digits1 .open (reads_point .digits hdigits ha) hb
    · obtain rfl := Option.some.inj hj
      exact hdigits
  have hnone : keyword "e" (((cs.drop m).drop i).drop j) = none := @letters_eq_none 'e' (by decide +kernel) [] _ hbehind
  rw [andThen_eq_none hnone] at hpower
  cases hpower

theorem isRegular_drop_pointNumber {n : Nat} (hn : pointNumber cs = some n) : isRegular (cs.drop n) = true := by
  rcases eq_some_of_orElse hn with hn | hn
  · refine isRegular_drop_digitsBeforeLetter (fun m hm => ?_) hn
    obtain ⟨i, _, hi, hrest, rfl⟩ := andThen_eq_some.1 hm
    obtain ⟨s, hs, hs'⟩ := reads_sign h hi
    obtain ⟨j, k, hj, hk, rfl⟩ := andThen_eq_some.1 hrest
    refine ⟨.open, .open, ?_⟩
    rw [← List.drop_drop, ← List.drop_drop]
    exact reads_point .digits (reads_of_digits1 hs hs' hj) hk
  · refine isRegular_drop_digitsBeforeLetter (fun m hm => ?_) hn
    obtain ⟨i, k, hi, hk, rfl⟩ := andThen_eq_some.1 hm
    obtain ⟨s, hs, hs'⟩ := reads_sign h hi
    refine ⟨.open, .open, ?_⟩
    rw [← List.drop_drop]
    exact reads_point hs hs' hk

/-- **Behind a number** a regular text is regular. -/
theorem isRegular_drop_number {p : Pattern} (hp : p ∈ numberPatterns) {n : Nat} (hn : p cs = some n) :
    isRegular (cs.drop n) = true := by
  simp only [numberPatterns, List.mem_cons, List.not_mem_nil, or_false] at hp
  rcases hp with rfl | rfl | rfl | rfl
  · rw [hexNumber_eq_none h] at hn
    cases hn
  · rw [powerNumber_eq_none h] at hn
    cases hn
  · exact isRegular_drop_pointNumber h hn
  · exact isRegular_drop_digitsBeforeLetter (fun m hm => reads_sign h hm) hn

end

/-- Behind a hyphen there is a digit. -/
theorem exists_figure {rest : List Char} (h : isRegular ('-' :: rest) = true) : ∃ d ∈ figures, ∃ more, rest = d :: more := by
  have hhyphen : Spot.hyphen.reads rest = true := h
  cases rest with
  | nil => cases hhyphen
  | cons d more =>
    refine ⟨d, ?_, more, rfl⟩
    rw [Spot.reads_cons, Spot.next] at hhyphen
    split at hhyphen
    · next hd => exact mem_figures_of_isDigit hd
    · cases hhyphen

section

variable {c : Char} {rest : List Char} (hc : c = '-' ∨ c ∈ figures) (h : isRegular (c :: rest) = true)

include hc h

/-- What a number begins with may be followed by more of it or by a mark. -/
theorem exists_next_figure : ∃ s : Spot, s.BeginsNumber ∧ Spot.open.next c = some s ∧ s.reads rest = true := by
  rw [isRegular, Spot.reads_cons, Option.any_eq_true] at h
  obtain ⟨s, hs, hrest⟩ := h
  refine ⟨s, ?_, hs, hrest⟩
  rcases hc with rfl | hc
  · rw [← Option.some.inj hs]
    exact .hyphen
  · have hfigure := of_figures (p := fun c => Spot.open.next c == some .open || Spot.open.next c == some .digits)
      (by decide) hc
    rw [Bool.or_eq_true, beq_iff_eq, beq_iff_eq, hs, Option.some.injEq, Option.some.injEq] at hfigure
    rcases hfigure with rfl | rfl
    · exact .open
    · exact .digits

/-- A rule that fits there is that of a number. -/
theorem mem_numberPatterns {r : Rule} (hr : r ∈ rules) {n : Nat} (hn : r.pattern (c :: rest) = some n) :
    r.pattern ∈ numberPatterns := by
  refine (numeral_rules r hr).resolve_right ?_
  rintro ⟨hfigures, hminus⟩
  rcases hc with rfl | hc
  · obtain ⟨d, hd, more, rfl⟩ := exists_figure h
    rw [hminus d more fun heq => absurd (heq ▸ hd) (by decide)] at hn
    cases hn
  · rw [hfigures c hc rest] at hn
    cases hn

/-- A sign there is one character. -/
theorem length_sign {r : Rule} (hr : r ∈ signRules) {n : Nat} (hn : r.pattern (c :: rest) = some n) : n = 1 := by
  simp only [signRules, List.mem_cons, List.not_mem_nil, or_false] at hr
  rcases hc with rfl | hc
  · obtain ⟨d, hd, more, rfl⟩ := exists_figure h
    fin_cases hd
    all_goals
      rcases hr with rfl | rfl | rfl | rfl
      all_goals first | cases hn; rfl | cases hn
  · fin_cases hc
    all_goals
      rcases hr with rfl | rfl | rfl | rfl
      all_goals first | cases hn; rfl | cases hn

/-- Where a number may begin, and behind a point, the first token is followed by a regular text. -/
theorem isRegular_drop_first {before : Option Char} {kind : TokenKind} {n : Nat}
    (hfirst : first before (c :: rest) = (kind, n)) : isRegular (rest.drop (n - 1)) = true := by
  obtain ⟨s, hs, hnext, hrest⟩ := exists_next_figure hc h
  have hone : isRegular (rest.drop 0) = true := Spot.reads_of_number hs hrest
  cases origin_of_first hfirst with
  | stretch hstretch =>
    have hstarts : c ≠ '$' ∧ c ≠ '/' := by
      rcases hc with rfl | hc
      · decide
      · simpa using of_figures (p := fun c => c != '$' && c != '/') (by decide) hc
    rcases delimited_eq_some hstretch with ⟨-, -, _, -, hcons, -⟩ | ⟨-, _, hcons, -⟩
    · exact absurd (List.cons.inj hcons).1 hstarts.1
    · exact absurd (List.cons.inj hcons).1 hstarts.2
  | @rule _ r _ hmem hn =>
    have hdrop := isRegular_drop_number h (mem_numberPatterns hc h hmem hn) hn
    cases n with
    | zero => exact hone
    | succ n => exact hdrop
  | word _ hn =>
    obtain ⟨m, k, hm, hk, rfl⟩ := andThen_eq_some.1 hn
    obtain ⟨d, more, hcons, hd, rfl⟩ := one_eq_some.1 hm
    obtain ⟨rfl, rfl⟩ := List.cons.inj hcons
    obtain rfl : k = _ := (Option.some.inj hk).symm
    -- a word begins with a digit
    have hdigits : Spot.open.next c = some .digits := by
      rcases hc with rfl | hc
      · cases hd
      · have hfigure := of_figures (p := fun c => !isWord c || Spot.open.next c == some .digits) (by decide) hc
        rw [hd] at hfigure
        exact beq_iff_eq.1 hfigure
    obtain rfl : s = .digits := Option.some.inj (hnext.symm.trans hdigits)
    rw [Nat.add_sub_cancel_left]
    exact Spot.reads_of_number hs (Spot.reads_digits (by decide) hrest (Nat.le_refl _))
  | @sign _ r _ hmem hn =>
    rw [length_sign hc h hmem hn]
    exact hone
  | single => exact hone

end

/-! ## All tokens -/

/-- A word hides nothing. -/
theorem isOpen_of_isWord {c : Char} (hc : isWord c = true) (rest : List Char) : isOpen rest c = true := by
  rw [isOpen.eq_def]
  split
  all_goals first | rfl | cases hc

/-- What a regular text may begin with. -/
theorem cases_of_isRegular {c : Char} {rest : List Char} (h : isRegular (c :: rest) = true) :
    (c = '\'' ∨ c = '"') ∨ Text.isMark c = true ∨ (c = ' ' ∨ c = '\n') ∨ (c = '-' ∨ c ∈ figures) ∨
      (isWord c = true ∧ isDecimal c = false) := by
  rw [isRegular, Spot.reads_cons, Spot.next] at h
  split at h
  · next hquote =>
    rw [Bool.or_eq_true, beq_iff_eq, beq_iff_eq] at hquote
    exact .inl hquote
  split at h
  · next hlone =>
    have hmark := Spot.of_loneMarks (p := fun c => Text.isMark c || c == ' ' || c == '\n' || c == '.') (by decide) hlone
    simp only [Bool.or_eq_true, beq_iff_eq] at hmark
    rcases hmark with ((hmark | rfl) | rfl) | rfl
    · exact .inr (.inl hmark)
    · exact .inr (.inr (.inl (.inl rfl)))
    · exact .inr (.inr (.inl (.inr rfl)))
    · exact .inr (.inr (.inr (.inl (.inr (by decide)))))
  split at h
  · next hhyphen => exact .inr (.inr (.inr (.inl (.inl (beq_iff_eq.1 hhyphen)))))
  split at h
  · next hdigit => exact .inr (.inr (.inr (.inl (.inr (mem_figures_of_isDigit hdigit)))))
  split at h
  · next hword =>
    rw [Bool.and_eq_true, Bool.not_eq_true'] at hword
    exact .inr (.inr (.inr (.inr hword)))
  · cases h

section

variable {before : Option Char} {c : Char} {rest : List Char} {kind : TokenKind} {n : Nat}
  (hfirst : first before (c :: rest) = (kind, n))

include hfirst

/-- A first token that hides nothing has no marks and no quotes in it. -/
theorem clear_first (hc : c ∉ edges) (hopen : isOpen rest c = true) (hzone : zone (c :: rest) ≠ some n) (hbracket : c ≠ '[') :
    ∀ x ∈ c :: rest.take (n - 1), x ∉ edges := by
  have hcovers : ∀ x ∈ (c :: rest).take n, x = c ∨ x ∉ edges := by
    refine (covers_first (not_mem_edges.1 hc).2.1 hopen hfirst).resolve_right ?_
    rintro (hn | hn)
    · exact hzone hn
    · obtain ⟨_, _, hcons, -⟩ := bracketed_eq_some.1 hn
      exact hbracket (List.cons.inj hcons).1
  refine List.forall_mem_cons.2 ⟨hc, fun x hx => ?_⟩
  cases n with
  | zero => cases hx
  | succ n =>
    rcases hcovers x (List.mem_cons_of_mem _ hx) with rfl | hx
    · exact hc
    · exact hx

variable (h : isRegular (c :: rest) = true)

include h

/-- A mark by itself. -/
theorem opens_mark (hmark : Text.isMark c = true) :
    Opens (c :: rest) (c :: rest.take (n - 1)) (rest.drop (n - 1)) kind := by
  have hpunctuation : first before (c :: rest) = (.punctuation, 1) := by
    rcases Bool.or_eq_true_iff.1 hmark with hsign | hsemicolon
    · exact first_sign hsign before rest
    · exact first_mark (.inr (.inr (beq_iff_eq.1 hsemicolon))) before rest
  obtain ⟨rfl, rfl⟩ := Prod.mk.inj (hfirst.symm.trans hpunctuation)
  simp only [Text.isMark, Text.isSign, Bool.or_eq_true, beq_iff_eq] at hmark
  rcases hmark with ((rfl | rfl) | rfl) | rfl
  all_goals exact ⟨rfl, rfl, h, isQuiet_of_head (by decide)⟩

/-- A blank by itself. -/
theorem opens_blank (hblank : c = ' ' ∨ c = '\n') :
    Opens (c :: rest) (c :: rest.take (n - 1)) (rest.drop (n - 1)) kind := by
  have hwhite : (kind = .blank ∨ kind = .newline) ∧ n = 1 := by
    have hone : ∀ {n}, lineEnd (c :: rest) = some n → n = 1 := fun {n} hn => by
      rcases hblank with rfl | rfl
      · cases hn
      · exact (Option.some.inj hn).symm
    have hc : isBlank c = true := by rcases hblank with rfl | rfl <;> decide
    rcases first_blank hc before rest with ⟨m, hm, hend⟩ | ⟨hm, -⟩
    · obtain ⟨rfl, rfl⟩ := Prod.mk.inj (hfirst.symm.trans hm)
      exact ⟨.inr rfl, hone hend⟩
    · obtain ⟨rfl, rfl⟩ := Prod.mk.inj (hfirst.symm.trans hm)
      exact ⟨.inl rfl, rfl⟩
  obtain ⟨hkind, rfl⟩ := hwhite
  have hregular : isRegular rest = true := by rcases hblank with rfl | rfl <;> exact h
  have hclear : ∀ x ∈ [c], x ∉ edges := List.forall_mem_singleton.2 (by rcases hblank with rfl | rfl <;> decide)
  exact opens_clear hclear hregular (by rcases hkind with rfl | rfl <;> rfl)

/-- A number, or a point. -/
theorem opens_number (hnumber : c = '-' ∨ c ∈ figures) :
    Opens (c :: rest) (c :: rest.take (n - 1)) (rest.drop (n - 1)) kind := by
  have hfront : isOpen rest c = true ∧ zone (c :: rest) = none := by
    rcases hnumber with rfl | hc
    · obtain ⟨d, hd, more, rfl⟩ := exists_figure h
      refine ⟨?_, rfl⟩
      rw [isOpen, List.head?_cons, bne_iff_ne]
      rintro ⟨⟩
      exact absurd hd (by decide)
    · fin_cases hc
      all_goals exact ⟨rfl, rfl⟩
  have hhead : "-0123456789(),;.\'\"".toList.contains c = true ∧ c ∉ edges ∧ c ≠ '[' := by
    rcases hnumber with rfl | hc
    · decide
    · fin_cases hc
      all_goals decide
  have hclear := clear_first hfirst hhead.2.1 hfront.1 (hfront.2 ▸ Option.some_ne_none n ∘ Eq.symm) hhead.2.2
  have hopens : Opens (c :: rest.take (n - 1) ++ rest.drop (n - 1)) _ _ kind :=
    opens_clear hclear (isRegular_drop_first hnumber h hfirst) (isQuiet_of_head hhead.1)
  rwa [List.cons_append, List.take_append_drop] at hopens

/-- A word. -/
theorem opens_word (hc : isWord c = true) (hd : isDecimal c = false) :
    Opens (c :: rest) (c :: rest.take (n - 1)) (rest.drop (n - 1)) kind := by
  by_cases hzone : zone (c :: rest) = some n
  · exact opens_zone h hc hd hzone
  have hends := (ends_first hc hd hfirst).resolve_right hzone
  have hclear := clear_first hfirst (not_mem_of_clears (f := isWord) (by decide) hc) (isOpen_of_isWord hc rest) hzone
    (by rintro rfl; cases hc)
  have htail : wordEnds (rest.drop (n - 1)) = true := by
    cases n with
    | zero =>
      rw [List.drop_zero, wordEnds, hc] at hends
      cases hends
    | succ n => exact hends
  rw [← List.take_append_drop (n - 1) rest] at h
  have hopens : Opens (c :: rest.take (n - 1) ++ rest.drop (n - 1)) _ _ kind :=
    opens_clear hclear (Spot.reads_behind h hclear htail) (isQuiet_of_front h hc hd (.inl htail))
  rwa [List.cons_append, List.take_append_drop] at hopens

/-- **The first token of a regular text.** -/
theorem opens_first : Opens (c :: rest) (c :: rest.take (n - 1)) (rest.drop (n - 1)) kind := by
  rcases cases_of_isRegular h with hquote | hmark | hblank | hnumber | ⟨hc, hd⟩
  · exact opens_quoted hquote h hfirst
  · exact opens_mark hfirst h hmark
  · exact opens_blank hfirst h hblank
  · exact opens_number hfirst h hnumber
  · exact opens_word hfirst h hc hd

end

/-! ## Nothing is left open -/

/-- Quoted text of a regular text is closed. -/
theorem shuts_of_reads {mark : Char} (hmark : mark = '\'' ∨ mark = '"') (escapes : Bool) (cs : List Char)
    (h : (Spot.quote mark).reads cs = true) : shuts mark escapes cs = true := by
  fun_induction shuts mark escapes cs with
  | case1 => cases h
  | case2 c =>
    rw [Spot.reads_cons, Spot.next] at h
    split at h
    · assumption
    split at h <;> cases h
  | case3 c d rest hc hd ih =>
    rw [Spot.reads_cons, Spot.next, if_pos hc, Option.any_some, beq_iff_eq.1 hd, ← isRegular, Spot.reads_quoteMark hmark] at h
    exact ih h
  | case4 => rfl
  | case5 c d rest hc hescape ih =>
    rw [Spot.reads_cons, Spot.next, if_neg hc] at h
    split at h
    · cases h
    · next hbackslash =>
      rw [Bool.and_eq_true, Bool.and_eq_true] at hescape
      exact absurd hescape.1.2 hbackslash
  | case6 c d rest hc hescape ih =>
    rw [Spot.reads_cons, Spot.next, if_neg hc] at h
    split at h
    · cases h
    · exact ih h

/-- A regular text that begins with a letter begins with a word. -/
theorem isWord_of_letter {c : Char} {rest : List Char} (h : isRegular (c :: rest) = true)
    (hletter : (sameLetter 'a' c || sameLetter 'w' c) = true) : isWord c = true ∧ isDecimal c = false := by
  rcases cases_of_isRegular h with hquote | hmark | hblank | hnumber | hword
  · rcases hquote with rfl | rfl <;> cases hletter
  · simp only [Text.isMark, Text.isSign, Bool.or_eq_true, beq_iff_eq] at hmark
    rcases hmark with ((rfl | rfl) | rfl) | rfl <;> cases hletter
  · rcases hblank with rfl | rfl <;> cases hletter
  · rcases hnumber with rfl | hfigure
    · cases hletter
    · have hnot := of_figures (p := fun c => !(sameLetter 'a' c || sameLetter 'w' c)) (by decide +kernel) hfigure
      rw [hletter] at hnot
      cases hnot
  · exact hword

/-- The literal of a time zone is closed. -/
theorem mem_of_zoneHead {cs : List Char} (h : isRegular cs = true) {n : Nat} (hn : zoneHead cs = some n) :
    '\'' ∈ cs.drop n := by
  have hwords : Clear edges (apart (phrase ["time", "zone"]) >> blanks1) :=
    Clear.andThen (clear_phrase (by decide) (by decide)).apart clear_blanks1
  have hparts : zoneHead = (keyword "at" <|> keyword "with'") >>
      ((apart (phrase ["time", "zone"]) >> blanks1) >> char '\'') := by
    rw [zoneHead, apart, apart, andThen_assoc, andThen_assoc, andThen_assoc]
  rw [hparts] at hn
  obtain ⟨i, _, hi, hk, rfl⟩ := andThen_eq_some.1 hn
  obtain ⟨j, l, hj, hl, rfl⟩ := andThen_eq_some.1 hk
  obtain ⟨hquote, rfl⟩ := char_eq_some.1 hl
  obtain ⟨tail, htail⟩ := List.head?_eq_some_iff.1 hquote
  rw [List.drop_drop] at htail
  -- the words in front of the quote have no quote in them
  obtain ⟨c, rest, rfl, hletter⟩ : ∃ c rest, cs = c :: rest ∧ (sameLetter 'a' c || sameLetter 'w' c) = true := by
    rcases eq_some_of_orElse hi with hi | hi
    all_goals
      obtain ⟨_, _, hm, -, -⟩ := andThen_eq_some.1 hi
      obtain ⟨c, rest, rfl, hc, -⟩ := one_eq_some.1 hm
      refine ⟨c, rest, rfl, Bool.or_eq_true_iff.2 ?_⟩
    · exact .inl hc
    · exact .inr hc
  obtain ⟨hc, hd⟩ := isWord_of_letter h hletter
  have hfront : ∀ x ∈ (c :: rest).take (i + j), x ∉ edges := by
    intro x hx
    rw [List.take_add, List.mem_append] at hx
    exact hx.elim (clear_zoneWord h hc hd hi x) (hwords _ j hj x)
  have hsplit : c :: rest = (c :: rest).take (i + j) ++ '\'' :: tail := by rw [← htail, List.take_append_drop]
  have hdrop : (c :: rest).drop (i + (j + 1)) = tail := by
    rw [← Nat.add_assoc, ← List.drop_drop, htail]
    rfl
  rw [hdrop]
  exact Spot.mem_of_reads (Spot.reads_quote (hsplit ▸ h) hfront)

/-- **What begins at the front of a regular text is closed in it.** -/
theorem settles_of_isRegular {cs : List Char} (h : isRegular cs = true) : settles cs = true := by
  have hhead : ∀ {c : Char} {cs : List Char}, isRegular cs = true → cs.head? = some c →
      Spot.open.next c ≠ none := by
    intro c cs h hc
    obtain ⟨rest, rfl⟩ := List.head?_eq_some_iff.1 hc
    rw [isRegular, Spot.reads_cons] at h
    intro hnone
    rw [hnone] at h
    cases h
  have hquoted : ∀ {mark : Char}, mark = '\'' ∨ mark = '"' → ∀ {n : Nat}, char mark cs = some n →
      shuts mark true (cs.drop n) = true := by
    intro mark hmark n hn
    obtain ⟨hfirst, rfl⟩ := char_eq_some.1 hn
    obtain ⟨rest, rfl⟩ := List.head?_eq_some_iff.1 hfirst
    exact shuts_of_reads hmark true rest (Spot.reads_quoteMark hmark rest ▸ h)
  refine List.all_eq_true.2 fun s hs => ?_
  split
  · next n hn =>
    simp only [stretches, List.mem_cons, List.not_mem_nil, or_false] at hs
    rcases hs with rfl | rfl | rfl | rfl | rfl | rfl | rfl | rfl | rfl
    · rcases eq_some_of_orElse hn with hn | hn
      · obtain ⟨hfirst, hsecond⟩ := heads_of_exactly hn
        obtain ⟨rest, rfl⟩ := List.head?_eq_some_iff.1 hfirst
        obtain ⟨d, hd, more, rfl⟩ := exists_figure h
        obtain rfl := Option.some.inj hsecond
        exact absurd hd (by decide)
      · exact absurd rfl (hhead h (heads_of_exactly hn).1)
    · exact absurd rfl (hhead h (heads_of_exactly hn).1)
    · exact hquoted (.inl rfl) hn
    · exact hquoted (.inr rfl) hn
    · exact absurd rfl (hhead h (char_eq_some.1 hn).1)
    · exact absurd (by decide +kernel) (hhead h (char_eq_some.1 hn).1)
    · exact absurd rfl (hhead h (char_eq_some.1 hn).1)
    · obtain ⟨_, _, hm, -, -⟩ := andThen_eq_some.1 hn
      exact absurd rfl (hhead h (char_eq_some.1 hm).1)
    · exact List.contains_iff_mem.2 (mem_of_zoneHead h hn)
  · rfl

/-- **The tokens of a regular text.** Its marks are theirs, none of them opens or closes a block, and what begins at one
of them is closed in them. -/
theorem lexAfter_regular {before : Option Char} {cs : List Char} (h : isRegular cs = true) :
    (lexAfter before cs).flatMap counted = Text.counted none cs ∧ (∀ t ∈ lexAfter before cs, t.isQuiet = true) ∧
      isShut (lexAfter before cs) = true := by
  -- the induction is on the length: each token takes at least one character
  induction hlength : cs.length using Nat.strongRecOn generalizing before cs with
  | _ length ih =>
    cases cs with
    | nil => exact ⟨rfl, fun _ ht => absurd ht List.not_mem_nil, rfl⟩
    | cons c rest =>
      have htext : Statement.textOf (lexAfter before (c :: rest)) = c :: rest := lexFrom_texts ..
      rw [lexAfter_cons] at htext ⊢
      rcases hfirst : first before (c :: rest) with ⟨kind, n⟩
      have hopens := opens_first hfirst h
      have hshort : (rest.drop (n - 1)).length < length := by
        rw [← hlength, List.length_drop, List.length_cons]
        omega
      obtain ⟨hcounted, hquiet, hshut⟩ := @ih _ hshort (c :: rest.take (n - 1)).getLast? _ hopens.regular rfl
      rw [hfirst] at htext
      dsimp only at htext ⊢
      refine ⟨?_, List.forall_mem_cons.2 ⟨hopens.quiet, hquiet⟩, ?_⟩
      · rw [List.flatMap_cons, hcounted, hopens.counted]
      · rw [isShut, htext, settles_of_isRegular h, hshut]
        rfl

theorem lex_regular {cs : List Char} (h : isRegular cs = true) :
    (lex cs).flatMap counted = Text.counted none cs ∧ (∀ t ∈ lex cs, t.isQuiet = true) ∧ isShut (lex cs) = true :=
  lexAfter_regular h

end Token
end SchemaSketch
