import SchemaSketch.Proofs.Sql.Joining
import SchemaSketch.Proofs.Sql.Signs

/-!
# Regular texts

What is written for a design is words, numbers, quoted text and a few marks, each apart from the next (`Text.isRegular`).
Such a text is read character by character (`Text.Spot.next`), and where the reader is *open* anything may follow again.

* There are no comments in it, and no quote is left open at its end (`Text.strip_regular`).
* Which of its parentheses, commas and semicolons count can be told from the characters: those that do not stand between
  quotes (`Text.counted`).
-/

namespace SchemaSketch

open Text Pattern

namespace Text

/-! ## Reading a regular text -/

/-- Words by which blocks are opened or closed begin with these. -/
def loudWords : List (List Char) := Token.blockWords.map (·.toList.takeWhile (! isBlank ·))

/-- Whether a word may open or close a block, or end a batch. -/
def isLoud (word : List Char) : Bool := loudWords.contains (upper word) || word == ['G', 'O']

/-- The marks that are tokens by themselves, and blanks. -/
def loneMarks : List Char := [' ', '\n', '(', ')', ',', ';', '.']

/-- Where the reader of a regular text stands. -/
inductive Spot where
  /-- where a token may begin -/
  | open
  /-- in a word, with what has been read of it in reverse -/
  | word (passed : List Char)
  /-- among digits -/
  | digits
  /-- behind a hyphen -/
  | hyphen
  /-- between quotes -/
  | quote (mark : Char)
  deriving DecidableEq

namespace Spot

/-- Where the reader stands behind one more character, if it may stand there. -/
def next : Spot → Char → Option Spot
  | .open, c =>
    if c == '\'' || c == '"' then some (.quote c)
    else if loneMarks.contains c then some .open
    else if c == '-' then some .hyphen
    else if c.isDigit then some .digits
    else if isWord c && !isDecimal c then some (.word [c])
    else none
  | .word passed, c =>
    if isWord c then some (.word (c :: passed))
    else if loneMarks.contains c && !isLoud passed.reverse then some .open
    else none
  | .digits, c => if c.isDigit then some .digits else if loneMarks.contains c then some .open else none
  | .hyphen, c => if c.isDigit then some .digits else none
  | .quote mark, c => if c == mark then some .open else if c == '\\' then none else some (.quote mark)

/-- Whether a text may end here. -/
def isSettled : Spot → Bool
  | .open | .digits => true
  | .word passed => !isLoud passed.reverse
  | .hyphen | .quote _ => false

/-- Where the reader stands behind a text, if it may stand there. -/
def run (s : Spot) : List Char → Option Spot
  | [] => some s
  | c :: rest => (s.next c).bind (run · rest)

theorem run_append (s : Spot) (a b : List Char) : s.run (a ++ b) = (s.run a).bind (run · b) := by
  induction a generalizing s with
  | nil => rfl
  | cons c a ih =>
    rw [List.cons_append, run, run, Option.bind_assoc]
    exact congrArg _ (funext fun s => ih s)

/-- Whether a text goes on regularly from here. -/
def reads (s : Spot) (cs : List Char) : Bool := (s.run cs).any isSettled

theorem reads_nil (s : Spot) : s.reads [] = s.isSettled := rfl

theorem reads_cons (s : Spot) (c : Char) (cs : List Char) : s.reads (c :: cs) = (s.next c).any (·.reads cs) := by
  rw [reads, run]
  cases s.next c <;> rfl

theorem reads_append (s : Spot) (a b : List Char) : s.reads (a ++ b) = (s.run a).any (·.reads b) := by
  rw [reads, run_append]
  cases s.run a <;> rfl

end Spot

/-- Whether a text is words, numbers, quoted text and marks, each apart from the next. -/
def isRegular (cs : List Char) : Bool := Spot.open.reads cs

/-! ## Marks -/

/-- A parenthesis, a comma or a semicolon. -/
def isMark (c : Char) : Bool := isSign c || c == ';'

/-- The characters of a text, and which of them are marks that count; `quote` is the quote that is open. -/
def counted (quote : Option Char) : List Char → List (Char × Bool)
  | [] => []
  | c :: rest =>
    match quote with
    | some mark => (c, false) :: counted (if c == mark then none else quote) rest
    | none => (c, isMark c) :: counted (if c == '\'' || c == '"' then some c else none) rest

theorem not_mem_edges {c : Char} : c ∉ edges ↔ isMark c = false ∧ c ≠ '\'' ∧ c ≠ '"' := by
  rw [edges, List.mem_append, not_or, not_mem_borders, isMark]
  simp only [List.mem_cons, List.not_mem_nil, or_false, not_or, Bool.or_eq_false_iff, beq_eq_false_iff_ne]
  constructor
  · rintro ⟨⟨hsemicolon, hdouble⟩, hsign, hquote⟩
    exact ⟨⟨hsign, hsemicolon⟩, hquote, hdouble⟩
  · rintro ⟨⟨hsign, hsemicolon⟩, hquote, hdouble⟩
    exact ⟨⟨hsemicolon, hdouble⟩, hsign, hquote⟩

/-- A stretch without marks and quotes. -/
theorem counted_append {a : List Char} (ha : ∀ c ∈ a, c ∉ edges) (b : List Char) :
    counted none (a ++ b) = a.map (·, false) ++ counted none b := by
  induction a with
  | nil => rfl
  | cons c a ih =>
    obtain ⟨hc, ha⟩ := List.forall_mem_cons.1 ha
    obtain ⟨hmark, hquote, hdouble⟩ := not_mem_edges.1 hc
    have hopen : (c == '\'' || c == '"') = false := by
      rw [beq_eq_false_iff_ne.2 hquote, beq_eq_false_iff_ne.2 hdouble]
      rfl
    rw [List.cons_append, counted, hmark, hopen, if_neg Bool.false_ne_true, ih ha]
    rfl

/-- Between quotes nothing counts up to the next one. -/
theorem counted_quote {mark : Char} {content : List Char} (h : mark ∉ content) (rest : List Char) :
    counted (some mark) (content ++ mark :: rest) = (content ++ [mark]).map (·, false) ++ counted none rest := by
  induction content with
  | nil => rw [List.nil_append, counted, if_pos (beq_self_eq_true mark)]; rfl
  | cons c content ih =>
    obtain ⟨hc, hcontent⟩ := not_or.1 (mt List.mem_cons.2 h)
    rw [List.cons_append, counted, if_neg (by simpa using Ne.symm hc), ih hcontent]
    rfl

/-! ## Words and numbers of a regular text -/

namespace Spot

/-- What holds of the marks can be looked up. -/
theorem of_loneMarks {p : Char → Bool} (hp : loneMarks.all p = true) {c : Char} (h : loneMarks.contains c = true) :
    p c = true := List.all_eq_true.1 hp c (List.contains_iff_mem.1 h)

theorem isWord_of_loneMarks {c : Char} (h : loneMarks.contains c = true) : isWord c = false := by
  simpa using of_loneMarks (p := (! isWord ·)) (by decide) h

theorem isWord_of_isDigit {c : Char} (h : c.isDigit = true) : isWord c = true :=
  isWord_of_isAlphanum (by rw [Char.isAlphanum, h, Bool.or_true])

theorem isDecimal_of_isDigit {c : Char} (h : c.isDigit = true) : isDecimal c = true :=
  List.forall_iff_forall_mem.1 (by decide : "0123456789".toList.Forall fun c => isDecimal c = true) c (mem_figures h)

theorem next_word {c : Char} (hc : isWord c = true) (hd : isDecimal c = false) :
    Spot.open.next c = some (.word [c]) := by
  have hlone : loneMarks.contains c = false := Bool.eq_false_iff.2 fun hlone => by
    rw [isWord_of_loneMarks hlone] at hc
    cases hc
  have hnumber : c.isDigit = false := Bool.eq_false_iff.2 fun hdigit => by
    rw [isDecimal_of_isDigit hdigit] at hd
    cases hd
  have hne : ∀ {x : Char}, isWord x = false → (c == x) = false := fun {x} hx => by
    rw [beq_eq_false_iff_ne]
    rintro rfl
    rw [hx] at hc
    cases hc
  rw [next, hne (by decide), hne (by decide), hne (by decide), hlone, hnumber, hc, hd]
  rfl

/-- At a mark, and where a word ends, it makes no difference what has been read. -/
theorem reads_open {s : Spot} {cs : List Char} (h : s.reads cs = true) (hquote : ∀ mark, s ≠ .quote mark)
    (hends : wordEnds cs = true) : Spot.open.reads cs = true := by
  cases cs with
  | nil => rfl
  | cons c rest =>
    have hword : isWord c = false := by simpa [wordEnds] using hends
    have hdigit : ¬ c.isDigit = true := fun hc => Bool.false_ne_true (hword.symm.trans (isWord_of_isDigit hc))
    have hlone : loneMarks.contains c = true → Spot.open.next c = some .open := fun hc => by
      simpa using of_loneMarks (p := fun c => Spot.open.next c == some .open) (by decide) hc
    rw [reads_cons] at h ⊢
    cases s with
    | «open» => exact h
    | word passed =>
      rw [next, hword, if_neg Bool.false_ne_true] at h
      split at h
      · next hc =>
        rw [hlone (Bool.and_eq_true_iff.1 hc).1]
        exact h
      · cases h
    | digits =>
      rw [next, if_neg hdigit] at h
      split at h
      · next hc =>
        rw [hlone hc]
        exact h
      · cases h
    | hyphen =>
      rw [next, if_neg hdigit] at h
      cases h
    | quote mark => exact absurd rfl (hquote mark)

/-- Outside of quotes the reader stays there up to the next quote. -/
theorem ne_quote_of_run {s s' : Spot} {a : List Char} (h : s.run a = some s') (ha : ∀ c ∈ a, c ≠ '\'' ∧ c ≠ '"')
    (hs : ∀ mark, s ≠ .quote mark) : ∀ mark, s' ≠ .quote mark := by
  induction a generalizing s with
  | nil =>
    obtain rfl := Option.some.inj h
    exact hs
  | cons c a ih =>
    obtain ⟨⟨hquote, hdouble⟩, ha⟩ := List.forall_mem_cons.1 ha
    obtain ⟨t, ht, h⟩ := Option.bind_eq_some_iff.1 h
    refine ih h ha ?_
    rintro mark rfl
    cases s with
    | quote mark => exact hs mark rfl
    | «open» =>
      rw [next, beq_eq_false_iff_ne.2 hquote, beq_eq_false_iff_ne.2 hdouble] at ht
      simp only [Bool.or_self, Bool.false_eq_true, if_false] at ht
      repeat' split at ht
      all_goals cases ht
    | word | digits | hyphen =>
      rw [next] at ht
      repeat' split at ht
      all_goals cases ht

/-- **Behind a stretch that ends a word** a regular text is regular. -/
theorem reads_behind {a b : List Char} (h : isRegular (a ++ b) = true) (ha : ∀ c ∈ a, c ∉ edges)
    (hends : wordEnds b = true) : isRegular b = true := by
  rw [isRegular, reads_append, Option.any_eq_true] at h
  obtain ⟨s, hs, hb⟩ := h
  refine reads_open hb ?_ hends
  exact ne_quote_of_run hs (fun c hc => (not_mem_edges.1 (ha c hc)).2) fun _ => Spot.noConfusion

/-- A word is not loud, and a mark follows it. -/
theorem reads_word {passed cs : List Char} (h : (Spot.word passed).reads cs = true) :
    isLoud (passed.reverse ++ cs.takeWhile isWord) = false ∧
      ∀ c ∈ (cs.dropWhile isWord).head?, loneMarks.contains c = true := by
  induction cs generalizing passed with
  | nil =>
    rw [reads_nil, isSettled, Bool.not_eq_true'] at h
    rw [List.takeWhile_nil, List.append_nil]
    exact ⟨h, nofun⟩
  | cons c cs ih =>
    rw [reads_cons, next] at h
    by_cases hc : isWord c = true
    · rw [if_pos hc] at h
      have hrest := ih h
      rw [List.reverse_cons, List.append_assoc, List.singleton_append] at hrest
      rw [List.takeWhile_cons_of_pos hc, List.dropWhile_cons_of_pos hc]
      exact hrest
    · rw [if_neg hc] at h
      split at h
      · next hlone =>
        rw [Bool.and_eq_true, Bool.not_eq_true'] at hlone
        rw [List.takeWhile_cons_of_neg hc, List.dropWhile_cons_of_neg hc, List.append_nil]
        refine ⟨hlone.2, ?_⟩
        rintro _ ⟨⟩
        exact hlone.1
      · cases h

/-- The places where a number may begin or go on. -/
inductive BeginsNumber : Spot → Prop where
  | open : BeginsNumber .open
  | digits : BeginsNumber .digits
  | hyphen : BeginsNumber .hyphen

/-- What can follow digits can also follow a mark, and so can what can follow a hyphen. -/
theorem next_of_number {s t : Spot} (hs : s.BeginsNumber) {c : Char} (h : s.next c = some t) :
    Spot.open.next c = some t := by
  have hdigit : c.isDigit = true → Spot.open.next c = some .digits := fun hc =>
    List.forall_iff_forall_mem.1
      (by decide : "0123456789".toList.Forall fun c => Spot.open.next c = some .digits) c (mem_figures hc)
  have hlone : loneMarks.contains c = true → Spot.open.next c = some .open := fun hc => by
    simpa using of_loneMarks (p := fun c => Spot.open.next c == some .open) (by decide) hc
  cases hs with
  | «open» => exact h
  | digits =>
    rw [next] at h
    split at h
    · next hc => exact (hdigit hc).trans h
    split at h
    · next hc => exact (hlone hc).trans h
    · cases h
  | hyphen =>
    rw [next] at h
    split at h
    · next hc => exact (hdigit hc).trans h
    · cases h

theorem reads_of_number {s : Spot} (hs : s.BeginsNumber) {cs : List Char}
    (h : s.reads cs = true) : isRegular cs = true := by
  cases cs with
  | nil => rfl
  | cons c rest =>
    rw [reads_cons, Option.any_eq_true] at h
    obtain ⟨t, ht, hrest⟩ := h
    rw [isRegular, reads_cons, next_of_number hs ht]
    exact hrest

/-- Behind digits a text is regular wherever a class of characters ends to which no mark belongs. -/
theorem reads_digits {f : Char → Bool} (hf : loneMarks.all (! f ·) = true) {cs : List Char}
    (h : Spot.digits.reads cs = true) {k : Nat} (hk : k ≤ (cs.takeWhile f).length) :
    Spot.digits.reads (cs.drop k) = true := by
  induction cs generalizing k with
  | nil => rw [List.drop_nil]; rfl
  | cons c cs ih =>
    cases k with
    | zero => exact h
    | succ k =>
      rw [reads_cons, next] at h
      split at h
      · by_cases hc : f c = true
        · rw [List.takeWhile_cons_of_pos hc, List.length_cons] at hk
          exact ih h (Nat.le_of_succ_le_succ hk)
        · rw [List.takeWhile_cons_of_neg hc] at hk
          exact absurd hk (Nat.not_succ_le_zero k)
      split at h
      · next hc =>
        have hmark : f c = false := by simpa using of_loneMarks hf hc
        rw [List.takeWhile_cons_of_neg (Bool.eq_false_iff.1 hmark)] at hk
        exact absurd hk (Nat.not_succ_le_zero k)
      · cases h

/-- Where a number may begin, behind its first digits there are digits. -/
theorem reads_digits1 {s : Spot} (hs : s.BeginsNumber) {cs : List Char} (h : s.reads cs = true) {k : Nat}
    (hpos : 0 < k) (hk : k ≤ (cs.takeWhile isDecimal).length) : Spot.digits.reads (cs.drop k) = true := by
  cases cs with
  | nil => exact absurd hk (Nat.not_le.2 hpos)
  | cons c cs =>
    have hc : isDecimal c = true := by
      by_contra hc
      rw [List.takeWhile_cons_of_neg hc] at hk
      exact absurd hk (Nat.not_le.2 hpos)
    obtain ⟨k, rfl⟩ := Nat.exists_eq_succ_of_ne_zero hpos.ne'
    rw [List.takeWhile_cons_of_pos hc, List.length_cons] at hk
    have hdigits : Spot.digits.reads cs = true := by
      rw [reads_cons, Option.any_eq_true] at h
      obtain ⟨t, ht, hrest⟩ := h
      have hnext := next_of_number hs ht
      have hne : ∀ {x : Char}, isDecimal x = false → (c == x) = false := fun {x} hx => by
        rw [beq_eq_false_iff_ne]
        rintro rfl
        rw [hx] at hc
        cases hc
      have hlone : loneMarks.contains c = false := Bool.eq_false_iff.2 fun hlone => by
        have hnot := of_loneMarks (p := (! isDecimal ·)) (by decide) hlone
        rw [hc] at hnot
        cases hnot
      rw [next, hne (by decide), hne (by decide), hne (by decide), hlone, hc, Bool.not_true, Bool.and_false] at hnext
      simp only [Bool.or_self, Bool.false_eq_true, if_false] at hnext
      split at hnext
      · obtain rfl := Option.some.inj hnext
        exact hrest
      · cases hnext
    exact reads_digits (f := isDecimal) (by decide) hdigits (Nat.le_of_succ_le_succ hk)

/-- Behind a stretch without marks and quotes a quote opens quoted text. -/
theorem reads_quote {front rest : List Char} (h : isRegular (front ++ '\'' :: rest) = true)
    (hfront : ∀ c ∈ front, c ∉ edges) : (Spot.quote '\'').reads rest = true := by
  rw [isRegular, reads_append, Option.any_eq_true] at h
  obtain ⟨s, hs, h⟩ := h
  have hquote := ne_quote_of_run hs (fun c hc => (not_mem_edges.1 (hfront c hc)).2) fun _ => Spot.noConfusion
  cases s with
  | quote mark => exact absurd rfl (hquote mark)
  | «open» => exact h
  | word | digits | hyphen => cases h

/-- A quote opens quoted text. -/
theorem reads_quoteMark {mark : Char} (hmark : mark = '\'' ∨ mark = '"') (rest : List Char) :
    isRegular (mark :: rest) = (Spot.quote mark).reads rest := by
  rw [isRegular, reads_cons]
  rcases hmark with rfl | rfl <;> rfl

/-- Quoted text is closed. -/
theorem mem_of_reads {mark : Char} {cs : List Char} (h : (Spot.quote mark).reads cs = true) : mark ∈ cs := by
  induction cs with
  | nil => cases h
  | cons c cs ih =>
    rw [reads_cons, next] at h
    split at h
    · next hc => exact beq_iff_eq.1 hc ▸ List.mem_cons_self ..
    split at h
    · cases h
    · exact List.mem_cons_of_mem _ (ih h)

/-- Behind a quoted text that has no quote in it a regular text is regular. -/
theorem reads_quoted {content tail : List Char} (h : (Spot.quote '\'').reads (content ++ '\'' :: tail) = true)
    (hcontent : '\'' ∉ content) : isRegular tail = true := by
  induction content with
  | nil => exact h
  | cons c content ih =>
    obtain ⟨hc, hcontent⟩ := not_or.1 (mt List.mem_cons.2 hcontent)
    rw [List.cons_append, reads_cons, next, if_neg (by simpa using Ne.symm hc)] at h
    split at h
    · cases h
    · exact ih h hcontent

/-- **Quoted text ends with a quote**, and behind it a regular text is regular. -/
theorem closing_eq {mark : Char} (hmark : mark = '\'' ∨ mark = '"') (escapes : Bool) (cs : List Char) (passed : Nat)
    (fallback : Option Nat) (h : (Spot.quote mark).reads cs = true) :
    ∃ body tail, cs = body ++ tail ∧ Token.closing mark escapes passed fallback cs = some (passed + body.length) ∧
      body ≠ [] ∧ isRegular tail = true ∧ counted (some mark) cs = body.map (·, false) ++ counted none tail := by
  have hclose : ∀ rest, (Spot.quote mark).reads (mark :: rest) = isRegular rest := fun rest => by
    rw [reads_cons, next, if_pos (beq_self_eq_true mark)]
    rfl
  have hcounted : ∀ rest, counted (some mark) (mark :: rest) = (mark, false) :: counted none rest := fun rest => by
    rw [counted, if_pos (beq_self_eq_true mark)]
  match cs with
  | [] => cases h
  | [c] =>
    rw [reads_cons, next] at h
    by_cases hc : c = mark
    · subst hc
      refine ⟨[c], [], rfl, ?_, List.cons_ne_nil _ _, rfl, hcounted []⟩
      rw [Token.closing, if_pos (beq_self_eq_true c)]
      rfl
    · rw [if_neg (by simpa using hc)] at h
      split at h <;> cases h
  | c :: d :: rest =>
    by_cases hc : c = mark
    · subst hc
      rw [hclose] at h
      rw [Token.closing, if_pos (beq_self_eq_true c), hcounted]
      by_cases hd : d = c
      · -- a pair stands for a quote, and the text goes on
        subst hd
        rw [reads_quoteMark hmark] at h
        obtain ⟨body, tail, hsplit, hclosing, -, hregular, hbody⟩ :=
          closing_eq hmark escapes rest (passed + 2) (some (passed + 1)) h
        refine ⟨d :: d :: body, tail, by rw [hsplit]; rfl, ?_, List.cons_ne_nil _ _, hregular, ?_⟩
        · rw [if_pos (beq_self_eq_true d), hclosing, List.length_cons, List.length_cons, Nat.add_assoc, Nat.add_comm 2]
        · have hmarked : counted none (d :: rest) = (d, false) :: counted (some d) rest := by
            rcases hmark with rfl | rfl <;> rfl
          rw [hmarked, hbody]
          rfl
      · refine ⟨[c], d :: rest, rfl, ?_, List.cons_ne_nil _ _, h, rfl⟩
        rw [if_neg (by simpa using hd)]
        rfl
    · rw [reads_cons, next, if_neg (by simpa using hc)] at h
      split at h
      · cases h
      · next hbackslash =>
        obtain ⟨body, tail, hsplit, hclosing, -, hregular, hbody⟩ :=
          closing_eq hmark escapes (d :: rest) (passed + 1) fallback h
        refine ⟨c :: body, tail, by rw [hsplit]; rfl, ?_, List.cons_ne_nil _ _, hregular, ?_⟩
        · have hpair : (escapes && c == '\\' && d == mark) = false := by
            rw [Bool.eq_false_iff.2 hbackslash, Bool.and_false, Bool.false_and]
          rw [Token.closing, if_neg (by simpa using hc), hpair, if_neg Bool.false_ne_true, hclosing, List.length_cons,
            Nat.add_assoc, Nat.add_comm 1]
        · rw [counted, if_neg (by simpa using hc), hbody]
          rfl

/-- Where a text may end, a mark may follow. -/
theorem next_of_isSettled {s : Spot} (hs : s.isSettled = true) {c : Char} (hc : loneMarks.contains c = true) :
    s.next c = some .open := by
  have hfacts := of_loneMarks (p := fun c => Spot.open.next c == some .open && !isWord c && !c.isDigit) (by decide) hc
  simp only [Bool.and_eq_true, beq_iff_eq, Bool.not_eq_true'] at hfacts
  obtain ⟨⟨hopen, hword⟩, hdigit⟩ := hfacts
  cases s with
  | «open» => exact hopen
  | word passed =>
    rw [next, hword, if_neg Bool.false_ne_true, hc, Bool.true_and]
    exact if_pos hs
  | digits =>
    rw [next, hdigit, hc]
    rfl
  | hyphen | quote mark => cases hs

end Spot

/-- Texts with a mark between them. -/
theorem isRegular_append_mark {a b : List Char} {c : Char} (ha : isRegular a = true)
    (hc : loneMarks.contains c = true) : isRegular (a ++ c :: b) = isRegular b := by
  rw [isRegular, Spot.reads, Option.any_eq_true] at ha
  obtain ⟨s, hs, hsettled⟩ := ha
  rw [isRegular, Spot.reads_append, hs, Option.any_some, Spot.reads_cons, Spot.next_of_isSettled hsettled hc]
  rfl

/-! ## Marks of a text and of what follows it -/

namespace Spot

/-- The quote that is open. -/
def mark? : Spot → Option Char
  | .quote mark => some mark
  | _ => none

theorem mark?_eq_none {s : Spot} (hs : ∀ mark, s ≠ .quote mark) : s.mark? = none := by
  cases s with
  | quote mark => exact absurd rfl (hs mark)
  | «open» | word | digits | hyphen => rfl

/-- Outside of quotes a quote opens quoted text. -/
theorem eq_quote_of_next {s t : Spot} {c : Char} (hs : ∀ mark, s ≠ .quote mark) (hquote : c = '\'' ∨ c = '"')
    (h : s.next c = some t) : t = .quote c := by
  cases s with
  | quote mark => exact absurd rfl (hs mark)
  | «open» => rcases hquote with rfl | rfl <;> exact (Option.some.inj h).symm
  | word | digits | hyphen => rcases hquote with rfl | rfl <;> cases h

/-- Outside of quotes neither a comment nor a tagged body begins. -/
theorem next_outside {s t : Spot} {c : Char} (hs : ∀ mark, s ≠ .quote mark) (hquote : c ≠ '\'' ∧ c ≠ '"')
    (h : s.next c = some t) : c ≠ '`' ∧ c ≠ '$' ∧ c ≠ '/' ∧ (c = '-' → t = .hyphen) ∧ ∀ mark, t ≠ .quote mark := by
  have hopen : ∀ mark, t ≠ .quote mark := by
    have hrun : s.run [c] = some t := by rw [run, h]; rfl
    exact ne_quote_of_run hrun (List.forall_mem_singleton.2 hquote) hs
  refine ⟨?_, ?_, ?_, ?_, hopen⟩
  · rintro rfl
    cases s with
    | quote mark => exact hs mark rfl
    | «open» | word | digits | hyphen => cases h
  · rintro rfl
    cases s with
    | quote mark => exact hs mark rfl
    | «open» | word | digits | hyphen => cases h
  · rintro rfl
    cases s with
    | quote mark => exact hs mark rfl
    | «open» | word | digits | hyphen => cases h
  · rintro rfl
    cases s with
    | quote mark => exact absurd rfl (hs mark)
    | «open» => exact (Option.some.inj h).symm
    | word | digits | hyphen => cases h

/-- One step of counting. -/
theorem counted_cons {s t : Spot} {c : Char} (h : s.next c = some t) (rest : List Char) :
    counted s.mark? (c :: rest) = (c, s.mark?.isNone && isMark c) :: counted t.mark? rest := by
  by_cases hs : ∃ mark, s = .quote mark
  · obtain ⟨mark, rfl⟩ := hs
    rw [next] at h
    rw [mark?, counted]
    split at h
    · next hc =>
      obtain rfl := Option.some.inj h
      rw [if_pos hc]
      rfl
    · next hc =>
      split at h
      · cases h
      · obtain rfl := Option.some.inj h
        rw [if_neg hc]
        rfl
  · have hquote : ∀ mark, s ≠ .quote mark := fun mark hmark => hs ⟨mark, hmark⟩
    rw [mark?_eq_none hquote, counted]
    by_cases hc : c = '\'' ∨ c = '"'
    · obtain rfl := eq_quote_of_next hquote hc h
      rw [if_pos (by simpa using hc)]
      rfl
    · obtain ⟨-, -, -, -, hnot⟩ := next_outside hquote (not_or.1 hc) h
      rw [if_neg (by simpa using hc), mark?_eq_none hnot]
      rfl

theorem counted_run_append {s t : Spot} {a : List Char} (h : s.run a = some t) (b : List Char) :
    counted s.mark? (a ++ b) = counted s.mark? a ++ counted t.mark? b := by
  induction a generalizing s with
  | nil =>
    obtain rfl := Option.some.inj h
    rfl
  | cons c a ih =>
    obtain ⟨u, hu, h⟩ := Option.bind_eq_some_iff.1 h
    rw [List.cons_append, counted_cons hu, counted_cons hu, ih h]
    rfl

end Spot

/-- **What counts in two texts** one behind the other is what counts in each, if the first is regular. -/
theorem counted_regular_append {a : List Char} (ha : isRegular a = true) (b : List Char) :
    counted none (a ++ b) = counted none a ++ counted none b := by
  rw [isRegular, Spot.reads, Option.any_eq_true] at ha
  obtain ⟨s, hs, hsettled⟩ := ha
  have hnone : s.mark? = none := by
    cases s with
    | quote mark => cases hsettled
    | «open» | word | digits | hyphen => rfl
  have h := Spot.counted_run_append hs b
  rw [hnone] at h
  exact h

/-! ## Comments -/

namespace Spot

/-- The reader of comments and the reader of a regular text stand at the same place. -/
inductive Follows : Spot → Comment.Mode → List Char → Prop where
  /-- outside of quotes -/
  | code {s : Spot} {cs : List Char} (hs : ∀ mark, s ≠ .quote mark) : Follows s .code cs
  /-- between quotes -/
  | quote {mark : Char} {cs : List Char} : Follows (.quote mark) (.quote mark) cs
  /-- between two quotes that stand for one -/
  | pair {cs : List Char} : Follows .open (.keep (.quote '\'')) ('\'' :: cs)

theorem Follows.step_code {s t : Spot} (before : Option Char) {c : Char} {rest : List Char} (hs : ∀ mark, s ≠ .quote mark)
    (ht : s.next c = some t) (hrest : t.reads rest = true) :
    (Comment.step .code before c rest).1 = [c] ∧ t.Follows (Comment.step .code before c rest).2 rest := by
  by_cases hquote : c = '\'' ∨ c = '"'
  · obtain rfl := eq_quote_of_next hs hquote ht
    rcases hquote with rfl | rfl <;> exact ⟨rfl, .quote⟩
  · obtain ⟨hback, hdollar, hslash, hhyphen, hnot⟩ := next_outside hs (not_or.1 hquote) ht
    have hdashes : (c == '-' && rest.head? == some '-') = false := by
      rw [Bool.and_eq_false_iff, beq_eq_false_iff_ne, beq_eq_false_iff_ne, ← imp_iff_not_or]
      rintro hc hhead
      obtain rfl := hhyphen hc
      obtain ⟨more, rfl⟩ := List.head?_eq_some_iff.1 hhead
      cases hrest
    have hstep : Comment.step .code before c rest = ([c], .code) := by
      simp only [Comment.step, hdashes, beq_eq_false_iff_ne.2 (not_or.1 hquote).1,
        beq_eq_false_iff_ne.2 (not_or.1 hquote).2, beq_eq_false_iff_ne.2 hback, beq_eq_false_iff_ne.2 hdollar,
        beq_eq_false_iff_ne.2 hslash, Bool.or_self, Bool.false_and, Bool.false_eq_true, if_false]
    rw [hstep]
    exact ⟨rfl, .code hnot⟩

theorem Follows.step_quote {mark : Char} {t : Spot} (before : Option Char) {c : Char} {rest : List Char}
    (ht : (Spot.quote mark).next c = some t) :
    (Comment.step (.quote mark) before c rest).1 = [c] ∧ t.Follows (Comment.step (.quote mark) before c rest).2 rest := by
  rw [next] at ht
  split at ht
  · next hc =>
    obtain rfl := beq_iff_eq.1 hc
    obtain rfl := Option.some.inj ht
    by_cases hpair : c = '\'' ∧ rest.head? = some '\''
    · obtain ⟨rfl, hhead⟩ := hpair
      obtain ⟨more, rfl⟩ := List.head?_eq_some_iff.1 hhead
      exact ⟨rfl, .pair⟩
    · have hescape : (c == '\'' && c == '\\' && rest.head? == some '\'') = false := by
        rw [Bool.and_eq_false_iff, Bool.and_eq_false_iff, beq_eq_false_iff_ne, beq_eq_false_iff_ne]
        left
        by_cases hquote : c = '\''
        · exact .inr (by rw [hquote]; decide)
        · exact .inl hquote
      have hdouble : (c == '\'' && rest.head? == some '\'') = false := by
        rw [Bool.and_eq_false_iff, beq_eq_false_iff_ne, beq_eq_false_iff_ne]
        exact not_and_or.1 hpair
      rw [Comment.step, hescape, if_neg Bool.false_ne_true, if_pos hc, hdouble, if_neg Bool.false_ne_true]
      exact ⟨rfl, .code fun _ => Spot.noConfusion⟩
  · next hc =>
    split at ht
    · cases ht
    · next hbackslash =>
      obtain rfl := Option.some.inj ht
      have hescape : (mark == '\'' && c == '\\' && rest.head? == some '\'') = false := by
        rw [Bool.eq_false_iff.2 hbackslash, Bool.and_false, Bool.false_and]
      rw [Comment.step, hescape, if_neg Bool.false_ne_true, if_neg hc]
      exact ⟨rfl, .quote⟩

open Comment in
/-- One step of the reader of comments. -/
theorem Follows.step {s t : Spot} {mode : Mode} (before : Option Char) {c : Char} {rest : List Char}
    (h : s.Follows mode (c :: rest)) (ht : s.next c = some t) (hrest : t.reads rest = true) :
    (Comment.step mode before c rest).1 = [c] ∧ t.Follows (Comment.step mode before c rest).2 rest := by
  cases h with
  | code hs => exact Follows.step_code before hs ht hrest
  | quote => exact Follows.step_quote before ht
  | pair =>
    obtain rfl := Option.some.inj ht
    exact ⟨rfl, .quote⟩

end Spot

open Comment in
/-- **A regular text has no comments**, and nothing is left open at its end. -/
theorem strip_regular {cs : List Char} (h : isRegular cs = true) :
    strip cs = cs ∧ endsOutside .code none cs = true := by
  have hread : ∀ (cs : List Char) (s : Spot) (mode : Mode) (before : Option Char), s.reads cs = true →
      s.Follows mode cs → stripFrom mode before cs = cs ∧ endsOutside mode before cs = true := by
    intro cs
    induction cs with
    | nil =>
      intro s mode before h hmode
      cases hmode with
      | code => exact ⟨rfl, rfl⟩
      | quote => cases h
    | cons c rest ih =>
      intro s mode before h hmode
      rw [Spot.reads_cons, Option.any_eq_true] at h
      obtain ⟨t, ht, hrest⟩ := h
      obtain ⟨hwritten, hnext⟩ := hmode.step before ht hrest
      obtain ⟨hstrip, hends⟩ := ih t _ (some c) hrest hnext
      have hcloses : (mode != .code || !bodyMayOpen before || bodyCloses (c :: rest)) = true := by
        cases hmode with
        | code hs =>
          have hdollar : c ≠ '$' := by
            rintro rfl
            cases s with
            | quote mark => exact hs mark rfl
            | «open» | word | digits | hyphen => cases ht
          have hnone : tag (c :: rest) = none := Pattern.andThen_eq_none (Pattern.char_cons_of_ne hdollar rest)
          rw [bodyCloses, hnone, Bool.or_true]
        | quote | pair => rfl
      rw [endsOutside, hcloses, hends]
      refine ⟨?_, rfl⟩
      change (step mode before c rest).1 ++ stripFrom (step mode before c rest).2 (some c) rest = c :: rest
      rw [hwritten, hstrip]
      rfl
  exact hread cs .open .code none h (.code fun _ => Spot.noConfusion)

end Text
end SchemaSketch
