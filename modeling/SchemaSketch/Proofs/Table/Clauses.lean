import SchemaSketch.Proofs.Table.Masks

/-!
# Clauses of a column

Behind its type a column has clauses: `NOT NULL`, `UNIQUE`, `PRIMARY KEY`, and a default that is a whole number or
a literal. They may stand in any order and more than once. Each question about them is asked of the whole text by
a search of its own. A flag is looked for where the literals are emptied, and there each clause can be searched by
itself, since no phrase reaches from one clause into the next (`hasWordAfter_maskedText`). A default is looked for
in the text as it is written, and what stands in front of the first one begins no default (`default?_text`).
-/

namespace SchemaSketch

open Text Pattern

/-- A whole number as it is written. -/
structure Numeral where
  /-- whether it has a sign -/
  negative : Bool
  /-- its digits -/
  digits : List Char
  ne_nil : digits ≠ []
  isDigit : ∀ c ∈ digits, c.isDigit = true
  deriving DecidableEq

/-- A literal, told by what it says. -/
structure Literal where
  /-- what it says -/
  content : List Char
  noBackslash : '\\' ∉ content
  deriving DecidableEq

/-- A clause of a column. -/
inductive Clause where
  | notNull
  | unique
  | primaryKey
  /-- a whole number as the default -/
  | defaultNumber (n : Numeral)
  /-- a literal as the default -/
  | defaultLiteral (l : Literal)
  deriving DecidableEq

/-! ## How clauses are written -/

/-- The characters of a whole number. -/
def Numeral.text (n : Numeral) : List Char := if n.negative then '-' :: n.digits else n.digits

/-- Each quote twice, and one at the end. -/
def Literal.doubled : List Char → List Char
  | [] => ['\'']
  | c :: rest => if c == '\'' then '\'' :: '\'' :: doubled rest else c :: doubled rest

/-- The characters of a literal. -/
def Literal.text (l : Literal) : List Char := '\'' :: doubled l.content

namespace Clause

/-- The value that a clause gives as the default. -/
def value? : Clause → Option (List Char)
  | notNull | unique | primaryKey => none
  | defaultNumber n => some n.text
  | defaultLiteral l => some l.text

/-- The characters of a clause. -/
def text : Clause → List Char
  | notNull => "NOT NULL".toList
  | unique => "UNIQUE".toList
  | primaryKey => "PRIMARY KEY".toList
  | defaultNumber n => "DEFAULT ".toList ++ n.text
  | defaultLiteral l => "DEFAULT ".toList ++ l.text

/-- A clause in which a literal is empty. -/
def masked : Clause → List Char
  | defaultLiteral _ => "DEFAULT \'\'".toList
  | c => c.text

end Clause

/-- Pieces with a space in front of each. -/
def spaced (pieces : List (List Char)) : List Char := pieces.flatMap (' ' :: ·)

theorem spaced_cons (piece : List Char) (rest : List (List Char)) :
    spaced (piece :: rest) = ' ' :: (piece ++ spaced rest) := rfl

/-- Only a space follows a piece. -/
theorem head?_spaced {pieces : List (List Char)} {c : Char} (h : (spaced pieces).head? = some c) : c = ' ' := by
  cases pieces with
  | nil => cases h
  | cons piece rest => exact (Option.some.inj h).symm

/-! ## Characters -/

/-- What holds of all ASCII letters and figures can be looked up. -/
theorem of_isAlphanum {motive : Char → Prop}
    (h : ∀ n < 128, (Char.ofNat n).isAlphanum = true → motive (Char.ofNat n)) {c : Char}
    (hc : c.isAlphanum = true) : motive c := by
  have hlow : c.toNat < 128 := by
    simp only [Char.isAlphanum, Char.isAlpha, Char.isUpper, Char.isLower, Char.isDigit, Bool.or_eq_true,
      Bool.and_eq_true, decide_eq_true_eq, UInt32.le_iff_toNat_le, ge_iff_le] at hc
    rcases hc with (⟨-, hc⟩ | ⟨-, hc⟩) | ⟨-, hc⟩ <;> exact Nat.lt_of_le_of_lt hc (by decide)
  have hascii := h c.toNat hlow
  rw [Char.ofNat_toNat] at hascii
  exact hascii hc

/-- A decimal figure is one of ten characters. -/
theorem mem_figures {c : Char} (h : c.isDigit = true) : c ∈ "0123456789".toList := by
  have halphanum : c.isAlphanum = true := by rw [Char.isAlphanum, h, Bool.or_true]
  exact of_isAlphanum (motive := fun c => c.isDigit = true → c ∈ "0123456789".toList) (by decide) halphanum h

/-- What holds of the ten figures holds of the digits of a number. -/
theorem Numeral.forall_mem_digits {motive : Char → Prop} (n : Numeral) (h : "0123456789".toList.Forall motive) :
    ∀ c ∈ n.digits, motive c :=
  fun c hc => List.forall_iff_forall_mem.1 h c (mem_figures (n.isDigit c hc))

theorem Numeral.text_ne_nil (n : Numeral) : n.text ≠ [] := by
  rw [text]
  split
  · exact List.cons_ne_nil _ _
  · exact n.ne_nil

theorem Numeral.mem_text {n : Numeral} {c : Char} (h : c ∈ n.text) : c ∈ "-0123456789".toList := by
  have hdigits : ∀ c ∈ n.digits, c ∈ "-0123456789".toList :=
    fun c hc => List.mem_cons_of_mem '-' (mem_figures (n.isDigit c hc))
  rw [text] at h
  split at h
  · rcases List.mem_cons.1 h with rfl | h
    · exact List.mem_cons_self ..
    · exact hdigits c h
  · exact hdigits c h

/-- What holds of the figures and the sign holds of the characters of a number. -/
theorem Numeral.forall_mem_text {motive : Char → Prop} (n : Numeral) (h : "-0123456789".toList.Forall motive) :
    ∀ c ∈ n.text, motive c :=
  fun c hc => List.forall_iff_forall_mem.1 h c (mem_text hc)

/-- The characters of clauses without what stands in literals. -/
theorem Clause.mem_masked {clause : Clause} {c : Char} (h : c ∈ clause.masked) :
    c ∈ "ADEFIKLMNOPQRTUY \'-0123456789".toList := by
  have hsubset : ∀ cs : List Char, (cs.all ("ADEFIKLMNOPQRTUY \'-0123456789".toList).contains) = true → c ∈ cs →
      c ∈ "ADEFIKLMNOPQRTUY \'-0123456789".toList :=
    fun cs hcs hc => List.contains_iff_mem.1 (List.all_eq_true.1 hcs c hc)
  cases clause with
  | notNull | unique | primaryKey => exact hsubset _ (by decide) h
  | defaultLiteral l => exact hsubset "DEFAULT \'\'".toList (by decide) h
  | defaultNumber n =>
    rcases List.mem_append.1 h with h | h
    · exact hsubset _ (by decide) h
    · exact hsubset _ (by decide) (Numeral.mem_text h)

/-! ## Literals -/

theorem Literal.doubled_ne_nil (content : List Char) : doubled content ≠ [] := by
  cases content with
  | nil => exact List.cons_ne_nil _ _
  | cons c rest =>
    rw [doubled]
    split <;> exact List.cons_ne_nil _ _

theorem Literal.literalCloses_doubled {content : List Char} (h : '\\' ∉ content) :
    Comment.literalCloses (doubled content) = true := by
  induction content with
  | nil => rfl
  | cons c rest ih =>
    obtain ⟨hc, hrest⟩ := not_or.1 (mt List.mem_cons.2 h)
    rw [doubled]
    split
    · rw [Comment.literalCloses]
      exact ih hrest
    · next hquote =>
      obtain ⟨d, more, hdoubled⟩ := List.exists_cons_of_ne_nil (doubled_ne_nil rest)
      have hpair : ¬ ((c == '\'' || c == '\\') && d == '\'') = true := by
        simp [hquote, Ne.symm hc]
      rw [hdoubled, Comment.literalCloses, if_neg hpair, ← hdoubled, ih hrest, bne, Bool.eq_false_iff.2 hquote]
      rfl

theorem Clause.closed_text (clause : Clause) : ColumnDefinition.Closed clause.text := by
  cases clause with
  | notNull | unique | primaryKey => exact ColumnDefinition.closed_of_not_mem (by decide)
  | defaultNumber n =>
    refine ColumnDefinition.closed_append (by decide) (ColumnDefinition.closed_of_not_mem fun h => ?_)
    exact absurd (Numeral.mem_text h) (by decide)
  | defaultLiteral l =>
    refine ColumnDefinition.closed_append (by decide) ?_
    have hend : ([] : List Char).head? ≠ some '\'' := fun h => by cases h
    have hliteral := ColumnDefinition.Closed.literal (Literal.literalCloses_doubled l.noBackslash) hend .nil
    rwa [List.append_nil] at hliteral

theorem Clause.withoutLiterals_text (clause : Clause) :
    ColumnDefinition.withoutLiterals clause.text = clause.masked := by
  cases clause with
  | notNull | unique | primaryKey => exact ColumnDefinition.withoutLiterals_of_not_mem (by decide)
  | defaultNumber n =>
    refine ColumnDefinition.withoutLiterals_of_not_mem fun h => ?_
    rcases List.mem_append.1 h with h | h
    · exact absurd h (by decide)
    · exact absurd (Numeral.mem_text h) (by decide)
  | defaultLiteral l =>
    have hend : ([] : List Char).head? ≠ some '\'' := fun h => by cases h
    have hliteral := ColumnDefinition.withoutLiterals_literal (Literal.literalCloses_doubled l.noBackslash) hend
    rw [List.append_nil] at hliteral
    exact (ColumnDefinition.withoutLiterals_append (by decide) l.text).trans
      (congrArg ("DEFAULT ".toList ++ ·) hliteral)

/-- **Literals are emptied** clause by clause. -/
theorem withoutLiterals_spaced (clauses : List Clause) :
    ColumnDefinition.withoutLiterals (spaced (clauses.map Clause.text)) = spaced (clauses.map Clause.masked) := by
  induction clauses with
  | nil => rfl
  | cons clause rest ih =>
    have hnext : (spaced (rest.map Clause.text)).head? ≠ some '\'' :=
      fun h => absurd (head?_spaced h) (by decide)
    rw [List.map_cons, List.map_cons, spaced_cons, spaced_cons, ColumnDefinition.withoutLiterals_cons (by decide),
      clause.closed_text.withoutLiterals_append hnext, clause.withoutLiterals_text, ih]

theorem mem_spaced_masked {clauses : List Clause} {c : Char} (h : c ∈ spaced (clauses.map Clause.masked)) :
    c ∈ "ADEFIKLMNOPQRTUY \'-0123456789".toList := by
  obtain ⟨piece, hpiece, hc⟩ := List.mem_flatMap.1 h
  obtain ⟨clause, -, rfl⟩ := List.mem_map.1 hpiece
  rcases List.mem_cons.1 hc with rfl | hc
  · decide
  · exact Clause.mem_masked hc

/-- What is left of clauses is in capitals. -/
theorem upper_spaced (clauses : List Clause) :
    upper (spaced (clauses.map Clause.masked)) = spaced (clauses.map Clause.masked) := by
  have hcapital : ∀ c ∈ "ADEFIKLMNOPQRTUY \'-0123456789".toList, capitalForm c = [c] :=
    List.forall_iff_forall_mem.1 (by decide)
  have hall : ∀ c ∈ spaced (clauses.map Clause.masked), capitalForm c = [c] :=
    fun c hc => hcapital c (mem_spaced_masked hc)
  rw [upper, List.flatMap_congr hall, List.flatMap_singleton']

/-! ## Flags -/

/-- A phrase of words in capitals, of which no clause begins with a later one. -/
structure Apart (ws : List String) : Prop where
  ne_nil : ws ≠ []
  words : ∀ w ∈ ws, w.toList ≠ [] ∧ w.toList.all Char.isUpper = true
  later : ∀ w ∈ ws.tail, ∀ (clause : Clause) (more : List Char), ¬ w.toList <+: clause.masked ++ more

theorem isWord_of_isAlphanum {c : Char} (h : c.isAlphanum = true) : isWord c = true :=
  of_isAlphanum (motive := fun c => isWord c = true) (by decide) h

theorem Apart.isWord {ws : List String} (h : Apart ws) :
    ∀ w ∈ ws, w.toList ≠ [] ∧ w.toList.all Text.isWord = true :=
  fun w hw => (h.words w hw).imp_right fun hupper => List.all_eq_true.2 fun c hc =>
    isWord_of_isAlphanum (by rw [Char.isAlphanum, Char.isAlpha, List.all_eq_true.1 hupper c hc]; rfl)

theorem ColumnDefinition.capitals_nil {ws : List String} (h : Apart ws) : capitals ws [] = none := by
  obtain ⟨w, rest, rfl⟩ := List.exists_cons_of_ne_nil h.ne_nil
  exact capitals_eq_none fun hprefix => (h.words w (List.mem_cons_self ..)).1 (List.prefix_nil.1 hprefix)

/-- The clauses that follow a text do not matter to a phrase. -/
theorem ColumnDefinition.capitals_append_spaced {ws : List String} (h : Apart ws) (clause : Clause)
    (more cs : List Char) : capitals ws (cs ++ ' ' :: (clause.masked ++ more)) = capitals ws cs := by
  have hblank : (' ' :: (clause.masked ++ more)).dropWhile isBlank = clause.masked ++ more := by cases clause <;> rfl
  refine capitals_append h.isWord rfl (fun w hw => ?_) cs
  rw [hblank]
  exact h.later w hw clause more

/-- **A phrase stands among clauses** exactly if it stands in one of them. -/
theorem hasWordAfter_spaced {ws : List String} (h : Apart ws) (clauses : List Clause) (before : Option Char) :
    hasWordAfter (ColumnDefinition.capitals ws) before (spaced (clauses.map Clause.masked)) =
      clauses.any (hasWord (ColumnDefinition.capitals ws) ·.masked) := by
  have hnil : ∀ before, hasWordAfter (ColumnDefinition.capitals ws) before [] = false := fun before =>
    hasWordAfter_eq_false (ColumnDefinition.capitals_nil h) (fun c hc => absurd hc List.not_mem_nil) before
  have hfirst : wordMayBegin (some ' ') = wordMayBegin none := rfl
  have hspace : ∀ (clause : Clause) (more : List Char) (before : Option Char),
      hasWordAfter (ColumnDefinition.capitals ws) before (' ' :: (clause.masked ++ more)) =
        hasWordAfter (ColumnDefinition.capitals ws) none (clause.masked ++ more) := fun clause more before => by
    have hhalves := hasWordAfter_append (ColumnDefinition.capitals_append_spaced h clause more) before []
    rw [List.nil_append, hnil, Bool.false_or] at hhalves
    exact hhalves.trans (hasWordAfter_congr hfirst _ _)
  induction clauses generalizing before with
  | nil => exact hnil before
  | cons clause rest ih =>
    -- the text is cut at the space behind the first clause
    rw [List.map_cons, spaced_cons, hspace, List.any_cons, hasWord_eq, ← ih none]
    cases rest with
    | nil => rw [List.map_nil, spaced, List.flatMap_nil, List.append_nil, hnil, Bool.or_false]
    | cons next rest =>
      rw [List.map_cons, spaced_cons, hasWordAfter_append (ColumnDefinition.capitals_append_spaced h next _), hspace]
      exact congrArg (_ || ·) (hasWordAfter_congr hfirst _ _)

/-- No word of a phrase begins with a figure. -/
theorem Apart.not_prefix {ws : List String} (h : Apart ws) {w : String} (hw : w ∈ ws) {cs : List Char}
    (hcs : ∀ c, cs.head? = some c → c ∈ "-0123456789".toList) : ¬ w.toList <+: cs := by
  have hfigure : ∀ c ∈ "-0123456789".toList, c.isUpper = false := List.forall_iff_forall_mem.1 (by decide)
  obtain ⟨hne, hupper⟩ := h.words w hw
  obtain ⟨c, rest, hc⟩ := List.exists_cons_of_ne_nil hne
  rw [hc] at hupper ⊢
  rintro ⟨more, rfl⟩
  have hcapital := List.all_eq_true.1 hupper c (List.mem_cons_self ..)
  rw [hfigure c (hcs c rfl)] at hcapital
  cases hcapital

/-- Of a default that is a number only the word in front can be part of a phrase. -/
theorem hasWord_defaultNumber {ws : List String} (h : Apart ws) (n : Numeral) :
    hasWord (ColumnDefinition.capitals ws) (Clause.defaultNumber n).masked =
      hasWord (ColumnDefinition.capitals ws) "DEFAULT".toList := by
  have hblank : (' ' :: n.text).dropWhile isBlank ⊆ n.text := by
    rw [List.dropWhile_cons_of_pos (by decide)]
    exact (List.dropWhile_suffix isBlank).subset
  have happend : ∀ cs, ColumnDefinition.capitals ws (cs ++ ' ' :: n.text) = ColumnDefinition.capitals ws cs :=
    ColumnDefinition.capitals_append h.isWord rfl fun w hw =>
      h.not_prefix (List.mem_of_mem_tail hw) fun c hc => Numeral.mem_text (hblank (List.mem_of_mem_head? hc))
  have hnone : hasWordAfter (ColumnDefinition.capitals ws) (some ' ') n.text = false := by
    refine hasWordAfter_eq_false (ColumnDefinition.capitals_nil h) (fun c hc more => ?_) _
    obtain ⟨w, rest, rfl⟩ := List.exists_cons_of_ne_nil h.ne_nil
    refine ColumnDefinition.capitals_eq_none (h.not_prefix (List.mem_cons_self ..) ?_)
    rintro _ ⟨⟩
    exact Numeral.mem_text hc
  rw [hasWord_eq, hasWord_eq]
  exact (hasWordAfter_append happend none "DEFAULT".toList).trans (by rw [hnone, Bool.or_false])

/-- A phrase that stands for a clause: it stands in this clause and in no other. -/
structure Flag (ws : List String) (clause : Clause) : Prop extends Apart ws where
  noValue : clause.value? = none
  fixed : ∀ c ∈ [Clause.notNull, .unique, .primaryKey],
    hasWord (ColumnDefinition.capitals ws) c.masked = (clause == c)
  default : ∀ written ∈ ["DEFAULT", "DEFAULT \'\'"], hasWord (ColumnDefinition.capitals ws) written.toList = false

theorem Flag.hasWord_masked {ws : List String} {clause : Clause} (h : Flag ws clause) (c : Clause) :
    hasWord (ColumnDefinition.capitals ws) c.masked = (clause == c) := by
  have hne : c.value? ≠ none → (clause == c) = false := fun hc =>
    beq_eq_false_iff_ne.2 fun he => hc (he ▸ h.noValue)
  cases c with
  | notNull | unique | primaryKey => exact h.fixed _ (by simp)
  | defaultNumber n =>
    rw [hne (Option.some_ne_none _), hasWord_defaultNumber h.toApart]
    exact h.default "DEFAULT" (by simp)
  | defaultLiteral l =>
    rw [hne (Option.some_ne_none _)]
    exact h.default "DEFAULT \'\'" (by simp)

/-- **A flag is read** exactly if the clause that its phrase stands for is among the clauses. -/
theorem Flag.hasWord_text {ws : List String} {clause : Clause} (h : Flag ws clause) (clauses : List Clause) :
    hasWord (ColumnDefinition.capitals ws)
        (upper (ColumnDefinition.withoutLiterals (spaced (clauses.map Clause.text)))) =
      clauses.contains clause := by
  rw [withoutLiterals_spaced, upper_spaced, hasWord_eq, hasWordAfter_spaced h.toApart, List.contains_eq_any_beq]
  exact congrArg clauses.any (funext h.hasWord_masked)

theorem later_of_isPrefixOf {w : String}
    (h : ∀ (clause : Clause) more, w.toList.isPrefixOf (clause.masked ++ more) = false) :
    ∀ v ∈ [w], ∀ (clause : Clause) (more : List Char), ¬ v.toList <+: clause.masked ++ more := by
  intro v hv clause more hprefix
  obtain rfl := List.mem_singleton.1 hv
  exact Bool.false_ne_true ((h clause more).symm.trans (List.isPrefixOf_iff_prefix.2 hprefix))

theorem flag_notNull : Flag ["NOT", "NULL"] .notNull where
  ne_nil := by decide
  words := by decide
  later := later_of_isPrefixOf fun clause more => by cases clause <;> rfl
  noValue := rfl
  fixed := by decide +kernel
  default := by decide +kernel

theorem flag_unique : Flag ["UNIQUE"] .unique where
  ne_nil := by decide
  words := by decide
  later w hw := absurd hw List.not_mem_nil
  noValue := rfl
  fixed := by decide +kernel
  default := by decide +kernel

theorem flag_primaryKey : Flag ["PRIMARY", "KEY"] .primaryKey where
  ne_nil := by decide
  words := by decide
  later := later_of_isPrefixOf fun clause more => by cases clause <;> rfl
  noValue := rfl
  fixed := by decide +kernel
  default := by decide +kernel

/-! ## Defaults -/

namespace ColumnDefinition

/-- A default value behind its word. -/
def defaultAfter : Reader (List Char) := do
  Reader.skip (keyword "default" >> blanks1)
  Reader.take defaultValue

theorem default?_eq (rest : List Char) :
    default? rest = (searchWord defaultAfter rest).map fun (value, _) => String.ofList value := rfl

/-- No default begins with another letter. -/
theorem defaultAfter_cons {c : Char} (hc : sameLetter 'd' c = false) (rest : List Char) :
    defaultAfter (c :: rest) = none := by
  rw [defaultAfter, Reader.skip_bind, andThen_eq_none (keyword_cons rfl hc rest)]
  rfl

/-- The word and the value behind it. -/
theorem defaultAfter_append {value rest : List Char} (hblank : ∀ c ∈ value.head?, isBlank c = false)
    (hne : value ≠ []) (hvalue : defaultValue (value ++ rest) = some value.length) :
    defaultAfter ("DEFAULT ".toList ++ value ++ rest) = some (value, rest) := by
  obtain ⟨c, more, rfl⟩ := List.exists_cons_of_ne_nil hne
  have hword : keyword "default" ("DEFAULT ".toList ++ (c :: more) ++ rest) = some 7 := rfl
  have hblanks : blanks1 (' ' :: (c :: more ++ rest)) = some 1 := by
    refine many1_eq_some.2 ⟨by decide, ?_⟩
    rw [List.takeWhile_cons_of_pos (by decide), List.cons_append,
      List.takeWhile_cons_of_neg (Bool.eq_false_iff.1 (hblank c rfl))]
    rfl
  have hskip : (keyword "default" >> blanks1) ("DEFAULT ".toList ++ (c :: more) ++ rest) = some 8 := by
    rw [andThen_apply, hword]
    exact congrArg (Option.map _) hblanks
  have htake : Reader.take defaultValue (c :: more ++ rest) = some (c :: more, rest) := by
    rw [Reader.take, hvalue, Option.map_some, List.take_left, List.drop_left]
  rw [defaultAfter, Reader.skip_bind, hskip]
  exact htake

theorem defaultValue_literal (l : Literal) {rest : List Char} (hrest : rest.head? ≠ some '\'') :
    defaultValue (l.text ++ rest) = some l.text.length := by
  have hletter : keyword "e" (l.text ++ rest) = none := keyword_cons rfl (by decide) _
  have hliteral : Token.literal (l.text ++ rest) = some l.text.length :=
    Token.literal_apply (Literal.literalCloses_doubled l.noBackslash) hrest
  rw [defaultValue, orElse_apply, andThen_apply, optional_apply, hletter, Option.bind_some, Option.getD_none,
    List.drop_zero, hliteral, Option.map_some, Nat.zero_add, Option.some_or]

/-- The digits of a number, if neither a digit nor a point follows. -/
theorem digits_append (n : Numeral) {rest : List Char}
    (hrest : ∀ c ∈ rest.head?, isDecimal c = false ∧ c ≠ '.') :
    (Token.digits1 >> optional (char '.' >> Token.digits1)) (n.digits ++ rest) = some n.digits.length := by
  have hfigure : ∀ c ∈ n.digits, isDecimal c = true := n.forall_mem_digits (by decide)
  have hpoint : char '.' rest = none := by
    cases rest with
    | nil => rfl
    | cons c rest => exact char_cons_of_ne (hrest c rfl).2 rest
  have hdigits : Token.digits1 (n.digits ++ rest) = some n.digits.length := by
    refine many1_eq_some.2 ⟨List.length_pos_iff.2 n.ne_nil, ?_⟩
    rw [takeWhile_append hfigure fun c hc => (hrest c hc).1]
  rw [andThen_apply, hdigits, Option.bind_some, List.drop_left, optional_apply, andThen_eq_none hpoint]
  rfl

theorem defaultValue_numeral (n : Numeral) {rest : List Char}
    (hrest : ∀ c ∈ rest.head?, isDecimal c = false ∧ c ≠ '.') :
    defaultValue (n.text ++ rest) = some n.text.length := by
  have hfigure : ∀ c ∈ n.digits, c ≠ '-' := n.forall_mem_digits (by decide)
  have hfirst : ∀ c ∈ n.text, sameLetter 'e' c = false ∧ c ≠ '\'' := n.forall_mem_text (by decide)
  -- a number begins like no literal, and its sign is optional
  have hnumber : (optional (char '-') >> (Token.digits1 >> optional (char '.' >> Token.digits1))) (n.text ++ rest) =
      some n.text.length := by
    rw [andThen_apply, optional_apply, Numeral.text]
    split
    · change (((_ >> _ : Pattern)) (n.digits ++ rest)).map _ = _
      rw [digits_append n hrest, Option.map_some, List.length_cons, Nat.add_comm]
      rfl
    · obtain ⟨c, more, hdigits⟩ := List.exists_cons_of_ne_nil n.ne_nil
      have hc := hfigure c (hdigits ▸ List.mem_cons_self ..)
      have hsign : char '-' (n.digits ++ rest) = none := by rw [hdigits]; exact char_cons_of_ne hc _
      rw [hsign, Option.getD_none, Option.bind_some, List.drop_zero, digits_append n hrest, Option.map_some,
        Nat.zero_add]
  have hliteral : (optional (keyword "e") >> Token.literal) (n.text ++ rest) = none := by
    obtain ⟨c, more, htext⟩ := List.exists_cons_of_ne_nil n.text_ne_nil
    obtain ⟨hletter, hquote⟩ := hfirst c (htext ▸ List.mem_cons_self ..)
    rw [htext, List.cons_append, andThen_apply, optional_apply, keyword_cons rfl hletter]
    exact congrArg (Option.map _) (Token.literal_cons hquote _)
  rw [defaultValue, orElse_apply, orElse_apply, hliteral, hnumber]
  rfl

/-- A clause with a value is read where it stands. -/
theorem defaultAfter_text {clause : Clause} {value : List Char} (h : clause.value? = some value) {rest : List Char}
    (hrest : ∀ c ∈ rest.head?, c = ' ') : defaultAfter (clause.text ++ rest) = some (value, rest) := by
  cases clause with
  | notNull | unique | primaryKey => cases h
  | defaultNumber n =>
    cases h
    have hfirst : ∀ c ∈ n.text, isBlank c = false := n.forall_mem_text (by decide)
    refine defaultAfter_append (fun c hc => hfirst c (List.mem_of_mem_head? hc)) n.text_ne_nil ?_
    refine defaultValue_numeral n fun c hc => ?_
    rw [hrest c hc]
    exact ⟨by decide, by decide⟩
  | defaultLiteral l =>
    cases h
    refine defaultAfter_append (fun c hc => ?_) (List.cons_ne_nil _ _) (defaultValue_literal l fun hc => ?_)
    · cases hc
      decide
    · exact absurd (hrest _ hc) (by decide)

/-- Nothing in a clause without a value begins a default. -/
theorem defaultAfter_of_mem {clause : Clause} (h : clause.value? = none) {c : Char} (hc : c ∈ ' ' :: clause.text)
    (rest : List Char) : defaultAfter (c :: rest) = none := by
  cases clause with
  | notNull | unique | primaryKey =>
    have hletter := (List.forall_iff_forall_mem (p := fun c => sameLetter 'd' c = false)).1 (by decide) c hc
    exact defaultAfter_cons hletter rest
  | defaultNumber n => cases h
  | defaultLiteral l => cases h

/-- **The default is the value of the first clause that gives one.** -/
theorem default?_spaced (clauses : List Clause) :
    default? (spaced (clauses.map Clause.text)) = (clauses.findSome? Clause.value?).map String.ofList := by
  have hsearch : ∀ before, (searchAfter (fun before here => if wordMayBegin before then defaultAfter here else none)
      before (spaced (clauses.map Clause.text))).map (·.1) = clauses.findSome? Clause.value? := by
    induction clauses with
    | nil =>
      intro before
      rw [List.map_nil, spaced, List.flatMap_nil, searchAfter]
      cases wordMayBegin before <;> rfl
    | cons clause rest ih =>
      intro before
      rw [List.map_cons, spaced_cons, List.findSome?_cons]
      cases hvalue : clause.value? with
      | none =>
        rw [← List.cons_append, searchAfter_append fun c hc before more => by
          rw [defaultAfter_of_mem hvalue hc, ite_self], ih]
      | some value =>
        have hspace : ∀ c ∈ (spaced (rest.map Clause.text)).head?, c = ' ' := fun c hc => head?_spaced hc
        have hread := defaultAfter_text hvalue hspace
        rw [searchAfter_cons, defaultAfter_cons (by decide), ite_self, Option.none_or,
          searchAfter_of_eq_some ((if_pos rfl).trans hread)]
        rfl
  rw [default?_eq, searchWord, search]
  have hfound := congrArg (Option.map String.ofList) (hsearch none)
  rwa [Option.map_map] at hfound

/-- No clause refers to a table. -/
theorem reference?_spaced (name : String) (clauses : List Clause) (rest : List Char) :
    reference? name (upper (withoutLiterals (spaced (clauses.map Clause.text)))) rest = .plain none := by
  have hnone : hasPart "REFERENCES".toList (upper (withoutLiterals (spaced (clauses.map Clause.text)))) ≠ true := by
    rw [withoutLiterals_spaced, upper_spaced]
    intro hpart
    have hmem : 'C' ∈ "REFERENCES".toList := by decide
    exact absurd (mem_spaced_masked (subset_of_hasPart hpart hmem)) (by decide)
  rw [reference?, if_neg hnone]

end ColumnDefinition
end SchemaSketch
