import SchemaSketch.Proofs.Table.Lines
import SchemaSketch.Proofs.Table.Origin
import SchemaSketch.Proofs.Table.Types
import SchemaSketch.Proofs.Text.Capitals
import SchemaSketch.Proofs.Text.Covers
import SchemaSketch.Proofs.Text.Marks
import SchemaSketch.Proofs.Text.Narrow

/-!
# Parameters and brackets of a type

The type of a column is read as words, perhaps parameters in parentheses, and pairs of brackets, with blanks in front of
each and blanks in the brackets (`TypeText`). It is recorded with its blanks squeezed. Its field type is then looked up
by the words alone: the parameters are struck out, and so is every `[]`.

A pair with blanks in it has one left when it is recorded, `[ ]`, and that is not struck out. So a type has the field
type of its words, in letters of either case, unless there is such a pair; with one the base is unknown, and the field
type is text (`ColumnType.fieldType_of_words`).
-/

namespace SchemaSketch

open Text Pattern

/-! ## Types -/

namespace ColumnDefinition

/-- The words of a type. -/
def typeWords : Pattern := one isTypeStart >> many isWord >> optional typeContinuation

/-- A pair of brackets behind a type. -/
def brackets : Pattern := blanks >> char '[' >> blanks >> char ']'

theorem columnType_eq_typeWords :
    columnType = (typeWords >> optional (blanks >> ColumnType.parameters) >> star brackets) := by
  rw [typeWords, andThen_assoc, andThen_assoc]
  rfl

/-- The words of a type have no parenthesis and no bracket among them. -/
theorem clear_typeWords : Clear ['(', '['] typeWords := by
  have hzone : Clear ['(', '['] (blanks1 >> phrase ["time", "zone"]) :=
    (clear_many1 (by decide)).andThen (clear_phrase (by decide) (by decide))
  have hcontinuation : Clear ['(', '['] typeContinuation :=
    (clear_many1 (by decide)).andThen <| (clear_keyword (by decide)).orElse <| (clear_keyword (by decide)).orElse <|
      ((clear_keyword (by decide)).andThen hzone).orElse ((clear_keyword (by decide)).andThen hzone)
  exact (clear_one (by decide)).andThen ((clear_many (by decide)).andThen hcontinuation.optional)

/-- The words of a type begin and end in ink. -/
theorem ink_of_covers_typeWords {text : List Char} (h : Covers typeWords text) :
    (∃ c rest, text = c :: rest ∧ isBlank c = false) ∧ EndsInInk text := by
  obtain ⟨first, rest, rfl, hfirst, hrest⟩ := h.andThen
  obtain ⟨run, continuation, rfl, hrun, hcontinuation⟩ := hrest.andThen
  obtain ⟨c, rfl, hc⟩ := hfirst.one
  have hink : isBlank c = false := by
    by_contra hblank
    have hstart : isTypeStart c = false :=
      of_isBlank (motive := fun c => isTypeStart c = false) (by decide +kernel) (by simpa using hblank)
    rw [hstart] at hc
    cases hc
  refine ⟨⟨c, _, rfl, hink⟩, ?_⟩
  have hkeyword : ∀ {w : String} {text : List Char}, (w.toList.all Char.isLower && !w.toList.isEmpty) = true →
      Covers (keyword w) text → EndsInInk text := by
    intro w text hw h
    obtain ⟨hlower, hne⟩ := Bool.and_eq_true_iff.1 hw
    obtain ⟨hlength, hword⟩ := h.letters (List.all_eq_true.1 hlower)
    refine endsInInk_of_forall (fun hnil => ?_) fun c hc => isBlank_of_isWord (hword c hc)
    rw [hnil, List.length_nil] at hlength
    rw [List.eq_nil_of_length_eq_zero hlength.symm] at hne
    cases hne
  -- the last word of a phrase ends the type
  have hzone : ∀ {w : String} {text : List Char}, Covers (keyword w >> blanks1 >> phrase ["time", "zone"]) text →
      EndsInInk text := by
    intro w text h
    obtain ⟨_, rest, rfl, -, h⟩ := h.andThen
    obtain ⟨_, rest, rfl, -, h⟩ := h.andThen
    obtain ⟨_, rest, rfl, -, h⟩ := Covers.andThen (q := blanks1 >> phrase ["zone"]) h
    obtain ⟨_, rest, rfl, -, h⟩ := h.andThen
    exact (((hkeyword (by decide) h).append _).append _ |>.append _).append _
  rcases hcontinuation.optional with rfl | h
  · rw [List.append_nil]
    refine endsInInk_of_forall (List.cons_ne_nil _ _) (List.forall_mem_cons.2 ⟨hink, fun d hd => ?_⟩)
    exact isBlank_of_isWord (hrun.many d hd)
  · obtain ⟨_, last, rfl, -, hlast⟩ := h.andThen
    refine EndsInInk.append (EndsInInk.append (EndsInInk.append ?_ _) _) _
    rcases hlast.orElse with h | h
    · exact hkeyword (by decide) h
    rcases h.orElse with h | h
    · exact hkeyword (by decide) h
    exact h.orElse.elim hzone hzone

end ColumnDefinition

/-- A type as it is written. -/
structure TypeText where
  /-- its words -/
  words : List Char
  /-- its parameters: the blanks in front of the parenthesis, and what is in it -/
  parameters : Option (List Char × List Char)
  /-- its pairs of brackets: the blanks in front of each, and those in it -/
  pairs : List (List Char × List Char)

namespace TypeText

/-- A text between two marks, with blanks in front. -/
def between (opening closing : Char) (part : List Char × List Char) : List Char :=
  part.1 ++ opening :: (part.2 ++ [closing])

/-- The characters of the type. -/
def text (t : TypeText) : List Char :=
  t.words ++ (t.parameters.toList.flatMap (between '(' ')') ++ t.pairs.flatMap (between '[' ']'))

/-- Whether a pair of brackets has blanks in it. -/
def HasGap (t : TypeText) : Prop := ∃ pair ∈ t.pairs, pair.2 ≠ []

instance (t : TypeText) : Decidable t.HasGap := inferInstanceAs (Decidable (∃ pair ∈ t.pairs, _))

/-- A type as it is read: words of a type, parameters up to the first parenthesis that closes, and nothing but blanks
elsewhere. -/
structure IsType (t : TypeText) : Prop where
  words : Covers ColumnDefinition.typeWords t.words
  parameters : ∀ part ∈ t.parameters, Blank part.1 ∧ ')' ∉ part.2
  pairs : ∀ pair ∈ t.pairs, Blank pair.1 ∧ Blank pair.2

/-- What striking out asks of a type: no parenthesis and no bracket among its words. -/
structure Formed (t : TypeText) : Prop where
  words : ∀ c ∈ t.words, c ∉ ['(', '[']
  parameters : ∀ part ∈ t.parameters, Blank part.1 ∧ ')' ∉ part.2
  pairs : ∀ pair ∈ t.pairs, Blank pair.1 ∧ Blank pair.2

theorem IsType.formed {t : TypeText} (h : t.IsType) : t.Formed where
  words := by
    obtain ⟨cs, n, hn, hwords⟩ := h.words
    exact hwords ▸ ColumnDefinition.clear_typeWords cs n hn
  parameters := h.parameters
  pairs := h.pairs

theorem exists_between {opening closing : Char} {p : Pattern} {text : List Char}
    (h : Covers (blanks >> char opening >> p >> char closing) text) :
    ∃ part, text = between opening closing part ∧ Blank part.1 ∧ Covers p part.2 := by
  obtain ⟨gap, _, rfl, hgap, h⟩ := h.andThen
  obtain ⟨_, _, rfl, hopening, h⟩ := h.andThen
  obtain ⟨inner, _, rfl, hinner, hclosing⟩ := h.andThen
  refine ⟨(gap, inner), ?_, hgap.many, hinner⟩
  rw [hopening.char, hclosing.char]
  rfl

theorem exists_pairs {parts : List (List Char)} (h : ∀ part ∈ parts, Covers ColumnDefinition.brackets part) :
    ∃ pairs : List (List Char × List Char), parts.flatten = pairs.flatMap (between '[' ']') ∧
      ∀ pair ∈ pairs, Blank pair.1 ∧ Blank pair.2 := by
  induction parts with
  | nil => exact ⟨[], rfl, nofun⟩
  | cons part parts ih =>
    obtain ⟨hpart, hparts⟩ := List.forall_mem_cons.1 h
    obtain ⟨pair, rfl, hgap, hinner⟩ := exists_between hpart
    obtain ⟨pairs, hpairs, hblank⟩ := ih hparts
    exact ⟨pair :: pairs, by rw [List.flatten_cons, hpairs, List.flatMap_cons],
      List.forall_mem_cons.2 ⟨⟨hgap, hinner.many⟩, hblank⟩⟩

/-- **A type that is read** is words, perhaps parameters, and pairs of brackets. -/
theorem exists_of_columnType {type : List Char} (h : Covers ColumnDefinition.columnType type) :
    ∃ t : TypeText, t.text = type ∧ t.IsType := by
  rw [ColumnDefinition.columnType_eq_typeWords] at h
  obtain ⟨words, _, rfl, hwords, h⟩ := h.andThen
  obtain ⟨enclosed, _, rfl, henclosed, hpairs⟩ := h.andThen
  obtain ⟨parameters, rfl, hparameters⟩ : ∃ parameters : Option (List Char × List Char),
      enclosed = parameters.toList.flatMap (between '(' ')') ∧ ∀ part ∈ parameters, Blank part.1 ∧ ')' ∉ part.2 := by
    rcases henclosed.optional with rfl | h
    · exact ⟨none, rfl, nofun⟩
    · obtain ⟨part, rfl, hblank, hinner⟩ := exists_between h
      refine ⟨some part, (List.append_nil _).symm, ?_⟩
      rintro _ ⟨⟩
      exact ⟨hblank, fun hmem => absurd (hinner.many _ hmem) (by decide)⟩
  obtain ⟨parts, rfl, hparts⟩ := hpairs.star
  obtain ⟨pairs, hpairs, hblank⟩ := exists_pairs hparts
  exact ⟨⟨words, parameters, pairs⟩, by rw [text, hpairs], ⟨hwords, hparameters, hblank⟩⟩

/-! ## Recorded types -/

/-- The type with its blanks narrowed. -/
def narrowed (t : TypeText) : TypeText where
  words := narrow t.words
  parameters := t.parameters.map (Prod.map narrow narrow)
  pairs := t.pairs.map (Prod.map narrow narrow)

theorem endsInInk_between {opening closing : Char} (hclosing : isBlank closing = false) (part : List Char × List Char) :
    EndsInInk (between opening closing part) :=
  ⟨part.1 ++ opening :: part.2, closing, by rw [between, List.append_assoc, List.cons_append], hclosing⟩

theorem narrow_between {opening closing : Char} (hopening : isBlank opening = false)
    (hclosing : isBlank closing = false) (part : List Char × List Char) :
    narrow (between opening closing part) = between opening closing (Prod.map narrow narrow part) := by
  rw [between, narrow, narrowFrom_append_ink hopening, narrow, narrowFrom_append_ink hclosing]
  rfl

theorem narrow_flatMap_between {opening closing : Char} (hopening : isBlank opening = false)
    (hclosing : isBlank closing = false) (parts : List (List Char × List Char)) :
    narrow (parts.flatMap (between opening closing))
      = (parts.map (Prod.map narrow narrow)).flatMap (between opening closing) := by
  induction parts with
  | nil => rfl
  | cons part parts ih =>
    rw [List.flatMap_cons, (endsInInk_between hclosing part).narrow_append, narrow_between hopening hclosing, ih]
    rfl

/-- **A recorded type** has its blanks narrowed. -/
theorem squeeze_text (t : TypeText) (hwords : Covers ColumnDefinition.typeWords t.words) :
    squeeze t.text = t.narrowed.text ∧ Text.words t.narrowed.words = Text.words t.words := by
  obtain ⟨⟨c, rest, hcons, hink⟩, hends⟩ := ColumnDefinition.ink_of_covers_typeWords hwords
  have hself : Text.words (narrow t.words) = Text.words t.words := by
    rw [hcons] at hends ⊢
    exact (hends.squeeze_eq hink).2
  refine ⟨?_, hself⟩
  have hflat : ∀ {front : List Char} {opening closing : Char}, EndsInInk front → isBlank closing = false →
      ∀ parts : List (List Char × List Char), EndsInInk (front ++ parts.flatMap (between opening closing)) := by
    intro front opening closing hfront hclosing parts
    rcases List.eq_nil_or_concat parts with rfl | ⟨parts, part, rfl⟩
    · rwa [List.flatMap_nil, List.append_nil]
    · rw [List.concat_eq_append, List.flatMap_append, List.flatMap_singleton]
      exact ((endsInInk_between hclosing part).append _).append _
  have htext : EndsInInk t.text := by
    rw [text, ← List.append_assoc]
    exact hflat (hflat hends (by decide) _) (by decide) _
  have hnarrow : squeeze t.text = narrow t.text := by
    have hfront : t.text = c :: (rest ++ (t.parameters.toList.flatMap (between '(' ')') ++
        t.pairs.flatMap (between '[' ']'))) := by rw [text, hcons]; rfl
    rw [hfront] at htext ⊢
    exact (htext.squeeze_eq hink).1
  have hparameters : EndsInInk (t.words ++ t.parameters.toList.flatMap (between '(' ')')) := hflat hends (by decide) _
  have hsplit : narrow t.text = narrow t.words ++ (narrow (t.parameters.toList.flatMap (between '(' ')')) ++
      narrow (t.pairs.flatMap (between '[' ']'))) := by
    rw [text, ← List.append_assoc, hparameters.narrow_append, hends.narrow_append, List.append_assoc]
  rw [hnarrow, hsplit, narrow_flatMap_between (by decide) (by decide), narrow_flatMap_between (by decide) (by decide),
    text, narrowed, Option.toList_map]

theorem Formed.narrowed {t : TypeText} (h : t.Formed) : t.narrowed.Formed where
  words c hc hmark := by
    have hink : ∀ c ∈ ['(', '['], isBlank c = false := List.forall_mem_cons.2 ⟨rfl, List.forall_mem_singleton.2 rfl⟩
    exact h.words c (mem_narrowFrom (hink c hmark) hc) hmark
  parameters part hpart := by
    obtain ⟨whole, hwhole, rfl⟩ := Option.map_eq_some_iff.1 hpart
    obtain ⟨hblank, hinner⟩ := h.parameters whole hwhole
    exact ⟨blank_narrow hblank, fun hmem => hinner (mem_narrowFrom (by decide) hmem)⟩
  pairs pair hpair := by
    obtain ⟨whole, hwhole, rfl⟩ := List.mem_map.1 hpair
    obtain ⟨hblank, hinner⟩ := h.pairs whole hwhole
    exact ⟨blank_narrow hblank, blank_narrow hinner⟩

/-- A gap in brackets is narrowed and does not vanish. -/
theorem hasGap_narrowed {t : TypeText} : t.narrowed.HasGap ↔ t.HasGap := by
  constructor
  · rintro ⟨_, hpair, hgap⟩
    obtain ⟨whole, hwhole, rfl⟩ := List.mem_map.1 hpair
    refine ⟨whole, hwhole, fun hnil => hgap ?_⟩
    rw [Prod.map_snd, hnil]
    rfl
  · rintro ⟨pair, hpair, hgap⟩
    exact ⟨_, List.mem_map_of_mem hpair, narrow_ne_nil hgap⟩

/-! ## What is struck out of a type -/

theorem parameters_cons {c : Char} (hc : c ≠ '(') (rest : List Char) : ColumnType.parameters (c :: rest) = none :=
  andThen_eq_none (char_cons_of_ne hc rest)

theorem emptyBrackets_cons {c : Char} (hc : c ≠ '[') (rest : List Char) : exactly ['[', ']'] (c :: rest) = none :=
  andThen_eq_none (char_cons_of_ne hc rest)

theorem ne_of_isBlank {c mark : Char} (hmark : isBlank mark = false) (hc : isBlank c = true) : c ≠ mark := by
  rintro rfl
  rw [hmark] at hc
  cases hc

/-- The parameters are struck out. -/
theorem replaceAll_parameters {t : TypeText} (h : t.Formed) :
    replaceAll ColumnType.parameters [' '] t.text =
      t.words ++ (t.parameters.toList.flatMap (·.1 ++ [' ']) ++ t.pairs.flatMap (between '[' ']')) := by
  have hwords : ∀ c ∈ t.words, ∀ rest, ColumnType.parameters (c :: rest) = none := fun c hc =>
    parameters_cons fun heq => h.words c hc (heq ▸ List.mem_cons_self ..)
  have hpairs : replaceAll ColumnType.parameters [' '] (t.pairs.flatMap (between '[' ']')) =
      t.pairs.flatMap (between '[' ']') := by
    have hnone : ∀ c ∈ t.pairs.flatMap (between '[' ']'), ∀ rest, ColumnType.parameters (c :: rest) = none := by
      intro c hc
      obtain ⟨pair, hpair, hc⟩ := List.mem_flatMap.1 hc
      obtain ⟨hgap, hinner⟩ := h.pairs pair hpair
      refine parameters_cons ?_
      simp only [between, List.mem_append, List.mem_cons, List.not_mem_nil, or_false] at hc
      rcases hc with hc | rfl | hc | rfl
      · exact ne_of_isBlank (by decide) (hgap c hc)
      · decide
      · exact ne_of_isBlank (by decide) (hinner c hc)
      · decide
    exact replaceAll_eq_self hnone
  rw [text, Pattern.replaceAll_append hwords]
  cases hparameters : t.parameters with
  | none => exact congrArg (t.words ++ ·) hpairs
  | some part =>
    obtain ⟨hgap, hinner⟩ := h.parameters part hparameters
    have hblank : ∀ c ∈ part.1, ∀ rest, ColumnType.parameters (c :: rest) = none := fun c hc =>
      parameters_cons (ne_of_isBlank (by decide) (hgap c hc))
    have hfree : ∀ c ∈ part.2, (c != ')') = true := fun c hc => bne_iff_ne.2 fun heq => hinner (heq ▸ hc)
    have hcovered := ColumnType.parameters_append hfree (t.pairs.flatMap (between '[' ']'))
    rw [Option.toList_some, List.flatMap_singleton, List.flatMap_singleton, between, List.append_assoc,
      Pattern.replaceAll_append hblank, replaceAll_covered (List.cons_ne_nil _ _) hcovered, hpairs, List.append_assoc]

/-- What is left of a pair of brackets. -/
def remainder (pair : List Char × List Char) : List Char :=
  pair.1 ++ if pair.2 = [] then [' '] else '[' :: (pair.2 ++ [']'])

/-- Of the pairs of brackets those without a gap are struck out. -/
theorem replaceAll_brackets {t : TypeText} (h : t.Formed) :
    replaceAll (exactly ['[', ']']) [' ']
        (t.words ++ (t.parameters.toList.flatMap (·.1 ++ [' ']) ++ t.pairs.flatMap (between '[' ']'))) =
      t.words ++ (t.parameters.toList.flatMap (·.1 ++ [' ']) ++ t.pairs.flatMap remainder) := by
  have hblank : ∀ {cs : List Char}, Blank cs → ∀ c ∈ cs, ∀ rest, exactly ['[', ']'] (c :: rest) = none :=
    fun hcs c hc => emptyBrackets_cons (ne_of_isBlank (by decide) (hcs c hc))
  have hpairs : ∀ {pairs : List (List Char × List Char)}, (∀ pair ∈ pairs, Blank pair.1 ∧ Blank pair.2) →
      replaceAll (exactly ['[', ']']) [' '] (pairs.flatMap (between '[' ']')) = pairs.flatMap remainder := by
    intro pairs hpairs
    induction pairs with
    | nil => rfl
    | cons pair pairs ih =>
      obtain ⟨⟨hgap, hinner⟩, hpairs⟩ := List.forall_mem_cons.1 hpairs
      rw [List.flatMap_cons, List.flatMap_cons, between, remainder, List.append_assoc, List.append_assoc,
        Pattern.replaceAll_append (hblank hgap), ← ih hpairs]
      cases hempty : pair.2 with
      | nil =>
        rw [if_pos rfl]
        exact congrArg (pair.1 ++ ·) (replaceAll_covered (a := ['[', ']']) (List.cons_ne_nil _ _) rfl)
      | cons c rest =>
        -- a blank stands behind the bracket that opens
        rw [hempty] at hinner
        have hopen : exactly ['[', ']'] ('[' :: (c :: rest ++ [']'] ++ pairs.flatMap (between '[' ']'))) = none := by
          have hc : exactly [']'] (c :: rest ++ [']'] ++ pairs.flatMap (between '[' ']')) = none :=
            andThen_eq_none (char_cons_of_ne (ne_of_isBlank (by decide) (hinner c (List.mem_cons_self ..))) _)
          rw [exactly, andThen_of_eq_some (n := 1) rfl, List.drop_one, List.tail_cons, hc]
          rfl
        have hclosed : ∀ d ∈ c :: rest ++ [']'], ∀ rest, exactly ['[', ']'] (d :: rest) = none := by
          intro d hd
          rcases List.mem_append.1 hd with hd | hd
          · exact hblank hinner d hd
          · exact emptyBrackets_cons (by rw [List.mem_singleton.1 hd]; decide)
        rw [if_neg (List.cons_ne_nil _ _), List.cons_append, replaceAll_cons_of_none hopen,
          Pattern.replaceAll_append hclosed]
        rfl
  have hwords : ∀ c ∈ t.words, ∀ rest, exactly ['[', ']'] (c :: rest) = none := fun c hc =>
    emptyBrackets_cons fun heq => h.words c hc (heq ▸ List.mem_cons_of_mem _ (List.mem_cons_self ..))
  have hparameters : Blank (t.parameters.toList.flatMap (·.1 ++ [' '])) := by
    intro c hc
    obtain ⟨part, hpart, hc⟩ := List.mem_flatMap.1 hc
    rcases List.mem_append.1 hc with hc | hc
    · exact (h.parameters part (Option.mem_toList.1 hpart)).1 c hc
    · rw [List.mem_singleton.1 hc]
      rfl
  rw [Pattern.replaceAll_append hwords, Pattern.replaceAll_append (hblank hparameters), hpairs h.pairs]

/-! ## The field type -/

theorem base_eq {t : TypeText} (h : t.Formed) : ColumnType.base t.text =
    squeeze (upper (t.words ++ (t.parameters.toList.flatMap (·.1 ++ [' ']) ++ t.pairs.flatMap remainder))) := by
  rw [ColumnType.base, replaceAll_parameters h, replaceAll_brackets h]

/-- Without gaps in brackets nothing but the words is left. -/
theorem base_of_not_hasGap {t : TypeText} (h : t.Formed) (hgap : ¬ t.HasGap) :
    ColumnType.base t.text = squeeze (upper t.words) := by
  have hrest : Blank (t.parameters.toList.flatMap (·.1 ++ [' ']) ++ t.pairs.flatMap remainder) := by
    intro c hc
    rcases List.mem_append.1 hc with hc | hc
    · obtain ⟨part, hpart, hc⟩ := List.mem_flatMap.1 hc
      rcases List.mem_append.1 hc with hc | hc
      · exact (h.parameters part (Option.mem_toList.1 hpart)).1 c hc
      · rw [List.mem_singleton.1 hc]
        rfl
    · obtain ⟨pair, hpair, hc⟩ := List.mem_flatMap.1 hc
      have hempty : pair.2 = [] := by_contra fun hne => hgap ⟨pair, hpair, hne⟩
      rw [remainder, if_pos hempty] at hc
      rcases List.mem_append.1 hc with hc | hc
      · exact (h.pairs pair hpair).1 c hc
      · rw [List.mem_singleton.1 hc]
        rfl
  have hwords : Text.words (t.words ++ (t.parameters.toList.flatMap (·.1 ++ [' ']) ++ t.pairs.flatMap remainder)) =
      Text.words t.words := runsFrom_append_blank hrest [] t.words
  rw [base_eq h, squeeze, squeeze, words_upper, words_upper, hwords]

/-- With a gap in brackets they are left, and no known type has any. -/
theorem fieldType_of_hasGap {t : TypeText} (h : t.Formed) (hgap : t.HasGap) :
    ColumnType.fieldType t.text = .string := by
  have hbracket : '[' ∈ ColumnType.base t.text := by
    obtain ⟨pair, hpair, hgap⟩ := hgap
    have hremainder : '[' ∈ remainder pair := by
      rw [remainder, if_neg hgap]
      exact List.mem_append_right _ (List.mem_cons_self ..)
    have hleft : '[' ∈ upper (t.words ++ (t.parameters.toList.flatMap (·.1 ++ [' ']) ++ t.pairs.flatMap remainder)) :=
      List.mem_flatMap.2 ⟨'[', List.mem_append_right _ (List.mem_append_right _ (List.mem_flatMap.2
        ⟨pair, hpair, hremainder⟩)), List.mem_singleton.2 rfl⟩
    have hinked : '[' ∈ inked (squeeze (upper (t.words ++
        (t.parameters.toList.flatMap (·.1 ++ [' ']) ++ t.pairs.flatMap remainder)))) := by
      rw [inked_squeeze]
      exact List.mem_filter.2 ⟨hleft, rfl⟩
    rw [base_eq h]
    exact (List.mem_filter.1 hinked).1
  refine ColumnType.fieldType_of_unknown fun entry hentry heq => ?_
  have hknown : ∀ entry ∈ ColumnType.known, '[' ∉ entry.1.toList := by decide
  exact hknown entry hentry (heq ▸ hbracket)

/-- The base of words is the words in capitals, and so it is for whatever has the same capitals. -/
theorem base_of_upper_eq {ws other : List Char} (hws : ∀ c ∈ ws, c ∉ ['(', '[']) (h : upper other = upper ws) :
    ColumnType.base other = squeeze (upper ws) := by
  have hother : ∀ mark ∈ ['(', '['], mark ∉ other := by
    intro mark hmark hmem
    have huncased : isUncased mark = true ∧ capitalForm mark = [mark] := by
      simp only [List.mem_cons, List.not_mem_nil, or_false] at hmark
      rcases hmark with rfl | rfl <;> exact ⟨by decide +kernel, rfl⟩
    have hcapital : mark ∈ upper ws :=
      h ▸ List.mem_flatMap.2 ⟨mark, hmem, huncased.2 ▸ List.mem_singleton.2 rfl⟩
    obtain ⟨c, hc, hform⟩ := List.mem_flatMap.1 hcapital
    by_cases heq : c = mark
    · exact hws c hc (heq ▸ hmark)
    · exact not_mem_capitalForm huncased.1 heq hform
  have hparameters : replaceAll ColumnType.parameters [' '] other = other :=
    replaceAll_eq_self fun c hc => parameters_cons fun heq => hother '(' (List.mem_cons_self ..) (heq ▸ hc)
  have hbrackets : replaceAll (exactly ['[', ']']) [' '] other = other :=
    replaceAll_eq_self fun c hc => emptyBrackets_cons fun heq =>
      hother '[' (List.mem_cons_of_mem _ (List.mem_cons_self ..)) (heq ▸ hc)
  rw [ColumnType.base, hparameters, hbrackets, h]

/-- **The field type of a recorded type** is that of its words, in letters of either case, unless a pair of brackets
has a gap. -/
theorem fieldType_squeeze_text {t : TypeText} (htype : t.IsType) {other : List Char}
    (hother : upper other = upper t.words) :
    ColumnType.fieldType (squeeze t.text) = if t.HasGap then .string else ColumnType.fieldType other := by
  have h : t.Formed := htype.formed
  obtain ⟨hsqueeze, hself⟩ := t.squeeze_text htype.words
  rw [hsqueeze]
  split
  · next hgap => exact fieldType_of_hasGap h.narrowed (hasGap_narrowed.2 hgap)
  · next hgap =>
    rw [ColumnType.fieldType, base_of_not_hasGap h.narrowed (mt hasGap_narrowed.1 hgap), ColumnType.fieldType,
      base_of_upper_eq h.words hother, squeeze, squeeze, words_upper, words_upper, hself]

end TypeText

namespace ColumnType

/-- The type that is read stands for itself in the heading of a column. -/
theorem covers_of_heading {entry name type rest : List Char}
    (h : ColumnDefinition.heading entry = some ((name, type), rest)) : Covers ColumnDefinition.columnType type := by
  obtain ⟨_, _, -, hbehind⟩ := Reader.bind_eq_some.1 h
  obtain ⟨_, _, -, htyped⟩ := Reader.bind_eq_some.1 hbehind
  obtain ⟨_, _, htype, hpure⟩ := Reader.bind_eq_some.1 htyped
  cases hpure
  obtain ⟨n, hn, htaken⟩ := Option.map_eq_some_iff.1 htype
  cases htaken
  exact covers_of_eq_some hn

/-- **Parameters and brackets do not change the field type** of a column that is read, but for brackets with a gap:
these make it text. -/
theorem fieldType_of_words {table : String} {entry : List Char} {c : Column}
    (h : Definition.of? table entry = .ok (.column c)) :
    (∃ (name : List Char) (t : TypeText) (rest : List Char), t.IsType ∧
        ColumnDefinition.heading entry = some ((name, t.text), rest) ∧ c.type = String.ofList (squeeze t.text)) ∧
      ∀ {t : TypeText}, t.IsType → ∀ {words : List Char}, upper words = upper t.words →
        fieldType (squeeze t.text) = if t.HasGap then .string else fieldType words := by
  refine ⟨?_, fun htype _ hwords => TypeText.fieldType_squeeze_text htype hwords⟩
  obtain ⟨notes, hread⟩ := Definition.of?_eq_ok.1 h
  obtain ⟨name, type, rest, hheading, notes, hcolumn⟩ := Definition.exists_of_read_column hread
  obtain ⟨t, rfl, htype⟩ := TypeText.exists_of_columnType (covers_of_heading hheading)
  refine ⟨name, t, rest, htype, hheading, ?_⟩
  obtain ⟨length, -, hc⟩ := Except.map_eq_ok.1 hcolumn
  exact (congrArg (·.value.type) hc).symm

/-- An array of numbers with a width. -/
def intArray : TypeText := ⟨"int".toList, some ([' '], "10".toList), [([], []), ([' '], [])]⟩

theorem fieldType_of_words_intArray :
    fieldType (squeeze intArray.text) = fieldType "INT".toList ∧ fieldType "INT".toList = .integer ∧
      ∃ (name : List Char) (t : TypeText) (rest : List Char), t.IsType ∧
        ColumnDefinition.heading "a int (10)[] []".toList = some ((name, t.text), rest) ∧
        "int (10)[] []" = String.ofList (squeeze t.text) := by
  have htype : intArray.IsType := by
    refine ⟨⟨"int".toList, 3, rfl, rfl⟩, ?_, ?_⟩
    · rintro _ ⟨⟩
      exact ⟨List.forall_mem_singleton.2 rfl, by decide⟩
    · have hspace : Blank [' '] ∧ Blank [] := ⟨List.forall_mem_singleton.2 rfl, nofun⟩
      exact List.forall_mem_cons.2 ⟨⟨nofun, nofun⟩, List.forall_mem_singleton.2 hspace⟩
  have hcase : upper "INT".toList = upper intArray.words := by decide +kernel
  have hread : Definition.of? "t" "a int (10)[] []".toList =
      .ok (.column ⟨"a", "int (10)[] []", true, false, false, none, some 10, none⟩) := by decide +kernel
  exact ⟨((fieldType_of_words hread).2 htype hcase).trans (if_neg (by decide)), by decide +kernel,
    (fieldType_of_words hread).1⟩

/-- A column of numbers in an array with a gap in its brackets is text. -/
theorem not_fieldType_of_words_gap :
    Definition.of? "t" "a INT[ ]".toList = .ok (.column ⟨"a", "INT[ ]", true, false, false, none, none, none⟩) ∧
      fieldType "INT[ ]".toList = .string ∧ fieldType "INT".toList = .integer := by
  decide +kernel

end ColumnType

end SchemaSketch
