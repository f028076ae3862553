import SchemaSketch.Proofs.Text.Cased

/-!
# Blanks in front of a parenthesis

Whether blanks stand in front of a parenthesis makes no difference to most searches. A pattern of words sees neither
the blanks nor the parenthesis (`Pattern.Severed`), so it stands in a text with blanks where it stands in the text
without (`Text.hasWord_gap`); and what a reader finds is the same if it reads the same at each place in front
(`Text.searchWord_gap`).
-/

namespace SchemaSketch

open Text Pattern

/-! ## Patterns -/

namespace Pattern

/-- A pattern to which it does not matter what follows the blanks in front of a parenthesis. -/
def Severed (p : Pattern) : Prop := ∀ gap b, Blank gap → ∀ cs, p (cs ++ (gap ++ '(' :: b)) = p cs

variable {gap : List Char} (hgap : Blank gap) (b : List Char)

include hgap

theorem wordEnds_gap : wordEnds (gap ++ '(' :: b) = true := by
  cases gap with
  | nil => rfl
  | cons c gap =>
    rw [List.cons_append, wordEnds, isWord_of_isBlank (hgap c (List.mem_cons_self ..))]
    rfl

theorem dropWhile_gap : (gap ++ '(' :: b).dropWhile isBlank = '(' :: b := by
  rw [List.dropWhile_append_of_pos hgap, List.dropWhile_cons_of_neg (by decide)]

omit hgap

theorem severed_keyword {k : String} (hk : isKeyword k = true) : Severed (keyword k) := fun _ b hgap cs =>
  keyword_append hk cs (wordEnds_gap hgap b)

theorem severed_wholeWord {k : String} (hk : isKeyword k = true) : Severed (wholeWord k) := fun _ b hgap cs =>
  wholeWord_append_tail hk cs (wordEnds_gap hgap b)

/-- A keyword is more than nothing. -/
theorem keyword_eq_none {k : String} (hk : isKeyword k = true) {mark : Char} (hmark : isWord mark = false)
    (rest : List Char) : keyword k [] = none ∧ keyword k (mark :: rest) = none := by
  have hnil : keyword k [] = none := by
    rw [isKeyword, Bool.and_eq_true] at hk
    rw [keyword]
    cases hletters : k.toList with
    | nil =>
      rw [hletters] at hk
      cases hk.1
    | cons l ls => rfl
  have hends : wordEnds (mark :: rest) = true := by rw [wordEnds, hmark]; rfl
  exact ⟨hnil, (keyword_append hk [] hends).trans hnil⟩

/-- A phrase is more than nothing, and begins with a letter. -/
theorem phrase_eq_none_of_mark {k : String} {ks : List String} (hk : isKeyword k = true) {mark : Char}
    (hmark : isWord mark = false) (rest : List Char) :
    phrase (k :: ks) [] = none ∧ phrase (k :: ks) (mark :: rest) = none := by
  obtain ⟨hnil, hcons⟩ := keyword_eq_none hk hmark rest
  cases ks with
  | nil => exact ⟨hnil, hcons⟩
  | cons l ks => exact ⟨andThen_eq_none hnil, andThen_eq_none hcons⟩

theorem severed_phrase {ks : List String} (hks : ks.all isKeyword = true) : Severed (phrase ks) := by
  intro gap b hgap
  induction ks with
  | nil => exact fun _ => rfl
  | cons k ks ih =>
    obtain ⟨hk, hks⟩ := Bool.and_eq_true_iff.1 hks
    cases ks with
    | nil => exact severed_keyword hk gap b hgap
    | cons l ks =>
      intro cs
      change (keyword k >> (blanks1 >> phrase (l :: ks))) _ = (keyword k >> (blanks1 >> phrase (l :: ks))) _
      rw [andThen_apply, andThen_apply, severed_keyword hk gap b hgap]
      refine Option.bind_congr fun n hn => congrArg (Option.map (n + ·)) ?_
      obtain ⟨hnil, hmark⟩ : phrase (l :: ks) [] = none ∧ phrase (l :: ks) ('(' :: b) = none :=
        phrase_eq_none_of_mark (Bool.and_eq_true_iff.1 hks).1 (by decide) b
      rw [List.drop_append_of_le_length (length_le_of_letters hn)]
      refine blanks1_andThen_append hnil ?_ (ih hks _)
      rw [dropWhile_gap hgap b]
      exact hmark

theorem severed_capitals {ws : List String} (hws : ∀ w ∈ ws, w.toList ≠ [] ∧ w.toList.all isWord = true) :
    Severed (ColumnDefinition.capitals ws) := by
  intro gap b hgap cs
  refine ColumnDefinition.capitals_append hws (wordEnds_gap hgap b) (fun w hw hprefix => ?_) cs
  obtain ⟨hne, hword⟩ := hws w (List.mem_of_mem_tail hw)
  obtain ⟨c, rest, hcons⟩ := List.exists_cons_of_ne_nil hne
  rw [dropWhile_gap hgap b, hcons] at hprefix
  rw [hcons, (List.cons_prefix_cons.1 hprefix).1] at hword
  exact absurd (Bool.and_eq_true_iff.1 hword).1 (by decide)

end Pattern

/-! ## Searches -/

namespace Text

variable {gap : List Char} (hgap : Blank gap) (b : List Char)

include hgap

/-- **A pattern stands in a text with blanks where it stands in the text without.** -/
theorem hasWord_gap {p : Pattern} (hp : p.Severed) (hnil : p [] = none) (a : List Char) :
    hasWord p (a ++ (gap ++ '(' :: b)) = (hasWord p a || hasWord p b) := by
  have hmark : ∀ cs, p (cs ++ '(' :: b) = p cs := hp [] b (List.forall_mem_nil _)
  have hblank : ∀ {gap : List Char}, Blank gap → ∀ cs, p (cs ++ gap) = p cs := fun {gap} hgap cs => by
    rw [← hmark (cs ++ gap), List.append_assoc, hp gap b hgap]
  have hgone : ∀ before, hasWordAfter p before gap = false := by
    induction gap with
    | nil => exact fun before => hasWordAfter_eq_false hnil (List.forall_mem_nil _) before
    | cons c gap ih =>
      intro before
      rw [hasWordAfter, fits, ← List.nil_append (c :: gap), hblank hgap, hnil,
        ih (List.forall_mem_of_forall_mem_cons hgap)]
      exact (Bool.or_false _).trans (Bool.and_false _)
  have hfront : hasWordAfter p none (a ++ gap) = hasWordAfter p none a := by
    cases gap with
    | nil => rw [List.append_nil]
    | cons c gap =>
      have hrest := hgone none
      rw [hasWordAfter, Bool.or_eq_false_iff] at hrest
      rw [hasWordAfter_append (hblank hgap), hrest.2, Bool.or_false]
  have hbehind : hasWordAfter p (some '(') b = hasWordAfter p none b :=
    hasWordAfter_congr (show wordMayBegin (some '(') = wordMayBegin none from rfl) p b
  rw [hasWord_eq, hasWord_eq, hasWord_eq, ← List.append_assoc, hasWordAfter_append hmark, hfront, hbehind]

/-- A word stands in front of the gap or behind it. -/
theorem hasPart_gap {part : List Char} (hne : part ≠ []) (hpart : ∀ c ∈ part, isWord c = true) (a : List Char) :
    hasPart part (a ++ (gap ++ '(' :: b)) = (hasPart part a || hasPart part b) := by
  have hnone : ∀ {c : Char}, isWord c = false → ∀ rest, hasPart part (c :: rest) = hasPart part rest := by
    intro c hc rest
    have hprefix : part.isPrefixOf (c :: rest) = false := by
      refine Bool.eq_false_iff.2 fun hprefix => hne ?_
      have hends : wordEnds (c :: rest) = true := by rw [wordEnds, hc]; rfl
      exact List.prefix_nil.1 <|
        (ColumnDefinition.prefix_append_iff hpart hends []).1 (List.isPrefixOf_iff_prefix.1 hprefix)
    rw [hasPart, hprefix, Bool.false_or]
  have hblank : hasPart part (gap ++ '(' :: b) = hasPart part b := by
    induction gap with
    | nil => exact hnone (by decide) b
    | cons c gap ih =>
      obtain ⟨hc, hrest⟩ := List.forall_mem_cons.1 hgap
      rw [List.cons_append, hnone (isWord_of_isBlank hc), ih hrest]
  induction a with
  | nil =>
    have hnil : hasPart part [] = false := by rw [hasPart, List.isEmpty_eq_false_iff.2 hne]
    rw [List.nil_append, hblank, hnil, Bool.false_or]
  | cons c a ih =>
    have hprefix : part.isPrefixOf (c :: a ++ (gap ++ '(' :: b)) = part.isPrefixOf (c :: a) := by
      rw [Bool.eq_iff_iff, List.isPrefixOf_iff_prefix, List.isPrefixOf_iff_prefix,
        ColumnDefinition.prefix_append_iff hpart (wordEnds_gap hgap b)]
    rw [List.cons_append, hasPart, hasPart, ← List.cons_append, hprefix, ih, Bool.or_assoc]

variable {α : Type} {r : Reader α}

/-- **A reader finds the same** if it reads the same in front of the gap, and nothing at it. -/
theorem searchWord_gap {a : List Char} (hr : ∀ v, v <:+ a → r (v ++ (gap ++ '(' :: b)) = r (v ++ '(' :: b))
    (hnone : ∀ gap, Blank gap → r (gap ++ '(' :: b) = none) :
    searchWord r (a ++ (gap ++ '(' :: b)) = searchWord r (a ++ '(' :: b) := by
  have hblank : ∀ {gap : List Char}, Blank gap → ∀ before,
      searchAfter (fun before here => if wordMayBegin before then r here else none) before (gap ++ '(' :: b) =
        searchAfter (fun before here => if wordMayBegin before then r here else none) (some '(') b := by
    intro gap hgap
    induction gap with
    | nil =>
      intro before
      rw [List.nil_append, searchAfter_cons, ← List.nil_append ('(' :: b), hnone [] (List.forall_mem_nil _), ite_self,
        Option.none_or]
    | cons c gap ih =>
      intro before
      have hrest : Blank gap := fun d hd => hgap d (List.mem_cons_of_mem c hd)
      have hhere := hnone (c :: gap) hgap
      rw [List.cons_append] at hhere ⊢
      rw [searchAfter_cons, hhere, ite_self, Option.none_or, ih hrest]
  have hafter : ∀ before,
      searchAfter (fun before here => if wordMayBegin before then r here else none) before (a ++ (gap ++ '(' :: b)) =
        searchAfter (fun before here => if wordMayBegin before then r here else none) before (a ++ '(' :: b) := by
    induction a with
    | nil =>
      intro before
      exact (hblank hgap before).trans (hblank (List.forall_mem_nil _) before).symm
    | cons c a ih =>
      intro before
      have hhere := hr (c :: a) (List.suffix_refl _)
      rw [List.cons_append, List.cons_append] at hhere ⊢
      rw [searchAfter_cons, searchAfter_cons, hhere, ih fun v hv => hr v (hv.trans (List.suffix_cons c a))]
  exact hafter none

/-- A reader passes over a text that lacks its keyword, with blanks behind it or without. -/
theorem searchWord_gap_of_lacks {k : String} (hk : Pattern.isKeyword k = true) (hr : r.Begins k) {a : List Char}
    (ha : Lacks k a) : searchWord r (a ++ (gap ++ '(' :: b)) = searchWord r b := by
  have hlacks : Lacks k (a ++ gap) := by
    cases gap with
    | nil => rwa [List.append_nil]
    | cons c gap =>
      obtain ⟨hc, hrest⟩ := List.forall_mem_cons.1 hgap
      have hblank := (lacks_blank_append hk hrest []).2 (lacks_nil hk)
      rw [List.append_nil] at hblank
      exact (lacks_append hk (isWord_of_isBlank hc) a gap).2 ⟨ha, hblank⟩
  rw [← List.append_assoc, searchWord_append_of_lacks hk hr hlacks (by decide)]

end Text
end SchemaSketch
