import SchemaSketch.Proofs.Sql.RegularStatements
import SchemaSketch.Proofs.Text.Narrow

/-!
# Items of a list in a script

What is written between the commas of a list is read back as it is if it is a phrase of the script, an entry of the list
and narrow (`Text.IsItem`). Items may be put together from words, numbers and other items. A list is written with one
item on each line, and squeezed to one line it lists the same items (`Text.squeeze_onLines`, `Statement.lists_onOneLine`).
-/

namespace SchemaSketch

open Text Pattern

namespace Text

/-- A text that can stand between the commas of a list in a script. -/
structure IsItem (cs : List Char) : Prop extends IsPhrase cs, IsEntry cs where
  /-- its blanks are single spaces between words -/
  narrow : squeeze cs = cs

instance (cs : List Char) : Decidable (IsItem cs) :=
  decidable_of_iff (IsPhrase cs ∧ IsEntry cs ∧ squeeze cs = cs)
    ⟨fun h => ⟨h.1, h.2.1, h.2.2⟩, fun h => ⟨h.toIsPhrase, h.toIsEntry, h.narrow⟩⟩

/-- What closes its own parentheses may stand in front of anything. -/
theorem isMatched_append {depth : Nat} {a : List (Char × Bool)} (ha : isMatched depth a = true)
    (b : List (Char × Bool)) : isMatched depth (a ++ b) = isMatched 0 b := by
  induction a generalizing depth with
  | nil =>
    obtain rfl := beq_iff_eq.1 ha
    rfl
  | cons sign a ih =>
    obtain ⟨c, counts⟩ := sign
    rw [isMatched] at ha
    rw [List.cons_append, isMatched]
    split_ifs at ha ⊢
    · exact ih ha
    · rw [Bool.and_eq_true] at ha
      rw [ha.1, Bool.true_and, ih ha.2]
    · rw [Bool.and_eq_true] at ha
      rw [ha.1, Bool.true_and, ih ha.2]
    · exact ih ha

/-! ## Words and numbers -/

section

variable {a : List Char} (ha : ∀ c ∈ a, isWord c = true)

include ha

theorem isEven_word_append (before : Option Char) (more : List Char) :
    isEven false before (a ++ more) = isEven false (a.getLast?.or before) more := by
  induction a generalizing before with
  | nil => rfl
  | cons c a ih =>
    obtain ⟨hc, ha⟩ := List.forall_mem_cons.1 ha
    have hquote : c ≠ '\'' := fun h => absurd (h ▸ hc) (by decide)
    have hlast : (c :: a).getLast?.or before = a.getLast?.or (some c) := by
      rw [List.getLast?_cons]
      cases a.getLast? <;> rfl
    rw [List.cons_append, isEven_outside hquote, Token.isOpen_of_isWord hc, Bool.true_and, ih ha, hlast]

theorem signs_word_append (more : List Char) : signs false (a ++ more) = a.map (·, false) ++ signs false more :=
  signs_append (fun c hc => not_mem_of_clears (by decide) (ha c hc)) more

theorem blank_word : ∀ c ∈ a, isBlank c = false := fun c hc => isBlank_of_isWord (ha c hc)

/-- What neither begins nor ends with a blank. -/
theorem tight_word (hne : a ≠ []) : Statement.Tight a :=
  ⟨hne, fun c hc => blank_word ha c (List.mem_of_mem_head? hc), fun c hc => blank_word ha c (List.mem_of_getLast? hc)⟩

/-- A word or a number is an item. -/
theorem IsPhrase.item (h : IsPhrase a) (hne : a ≠ []) : IsItem a := by
  have heven := isEven_word_append ha none []
  have hsigns := signs_word_append ha []
  rw [List.append_nil] at heven hsigns
  refine ⟨h, ⟨heven, ?_, tight_word ha hne⟩, (Tidy.word hne (blank_word ha)).squeeze_eq⟩
  rw [hsigns, isMatched_uncounted]
  rfl

/-- So is a word with another one in parentheses behind it. -/
theorem IsPhrase.call {b : List Char} (h : IsPhrase a) (hb : IsPhrase b) (hbword : ∀ c ∈ b, isWord c = true) :
    IsItem (a ++ '(' :: (b ++ [')'])) := by
  have hblank : ∀ c ∈ a ++ '(' :: (b ++ [')']), isBlank c = false := by
    simp only [List.forall_mem_append, List.forall_mem_cons, List.not_mem_nil, false_implies, implies_true, and_true]
    exact ⟨blank_word ha, rfl, blank_word hbword, rfl⟩
  have hne : a ++ '(' :: (b ++ [')']) ≠ [] := by simp
  refine ⟨h.enclose hb .nil, ⟨?_, ?_, hne, fun c hc => hblank c (List.mem_of_mem_head? hc),
    fun c hc => hblank c (List.mem_of_getLast? hc)⟩, (Tidy.word hne hblank).squeeze_eq⟩
  · rw [isEven_word_append ha, isEven_outside (by decide), isEven_word_append hbword, isEven_outside (by decide)]
    rfl
  · rw [signs_word_append ha, isMatched_uncounted, signs_outside (by decide), signs_word_append hbword]
    exact isMatched_uncounted b 1 _

end

namespace IsItem

variable {a b : List Char} (ha : IsItem a)

include ha

theorem ne_nil : a ≠ [] := ha.tight.ne_nil

theorem tidy : Tidy a := tidy_of_squeeze_eq ha.ne_nil ha.narrow

/-! ## Items, one behind the other -/

/-- Two items, apart from each other, are one. -/
theorem space (hb : IsItem b) : IsItem (a ++ ' ' :: b) := by
  have hfollows : Follows (' ' :: b) := by rintro _ ⟨⟩; decide
  refine ⟨ha.apart (.inl rfl) hb.toIsPhrase, ⟨?_, ?_, ?_⟩, (ha.tidy.space hb.tidy).squeeze_eq⟩
  · have hbefore : wordMayBegin (some ' ') = wordMayBegin none := rfl
    have hspace := (isEven_congr hbefore false b).trans hb.even
    rw [isEven_even_append hfollows ha.even, isEven_outside (by decide), hspace]
    rfl
  · rw [signs_even_append ha.even, isMatched_append ha.matched, signs_outside (by decide)]
    exact hb.matched
  · refine ⟨by simp, fun c hc => ?_, fun c hc => ?_⟩
    · rw [List.head?_append_of_ne_nil _ ha.ne_nil] at hc
      exact ha.tight.head c hc
    · rw [List.getLast?_append_cons, List.getLast?_cons_of_ne_nil hb.ne_nil] at hc
      exact hb.tight.last c hc

end IsItem

/-! ## Lists -/

/-- Items with a comma behind each but the last. -/
def commaed : List (List Char) → List (List Char)
  | [] => []
  | [item] => [item]
  | item :: next :: rest => (item ++ [',']) :: commaed (next :: rest)

theorem join_commaed (gap : List Char) (items : List (List Char)) : join gap (commaed items) = join (',' :: gap) items := by
  fun_induction commaed items with
  | case1 => rfl
  | case2 item => rfl
  | case3 item next rest ih =>
    obtain ⟨line, more, hmore⟩ : ∃ line more, commaed (next :: rest) = line :: more := by
      cases rest <;> exact ⟨_, _, rfl⟩
    rw [hmore] at ih ⊢
    rw [join, join, ih, List.append_assoc, List.append_assoc, List.singleton_append, List.append_assoc]
    rfl

/-- Ink at the end of a tidy text. -/
theorem Tidy.concat {a : List Char} (ha : Tidy a) {c : Char} (hc : isBlank c = false) : Tidy (a ++ [c]) := by
  have hlast : ∀ d ∈ [c], isBlank d = false := List.forall_mem_singleton.2 hc
  induction ha with
  | word hne ha => exact .word (by simp) (List.forall_mem_append.2 ⟨ha, hlast⟩)
  | append hne ha _ ih =>
    rw [List.append_assoc]
    exact .append hne ha ih

theorem tidy_commaed {items : List (List Char)} (h : ∀ item ∈ items, IsItem item) :
    ∀ line ∈ commaed items, Tidy line := by
  fun_induction commaed items with
  | case1 => nofun
  | case2 item => exact List.forall_mem_singleton.2 (h item (List.mem_cons_self ..)).tidy
  | case3 item next rest ih =>
    obtain ⟨hitem, hrest⟩ := List.forall_mem_cons.1 h
    exact List.forall_mem_cons.2 ⟨hitem.tidy.concat rfl, ih hrest⟩

/-- A list with each item on a line of its own, between parentheses. -/
def onLines (items : List (List Char)) : List Char :=
  '\n' :: ("    ".toList ++ (join (',' :: '\n' :: "    ".toList) items ++ ['\n']))

/-- A list on one line, between parentheses. -/
def onOneLine (items : List (List Char)) : List Char := ' ' :: (join [',', ' '] items ++ [' '])

theorem isPhrase_onLines {items : List (List Char)} (h : ∀ item ∈ items, IsItem item) : IsPhrase (onLines items) := by
  have hgap : ∀ c ∈ "    ".toList, c = ' ' ∨ c = '\n' := List.forall_iff_forall_mem.1 (by decide)
  have hlist : IsPhrase (join (',' :: '\n' :: "    ".toList) items) := by
    induction items with
    | nil => exact .nil
    | cons item rest ih =>
      obtain ⟨hitem, hrest⟩ := List.forall_mem_cons.1 h
      cases rest with
      | nil => exact hitem.toIsPhrase
      | cons next rest =>
        rw [join, List.append_assoc]
        exact hitem.apart (.inr (.inr rfl)) (IsPhrase.nil.apart (.inr (.inl rfl)) ((ih hrest).indent hgap))
  exact IsPhrase.nil.apart (.inr (.inl rfl)) ((hlist.apart (.inr (.inl rfl)) .nil).indent hgap)

end Text

/-- A list on one line has the items that are meant. -/
theorem Statement.lists_onOneLine {items : List (List Char)} (hne : items ≠ []) (h : ∀ item ∈ items, IsItem item) :
    Lists items (onOneLine items) := by
  have hspace : Blank [' '] := List.forall_mem_singleton.2 rfl
  have hnil : Blank ([] : List Char) := List.forall_mem_nil _
  rw [onOneLine]
  induction items with
  | nil => exact absurd rfl hne
  | cons item rest ih =>
    obtain ⟨hitem, hrest⟩ := List.forall_mem_cons.1 h
    cases rest with
    | nil => exact .last hspace hitem.toIsEntry hspace
    | cons next rest =>
      have hlist := Lists.more hspace hitem.toIsEntry hnil (ih (List.cons_ne_nil _ _) hrest)
      rw [List.append_nil] at hlist
      rw [join, List.append_assoc, List.append_assoc]
      exact hlist

namespace Text

/-- **A list is squeezed to one line**, behind anything that does not end with a blank. -/
theorem squeeze_onLines {front : List Char} (hfront : Tidy front) {items : List (List Char)} (hne : items ≠ [])
    (h : ∀ item ∈ items, IsItem item) :
    squeeze (front ++ (onLines items ++ [')'])) = front ++ (onOneLine items ++ [')']) := by
  have hgap : Blank "    ".toList := List.forall_iff_forall_mem.1 (by decide)
  have hclosing : Tidy [')'] := .word (List.cons_ne_nil _ _) (List.forall_mem_singleton.2 rfl)
  have hlines : ∀ line ∈ front :: commaed items, Tidy line := List.forall_mem_cons.2 ⟨hfront, tidy_commaed h⟩
  obtain ⟨line, more, hmore⟩ : ∃ line more, commaed items = line :: more := by
    obtain ⟨item, rest, rfl⟩ := List.exists_cons_of_ne_nil hne
    cases rest <;> exact ⟨_, _, rfl⟩
  have hraw : front ++ (onLines items ++ [')']) =
      join ('\n' :: "    ".toList) (front :: commaed items) ++ '\n' :: [')'] := by
    rw [hmore, join, ← hmore, join_commaed, onLines]
    simp only [List.append_assoc, List.cons_append, List.nil_append]
  have hline : front ++ (onOneLine items ++ [')']) = join [' '] (front :: commaed items) ++ ' ' :: [')'] := by
    rw [hmore, join, ← hmore, join_commaed, onOneLine]
    simp only [List.append_assoc, List.cons_append, List.nil_append]
  have hwords : words (join ('\n' :: "    ".toList) (front :: commaed items)) =
      words (join [' '] (front :: commaed items)) := by
    rw [words_join rfl hgap, words_join rfl (List.forall_mem_nil _)]
  have htidy := (Tidy.join (List.cons_ne_nil _ _) hlines).space hclosing
  rw [hraw, hline]
  refine htidy.squeeze_of_words ?_
  have happart : ∀ {c : Char} (a : List Char), isBlank c = true → words (a ++ c :: [')']) = words a ++ words [')'] :=
    fun a hc => words_gap hc (List.forall_mem_nil _) a [')']
  rw [happart _ rfl, happart _ rfl, hwords]

end Text
end SchemaSketch
