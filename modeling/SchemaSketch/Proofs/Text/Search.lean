import Mathlib
import SchemaSketch.Proofs.Text.Pattern
import SchemaSketch.Table.Definition

/-!
# Searching for words

A search goes from place to place (`searchAfter_cons`), and so does the question whether a phrase stands in a
text: `hasWordAfter` is `hasWord` as a recursion that carries the character before the place. Two things are
needed of it. Where a pattern sees nothing of what stands behind a character, the text is searched in two halves
(`hasWordAfter_append`). And phrases in capital letters are such patterns: what follows a text does not matter to
them if it begins with no word character and none of their later words comes next (`capitals_append`).
-/

namespace SchemaSketch

/-! ## Patterns, applied -/

namespace Pattern

theorem andThen_apply (p q : Pattern) (cs : List Char) :
    (p >> q) cs = (p cs).bind fun n => (q (cs.drop n)).map (n + ·) := by
  change Pattern.andThen p q cs = _
  rw [Pattern.andThen]
  cases p cs <;> rfl

theorem andThen_of_eq_some {p : Pattern} {cs : List Char} {n : Nat} (h : p cs = some n) (q : Pattern) :
    (p >> q) cs = (q (cs.drop n)).map (n + ·) := by
  rw [andThen_apply, h, Option.bind_some]

theorem optional_of_eq_some {p : Pattern} {cs : List Char} {n : Nat} (h : p cs = some n) : optional p cs = some n := by
  rw [optional_apply, h, Option.getD_some]

theorem optional_andThen {p : Pattern} {cs : List Char} (h : p cs = none) (q : Pattern) :
    (optional p >> q) cs = q cs := by
  have hnothing : optional p cs = some 0 := by rw [optional_apply, h]; rfl
  rw [andThen_of_eq_some hnothing, List.drop_zero]
  simp only [Nat.zero_add, Option.map_id']

theorem orElse_apply (p q : Pattern) (cs : List Char) : (p <|> q) cs = (p cs).or (q cs) := by
  change Pattern.orElse p q cs = _
  rw [Pattern.orElse]
  cases p cs <;> rfl

theorem followedBy_apply (p : Pattern) (test : List Char → Bool) (cs : List Char) :
    p.followedBy test cs = (p cs).bind fun n => if test (cs.drop n) then some n else none := by
  rw [Pattern.followedBy]
  cases p cs <;> rfl

/-- Exact characters fit where the text begins with them. -/
theorem exactly_apply (w cs : List Char) : exactly w cs = if w <+: cs then some w.length else none := by
  induction w generalizing cs with
  | nil => rw [if_pos List.nil_prefix]; rfl
  | cons c w ih =>
    rw [exactly, andThen_apply]
    cases cs with
    | nil => rfl
    | cons d cs =>
      rw [char, one]
      by_cases hd : d = c
      · subst hd
        rw [if_pos (beq_self_eq_true d), Option.bind_some, List.drop_one, List.tail_cons, ih]
        simp only [List.cons_prefix_cons, true_and]
        split
        · rw [List.length_cons, Nat.add_comm]
          rfl
        · rfl
      · rw [if_neg (by simpa using hd), if_neg (fun h => hd (List.cons_prefix_cons.1 h).1.symm)]
        rfl

/-- A keyword begins with its first letter. -/
theorem keyword_cons {w : String} {k : Char} {ks : List Char} (hw : w.toList = k :: ks) {c : Char}
    (hc : Text.sameLetter k c = false) (rest : List Char) : keyword w (c :: rest) = none := by
  rw [keyword, hw, letters]
  exact andThen_eq_none (if_neg (Bool.eq_false_iff.1 hc))

/-- A keyword covers its letters. -/
theorem length_of_letters {ks cs : List Char} {n : Nat} (h : letters ks cs = some n) : n = ks.length := by
  induction ks generalizing cs n with
  | nil => exact (Option.some.inj h).symm
  | cons k ks ih =>
    obtain ⟨m, l, hm, hl, rfl⟩ := andThen_eq_some.1 h
    obtain ⟨_, _, -, -, rfl⟩ := one_eq_some.1 hm
    rw [ih hl, List.length_cons, Nat.add_comm]

/-- Blanks and then a pattern. -/
theorem blanks1_andThen_apply (q : Pattern) (cs : List Char) :
    (blanks1 >> q) cs =
      if cs.takeWhile Text.isBlank = [] then none
      else (q (cs.dropWhile Text.isBlank)).map ((cs.takeWhile Text.isBlank).length + ·) := by
  rw [andThen_apply]
  split
  · next hnone =>
    have hblanks : blanks1 cs = none := by
      rw [Option.eq_none_iff_forall_ne_some]
      intro n hn
      obtain ⟨hpos, rfl⟩ := many1_eq_some.1 hn
      rw [hnone] at hpos
      exact absurd hpos (Nat.lt_irrefl 0)
    rw [hblanks]
    rfl
  · next hsome =>
    have hblanks : blanks1 cs = some (cs.takeWhile Text.isBlank).length :=
      many1_eq_some.2 ⟨List.length_pos_iff.2 hsome, rfl⟩
    rw [hblanks, Option.bind_some, Text.drop_length_takeWhile]

/-- A mark is read behind blanks only where it stands. -/
theorem blanks_char_eq_none {mark : Char} {cs : List Char} (h : (cs.dropWhile Text.isBlank).head? ≠ some mark)
    (p : Pattern) : (blanks >> (char mark >> p)) cs = none := by
  have hchar : (char mark >> p) (cs.dropWhile Text.isBlank) = none := by
    cases hrest : cs.dropWhile Text.isBlank with
    | nil => rfl
    | cons d rest => exact andThen_eq_none (char_cons_of_ne (fun heq => h (by rw [hrest, heq]; rfl)) rest)
  rw [andThen_apply, blanks, many, Option.bind_some, Text.drop_length_takeWhile, hchar]
  rfl

/-- **What follows a text does not matter** behind blanks if the next pattern sees nothing of it and does not fit at
it. -/
theorem blanks1_andThen_append {q : Pattern} {tail : List Char} (hnil : q [] = none)
    (htail : q (tail.dropWhile Text.isBlank) = none) {cs : List Char}
    (hq : q (cs.dropWhile Text.isBlank ++ tail) = q (cs.dropWhile Text.isBlank)) :
    (blanks1 >> q) (cs ++ tail) = (blanks1 >> q) cs := by
  rw [blanks1_andThen_apply, blanks1_andThen_apply]
  by_cases hblank : ∀ c ∈ cs, Text.isBlank c = true
  · -- nothing is left for the next pattern, and it does not come next
    rw [List.dropWhile_append_of_pos hblank, htail, List.dropWhile_eq_nil_iff.2 hblank, hnil]
    simp only [Option.map_none, ite_self]
  · -- the blanks end before the tail
    have hrest : ¬ cs.dropWhile Text.isBlank = [] := by rwa [List.dropWhile_eq_nil_iff]
    have hlength : ¬ (cs.takeWhile Text.isBlank).length = cs.length := by
      intro hlength
      have hwhole := List.IsPrefix.eq_of_length (List.takeWhile_prefix Text.isBlank) hlength
      exact hblank (List.takeWhile_eq_self_iff.1 hwhole)
    rw [List.takeWhile_append, if_neg hlength, List.dropWhile_append, List.isEmpty_eq_false_iff.2 hrest,
      if_neg Bool.false_ne_true, hq]

/-- What does not fit once is not repeated. -/
theorem star_eq_zero {p : Pattern} {cs : List Char} (h : p cs = none) : star p cs = some 0 := by
  rw [star]
  cases cs with
  | nil => rfl
  | cons c rest => rw [List.length_cons, coverAgain, h]

theorem findAllFrom_length (p : Pattern) (cs : List Char) : findAllFrom p cs.length cs = [] := by
  induction cs with
  | nil => rfl
  | cons c rest ih => exact ih

/-- Occurrences are looked for behind what none of them begins in. -/
theorem findAll_append {p : Pattern} {a : List Char} (h : ∀ c ∈ a, ∀ rest, p (c :: rest) = none) (b : List Char) :
    findAll p (a ++ b) = findAll p b := by
  induction a with
  | nil => rfl
  | cons c a ih =>
    obtain ⟨hc, ha⟩ := List.forall_mem_cons.1 h
    rw [List.cons_append, findAll, findAllFrom, hc]
    exact ih ha

/-- A text that an occurrence covers. -/
theorem findAll_eq_singleton {p : Pattern} {cs : List Char} (hne : cs ≠ []) (h : p cs = some cs.length) :
    findAll p cs = [cs] := by
  obtain ⟨c, rest, rfl⟩ := List.exists_cons_of_ne_nil hne
  rw [findAll, findAllFrom, h]
  dsimp only [List.length_cons]
  rw [List.take_length, findAllFrom_length]

end Pattern

namespace Reader

variable {α : Type}

theorem skip_bind (p : Pattern) (f : Unit → Reader α) (cs : List Char) :
    (skip p >>= f) cs = (p cs).bind fun n => f () (cs.drop n) :=
  Option.bind_map ..

theorem take_bind (p : Pattern) (f : List Char → Reader α) (cs : List Char) :
    (take p >>= f) cs = (p cs).bind fun n => f (cs.take n) (cs.drop n) :=
  Option.bind_map ..

end Reader

/-! ## Places of a text -/

namespace Text

variable {α : Type}

theorem searchAfter_cons (read : Option Char → List Char → Option α) (before : Option Char) (c : Char)
    (rest : List Char) :
    searchAfter read before (c :: rest) = (read before (c :: rest)).or (searchAfter read (some c) rest) := by
  rw [searchAfter]
  cases read before (c :: rest) <;> rfl

theorem searchAfter_of_eq_some {read : Option Char → List Char → Option α} {before : Option Char} {cs : List Char}
    {a : α} (h : read before cs = some a) : searchAfter read before cs = some a := by
  cases cs with
  | nil => exact h
  | cons c rest => rw [searchAfter_cons, h, Option.some_or]

/-- A search passes over characters at which nothing that is looked for begins. -/
theorem searchAfter_append {read : Option Char → List Char → Option α} {a : List Char}
    (h : ∀ c ∈ a, ∀ before rest, read before (c :: rest) = none) (before : Option Char) (b : List Char) :
    searchAfter read before (a ++ b) = searchAfter read (a.getLast?.or before) b := by
  induction a generalizing before with
  | nil => rfl
  | cons c a ih =>
    obtain ⟨hc, ha⟩ := List.forall_mem_cons.1 h
    rw [List.cons_append, searchAfter_cons, hc, Option.none_or, ih ha, List.getLast?_cons]
    cases a.getLast? <;> rfl

/-- Whether a pattern fits at some place where a word may begin; `before` stands in front of the text. -/
def hasWordAfter (p : Pattern) (before : Option Char) : List Char → Bool
  | [] => wordMayBegin before && p.fits []
  | c :: rest => wordMayBegin before && p.fits (c :: rest) || hasWordAfter p (some c) rest

/-- A search succeeds where a pattern stands, if the reader does at the same places. -/
theorem isSome_searchWord {r : Reader α} {p : Pattern} (h : ∀ here, (r here).isSome = p.fits here) (cs : List Char) :
    (searchWord r cs).isSome = hasWordAfter p none cs := by
  have hafter : ∀ before, (searchAfter (fun before here => if wordMayBegin before then r here else none)
      before cs).isSome = hasWordAfter p before cs := by
    induction cs with
    | nil =>
      intro before
      rw [searchAfter, hasWordAfter]
      cases wordMayBegin before
      · rfl
      · exact h []
    | cons c rest ih =>
      intro before
      rw [searchAfter_cons, hasWordAfter, Option.isSome_or, ih]
      cases wordMayBegin before
      · rfl
      · exact congrArg (· || _) (h _)
  exact hafter none

theorem hasWord_eq (p : Pattern) (cs : List Char) : hasWord p cs = hasWordAfter p none cs :=
  isSome_searchWord (fun _ => Option.isSome_map) cs

/-- A reader that begins with a pattern finds nothing where the pattern stands nowhere. -/
theorem searchWord_eq_none {r : Reader α} {p : Pattern} (hr : ∀ cs, p cs = none → r cs = none) {cs : List Char}
    (h : hasWord p cs = false) : searchWord r cs = none := by
  have hsearch : ∀ before, hasWordAfter p before cs = false →
      searchAfter (fun before here => if wordMayBegin before then r here else none) before cs = none := by
    have hhere : ∀ before here, (wordMayBegin before && p.fits here) = false →
        (if wordMayBegin before then r here else none) = none := by
      intro before here hfits
      split
      · next hword =>
        rw [hword, Bool.true_and] at hfits
        exact hr here (Option.isNone_iff_eq_none.1 (Option.isSome_eq_false_iff.1 hfits))
      · rfl
    clear h
    induction cs with
    | nil => exact fun before => hhere before []
    | cons c rest ih =>
      intro before hfalse
      rw [hasWordAfter, Bool.or_eq_false_iff] at hfalse
      rw [searchAfter_cons, hhere before _ hfalse.1, Option.none_or, ih _ hfalse.2]
  exact hsearch none (hasWord_eq p cs ▸ h)

/-- Of the character in front of a text it only matters whether a word may begin after it. -/
theorem hasWordAfter_congr {before before' : Option Char} (h : wordMayBegin before = wordMayBegin before')
    (p : Pattern) (cs : List Char) : hasWordAfter p before cs = hasWordAfter p before' cs := by
  cases cs <;> rw [hasWordAfter, hasWordAfter, h]

/-- **A text is searched in two halves** if the pattern sees nothing of the second one from the first. -/
theorem hasWordAfter_append {p : Pattern} {x : Char} {b : List Char} (h : ∀ cs, p (cs ++ x :: b) = p cs)
    (before : Option Char) (a : List Char) :
    hasWordAfter p before (a ++ x :: b) = (hasWordAfter p before a || hasWordAfter p (some x) b) := by
  induction a generalizing before with
  | nil => rw [List.nil_append, hasWordAfter, hasWordAfter, Pattern.fits, Pattern.fits, ← h [], List.nil_append]
  | cons c a ih =>
    rw [List.cons_append, hasWordAfter, hasWordAfter, ih, Pattern.fits, Pattern.fits, ← h (c :: a),
      List.cons_append, Bool.or_assoc]

/-- Nothing is found where a pattern fits at no character. -/
theorem hasWordAfter_eq_false {p : Pattern} {cs : List Char} (hnil : p [] = none)
    (h : ∀ c ∈ cs, ∀ rest, p (c :: rest) = none) (before : Option Char) : hasWordAfter p before cs = false := by
  induction cs generalizing before with
  | nil => rw [hasWordAfter, Pattern.fits, hnil]; exact Bool.and_false _
  | cons c cs ih =>
    obtain ⟨hc, hcs⟩ := List.forall_mem_cons.1 h
    rw [hasWordAfter, Pattern.fits, hc, ih hcs]
    exact (Bool.or_false _).trans (Bool.and_false _)

/-! ## Parts of a text -/

theorem subset_of_hasPart {part cs : List Char} (h : hasPart part cs = true) : part ⊆ cs := by
  induction cs with
  | nil =>
    rw [hasPart, List.isEmpty_iff] at h
    rw [h]
    exact List.Subset.refl _
  | cons c rest ih =>
    rw [hasPart, Bool.or_eq_true] at h
    rcases h with h | h
    · exact (List.isPrefixOf_iff_prefix.1 h).subset
    · exact List.subset_cons_of_subset c (ih h)

end Text

/-! ## Phrases in capital letters -/

namespace ColumnDefinition

open Text Pattern

theorem capitals_cons (w v : String) (ws : List String) :
    capitals (w :: v :: ws) = (exactly w.toList >> (blanks1 >> capitals (v :: ws))) := rfl

/-- A phrase begins with its first word. -/
theorem capitals_eq_none {w : String} {ws : List String} {cs : List Char} (h : ¬ w.toList <+: cs) :
    capitals (w :: ws) cs = none := by
  cases ws with
  | nil =>
    change (exactly w.toList).followedBy wordEnds cs = none
    rw [followedBy_apply, exactly_apply, if_neg h]
    rfl
  | cons v ws =>
    rw [capitals_cons, andThen_apply, exactly_apply, if_neg h]
    rfl

/-- A word of word characters that begins in a text ends in it, if no word character follows the text. -/
theorem prefix_append_iff {w : List Char} (hw : ∀ c ∈ w, isWord c = true) {tail : List Char}
    (htail : wordEnds tail = true) (cs : List Char) : w <+: cs ++ tail ↔ w <+: cs := by
  refine ⟨fun h => ?_, fun h => h.trans (List.prefix_append cs tail)⟩
  induction w generalizing cs with
  | nil => exact List.nil_prefix
  | cons c w ih =>
    obtain ⟨hc, hw⟩ := List.forall_mem_cons.1 hw
    cases cs with
    | nil =>
      obtain ⟨rest, rfl⟩ := h
      rw [List.cons_append, wordEnds, hc] at htail
      cases htail
    | cons d cs =>
      obtain ⟨hcd, hrest⟩ := List.cons_prefix_cons.1 h
      exact List.cons_prefix_cons.2 ⟨hcd, ih hw cs hrest⟩

/-- **What follows a text does not matter to a phrase in capitals** if it begins with no word character and none of
the later words of the phrase comes next in it. -/
theorem capitals_append {ws : List String} (hwords : ∀ w ∈ ws, w.toList ≠ [] ∧ w.toList.all isWord = true)
    {tail : List Char} (htail : wordEnds tail = true)
    (hnext : ∀ w ∈ ws.tail, ¬ w.toList <+: tail.dropWhile isBlank) (cs : List Char) :
    capitals ws (cs ++ tail) = capitals ws cs := by
  match ws, hwords, hnext with
  | [], _, _ => rfl
  | [w], hwords, _ =>
    obtain ⟨⟨-, hw⟩, -⟩ := List.forall_mem_cons.1 hwords
    change (exactly w.toList).followedBy wordEnds _ = (exactly w.toList).followedBy wordEnds _
    rw [followedBy_apply, followedBy_apply, exactly_apply, exactly_apply]
    simp only [prefix_append_iff (List.all_eq_true.1 hw) htail]
    split
    · next hprefix =>
      rw [Option.bind_some, Option.bind_some, List.drop_append_of_le_length hprefix.length_le]
      cases cs.drop w.toList.length with
      | nil => rw [List.nil_append, htail]; rfl
      | cons c rest => rfl
    · rfl
  | w :: v :: ws, hwords, hnext =>
    obtain ⟨⟨-, hw⟩, hlater⟩ := List.forall_mem_cons.1 hwords
    obtain ⟨⟨hv, -⟩, -⟩ := List.forall_mem_cons.1 hlater
    rw [capitals_cons, andThen_apply, andThen_apply, exactly_apply, exactly_apply]
    simp only [prefix_append_iff (List.all_eq_true.1 hw) htail]
    split
    · next hprefix =>
      have hleft : ¬ v.toList <+: [] := fun h => hv (List.prefix_nil.1 h)
      rw [Option.bind_some, Option.bind_some, List.drop_append_of_le_length hprefix.length_le,
        blanks1_andThen_append (capitals_eq_none hleft) (capitals_eq_none (hnext v (List.mem_cons_self ..)))
          (capitals_append hlater htail (fun u hu => hnext u (List.mem_cons_of_mem v hu)) _)]
    · rfl

end ColumnDefinition
end SchemaSketch
