import SchemaSketch.Proofs.Text.Pattern
import SchemaSketch.Sql.Comment

/-!
# Tagged bodies

A tagged body begins with a mark, two dollar signs with a name or nothing between them
(`tagged_eq_some`), and goes up to the place where the mark stands for the second time. What is behind
that place makes no difference to it (`bodyLength?_closed`). If there is no such place, the body takes
all of the text.
-/

namespace SchemaSketch

open Text

namespace Comment

/-! ## Marks -/

/-- What may stand between the dollar signs of a mark: nothing, or a name that begins with a character of
the class `f`. -/
def IsTagName (f : Char → Bool) (w : List Char) : Prop :=
  w = [] ∨ ∃ a v, w = a :: v ∧ f a = true ∧ ∀ c ∈ v, isWord c = true

/-- The mark with a name. -/
def mark (w : List Char) : List Char := '$' :: (w ++ ['$'])

theorem mark_append (w rest : List Char) : mark w ++ rest = '$' :: (w ++ '$' :: rest) := by
  rw [mark, List.cons_append, List.append_assoc, List.singleton_append]

theorem length_mark (w : List Char) : (mark w).length = w.length + 2 := by
  rw [mark, List.length_cons, List.length_append, List.length_singleton]

/-- **The mark of a tagged body** is one with a name. -/
theorem tagged_eq_some {f : Char → Bool} (hf : f '$' = false) {cs : List Char} {n : Nat} :
    (Pattern.char '$' >> Pattern.optional (Pattern.one f >> Pattern.many isWord)
      >> Pattern.char '$') cs = some n ↔
      ∃ w rest, cs = mark w ++ rest ∧ IsTagName f w ∧ n = (mark w).length := by
  have hdollar : isWord '$' = false := by decide
  rw [Pattern.andThen_eq_some]
  constructor
  · rintro ⟨m, k, hm, hk, rfl⟩
    obtain ⟨hopen, rfl⟩ := Pattern.char_eq_some.1 hm
    obtain ⟨cs, rfl⟩ := List.head?_eq_some_iff.1 hopen
    obtain ⟨i, j, hi, hj, rfl⟩ := Pattern.andThen_eq_some.1 hk
    obtain ⟨hclose, rfl⟩ := Pattern.char_eq_some.1 hj
    obtain ⟨rest, hrest⟩ := List.head?_eq_some_iff.1 hclose
    have hcs : cs = cs.take i ++ '$' :: rest :=
      (List.take_append_drop i cs).symm.trans (congrArg (cs.take i ++ ·) hrest)
    have hi' : i ≤ cs.length := by
      refine Nat.le_of_not_lt fun hlong => ?_
      have hnil : cs.drop i = [] := List.drop_eq_nil_of_le (Nat.le_of_lt hlong)
      cases hnil.symm.trans hrest
    refine ⟨cs.take i, rest, ?_, ?_, ?_⟩
    · rw [mark_append]
      exact congrArg ('$' :: ·) hcs
    · rcases Pattern.eq_some_of_orElse hi with hname | hnone
      · obtain ⟨a, b, ha, hb, rfl⟩ := Pattern.andThen_eq_some.1 hname
        obtain ⟨c, more, hmore, hc, rfl⟩ := Pattern.one_eq_some.1 ha
        have hmore : cs = c :: more := hmore
        subst hmore
        refine .inr ⟨c, more.take b, ?_, hc, Pattern.class_of_many hb⟩
        rw [Nat.add_comm, List.take_succ_cons]
      · cases hnone
        exact .inl rfl
    · rw [length_mark, List.length_take_of_le hi']
      omega
  · rintro ⟨w, rest, rfl, hw, rfl⟩
    rw [mark_append, length_mark]
    refine ⟨1, w.length + 1, rfl, Pattern.andThen_eq_some.2 ⟨w.length, 1, ?_, ?_, rfl⟩, by omega⟩
    · rcases hw with rfl | ⟨a, v, rfl, ha, hv⟩
      · have hnone : (Pattern.one f >> Pattern.many isWord) ('$' :: rest) = none :=
          Pattern.andThen_eq_none (by rw [Pattern.one, hf]; rfl)
        rw [Pattern.optional_apply]
        exact congrArg (some <| Option.getD · 0) hnone
      · have hname : (Pattern.one f >> Pattern.many isWord) (a :: (v ++ '$' :: rest))
            = some (v.length + 1) := by
          refine Pattern.andThen_eq_some.2
            ⟨1, v.length, Pattern.one_eq_some.2 ⟨a, _, rfl, ha, rfl⟩, ?_, by omega⟩
          exact congrArg (some ·.length) (takeWhile_append_cons hv hdollar rest)
        rw [Pattern.optional_apply]
        exact congrArg (some <| Option.getD · 0) hname
    · exact Pattern.char_eq_some.2 ⟨congrArg List.head? (@List.drop_left _ w ('$' :: rest)), rfl⟩

/-- The mark that opens a body. -/
theorem tag_eq_some {cs : List Char} {n : Nat} :
    tag cs = some n ↔ ∃ w rest, cs = mark w ++ rest ∧ IsTagName isTagStart w ∧ n = (mark w).length :=
  tagged_eq_some (by decide)

/-! ## The first place of a part -/

theorem exists_of_indexOf? {part cs : List Char} {n : Nat} (h : indexOf? part cs = some n) :
    ∃ a b, cs = a ++ (part ++ b) ∧ n = a.length := by
  induction cs generalizing n with
  | nil =>
    rw [indexOf?] at h
    split at h
    · next hpart =>
      cases h
      exact ⟨[], [], by rw [List.isEmpty_iff.1 hpart]; rfl, rfl⟩
    · cases h
  | cons c rest ih =>
    rw [indexOf?] at h
    split at h
    · next hprefix =>
      cases h
      obtain ⟨b, hb⟩ := List.isPrefixOf_iff_prefix.1 hprefix
      exact ⟨[], b, hb.symm, rfl⟩
    · obtain ⟨m, hm, rfl⟩ := Option.map_eq_some_iff.1 h
      obtain ⟨a, b, rfl, rfl⟩ := ih hm
      exact ⟨c :: a, b, rfl, rfl⟩

/-- What stands behind the first place of a part makes no difference. -/
theorem indexOf?_append {part a b : List Char} (h : indexOf? part (a ++ (part ++ b)) = some a.length)
    (b' : List Char) : indexOf? part (a ++ (part ++ b')) = some a.length := by
  induction a with
  | nil =>
    rw [List.nil_append]
    cases hcs : part ++ b' with
    | nil => rw [(List.append_eq_nil_iff.1 hcs).1]; rfl
    | cons c rest =>
      have hprefix : part <+: c :: rest := ⟨b', hcs⟩
      rw [indexOf?, if_pos (List.isPrefixOf_iff_prefix.2 hprefix)]
      rfl
  | cons c a ih =>
    rw [List.cons_append, indexOf?] at h ⊢
    split at h
    · cases h
    · next hnot =>
      obtain ⟨m, hm, hlength⟩ := Option.map_eq_some_iff.1 h
      obtain rfl : m = a.length := Nat.succ.inj hlength
      rw [ih hm, if_neg fun hprefix => hnot ?_]
      · rfl
      · -- a part that stands in front ends before what is exchanged
        rw [List.isPrefixOf_iff_prefix] at hprefix ⊢
        have hcut : ∀ more, c :: (a ++ (part ++ more)) = (c :: (a ++ part)) ++ more := fun more => by
          rw [← List.append_assoc, List.cons_append]
        rw [hcut] at hprefix ⊢
        refine List.IsPrefix.trans ?_ (List.prefix_append _ b)
        exact List.prefix_of_prefix_length_le hprefix (List.prefix_append _ b') (by simp; omega)

/-! ## Bodies -/

/-- How far a body reaches: to its closing mark, or to the end of the text. -/
theorem bodyLength?_mark {w : List Char} (hw : IsTagName isTagStart w) (rest : List Char) :
    bodyLength? (mark w ++ rest)
      = some ((indexOf? (mark w) rest).elim (mark w ++ rest).length
          fun found => (mark w).length + found + (mark w).length) := by
  have htag : tag (mark w ++ rest) = some (mark w).length := tag_eq_some.2 ⟨w, rest, rfl, hw, rfl⟩
  rw [bodyLength?, htag, Option.map_some, List.take_left, List.drop_left]
  cases indexOf? (mark w) rest <;> rfl

theorem exists_of_bodyLength? {cs : List Char} {n : Nat} (h : bodyLength? cs = some n) :
    ∃ w rest, cs = mark w ++ rest ∧ IsTagName isTagStart w := by
  rw [bodyLength?] at h
  obtain ⟨m, hm, -⟩ := Option.map_eq_some_iff.1 h
  obtain ⟨w, rest, rfl, hw, -⟩ := tag_eq_some.1 hm
  exact ⟨w, rest, rfl, hw⟩

/-- A body that is closed is the same whatever stands behind it. -/
theorem bodyLength?_closed {w a b : List Char} (hw : IsTagName isTagStart w)
    (h : indexOf? (mark w) (a ++ (mark w ++ b)) = some a.length) (b' : List Char) :
    bodyLength? (mark w ++ (a ++ (mark w ++ b'))) = some (mark w ++ (a ++ mark w)).length := by
  rw [bodyLength?_mark hw, indexOf?_append h b', Option.elim_some, List.length_append,
    List.length_append, Nat.add_assoc]

end Comment
end SchemaSketch
