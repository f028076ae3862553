import SchemaSketch.Text.Pattern

/-!
# What patterns cover

How much a pattern covers, told from its parts: each theorem turns `p cs = some n` around. The classes of
characters by which patterns are made come in with `takeWhile` and `dropWhile`.
-/

namespace SchemaSketch

/-! ## Runs of a class -/

namespace Text

/-- Characters of a class in front of one that does not belong to it. -/
theorem takeWhile_append_cons {f : Char → Bool} {inner : List Char} (h : ∀ c ∈ inner, f c = true)
    {c : Char} (hc : f c = false) (rest : List Char) : (inner ++ c :: rest).takeWhile f = inner := by
  rw [List.takeWhile_append_of_pos h, List.takeWhile_cons_of_neg (by simp [hc]), List.append_nil]

theorem dropWhile_append_cons {f : Char → Bool} {inner : List Char} (h : ∀ c ∈ inner, f c = true)
    {c : Char} (hc : f c = false) (rest : List Char) :
    (inner ++ c :: rest).dropWhile f = c :: rest := by
  rw [List.dropWhile_append_of_pos h, List.dropWhile_cons_of_neg (by simp [hc])]

/-- Characters of a class in front of what does not begin with one. -/
theorem takeWhile_append {f : Char → Bool} {inner : List Char} (h : ∀ c ∈ inner, f c = true) {rest : List Char}
    (hrest : ∀ c ∈ rest.head?, f c = false) : (inner ++ rest).takeWhile f = inner := by
  cases rest with
  | nil => rw [List.append_nil, ← List.append_nil inner, List.takeWhile_append_of_pos h, List.takeWhile_nil]
  | cons c rest => exact takeWhile_append_cons h (hrest c rfl) rest

/-- A run that ends in a text is the same whatever follows the text. -/
theorem takeWhile_append_of_any {f : Char → Bool} {cs : List Char} (h : cs.any (! f ·) = true)
    (more : List Char) : (cs ++ more).takeWhile f = cs.takeWhile f := by
  induction cs with
  | nil => cases h
  | cons c rest ih =>
    rw [List.cons_append]
    by_cases hc : f c = true
    · rw [List.takeWhile_cons_of_pos hc, List.takeWhile_cons_of_pos hc, ih (by simpa [hc] using h)]
    · rw [List.takeWhile_cons_of_neg hc, List.takeWhile_cons_of_neg hc]

theorem drop_length_takeWhile (f : Char → Bool) (cs : List Char) :
    cs.drop (cs.takeWhile f).length = cs.dropWhile f := by
  have hleft := @List.drop_left _ (cs.takeWhile f) (cs.dropWhile f)
  rwa [List.takeWhile_append_dropWhile] at hleft

end Text

/-! ## Patterns -/

namespace Pattern

theorem one_eq_some {f : Char → Bool} {cs : List Char} {n : Nat} :
    one f cs = some n ↔ ∃ c rest, cs = c :: rest ∧ f c = true ∧ n = 1 := by
  cases cs with
  | nil =>
    refine ⟨fun h => (by cases h), ?_⟩
    rintro ⟨c, rest, h, -⟩
    cases h
  | cons c rest =>
    rw [one]
    by_cases hc : f c = true
    · rw [if_pos hc]
      refine ⟨fun h => ⟨c, rest, rfl, hc, (Option.some.inj h).symm⟩, ?_⟩
      rintro ⟨_, _, -, -, rfl⟩
      rfl
    · rw [if_neg hc]
      refine ⟨fun h => (by cases h), ?_⟩
      rintro ⟨c', rest', hcons, hc', -⟩
      exact absurd ((List.cons.inj hcons).1 ▸ hc') hc

theorem char_eq_some {c : Char} {cs : List Char} {n : Nat} :
    char c cs = some n ↔ cs.head? = some c ∧ n = 1 := by
  rw [char, one_eq_some]
  constructor
  · rintro ⟨x, rest, rfl, hx, rfl⟩
    exact ⟨congrArg some (beq_iff_eq.1 hx), rfl⟩
  · rintro ⟨hhead, rfl⟩
    obtain ⟨rest, rfl⟩ := List.head?_eq_some_iff.1 hhead
    exact ⟨c, rest, rfl, beq_self_eq_true c, rfl⟩

theorem char_cons_of_ne {c x : Char} (h : x ≠ c) (rest : List Char) : char c (x :: rest) = none := by
  rw [char, one, if_neg (by simpa using h)]

/-- What two patterns cover one after the other. -/
theorem andThen_eq_some {p q : Pattern} {cs : List Char} {n : Nat} :
    (p >> q) cs = some n ↔ ∃ m k, p cs = some m ∧ q (cs.drop m) = some k ∧ m + k = n := by
  change Pattern.andThen p q cs = some n ↔ _
  rw [Pattern.andThen]
  cases p cs with
  | none => simp
  | some m => simp

theorem andThen_assoc (p q r : Pattern) : ((p >> q) >> r) = (p >> q >> r) := by
  funext cs
  change Pattern.andThen (Pattern.andThen p q) r cs = Pattern.andThen p (Pattern.andThen q r) cs
  rw [Pattern.andThen, Pattern.andThen, Pattern.andThen]
  cases p cs with
  | none => rfl
  | some m =>
    dsimp only
    rw [Pattern.andThen]
    cases q (cs.drop m) with
    | none => rfl
    | some k =>
      dsimp only [Option.map_some]
      rw [List.drop_drop, Option.map_map]
      exact congrFun (congrArg _ (funext fun i => Nat.add_assoc m k i)) _

theorem many1_eq_some {f : Char → Bool} {cs : List Char} {n : Nat} :
    many1 f cs = some n ↔ 0 < n ∧ n = (cs.takeWhile f).length := by
  cases cs with
  | nil =>
    refine ⟨fun h => (by cases h), ?_⟩
    rintro ⟨hpos, rfl⟩
    exact absurd hpos (Nat.lt_irrefl 0)
  | cons c rest =>
    rw [many1, andThen_eq_some, one]
    by_cases hc : f c = true
    · rw [if_pos hc, List.takeWhile_cons_of_pos hc, List.length_cons]
      constructor
      · rintro ⟨m, k, hm, hk, rfl⟩
        cases hm
        cases hk
        exact ⟨by omega, Nat.add_comm _ _⟩
      · rintro ⟨-, rfl⟩
        exact ⟨1, _, rfl, rfl, Nat.add_comm _ _⟩
    · rw [if_neg hc, List.takeWhile_cons_of_neg hc]
      constructor
      · rintro ⟨m, k, hm, -⟩
        cases hm
      · rintro ⟨hpos, rfl⟩
        exact absurd hpos (Nat.lt_irrefl 0)

/-- All that a repetition covers is of its class. -/
theorem class_of_many {f : Char → Bool} {cs : List Char} {n : Nat} (h : many f cs = some n) :
    ∀ c ∈ cs.take n, f c = true := by
  cases h
  rw [← List.prefix_iff_eq_take.1 (List.takeWhile_prefix f)]
  exact List.all_eq_true.1 List.all_takeWhile

theorem class_of_many1 {f : Char → Bool} {cs : List Char} {n : Nat} (h : many1 f cs = some n) :
    ∀ c ∈ cs.take n, f c = true :=
  class_of_many (congrArg some (many1_eq_some.1 h).2.symm)

theorem andThen_eq_none {p q : Pattern} {cs : List Char} (h : p cs = none) : (p >> q) cs = none := by
  change Pattern.andThen p q cs = none
  rw [Pattern.andThen, h]

/-- What the first of two patterns covers, or the second. -/
theorem eq_some_of_orElse {p q : Pattern} {cs : List Char} {n : Nat} (h : (p <|> q) cs = some n) :
    p cs = some n ∨ q cs = some n := by
  change Pattern.orElse p q cs = some n at h
  rw [Pattern.orElse] at h
  split at h
  · next m hm => exact .inl (hm.trans h)
  · exact .inr h

/-- A pattern that may be left out covers nothing where it does not fit. -/
theorem optional_apply (p : Pattern) (cs : List Char) : optional p cs = some ((p cs).getD 0) := by
  change Pattern.orElse p empty cs = _
  rw [Pattern.orElse]
  cases p cs <;> rfl

theorem followedBy_eq_some {p : Pattern} {test : List Char → Bool} {cs : List Char} {n : Nat} :
    p.followedBy test cs = some n ↔ p cs = some n ∧ test (cs.drop n) = true := by
  rw [Pattern.followedBy]
  cases p cs with
  | none => simp
  | some m =>
    by_cases htest : test (cs.drop m) = true
    · simp only [htest, if_true, Option.some.injEq]
      exact ⟨fun h => ⟨h, h ▸ htest⟩, fun h => h.1⟩
    · simp only [htest, Option.some.injEq]
      refine ⟨fun h => (by cases h), ?_⟩
      rintro ⟨rfl, h⟩
      exact absurd h htest

theorem heads_of_exactly {a b : Char} {cs : List Char} {n : Nat} (h : exactly [a, b] cs = some n) :
    cs.head? = some a ∧ (cs.drop 1).head? = some b := by
  obtain ⟨m, k, hm, hk, -⟩ := andThen_eq_some.1 h
  obtain ⟨hfirst, rfl⟩ := char_eq_some.1 hm
  obtain ⟨m', k', hm', -, -⟩ := andThen_eq_some.1 hk
  exact ⟨hfirst, (char_eq_some.1 hm').1⟩

end Pattern
end SchemaSketch
