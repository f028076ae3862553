import SchemaSketch.Proofs.Text.Keywords

/-!
# What patterns can cover

Of a text that a pattern covers it is enough to know that the pattern covers it somewhere (`Pattern.Covers`): then it is
made of what the parts of the pattern cover, whatever stands behind it.
-/

namespace SchemaSketch

open Text

namespace Pattern

/-- A text that a pattern covers somewhere. -/
def Covers (p : Pattern) (text : List Char) : Prop := ∃ cs n, p cs = some n ∧ cs.take n = text

variable {p q : Pattern} {text : List Char}

theorem covers_of_eq_some {cs : List Char} {n : Nat} (h : p cs = some n) : Covers p (cs.take n) := ⟨cs, n, h, rfl⟩

theorem Covers.andThen (h : Covers (p >> q) text) : ∃ a b, text = a ++ b ∧ Covers p a ∧ Covers q b := by
  obtain ⟨cs, n, hn, rfl⟩ := h
  obtain ⟨m, k, hm, hk, rfl⟩ := andThen_eq_some.1 hn
  exact ⟨cs.take m, (cs.drop m).take k, List.take_add, covers_of_eq_some hm, covers_of_eq_some hk⟩

theorem Covers.orElse (h : Covers (p <|> q) text) : Covers p text ∨ Covers q text := by
  obtain ⟨cs, n, hn, rfl⟩ := h
  exact (eq_some_of_orElse hn).imp covers_of_eq_some covers_of_eq_some

theorem Covers.optional (h : Covers (optional p) text) : text = [] ∨ Covers p text := by
  rcases h.orElse with h | ⟨cs, n, hn, rfl⟩
  · exact .inr h
  · cases hn
    exact .inl rfl

theorem Covers.one {f : Char → Bool} (h : Covers (one f) text) : ∃ c, text = [c] ∧ f c = true := by
  obtain ⟨cs, n, hn, rfl⟩ := h
  obtain ⟨c, rest, rfl, hc, rfl⟩ := one_eq_some.1 hn
  exact ⟨c, rfl, hc⟩

theorem Covers.char {c : Char} (h : Covers (char c) text) : text = [c] := by
  obtain ⟨d, rfl, hd⟩ := Covers.one h
  rw [beq_iff_eq.1 hd]

theorem Covers.many {f : Char → Bool} (h : Covers (many f) text) : ∀ c ∈ text, f c = true := by
  obtain ⟨cs, n, hn, rfl⟩ := h
  exact class_of_many hn

theorem Covers.many1 {f : Char → Bool} (h : Covers (many1 f) text) : ∀ c ∈ text, f c = true := by
  obtain ⟨cs, n, hn, rfl⟩ := h
  exact class_of_many1 hn

/-- What a repetition covers is made of what the pattern covers. -/
theorem Covers.star (h : Covers (star p) text) : ∃ parts : List (List Char), text = parts.flatten ∧
    ∀ part ∈ parts, Covers p part := by
  obtain ⟨cs, n, hn, rfl⟩ := h
  have hrounds : ∀ rounds (cs : List Char), ∃ parts : List (List Char),
      cs.take (coverAgain p rounds cs) = parts.flatten ∧ ∀ part ∈ parts, Covers p part := by
    intro rounds
    induction rounds with
    | zero => exact fun cs => ⟨[], rfl, nofun⟩
    | succ rounds ih =>
      intro cs
      rw [coverAgain]
      split
      · next m hm =>
        obtain ⟨parts, hparts, hcovered⟩ := ih (cs.drop (m + 1))
        refine ⟨cs.take (m + 1) :: parts, ?_, List.forall_mem_cons.2 ⟨covers_of_eq_some hm, hcovered⟩⟩
        rw [List.take_add, hparts]
        rfl
      · exact ⟨[], rfl, nofun⟩
  obtain rfl := Option.some.inj hn
  exact hrounds _ cs

theorem covers_of_mem_findAllFrom {passing : Nat} {cs : List Char} (h : text ∈ findAllFrom p passing cs) :
    Covers p text := by
  induction cs generalizing passing with
  | nil =>
    rw [findAllFrom] at h
    cases h
  | cons c rest ih =>
    cases passing with
    | succ passing => exact ih h
    | zero =>
      rw [findAllFrom] at h
      split at h
      · next n hn =>
        rcases List.mem_cons.1 h with rfl | h
        · exact covers_of_eq_some hn
        · exact ih h
      · exact ih h

/-- Letters of a keyword are covered one by one. -/
theorem Covers.letters {ks : List Char} (hks : ∀ k ∈ ks, k.isLower = true) (h : Covers (letters ks) text) :
    text.length = ks.length ∧ ∀ c ∈ text, isWord c = true := by
  induction ks generalizing text with
  | nil =>
    obtain ⟨cs, n, hn, rfl⟩ := h
    cases hn
    exact ⟨rfl, nofun⟩
  | cons k ks ih =>
    obtain ⟨hk, hks⟩ := List.forall_mem_cons.1 hks
    obtain ⟨a, b, rfl, ha, hb⟩ := Covers.andThen h
    obtain ⟨c, rfl, hc⟩ := ha.one
    obtain ⟨hlength, hword⟩ := ih hks hb
    exact ⟨congrArg (· + 1) hlength, List.forall_mem_cons.2 ⟨isWord_of_sameLetter hk hc, hword⟩⟩

end Pattern

end SchemaSketch
