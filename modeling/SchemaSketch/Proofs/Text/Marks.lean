import SchemaSketch.Proofs.Text.Pattern

/-!
# Patterns that keep clear of marks

Most patterns are made of letters, digits and blanks, and so they never cover a parenthesis, a quote or a bracket. Of
which marks a pattern keeps clear (`Pattern.Clear`) is told part by part.
-/

namespace SchemaSketch

open Text

namespace Pattern

variable {marks : List Char} {p q : Pattern} {f : Char → Bool}

/-- A pattern that covers none of the marks. -/
def Clear (marks : List Char) (p : Pattern) : Prop := ∀ cs n, p cs = some n → ∀ c ∈ cs.take n, c ∉ marks

/-- A class of characters without the marks. -/
def clears (marks : List Char) (f : Char → Bool) : Bool := marks.all (!f ·)

theorem not_mem_of_clears (hf : clears marks f = true) {c : Char} (hc : f c = true) : c ∉ marks := fun hmem => by
  have hnot := List.all_eq_true.1 hf c hmem
  rw [hc] at hnot
  cases hnot

theorem Clear.mono {marks' : List Char} (h : marks' ⊆ marks) (hp : Clear marks p) : Clear marks' p :=
  fun cs n hn c hc hmem => hp cs n hn c hc (h hmem)

theorem clear_empty : Clear marks empty := by
  intro cs n h c hc
  cases h
  cases hc

theorem clear_none : Clear marks fun _ => none := fun _ _ h => by cases h

theorem clear_one (hf : clears marks f = true) : Clear marks (one f) := by
  intro cs n h c hc
  obtain ⟨d, rest, rfl, hd, rfl⟩ := one_eq_some.1 h
  exact List.mem_singleton.1 hc ▸ not_mem_of_clears hf hd

theorem clear_many (hf : clears marks f = true) : Clear marks (many f) := fun _ _ h c hc =>
  not_mem_of_clears hf (class_of_many h c hc)

theorem Clear.andThen (hp : Clear marks p) (hq : Clear marks q) : Clear marks (p >> q) := by
  intro cs n h c hc
  obtain ⟨m, k, hm, hk, rfl⟩ := andThen_eq_some.1 h
  rw [List.take_add, List.mem_append] at hc
  exact hc.elim (hp cs m hm c) (hq _ k hk c)

theorem Clear.orElse (hp : Clear marks p) (hq : Clear marks q) : Clear marks (p <|> q) := fun cs n h =>
  (eq_some_of_orElse h).elim (hp cs n) (hq cs n)

theorem Clear.optional (hp : Clear marks p) : Clear marks (optional p) := hp.orElse clear_empty

theorem clear_many1 (hf : clears marks f = true) : Clear marks (many1 f) := (clear_one hf).andThen (clear_many hf)

theorem clear_char {c : Char} (hc : clears marks (· == c) = true) : Clear marks (char c) := clear_one hc

theorem Clear.followedBy (hp : Clear marks p) (test : List Char → Bool) : Clear marks (p.followedBy test) :=
  fun cs n h => hp cs n (followedBy_eq_some.1 h).1

/-- Letters among which there is no mark. -/
def areClear (marks ks : List Char) : Bool := ks.all fun k => clears marks (sameLetter k)

theorem clear_letters {ks : List Char} (h : areClear marks ks = true) : Clear marks (letters ks) := by
  induction ks with
  | nil => exact clear_empty
  | cons k ks ih =>
    obtain ⟨hk, hks⟩ := Bool.and_eq_true_iff.1 h
    exact (clear_one hk).andThen (ih hks)

theorem clear_keyword {w : String} (h : areClear marks w.toList = true) : Clear marks (keyword w) := clear_letters h

theorem clear_phrase (hblank : clears marks isBlank = true) {ws : List String}
    (h : ws.all (areClear marks ·.toList) = true) : Clear marks (phrase ws) := by
  induction ws with
  | nil => exact clear_empty
  | cons w ws ih =>
    obtain ⟨hw, hws⟩ := Bool.and_eq_true_iff.1 h
    cases ws with
    | nil => exact clear_keyword hw
    | cons v ws => exact (clear_keyword hw).andThen ((clear_many1 hblank).andThen (ih hws))

theorem clear_oneOf {ws : List String} (h : ws.all (areClear marks ·.toList) = true) : Clear marks (oneOf ws) := by
  induction ws with
  | nil => exact clear_none
  | cons w ws ih =>
    obtain ⟨hw, hws⟩ := Bool.and_eq_true_iff.1 h
    exact (clear_keyword hw).orElse (ih hws)

theorem clear_exactly {cs : List Char} (h : cs.all (fun c => clears marks (· == c)) = true) :
    Clear marks (exactly cs) := by
  induction cs with
  | nil => exact clear_empty
  | cons c cs ih =>
    obtain ⟨hc, hcs⟩ := Bool.and_eq_true_iff.1 h
    exact (clear_char hc).andThen (ih hcs)

end Pattern
end SchemaSketch
