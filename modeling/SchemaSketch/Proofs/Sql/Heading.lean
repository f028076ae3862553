import SchemaSketch.Proofs.Sql.Plain
import SchemaSketch.Proofs.Text.Squeeze
import SchemaSketch.Sql.Heading

/-!
# What the heading of a statement takes

The name of a table may be enclosed in brackets, but in a plain text no parenthesis hides there. So the
parenthesis at which the heading of a creation ends is the first one of the statement
(`exists_of_created`). Squeezing keeps a text plain and the count of its parentheses
(`isPlain_squeeze`, `openAfter_squeeze`).
-/

namespace SchemaSketch

open Text

/-! ## Plain text, squeezed -/

namespace Text

/-- Only the parentheses count. -/
theorem openAfter_congr {a b : List Char} (h : inked a = inked b) (n : Nat) :
    openAfter n a = openAfter n b := by
  have hinked : ∀ (cs : List Char) (n : Nat), openAfter n cs = openAfter n (inked cs) := by
    intro cs
    induction cs with
    | nil => exact fun _ => rfl
    | cons c cs ih =>
      intro n
      cases hc : isBlank c with
      | true =>
        have hopen : (c == '(') = false := beq_eq_false_iff_ne.2 fun e => by
          subst e
          exact absurd hc (by decide)
        have hclose : (c == ')') = false := beq_eq_false_iff_ne.2 fun e => by
          subst e
          exact absurd hc (by decide)
        have hskip : inked (c :: cs) = inked cs := List.filter_cons_of_neg (by simp [hc])
        rw [hskip, openAfter, hopen, hclose]
        exact ih n
      | false =>
        have hkeep : inked (c :: cs) = c :: inked cs := List.filter_cons_of_pos (by simp [hc])
        rw [hkeep, openAfter, openAfter, ih, ih, ih]
  rw [hinked a, hinked b, h]

theorem openAfter_squeeze (n : Nat) (cs : List Char) : openAfter n (squeeze cs) = openAfter n cs :=
  openAfter_congr (inked_squeeze cs) n

/-- Where blanks do not belong to a class, narrowing them changes nothing about what follows a run of
the class. -/
theorem Squeezed.head?_dropWhile {a b : List Char} (h : Squeezed a b) {f : Char → Bool}
    (hf : ∀ c, isBlank c = true → f c = false) {c : Char} (hc : isBlank c = false)
    (ha : (a.dropWhile f).head? = some c) : (b.dropWhile f).head? = some c := by
  induction h with
  | nil => exact ha
  | @keep x a b hx h ih =>
    by_cases hfx : f x = true
    · rw [List.dropWhile_cons_of_pos hfx] at ha ⊢
      exact ih ha
    · rw [List.dropWhile_cons_of_neg hfx] at ha ⊢
      exact ha
  | space hx h ih =>
    rw [List.dropWhile_cons_of_neg (by simp [hf ' ' (by decide)])] at ha
    cases ha
    exact absurd hc (by decide)
  | @drop x a b hx hhead h ih =>
    cases a with
    | nil => cases ha
    | cons y a =>
      rw [hhead y rfl, List.dropWhile_cons_of_neg (by simp [hf ' ' (by decide)])] at ha
      cases ha
      exact absurd hc (by decide)

/-- Where blanks belong to a class, narrowing them adds nothing to the run of the class in front. -/
theorem Squeezed.mem_takeWhile {a b : List Char} (h : Squeezed a b) {f : Char → Bool}
    (hf : ∀ c, isBlank c = true → f c = true) {c : Char} (hc : isBlank c = false)
    (ha : c ∈ a.takeWhile f) : c ∈ b.takeWhile f := by
  induction h with
  | nil => exact ha
  | @keep x a b hx h ih =>
    by_cases hfx : f x = true
    · rw [List.takeWhile_cons_of_pos hfx] at ha ⊢
      exact (List.mem_cons.1 ha).elim (fun e => e ▸ List.mem_cons_self ..)
        fun h => List.mem_cons_of_mem _ (ih h)
    · rw [List.takeWhile_cons_of_neg hfx] at ha
      exact absurd ha List.not_mem_nil
  | space hx h ih =>
    rw [List.takeWhile_cons_of_pos (hf ' ' (by decide))] at ha
    rw [List.takeWhile_cons_of_pos (hf _ hx)]
    rcases List.mem_cons.1 ha with rfl | ha
    · exact absurd hc (by decide)
    · exact List.mem_cons_of_mem _ (ih ha)
  | drop hx _ h ih =>
    rw [List.takeWhile_cons_of_pos (hf _ hx)]
    exact List.mem_cons_of_mem _ (ih ha)

theorem Squeezed.mem_iff {a b : List Char} (h : Squeezed a b) {c : Char} (hc : isBlank c = false) :
    c ∈ a ↔ c ∈ b := by
  have hinked : ∀ cs : List Char, c ∈ inked cs ↔ c ∈ cs := fun cs => by
    rw [inked, List.mem_filter]
    simp [hc]
  rw [← hinked a, ← hinked b, h.inked_eq]

theorem Squeezed.head?_of_not_blank {a b : List Char} (h : Squeezed a b) {c : Char}
    (hc : isBlank c = false) (ha : a.head? = some c) : b.head? = some c := by
  cases h with
  | nil => exact ha
  | keep _ _ => exact ha
  | space _ _ =>
    cases ha
    exact absurd hc (by decide)
  | drop _ hhead _ =>
    rw [hhead c ha] at hc
    exact absurd hc (by decide)

theorem Squeezed.any_isBlank_head? {a b : List Char} (h : Squeezed a b)
    (ha : a.head?.any isBlank = true) : b.head?.any isBlank = true := by
  cases h with
  | nil => exact ha
  | keep hc _ => exact ha
  | space hc _ => exact hc
  | drop hc _ _ => exact hc

/-- The codes of the blanks. -/
def blankCodes : List Nat :=
  [9, 10, 11, 12, 13, 28, 29, 30, 31, 32, 0x85, 0xA0, 0x1680, 0x2000, 0x2001, 0x2002, 0x2003, 0x2004,
    0x2005, 0x2006, 0x2007, 0x2008, 0x2009, 0x200A, 0x2028, 0x2029, 0x202F, 0x205F, 0x3000]

theorem toNat_mem_blankCodes {c : Char} (h : isBlank c = true) : c.toNat ∈ blankCodes := by
  rw [isBlank] at h
  simp only [blankCodes, List.mem_cons, List.not_mem_nil, or_false]
  split at h
  all_goals
    simp only [Bool.or_eq_true, Bool.and_eq_true, decide_eq_true_eq, beq_iff_eq] at h
    omega

/-- A blank is no part of a tag. -/
theorem isTagChar_of_isBlank {c : Char} (h : isBlank c = true) : isTagChar c = false := by
  have hcodes : ∀ n ∈ blankCodes, isTagChar (Char.ofNat n) = false := by decide +kernel
  have hc := hcodes c.toNat (toNat_mem_blankCodes h)
  rwa [Char.ofNat_toNat] at hc

theorem isWord_of_isBlank {c : Char} (h : isBlank c = true) : isWord c = false := by
  have htag := isTagChar_of_isBlank h
  rw [isTagChar, Bool.or_eq_false_iff, Bool.or_eq_false_iff] at htag
  exact htag.1.1

theorem isBlank_of_isWord {c : Char} (h : isWord c = true) : isBlank c = false :=
  Bool.eq_false_iff.2 fun hblank => Bool.false_ne_true ((isWord_of_isBlank hblank).symm.trans h)

theorem Squeezed.isCalm {a b : List Char} (h : Squeezed a b) {c : Char}
    (hc : isCalm b c = true) : isCalm a c = true := by
  have hhead : ∀ x, isBlank x = false → (b.head? != some x) = true → (a.head? != some x) = true := by
    intro x hx hb
    rw [bne_iff_ne] at hb ⊢
    exact fun ha => hb (h.head?_of_not_blank hx ha)
  rw [Text.isCalm.eq_def] at hc ⊢
  split at hc
  · cases hc
  · cases hc
  · cases hc
  · cases hc
  · exact hhead '-' (by decide) hc
  · exact hhead '*' (by decide) hc
  · rw [Bool.not_eq_true', Bool.eq_false_iff] at hc ⊢
    exact fun ha => hc (h.any_isBlank_head? ha)
  · rw [bne_iff_ne] at hc ⊢
    exact fun ha => hc (h.head?_dropWhile (fun _ => isTagChar_of_isBlank) (by decide) ha)
  · rw [Bool.or_eq_true, Bool.not_eq_true', Bool.eq_false_iff, ne_eq, List.contains_iff_mem,
      List.all_eq_true] at hc ⊢
    refine hc.imp (fun hb ha => hb ((h.mem_iff (by decide)).1 ha)) fun hb x hx => ?_
    -- a parenthesis is no blank, so it would stand in both texts
    by_cases hparen : isParen x = true
    · refine hb x (h.mem_takeWhile (fun y hy => ?_) ?_ hx)
      · exact bne_iff_ne.2 fun e => absurd hy (by rw [e]; decide)
      · rw [isParen, Bool.or_eq_true, beq_iff_eq, beq_iff_eq] at hparen
        rcases hparen with rfl | rfl <;> decide
    · simpa using hparen
  · rfl

theorem Squeezed.isPlain {a b : List Char} (h : Squeezed a b) (hb : isPlain b = true) :
    isPlain a = true := by
  induction h with
  | nil => rfl
  | keep _ h ih =>
    obtain ⟨hcalm, hrest⟩ := isPlain_cons hb
    exact Bool.and_eq_true_iff.2 ⟨h.isCalm hcalm, ih hrest⟩
  | space _ _ ih => exact ih (isPlain_cons hb).2
  | drop _ _ _ ih => exact ih (isPlain_cons hb).2

theorem isPlain_squeeze {cs : List Char} (h : isPlain cs = true) : isPlain (squeeze cs) = true := by
  obtain ⟨a, b, -, rfl, hsqueezed⟩ := squeezed_squeeze cs
  have hb := isPlain_drop h a.length
  rw [List.drop_left] at hb
  exact hsqueezed.isPlain hb

end Text

/-! ## Readers that close what they open -/

namespace Pattern

theorem closes_star {p : Pattern} (hp : Closes p) : Closes (star p) := by
  have hrounds : ∀ rounds cs, isPlain cs = true → Neutral (cs.take (coverAgain p rounds cs)) := by
    intro rounds
    induction rounds with
    | zero =>
      intro cs _
      rw [coverAgain, List.take_zero]
      exact neutral_nil
    | succ rounds ih =>
      intro cs hcs
      rw [coverAgain]
      split
      · next n hn =>
        rw [List.take_add]
        exact (hp cs (n + 1) hcs hn).append (ih _ (isPlain_drop hcs _))
      · rw [List.take_zero]
        exact neutral_nil
  intro cs n hcs h
  cases h
  exact hrounds cs.length cs hcs

/-- A name in brackets, in which another bracket may stand. -/
theorem closes_enclosed : Closes (Identifier.enclosed '[' ']') := by
  intro cs n hcs h
  obtain ⟨m, k, hm, hk, rfl⟩ := andThen_eq_some.1 h
  obtain ⟨hhead, rfl⟩ := char_eq_some.1 hm
  obtain ⟨rest, rfl⟩ := List.head?_eq_some_iff.1 hhead
  obtain ⟨i, j, hi, hj, rfl⟩ := andThen_eq_some.1 hk
  obtain ⟨hclose, rfl⟩ := char_eq_some.1 hj
  obtain ⟨tail, htail⟩ : ∃ tail, rest.drop i = ']' :: tail := List.head?_eq_some_iff.1 hclose
  have hinner : ∀ c ∈ rest.take i, (c != ']') = true := class_of_many1 hi
  have hcalm : isCalm (rest.take i ++ ']' :: tail) '[' = true := by
    rw [← htail, List.take_append_drop]
    exact (isPlain_cons hcs).1
  have hcovered : ('[' :: rest).take (1 + (i + 1)) = '[' :: (rest.take i ++ [']']) := by
    rw [Nat.add_comm, List.take_succ_cons, List.take_add, htail]
    rfl
  rw [hcovered]
  exact neutral_bracketed hcalm hinner

theorem closes_qualified : Closes Identifier.qualified := by
  have hdouble : Absent (Identifier.enclosed '"' '"') :=
    (absent_quote (fun _ => rfl) (by decide)).andThen _
  have hback : Absent (Identifier.enclosed '`' '`') :=
    (absent_quote (fun _ => rfl) (by decide)).andThen _
  have hpart : Closes Identifier.part :=
    hdouble.tame.closes.orElse (hback.tame.closes.orElse
      (closes_enclosed.orElse (tame_many1 (by decide)).closes))
  have hblanks : Closes blanks := (tame_many (by decide)).closes
  exact hpart.andThen (closes_star
    (hblanks.andThen ((tame_char (by decide)).closes.andThen (hblanks.andThen hpart))))

theorem closes_createWords : Closes Heading.createWords :=
  (tame_keyword (by decide)).closes.andThen (tame_blanks1.closes.andThen
    ((tame_oneOf (by decide)).lead.closes.andThen ((tame_oneOf (by decide)).lead.closes.andThen
      ((tame_keyword (by decide)).closes.andThen (tame_blanks1.closes.andThen
        (tame_phrase (by decide)).lead.closes)))))

end Pattern

namespace Reader

/-- A reader that closes the parentheses that it opens in a plain text. -/
def Closes {α : Type} (r : Reader α) : Prop :=
  ∀ cs a rest, isPlain cs = true → r cs = some (a, rest) → ∃ front, cs = front ++ rest ∧ Neutral front

theorem closes_skip {p : Pattern} (hp : p.Closes) : Closes (skip p) := by
  intro cs a rest hcs h
  obtain ⟨n, hn, hrest⟩ := Option.map_eq_some_iff.1 h
  cases hrest
  exact ⟨cs.take n, (List.take_append_drop n cs).symm, hp cs n hcs hn⟩

theorem closes_take {p : Pattern} (hp : p.Closes) : Closes (take p) := by
  intro cs a rest hcs h
  obtain ⟨n, hn, hrest⟩ := Option.map_eq_some_iff.1 h
  cases hrest
  exact ⟨cs.take n, (List.take_append_drop n cs).symm, hp cs n hcs hn⟩

theorem Closes.bind {α β : Type} {r : Reader α} {f : α → Reader β} (hr : Closes r)
    (hf : ∀ a, Closes (f a)) : Closes (r >>= f) := by
  intro cs b rest hcs h
  obtain ⟨⟨a, mid⟩, ha, hb⟩ := Option.bind_eq_some_iff.1 h
  obtain ⟨front, rfl, hfront⟩ := hr cs a mid hcs ha
  have hmid : isPlain mid = true := by
    have h := isPlain_drop hcs front.length
    rwa [List.drop_left] at h
  obtain ⟨back, rfl, hback⟩ := hf a mid b rest hmid hb
  exact ⟨front ++ back, (List.append_assoc ..).symm, hfront.append hback⟩

end Reader

/-- **The heading of a creation** ends at its first open parenthesis. -/
theorem Heading.exists_of_created {cs written rest : List Char} (hcs : isPlain cs = true)
    (h : created cs = some (written, rest)) : ∃ front, cs = front ++ rest ∧ Neutral front := by
  refine (?_ : Reader.Closes created) cs written rest hcs h
  refine (Reader.closes_skip Pattern.closes_createWords).bind fun _ =>
    (Reader.closes_take Pattern.closes_qualified).bind fun name =>
    (Reader.closes_skip (Pattern.tame_many (by decide)).closes).bind fun _ => ?_
  intro cs a rest _ h
  dsimp only at h
  split at h
  · cases h
    exact ⟨[], rfl, neutral_nil⟩
  · cases h

end SchemaSketch
