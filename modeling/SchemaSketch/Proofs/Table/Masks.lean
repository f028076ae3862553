import SchemaSketch.Proofs.Sql.Parts
import SchemaSketch.Proofs.Text.Search

/-!
# Literals emptied

The words of the flags are looked for in a text in which each literal is empty. How far a literal goes is told as
in the taking out of comments: up to the quote that closes it (`Comment.literalCloses`), if none follows. So a text
whose literals are closed (`Closed`) loses what stands in them and nothing else, and what follows it does not
matter (`Closed.withoutLiterals_append`).
-/

namespace SchemaSketch

open Text Comment

/-! ## The end of a literal -/

namespace Token

theorem closing_literal {cs : List Char} (h : literalCloses cs = true) {rest : List Char}
    (hrest : rest.head? ≠ some '\'') (passed : Nat) (fallback : Option Nat) :
    closing '\'' true passed fallback (cs ++ rest) = some (passed + cs.length) := by
  fun_induction literalCloses cs generalizing passed fallback with
  | case1 => cases h
  | case2 c =>
    rw [List.singleton_append]
    cases rest with
    | nil => rw [closing, if_pos h]; rfl
    | cons d rest =>
      have hd : ¬ (d == '\'') = true := fun hd => hrest (congrArg some (beq_iff_eq.1 hd))
      rw [closing, if_pos h, if_neg hd]
      rfl
  | case3 c d more hpair ih =>
    -- a pair that stands for a quote: the literal goes on behind it, and ends there at the latest
    rw [Bool.and_eq_true, Bool.or_eq_true] at hpair
    have hlength : ∀ n, n + 2 + more.length = n + (c :: d :: more).length := fun n => by
      rw [List.length_cons, List.length_cons]
      omega
    rw [List.cons_append, List.cons_append, closing]
    by_cases hc : (c == '\'') = true
    · rw [if_pos hc, if_pos hpair.2, ih h, hlength]
    · have hescape : (true && c == '\\' && d == '\'') = true := by
        rw [hpair.1.resolve_left hc, hpair.2]
        rfl
      rw [if_neg hc, if_pos hescape, ih h, hlength]
  | case4 c d more hpair ih =>
    rw [Bool.and_eq_true, bne_iff_ne] at h
    have hc : ¬ (c == '\'') = true := fun hc => h.1 (beq_iff_eq.1 hc)
    have hescape : ¬ (true && c == '\\' && d == '\'') = true := fun hescape => by
      rw [Bool.true_and, Bool.and_eq_true] at hescape
      exact hpair (by rw [hescape.1, hescape.2, Bool.or_true]; rfl)
    rw [List.cons_append, List.cons_append, closing, if_neg hc, if_neg hescape, ← List.cons_append, ih h.2,
      List.length_cons (a := c), Nat.add_assoc, Nat.add_comm 1]

/-- A literal goes up to the quote that closes it. -/
theorem literal_apply {cs : List Char} (h : literalCloses cs = true) {rest : List Char}
    (hrest : rest.head? ≠ some '\'') : literal ('\'' :: (cs ++ rest)) = some (cs.length + 1) := by
  rw [literal, quotedBy, if_pos (beq_self_eq_true _), closing_literal h hrest, Nat.add_comm]

theorem literal_cons {c : Char} (hc : c ≠ '\'') (rest : List Char) : literal (c :: rest) = none := by
  rw [literal, quotedBy, if_neg (by simpa using hc)]

end Token

/-! ## Emptying -/

theorem Pattern.replaceAllFrom_eq (p : Pattern) (new : List Char) (passing : Nat) (cs : List Char) :
    replaceAllFrom p new passing cs = replaceAllFrom p new 0 (cs.drop passing) := by
  induction cs generalizing passing with
  | nil => rw [List.drop_nil, replaceAllFrom, replaceAllFrom]
  | cons c rest ih =>
    cases passing with
    | zero => rfl
    | succ passing => rw [replaceAllFrom, ih, List.drop_succ_cons]

namespace ColumnDefinition

theorem withoutLiterals_cons {c : Char} (hc : c ≠ '\'') (rest : List Char) :
    withoutLiterals (c :: rest) = c :: withoutLiterals rest := by
  rw [withoutLiterals, Pattern.replaceAll, Pattern.replaceAllFrom, Token.literal_cons hc]
  rfl

theorem withoutLiterals_literal {cs : List Char} (h : literalCloses cs = true) {rest : List Char}
    (hrest : rest.head? ≠ some '\'') :
    withoutLiterals ('\'' :: (cs ++ rest)) = '\'' :: '\'' :: withoutLiterals rest := by
  rw [withoutLiterals, Pattern.replaceAll, Pattern.replaceAllFrom, Token.literal_apply h hrest]
  dsimp only
  rw [Pattern.replaceAllFrom_eq, List.drop_left]
  rfl

/-- A text whose literals are closed: no quote follows the one that closes a literal. -/
inductive Closed : List Char → Prop where
  | nil : Closed []
  /-- a character outside of literals -/
  | char {c : Char} {rest : List Char} (hc : c ≠ '\'') (h : Closed rest) : Closed (c :: rest)
  /-- a literal -/
  | literal {cs rest : List Char} (hcs : literalCloses cs = true) (hrest : rest.head? ≠ some '\'')
      (h : Closed rest) : Closed ('\'' :: (cs ++ rest))

theorem closed_append {a : List Char} (ha : '\'' ∉ a) {b : List Char} (hb : Closed b) : Closed (a ++ b) := by
  induction a with
  | nil => exact hb
  | cons c a ih =>
    obtain ⟨hc, ha⟩ := not_or.1 (mt List.mem_cons.2 ha)
    exact .char (Ne.symm hc) (ih ha)

theorem closed_of_not_mem {cs : List Char} (h : '\'' ∉ cs) : Closed cs :=
  List.append_nil cs ▸ closed_append h .nil

/-- **What follows a text does not matter** to its literals, if these are closed and no quote follows. -/
theorem Closed.withoutLiterals_append {a : List Char} (ha : Closed a) {b : List Char} (hb : b.head? ≠ some '\'') :
    withoutLiterals (a ++ b) = withoutLiterals a ++ withoutLiterals b := by
  induction ha with
  | nil => rfl
  | char hc _ ih => rw [List.cons_append, withoutLiterals_cons hc, withoutLiterals_cons hc, ih, List.cons_append]
  | @literal cs rest hcs hrest _ ih =>
    have hmore : (rest ++ b).head? ≠ some '\'' := by
      cases rest with
      | nil => exact hb
      | cons d rest => exact hrest
    rw [List.cons_append, List.append_assoc, withoutLiterals_literal hcs hmore, withoutLiterals_literal hcs hrest,
      ih, List.cons_append, List.cons_append]

theorem withoutLiterals_append {a : List Char} (ha : '\'' ∉ a) (b : List Char) :
    withoutLiterals (a ++ b) = a ++ withoutLiterals b := by
  induction a with
  | nil => rfl
  | cons c a ih =>
    obtain ⟨hc, ha⟩ := not_or.1 (mt List.mem_cons.2 ha)
    rw [List.cons_append, withoutLiterals_cons (Ne.symm hc), ih ha, List.cons_append]

theorem withoutLiterals_of_not_mem {cs : List Char} (h : '\'' ∉ cs) : withoutLiterals cs = cs := by
  have happend := withoutLiterals_append h []
  rw [List.append_nil] at happend
  exact happend.trans (List.append_nil cs)

end ColumnDefinition
end SchemaSketch
