import SchemaSketch.Proofs.Except
import SchemaSketch.Sql.Statement

/-!
# The limits of a script

A script is refused if one of its segments is too much (`Script.Fits`), and for what is wrong with the first
of these. Otherwise it is cut into statements (`Statement.prepare_eq`).
-/

namespace SchemaSketch

open Text

/-! ## Limits -/

namespace Script

/-- The segments that a script is cut into when its comments are out; a blank script has none. -/
def segmentsOf (script : List Char) : List (List Token) :=
  if script.all isBlank then [] else cut (Token.lex (Comment.strip script))

/-- A segment that is not too much. -/
structure Fits (segment : List Token) : Prop where
  /-- it does not have too many tokens -/
  length_le : segment.length ≤ maxTokens
  /-- its parentheses are not nested too deep -/
  nesting_le : nesting segment ≤ maxDepth

theorem check_eq_ok {segment : List Token} : check segment = .ok () ↔ Fits segment := by
  rw [check]
  split
  · next h => exact ⟨fun h => (by cases h), fun e => absurd e.length_le (by omega)⟩
  split
  · next h => exact ⟨fun h => (by cases h), fun e => absurd e.nesting_le (by omega)⟩
  · next h h' => exact ⟨fun _ => ⟨by omega, by omega⟩, fun _ => rfl⟩

/-- What is done with segments once they have been checked. -/
theorem map_forM_check_eq_ok {α : Type} {segments : List (List Token)} {a b : α} :
    (segments.forM check).map (fun _ => a) = .ok b ↔ (∀ segment ∈ segments, Fits segment) ∧ a = b := by
  have hfits : (∀ segment ∈ segments, Fits segment) ↔ segments.forM check = .ok () := by
    rw [Except.forM_eq_ok]
    exact forall₂_congr fun _ _ => check_eq_ok.symm
  rw [hfits]
  cases segments.forM check with
  | error cause =>
    refine ⟨fun h => (by cases h), ?_⟩
    rintro ⟨h, -⟩
    cases h
  | ok _ => exact ⟨fun h => ⟨rfl, Except.ok.inj h⟩, fun h => congrArg Except.ok h.2⟩

end Script

namespace Statement

/-- A text without comments is cut into statements, or refused for what is wrong with a segment. -/
theorem split_eq (script : List Char) :
    split script = ((Script.cut (Token.lex script)).forM Script.check).map fun _ =>
      (Script.cut (Token.lex script)).flatMap ofSegment := by
  rw [split, Script.segments]
  cases (Script.cut (Token.lex script)).forM Script.check <;> rfl

theorem split_eq_ok {script : List Char} {statements : List (List Char)} :
    split script = .ok statements ↔ (∀ segment ∈ Script.cut (Token.lex script), Script.Fits segment) ∧
      (Script.cut (Token.lex script)).flatMap ofSegment = statements := by
  rw [split_eq, Script.map_forM_check_eq_ok]

/-- A script is cut into statements, or refused for what is wrong with a segment. -/
theorem prepare_eq (script : List Char) :
    prepare script = ((Script.segmentsOf script).forM Script.check).map fun _ =>
      ((Script.segmentsOf script).flatMap ofSegment).map squeeze := by
  rw [prepare, Script.segmentsOf]
  split
  · rfl
  · rw [split_eq]
    cases (Script.cut (Token.lex (Comment.strip script))).forM Script.check <;> rfl

theorem prepare_eq_ok {script : List Char} {statements : List (List Char)} :
    prepare script = .ok statements ↔ (∀ segment ∈ Script.segmentsOf script, Script.Fits segment) ∧
      ((Script.segmentsOf script).flatMap ofSegment).map squeeze = statements := by
  rw [prepare_eq, Script.map_forM_check_eq_ok]

end Statement
end SchemaSketch
