import Mathlib
import SchemaSketch.Text.Case

/-!
# Marks are no forms of letters

A mark such as a line end or a parenthesis is the form of no other character (`isUncased`). So what has none of them
gets none when the case of its letters is changed: a text on one line stays on it (`newline_not_mem_lower`).
-/

namespace SchemaSketch.Text

/-- A character that no other one becomes when letters are made capitals: the tables of forms do not have it. -/
def isUncased (mark : Char) : Bool :=
  mark.toNat != 0
    && (List.range 128).all (fun n => Char.ofNat n == mark || (Char.ofNat n).toUpper != mark)
    && upperExpansions.all (fun (_, codes) => !(codes.map Char.ofNat).contains mark)
    && upperRuns.all fun (first, last, _, target) => mark.toNat < target || target + (last - first) < mark.toNat

theorem eq_of_ofNat_eq {mark : Char} (hmark : mark.toNat ≠ 0) {n : Nat} (h : Char.ofNat n = mark) : n = mark.toNat := by
  have hcode := congrArg Char.toNat h
  rw [Char.toNat_ofNat] at hcode
  split at hcode
  · exact hcode
  · exact absurd hcode.symm hmark

/-- Outside the runs of a case table nothing changes, and nothing in them comes to a code that they leave out. -/
theorem eq_of_mapInRuns_eq {k : Nat} {runs : List (Nat × Nat × Nat × Nat)}
    (h : ∀ run ∈ runs, k < run.2.2.2 ∨ run.2.2.2 + (run.2.1 - run.1) < k) {n : Nat} (hn : mapInRuns runs n = k) :
    n = k := by
  induction runs with
  | nil => exact hn
  | cons run rest ih =>
    obtain ⟨first, last, step, target⟩ := run
    obtain ⟨htarget, hrest⟩ := List.forall_mem_cons.1 h
    rw [mapInRuns] at hn
    split at hn
    · exact hn
    split at hn
    · next hin =>
      rw [Bool.and_eq_true, decide_eq_true_eq] at hin
      dsimp only at htarget
      omega
    · exact ih hrest hn

/-- **What is no mark does not become one.** -/
theorem not_mem_capitalForm {mark : Char} (hmark : isUncased mark = true) {c : Char} (h : c ≠ mark) :
    mark ∉ capitalForm c := by
  simp only [isUncased, Bool.and_eq_true, bne_iff_ne, List.all_eq_true, List.mem_range, Bool.or_eq_true, beq_iff_eq,
    decide_eq_true_eq, Bool.not_eq_true', List.contains_eq_mem, decide_eq_false_iff_not] at hmark
  obtain ⟨⟨⟨hzero, hascii⟩, hexpansions⟩, hruns⟩ := hmark
  rw [capitalForm]
  split
  · next hlow =>
    have hupper := hascii c.toNat hlow
    rw [Char.ofNat_toNat] at hupper
    exact fun hmem => hupper.resolve_left h (List.mem_singleton.1 hmem).symm
  · split
    · next x hfind => exact hexpansions _ (List.mem_of_find?_eq_some hfind)
    · intro hmem
      have hcode := eq_of_ofNat_eq hzero (List.mem_singleton.1 hmem).symm
      have hself := eq_of_mapInRuns_eq hruns hcode
      exact h (by rw [← Char.ofNat_toNat c, hself, Char.ofNat_toNat])

theorem newline_not_mem_capitalForm {c : Char} (h : c ≠ '\n') : '\n' ∉ capitalForm c :=
  not_mem_capitalForm (by decide +kernel) h

theorem newline_not_mem_smallFormAt (afterCased : Bool) {c : Char} (h : c ≠ '\n') (rest : List Char) :
    '\n' ∉ smallFormAt afterCased c rest := by
  have hascii : ∀ n < 128, Char.ofNat n ≠ '\n' → (Char.ofNat n).toLower ≠ '\n' := by decide
  have hsmall : smallForm c ≠ '\n' := by
    rw [smallForm]
    split
    · next hlow =>
      have hlower := hascii c.toNat hlow
      rw [Char.ofNat_toNat] at hlower
      exact hlower h
    split
    · decide
    · intro hcode
      have hself := eq_of_mapInRuns_eq (by decide +kernel) (eq_of_ofNat_eq (by decide) hcode)
      exact h (by rw [← Char.ofNat_toNat c, hself, Char.ofNat_toNat])
  rw [smallFormAt]
  split
  · split <;> decide
  split
  · decide
  · exact fun hmem => hsmall (List.mem_singleton.1 hmem).symm

theorem newline_not_mem_lowerAfter {cs : List Char} (h : '\n' ∉ cs) (afterCased : Bool) :
    '\n' ∉ lowerAfter afterCased cs := by
  induction cs generalizing afterCased with
  | nil => exact List.not_mem_nil
  | cons c rest ih =>
    obtain ⟨hc, hrest⟩ := not_or.1 (mt List.mem_cons.2 h)
    rw [lowerAfter, List.mem_append]
    exact not_or.2 ⟨newline_not_mem_smallFormAt afterCased (Ne.symm hc) rest, ih hrest _⟩

/-- A text on one line stays on it when its letters become small. -/
theorem newline_not_mem_lower {cs : List Char} (h : '\n' ∉ cs) : '\n' ∉ lower cs :=
  newline_not_mem_lowerAfter h false

end SchemaSketch.Text
