import Mathlib
import SchemaSketch.Text.Quoted
import SchemaSketch.Text.Trim

/-!
# Texts on one line

Numbers are written without a line end, and a line end inside a quoted text is escaped
(`newline_not_mem_quoted`).
-/

namespace SchemaSketch.Text

/-- The figures of a number are those of its digits. -/
theorem exists_digit_of_mem_toDigits {b : Nat} (hb : 1 < b) {n : Nat} {c : Char} (hc : c ∈ Nat.toDigits b n) :
    ∃ d < b, c = d.digitChar := by
  induction n using Nat.strongRecOn with
  | ind n ih =>
    by_cases hn : n < b
    · rw [Nat.toDigits_of_lt_base hn, List.mem_singleton] at hc
      exact ⟨n, hn, hc⟩
    · rw [Nat.toDigits_of_base_le hb (Nat.le_of_not_lt hn), List.mem_append, List.mem_singleton] at hc
      rcases hc with hc | hc
      · exact ih (n / b) (Nat.div_lt_self (by omega) hb) hc
      · exact ⟨n % b, Nat.mod_lt n (by omega), hc⟩

theorem newline_not_mem_toDigits {b : Nat} (hb : 1 < b) (hfew : b ≤ 16) (n : Nat) : '\n' ∉ Nat.toDigits b n := by
  have hnone : ∀ d < 16, '\n' ≠ Nat.digitChar d := by decide
  intro hmem
  obtain ⟨d, hd, hc⟩ := exists_digit_of_mem_toDigits hb hmem
  exact hnone d (by omega) hc

/-- A number stands on one line. -/
theorem newline_not_mem_toString (n : Nat) : '\n' ∉ (toString n).toList := by
  change '\n' ∉ n.repr.toList
  rw [Nat.toList_repr]
  exact newline_not_mem_toDigits (by decide) (by decide) n

theorem newline_not_mem_hexDigits (width n : Nat) : '\n' ∉ hexDigits width n := by
  rw [hexDigits, List.mem_append]
  exact not_or.2 ⟨fun hmem => absurd (List.eq_of_mem_replicate hmem) (by decide),
    newline_not_mem_toDigits (by decide) (by decide) n⟩

theorem newline_not_mem_quotedChar {quote : Char} (hquote : quote ≠ '\n') (c : Char) :
    '\n' ∉ quotedChar quote c := by
  unfold quotedChar
  split_ifs with hescaped hline hreturn htab hprints hbyte hunit
  · rw [List.mem_cons, List.mem_singleton]
    rcases Bool.or_eq_true _ _ ▸ hescaped with hc | hc
    · rw [beq_iff_eq.1 hc]
      exact not_or.2 ⟨by decide, Ne.symm hquote⟩
    · rw [beq_iff_eq.1 hc]
      decide
  · decide
  · decide
  · decide
  · rw [List.mem_singleton]
    exact fun hc => hline (beq_iff_eq.2 hc.symm)
  all_goals
    rw [List.mem_cons, List.mem_cons]
    exact not_or.2 ⟨by decide, not_or.2 ⟨by decide, newline_not_mem_hexDigits _ _⟩⟩

/-- **A quoted text stands on one line.** -/
theorem newline_not_mem_quoted (cs : List Char) : '\n' ∉ quoted cs := by
  have hquote : quoteFor cs ≠ '\n' := by
    rw [quoteFor]
    split <;> decide
  rw [quoted, List.mem_cons, List.mem_append, List.mem_flatMap, List.mem_singleton]
  rintro (hmem | ⟨c, -, hmem⟩ | hmem)
  · exact hquote hmem.symm
  · exact newline_not_mem_quotedChar hquote c hmem
  · exact hquote hmem.symm

/-- The beginning of a text on one line. -/
theorem newline_not_mem_clip {cs : List Char} (h : '\n' ∉ cs) (n : Nat) : '\n' ∉ (clip n cs).toList := by
  rw [clip, String.toList_ofList]
  exact fun hmem => h (List.mem_of_mem_take hmem)

end SchemaSketch.Text
