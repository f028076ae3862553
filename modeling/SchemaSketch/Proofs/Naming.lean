import SchemaSketch.Naming
import SchemaSketch.Proofs.Text.Case
import SchemaSketch.Proofs.Text.Squeeze

/-!
# Names made of words stand on one line

A line end separates words, and changing the case of letters makes none. So the name that is made of the words of
a table or of a column stands on one line, whatever the table or the column is called.
-/

namespace SchemaSketch.Naming

open Text

theorem newline_not_mem_wordsOf {name word : List Char} (h : word ∈ wordsOf name) : '\n' ∉ word := by
  intro hmem
  have := not_of_mem_runsFrom (fun c hc => absurd hc List.not_mem_nil) h '\n' hmem
  exact absurd this (by decide)

theorem newline_not_mem_capitalised {word : List Char} (h : '\n' ∉ word) : '\n' ∉ capitalised word := by
  cases word with
  | nil => exact List.not_mem_nil
  | cons c rest =>
    obtain ⟨hc, hrest⟩ := not_or.1 (mt List.mem_cons.2 h)
    rw [capitalised, List.mem_append]
    exact not_or.2 ⟨newline_not_mem_capitalForm (Ne.symm hc), newline_not_mem_lower hrest⟩

theorem newline_not_mem_pascal {words : List (List Char)} (h : ∀ word ∈ words, '\n' ∉ word) : '\n' ∉ pascal words := by
  intro hmem
  obtain ⟨word, hword, hmem⟩ := List.mem_flatMap.1 hmem
  exact newline_not_mem_capitalised (h word hword) hmem

theorem newline_not_mem_camel {words : List (List Char)} (h : ∀ word ∈ words, '\n' ∉ word) : '\n' ∉ camel words := by
  cases words with
  | nil => exact List.not_mem_nil
  | cons first others =>
    obtain ⟨hfirst, hothers⟩ := List.forall_mem_cons.1 h
    rw [camel, List.mem_append]
    exact not_or.2 ⟨newline_not_mem_lower hfirst, newline_not_mem_pascal hothers⟩

theorem newline_not_mem_pascalCase (name : String) : '\n' ∉ (pascalCase name).toList := by
  rw [pascalCase, String.toList_ofList]
  exact newline_not_mem_pascal fun _ => newline_not_mem_wordsOf

/-- The name of an entity stands on one line. -/
theorem newline_not_mem_entityName (table : String) : '\n' ∉ (entityName table).toList := by
  rw [entityName, String.toList_ofList]
  exact newline_not_mem_pascal fun _ => newline_not_mem_wordsOf

/-- The name of a field stands on one line. -/
theorem newline_not_mem_fieldName (column : String) : '\n' ∉ (fieldName column).toList := by
  rw [fieldName, camelCase, String.toList_ofList]
  exact newline_not_mem_camel fun _ => newline_not_mem_wordsOf

end SchemaSketch.Naming
