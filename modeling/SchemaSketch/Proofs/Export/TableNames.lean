import SchemaSketch.Export.Script
import SchemaSketch.Proofs.Naming.Humps

/-!
# Tables that are named for their entities

An entity without a table of its own is written into the table of its plural: its name in snake case with an `s` behind
it. When the script is read, the entity of a table gets its name from the singular of the last word. An `s` is dropped
for that, but none behind another `s`. So an entity comes back under its name unless the name ends in `s` already; then
the second `s` stays (`entityName_tableName`).
-/

namespace SchemaSketch

open Text

namespace Naming

/-- The word with an `s` behind it. -/
def Word.plural (w : Word) : Word where
  initial := w.initial
  rest := w.rest ++ ['s']
  small := w.small
  ground := List.forall_mem_append.2 ⟨w.ground, List.forall_mem_singleton.2 rfl⟩

/-- Whether an `s` is the last letter of the word. -/
def Word.EndsInS (w : Word) : Prop := w.text.getLast? = some 's'

instance (w : Word) : Decidable w.EndsInS := inferInstanceAs (Decidable (_ = _))

/-- The word that is taken for the singular of a word's plural. -/
def Word.readBack (w : Word) : Word := if w.EndsInS then w.plural else w

/-- An `s` is dropped if no other one stands before it. -/
theorem singularWord_plural (w : Word) : singularWord w.plural.text = w.readBack.text := by
  have htext : w.plural.text = w.text ++ ['s'] := rfl
  obtain ⟨front, last, hlast⟩ : ∃ front last, w.text = front ++ [last] :=
    ⟨_, _, (List.dropLast_append_getLast (List.cons_ne_nil w.initial w.rest)).symm⟩
  have hends : w.EndsInS ↔ last = 's' := by rw [Word.EndsInS, hlast, List.getLast?_concat, Option.some.injEq]
  have hlow : ∀ c ∈ [last, 's'], isLowGround c = true :=
    List.forall_mem_cons.2 ⟨w.isLowGround last (hlast ▸ by simp), List.forall_mem_singleton.2 rfl⟩
  have hreverse : w.plural.text.reverse = 's' :: last :: front.reverse := by
    rw [htext, hlast, List.reverse_append, List.reverse_append]
    rfl
  rw [singularWord, hreverse]
  simp only [lower_of_isLowGround hlow, Word.readBack, hends]
  by_cases h : last = 's'
  · simp [h]
  · simp [h, hlast]

theorem singularLast_plural (front : List Word) (last : Word) :
    singularLast ((front ++ [last.plural]).map Word.text) = (front ++ [last.readBack]).map Word.text := by
  induction front with
  | nil => exact congrArg (fun word => [word]) (singularWord_plural last)
  | cons w front ih =>
    obtain ⟨next, more, hmore⟩ : ∃ next more, (front ++ [last.plural]).map Word.text = next :: more :=
      List.exists_cons_of_ne_nil (by simp)
    rw [List.cons_append, List.map_cons, hmore, singularLast, ← hmore, ih]
    rfl

/-- The name that words make with capitals at their beginnings. -/
def pascalName (words : List Word) : String := String.ofList (pascalText words)

theorem snakeName_plural (front : List Word) (last : Word) :
    snakeName (front ++ [last]) ++ "s" = snakeName (front ++ [last.plural]) := by
  have htext : snakeText (front ++ [last]) ++ ['s'] = snakeText (front ++ [last.plural]) := by
    cases front with
    | nil => rfl
    | cons first front =>
      simp only [List.cons_append, snakeText_cons, List.flatMap_append, List.flatMap_singleton, List.append_assoc]
      rfl
  rw [snakeName, snakeName, ← htext, String.ofList_append]

/-- The entity of a table has the words of the table, the last one without the `s` that is dropped. -/
theorem entityName_snakeName_plural (front : List Word) (last : Word) :
    entityName (snakeName (front ++ [last.plural])) = pascalName (front ++ [last.readBack]) := by
  rw [entityName, snakeName, String.toList_ofList, wordsOf_snakeText, singularLast_plural, ← snakeText,
    wordsOf_snakeText, pascal_map_text, pascalName]

theorem pascalName_plural (front : List Word) (last : Word) :
    pascalName (front ++ [last.plural]) = pascalName (front ++ [last]) ++ "s" := by
  have htext : pascalText (front ++ [last.plural]) = pascalText (front ++ [last]) ++ ['s'] := by
    simp only [pascalText, List.flatMap_append, List.flatMap_singleton, List.append_assoc]
    rfl
  rw [pascalName, pascalName, htext, String.ofList_append]

end Naming

namespace Export

open Naming

/-- **The entity of the table that is named for an entity** has its name, unless the name ends in `s`: then another one
is left behind it. -/
theorem entityName_tableName {e : Document.Entity} (htable : e.tableName.isGiven = false) {front : List Word}
    {last : Word} (hname : e.name = .string (pascalName (front ++ [last]))) (hlong : ∀ w ∈ front, 2 ≤ w.text.length) :
    ∃ table, tableName e = .ok (.string table) ∧
      (entityName table = pascalName (front ++ [last]) ↔ ¬ last.EndsInS) ∧
      (last.EndsInS → entityName table = pascalName (front ++ [last]) ++ "s") := by
  have hsnake : snakeCase (pascalName (front ++ [last])) = snakeName (front ++ [last]) :=
    snakeCase_pascalText (by rwa [List.dropLast_concat])
  refine ⟨snakeName (front ++ [last.plural]), ?_, ?_⟩
  · rw [tableName, htable, if_neg Bool.false_ne_true, snake, hname, text, ← snakeName_plural, ← hsnake]
    rfl
  rw [entityName_snakeName_plural, Word.readBack]
  by_cases h : last.EndsInS
  · rw [if_pos h, pascalName_plural]
    have hlonger : pascalName (front ++ [last]) ++ "s" ≠ pascalName (front ++ [last]) := fun heq =>
      absurd (congrArg String.length heq) (by simp)
    exact ⟨iff_of_false hlonger (not_not_intro h), fun _ => rfl⟩
  · rw [if_neg h]
    exact ⟨iff_of_true rfl h, fun hends => absurd hends h⟩

/-- An entity of two words. -/
def userProfile : Document.Entity :=
  ⟨.string "entity-1", .string "UserProfile", .null, [], []⟩

theorem entityName_tableName_userProfile :
    ∃ table, tableName userProfile = .ok (.string table) ∧ entityName table = "UserProfile" := by
  let user : Word := ⟨'u', "ser".toList, rfl, List.all_eq_true.1 rfl⟩
  let profile : Word := ⟨'p', "rofile".toList, rfl, List.all_eq_true.1 rfl⟩
  have hname : pascalName ([user] ++ [profile]) = "UserProfile" := by decide +kernel
  obtain ⟨table, htable, hback, -⟩ := entityName_tableName (e := userProfile) rfl (congrArg Json.string hname.symm)
    (List.forall_mem_singleton.2 (by decide))
  rw [hname] at hback
  exact ⟨table, htable, hback.2 (by decide)⟩

/-- The second `s` of an address is one too many, and it keeps the third. -/
theorem not_entityName_tableName_address :
    tableName { userProfile with name := .string "Address" } = .ok (.string "addresss") ∧
      entityName "addresss" = "Addresss" ∧ "Addresss" ≠ "Address" := by
  refine ⟨rfl, ?_, by decide⟩
  cbv

end Export

end SchemaSketch
