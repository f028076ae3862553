import SchemaSketch.Proofs.Sql.Heading
import SchemaSketch.Proofs.Text.Case

/-!
# Capitals and words

The capital form of a blank is the blank itself, and no other capital form has a blank in it. So a text in capitals has
the words of the text, in capitals (`words_upper`).
-/

namespace SchemaSketch.Text

theorem of_isBlank {motive : Char → Prop} (h : ∀ n ∈ blankCodes, motive (Char.ofNat n)) {c : Char}
    (hc : isBlank c = true) : motive c := by
  rw [← Char.ofNat_toNat c]
  exact h c.toNat (toNat_mem_blankCodes hc)

theorem capitalForm_ne_nil (c : Char) : capitalForm c ≠ [] := by
  have hexpansions : ∀ x ∈ upperExpansions, x.2 ≠ [] := by decide
  rw [capitalForm]
  split
  · exact List.cons_ne_nil _ _
  · split
    · next x hfind => exact fun hnil => hexpansions _ (List.mem_of_find?_eq_some hfind) (List.map_eq_nil_iff.1 hnil)
    · exact List.cons_ne_nil _ _

/-- What is no blank does not become one, and what is one stays one. -/
theorem isBlank_of_mem_capitalForm {c d : Char} (h : d ∈ capitalForm c) : isBlank d = isBlank c := by
  by_cases hd : isBlank d = true
  · have huncased : isUncased d = true :=
      of_isBlank (motive := fun d => isUncased d = true) (by decide +kernel) hd
    by_cases hc : c = d
    · rw [hc]
    · exact absurd h (not_mem_capitalForm huncased hc)
  · by_cases hc : isBlank c = true
    · have hself : capitalForm c = [c] :=
        of_isBlank (motive := fun c => capitalForm c = [c]) (by decide +kernel) hc
      rw [hself] at h
      rw [List.mem_singleton.1 h]
    · rw [Bool.eq_false_iff.2 hd, Bool.eq_false_iff.2 hc]

/-- **The words of a text in capitals** are its words in capitals. -/
theorem words_upper (cs : List Char) : words (upper cs) = (words cs).map upper := by
  have hopen : ∀ c current, ¬ (upper (c :: current).reverse).reverse.isEmpty = true := fun c current => by
    simp [upper, capitalForm_ne_nil]
  have hrunsFrom : ∀ current, runsFrom isBlank (upper current.reverse).reverse (upper cs)
      = (runsFrom isBlank current cs).map upper := by
    induction cs with
    | nil =>
      intro current
      cases current with
      | nil => rfl
      | cons c current =>
        have hnil : upper [] = [] := rfl
        rw [hnil, runsFrom, runsFrom, if_neg (hopen c current), if_neg (by simp), List.reverse_reverse]
        rfl
    | cons c rest ih =>
      intro current
      have hforms : ∀ d ∈ capitalForm c, isBlank d = isBlank c := fun d hd => isBlank_of_mem_capitalForm hd
      have hcons : upper (c :: rest) = capitalForm c ++ upper rest := List.flatMap_cons
      cases hc : isBlank c with
      | false =>
        rw [hcons, runsFrom_append fun d hd => (hforms d hd).trans hc, ← List.reverse_append, runsFrom, hc,
          if_neg Bool.false_ne_true, ← ih, List.reverse_cons, upper_append]
        congr 3
        exact (List.append_nil _).symm
      | true =>
        obtain ⟨d, more, hmore⟩ := List.exists_cons_of_ne_nil (capitalForm_ne_nil c)
        rw [hmore] at hforms
        obtain ⟨hd, hrest⟩ := List.forall_mem_cons.1 hforms
        have hblank : Blank more := fun x hx => (hrest x hx).trans hc
        have hwords : runsFrom isBlank [] (more ++ upper rest) = (runsFrom isBlank [] rest).map upper :=
          (words_blank_append hblank _).trans (ih [])
        rw [hcons, hmore, List.cons_append, runsFrom, hd, hc, if_pos rfl, hwords, runsFrom, hc, if_pos rfl]
        cases current with
        | nil => rfl
        | cons x current =>
          rw [if_neg (hopen x current), if_neg (by simp), List.reverse_reverse]
          rfl
  exact hrunsFrom []

end SchemaSketch.Text
