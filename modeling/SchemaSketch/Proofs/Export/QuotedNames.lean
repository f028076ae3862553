import SchemaSketch.Proofs.Table.Lines
import SchemaSketch.Proofs.Table.Origin
import SchemaSketch.Proofs.Text.Covers

/-!
# Quoted names are read again

A name that is read neither begins nor ends with what encloses names, and has no zero-width space in it; anything else
may stand in it. Written again it is enclosed, unless it is simple, and what encloses it is taken away when it is read.

Two names do not survive that. A double quote is written twice, but to the reader the first of the two ends the name.
And a simple name with a line end behind it is written bare, although no bare name has a line end in it. All others come
back (`Identifier.quote_readsBack_iff`).
-/

namespace SchemaSketch

open Text Pattern

/-! ## Trimmed texts -/

namespace Text

/-- A trimmed text begins and ends with characters that are kept. -/
theorem ends_trimBy (p : Char → Bool) (cs : List Char) :
    (∀ c ∈ (trimBy p cs).head?, p c = false) ∧ ∀ c ∈ (trimBy p cs).getLast?, p c = false := by
  have hdropped : ∀ (cs : List Char), ∀ c ∈ (cs.dropWhile p).head?, p c = false := by
    intro cs c hc
    have hhead := List.head?_dropWhile_not p cs
    rw [Option.mem_def.1 hc] at hhead
    exact hhead
  constructor
  · intro c hc
    obtain ⟨b, -, hsplit⟩ := exists_dropEnd p (cs.dropWhile p)
    refine hdropped cs c ?_
    rw [hsplit]
    obtain ⟨rest, hrest⟩ := List.head?_eq_some_iff.1 hc
    rw [← trimBy, hrest]
    rfl
  · intro c hc
    rw [trimBy, dropEnd, List.getLast?_reverse] at hc
    exact hdropped _ c hc

/-- What encloses a text is trimmed. -/
theorem trimBy_enclosed_subset {p : Char → Bool} {first last : Char} (hfirst : p first = true) (hlast : p last = true)
    (inner : List Char) : trimBy p (first :: (inner ++ [last])) ⊆ inner := by
  rw [trimBy, List.dropWhile_cons_of_pos hfirst, List.dropWhile_append]
  split
  · rw [List.dropWhile_cons_of_pos hlast]
    exact List.nil_subset _
  · rw [dropEnd_append (List.forall_mem_singleton.2 hlast)]
    obtain ⟨b, -, hsplit⟩ := exists_dropEnd p (inner.dropWhile p)
    intro c hc
    refine (List.dropWhile_suffix p).subset ?_
    rw [hsplit]
    exact List.mem_append_left b hc

end Text

/-! ## Names that are read -/

namespace Identifier

theorem zeroWidthSpace_not_mem_bareName (written : List Char) : zeroWidthSpace ∉ bareName written := by
  intro hmem
  have hfiltered := subset_trim _ (subset_bareName_trim written hmem)
  exact absurd (List.mem_filter.1 hfiltered).2 (by decide)

/-- A name begins and ends with characters that enclose none. -/
theorem ends_bareName (written : List Char) :
    (∀ c ∈ (bareName written).head?, isEnclosing c = false) ∧
      ∀ c ∈ (bareName written).getLast?, isEnclosing c = false :=
  ends_trimBy ..

/-- What is read as one identifier is enclosed, or bare. -/
theorem cases_of_covers_part {text : List Char} (h : Covers part text) :
    (∃ opening inner closing, text = opening :: (inner ++ [closing]) ∧ isEnclosing opening = true ∧
      isEnclosing closing = true ∧ closing ∉ inner) ∨ ∀ c ∈ text, isBareChar c = true := by
  have henclosed : ∀ {opening closing : Char}, isEnclosing opening = true → isEnclosing closing = true →
      Covers (enclosed opening closing) text → ∃ opening inner closing, text = opening :: (inner ++ [closing]) ∧
        isEnclosing opening = true ∧ isEnclosing closing = true ∧ closing ∉ inner := by
    intro opening closing hopening hclosing h
    obtain ⟨_, _, rfl, hfirst, h⟩ := h.andThen
    obtain ⟨inner, _, rfl, hinner, hlast⟩ := h.andThen
    rw [hfirst.char, hlast.char]
    refine ⟨opening, inner, closing, rfl, hopening, hclosing, fun hmem => ?_⟩
    exact absurd rfl (bne_iff_ne.1 (hinner.many1 closing hmem))
  rcases h.orElse with h | h
  · exact .inl (henclosed rfl rfl h)
  rcases h.orElse with h | h
  · exact .inl (henclosed rfl rfl h)
  rcases h.orElse with h | h
  · exact .inl (henclosed rfl rfl h)
  · exact .inr h.many1

/-! ## Names that are written -/

theorem mem_of_mem_doubled {c : Char} {cs : List Char} (h : c ∈ Ident.doubled cs) : c ∈ cs := by
  induction cs with
  | nil => exact h
  | cons d rest ih =>
    rw [Ident.doubled] at h
    split at h
    · next hd =>
      rw [beq_iff_eq.1 hd]
      rcases List.mem_cons.1 h with rfl | h
      · exact List.mem_cons_self ..
      rcases List.mem_cons.1 h with rfl | h
      · exact List.mem_cons_self ..
      · exact List.mem_cons_of_mem _ (ih h)
    · rcases List.mem_cons.1 h with rfl | h
      · exact List.mem_cons_self ..
      · exact List.mem_cons_of_mem _ (ih h)

theorem doubled_append_quote {a : List Char} (ha : '"' ∉ a) (b : List Char) :
    Ident.doubled (a ++ '"' :: b) = a ++ '"' :: '"' :: Ident.doubled b := by
  induction a with
  | nil => rfl
  | cons c a ih =>
    obtain ⟨hc, ha⟩ := not_or.1 (mt List.mem_cons.2 ha)
    rw [List.cons_append, Ident.doubled, if_neg (by simpa using Ne.symm hc), ih ha]
    rfl

/-- **A double quote ends the name** for the reader, so a name with one in it is not read again. -/
theorem not_readsBack_of_quote {name : List Char} (hhead : ∀ c ∈ name.head?, isEnclosing c = false)
    (hzero : zeroWidthSpace ∉ name) (hquote : '"' ∈ name) :
    part (Ident.enclosed name) ≠ some (Ident.enclosed name).length ∧ bareName (Ident.enclosed name) ≠ name := by
  obtain ⟨a, b, hsplit, ha⟩ : ∃ a b, name = a ++ '"' :: b ∧ '"' ∉ a := List.eq_append_cons_of_mem hquote
  have hne : a ≠ [] := by
    rintro rfl
    exact absurd (hhead '"' (by rw [hsplit]; rfl)) (by decide)
  have hwritten : Ident.enclosed name = '"' :: (a ++ ['"']) ++ ('"' :: (Ident.doubled b ++ ['"'])) := by
    rw [Ident.enclosed, hsplit, doubled_append_quote ha]
    simp
  have hpart : part (Ident.enclosed name) = some ('"' :: (a ++ ['"'])).length := hwritten ▸ part_enclosed hne ha _
  refine ⟨?_, fun hback => ?_⟩
  · rw [hpart, hwritten, ne_eq, Option.some.injEq, List.length_append]
    simp
  have hfilter : (Ident.enclosed name).filter (· != zeroWidthSpace) = Ident.enclosed name := by
    refine List.filter_eq_self.2 fun c hc => bne_iff_ne.2 ?_
    rintro rfl
    rcases List.mem_cons.1 hc with hc | hc
    · exact absurd hc (by decide)
    rcases List.mem_append.1 hc with hc | hc
    · exact hzero (mem_of_mem_doubled hc)
    · exact absurd (List.mem_singleton.1 hc) (by decide)
  have htrim : trim (Ident.enclosed name) = Ident.enclosed name := trimBy_between (by decide) (by decide) _
  obtain ⟨run, hrun, hname⟩ : ∃ run ∈ findAll part (Ident.enclosed name), trimBy isEnclosing run = name := by
    rw [bareName, hfilter, htrim] at hback
    refine ⟨_, ?_, hback⟩
    have hparts : findAll part (Ident.enclosed name) ≠ [] := by
      rw [Ident.enclosed, findAll, findAllFrom, ← Ident.enclosed, hpart]
      exact List.cons_ne_nil _ _
    rw [List.getLastD_eq_getLast?, List.getLast?_eq_some_getLast hparts]
    exact List.getLast_mem hparts
  rcases cases_of_covers_part (covers_of_mem_findAllFrom hrun) with
    ⟨opening, inner, closing, rfl, hopening, hclosing, hfree⟩ | hbare
  · -- the character that closes the part stands in the name, but not in what is read
    have hinner : name ⊆ inner := hname ▸ trimBy_enclosed_subset hopening hclosing inner
    have hmem : closing ∈ Ident.enclosed name :=
      subset_of_mem_findAllFrom hrun (List.mem_cons_of_mem _ (List.mem_append_right _ (List.mem_singleton.2 rfl)))
    refine hfree (hinner ?_)
    rcases List.mem_cons.1 hmem with rfl | hmem
    · exact hquote
    rcases List.mem_append.1 hmem with hmem | hmem
    · exact mem_of_mem_doubled hmem
    · exact List.mem_singleton.1 hmem ▸ hquote
  · have hmem : '"' ∈ run := subset_trimBy isEnclosing run (hname ▸ hquote)
    exact absurd (hbare _ hmem) (by decide)

theorem simple_or_line {cs : List Char} (h : Ident.isSimple cs = true) :
    ∀ c ∈ cs, Ident.isSimpleChar c = true ∨ c = '\n' := by
  cases cs with
  | nil => nofun
  | cons c rest =>
    rw [Ident.isSimple, Bool.and_eq_true, Ident.simpleRest_iff] at h
    refine List.forall_mem_cons.2 ⟨.inl (Ident.isSimpleChar_of_isSimpleStart h.1), fun d hd => ?_⟩
    rcases h.2 with hrest | ⟨front, rfl, hfront⟩
    · exact .inl (hrest d hd)
    · exact (List.mem_append.1 hd).imp (hfront d) List.mem_singleton.1

/-- A simple name with a line end has it at its end. -/
theorem exists_of_simpleRest {cs : List Char} (h : Ident.simpleRest cs = true) (hline : '\n' ∈ cs) :
    ∃ front, cs = front ++ ['\n'] ∧ '\n' ∉ front := by
  have hnot : ∀ {cs : List Char}, (∀ c ∈ cs, Ident.isSimpleChar c = true) → '\n' ∉ cs := fun hcs hmem =>
    absurd (hcs _ hmem) (by decide)
  rcases Ident.simpleRest_iff.1 h with hsimple | ⟨front, rfl, hfront⟩
  · exact absurd hline (hnot hsimple)
  · exact ⟨front, rfl, hnot hfront⟩

/-- **A line end is no part of a bare name**, so a simple name with one is not read again. -/
theorem not_readsBack_of_line {name : List Char} (hhead : ∀ c ∈ name.head?, isEnclosing c = false)
    (hsimple : Ident.isSimple name = true) (hline : '\n' ∈ name) :
    Ident.isBare (String.ofList name) = true ∧ part name ≠ some name.length ∧ bareName name ≠ name := by
  cases name with
  | nil => cases hline
  | cons c rest =>
    rw [Ident.isSimple, Bool.and_eq_true] at hsimple
    have hc : '\n' ≠ c := by
      rintro rfl
      exact absurd hsimple.1 (by decide)
    obtain ⟨front, hfront, hfree⟩ := exists_of_simpleRest hsimple.2 ((List.mem_cons.1 hline).resolve_left hc)
    refine ⟨?_, fun hpart => ?_, fun hback => ?_⟩
    · have hother : Ident.reserved.contains (upperName (String.ofList (c :: rest))) = false :=
        Ident.not_reserved_of_line (String.toList_ofList.symm ▸ hline)
      rw [Ident.isBare, String.toList_ofList, Ident.isSimple, hsimple.1, hsimple.2, hother]
      rfl
    · have hcovers : Covers part (c :: rest) := by
        have htaken := covers_of_eq_some hpart
        rwa [List.take_length] at htaken
      rcases cases_of_covers_part hcovers with ⟨opening, inner, closing, htext, hopening, -⟩ | hbare
      · have hnot := hhead opening (by rw [htext]; rfl)
        rw [hopening] at hnot
        cases hnot
      · exact absurd (hbare _ hline) (by decide)
    · have hmem : '\n' ∈ trim ((c :: rest).filter (· != zeroWidthSpace)) := subset_bareName_trim _ (hback.symm ▸ hline)
      have hsplit : (c :: rest).filter (· != zeroWidthSpace) = (c :: front).filter (· != zeroWidthSpace) ++ ['\n'] := by
        rw [hfront, ← List.cons_append, List.filter_append]
        rfl
      rw [hsplit, trim_append_blank (List.forall_mem_singleton.2 rfl)] at hmem
      have hfronted := (List.mem_filter.1 (subset_trim _ hmem)).1
      exact (List.mem_cons.1 hfronted).elim hc hfree

/-- **A name that is read is read again when it is written**, unless it has a double quote in it, or is simple with a
line end behind it. -/
theorem quote_readsBack_iff {written : List Char} (hne : bareName written ≠ []) :
    let name := bareName written
    let quoted := (Ident.quote (String.ofList name)).toList
    let survives := '"' ∉ name ∧ ¬ (Ident.isSimple name = true ∧ '\n' ∈ name)
    (part quoted = some quoted.length ↔ survives) ∧ (bareName quoted = name ↔ survives) := by
  intro name quoted survives
  obtain ⟨hhead, hend⟩ := ends_bareName written
  have hzero : zeroWidthSpace ∉ name := zeroWidthSpace_not_mem_bareName written
  have hquoted : quoted = if Ident.isBare (String.ofList name) = true then name else Ident.enclosed name := by
    rw [show quoted = (Ident.quote (String.ofList name)).toList from rfl, Ident.quote]
    split <;> rw [String.toList_ofList]
    rw [String.toList_ofList]
  by_cases hquote : '"' ∈ name
  · have hnot : ¬ survives := fun h => h.1 hquote
    have hbare : ¬ Ident.isBare (String.ofList name) = true := by
      intro hbare
      rw [Ident.isBare, String.toList_ofList, Bool.and_eq_true] at hbare
      exact (simple_or_line hbare.1 _ hquote).elim (by decide) (by decide)
    obtain ⟨hpart, hback⟩ := not_readsBack_of_quote hhead hzero hquote
    rw [hquoted, if_neg hbare]
    exact ⟨iff_of_false hpart hnot, iff_of_false hback hnot⟩
  by_cases hline : Ident.isSimple name = true ∧ '\n' ∈ name
  · have hnot : ¬ survives := fun h => h.2 hline
    obtain ⟨hbare, hpart, hback⟩ := not_readsBack_of_line hhead hline.1 hline.2
    rw [hquoted, if_pos hbare]
    exact ⟨iff_of_false hpart hnot, iff_of_false hback hnot⟩
  · have hsurvives : survives := ⟨hquote, hline⟩
    suffices hread : part quoted = some quoted.length ∧ bareName quoted = name from
      ⟨iff_of_true hread.1 hsurvives, iff_of_true hread.2 hsurvives⟩
    rw [hquoted]
    split
    · next hbare =>
      have hsimple : Ident.isSimple name = true := by
        rw [Ident.isBare, String.toList_ofList, Bool.and_eq_true] at hbare
        exact hbare.1
      have hplain : ∀ c ∈ name, isBareChar c = true := fun c hc =>
        Ident.isBareChar_of_isSimpleChar <| (simple_or_line hsimple c hc).resolve_right fun heq =>
          hline ⟨hsimple, heq ▸ hc⟩
      have hpart : part (name ++ []) = some name.length := part_append hne hplain fun _ h => by cases h
      rw [List.append_nil] at hpart
      exact ⟨hpart, bareName_eq_self hne hplain⟩
    · have hpart := part_enclosed hne hquote []
      rw [List.append_nil] at hpart
      rw [Ident.enclosed, Ident.doubled_eq_self hquote]
      exact ⟨hpart, bareName_enclosed hne hquote hzero hhead hend⟩

/-- A name in brackets may have a blank in it, and it comes back. -/
theorem quote_readsBack_unitPrice :
    let quoted := (Ident.quote "unit price").toList
    bareName "[unit price]".toList = "unit price".toList ∧ quoted = "\"unit price\"".toList ∧
      part quoted = some quoted.length ∧ bareName quoted = "unit price".toList := by
  have hname : bareName "[unit price]".toList = "unit price".toList := by decide +kernel
  have hread := @quote_readsBack_iff "[unit price]".toList (by rw [hname]; decide)
  simp only [hname, String.ofList_toList] at hread
  have hsurvives : '"' ∉ "unit price".toList ∧
      ¬ (Ident.isSimple "unit price".toList = true ∧ '\n' ∈ "unit price".toList) := by decide
  exact ⟨hname, by decide +kernel, hread.1.2 hsurvives, hread.2.2 hsurvives⟩

/-- A name in backticks may have a double quote in it, and it does not. -/
theorem not_quote_readsBack :
    part "`a\"b`".toList = some "`a\"b`".toList.length ∧ bareName "`a\"b`".toList = "a\"b".toList ∧
      Ident.quote "a\"b" = "\"a\"\"b\"" ∧ part "\"a\"\"b\"".toList = some 3 ∧
      bareName "\"a\"\"b\"".toList = "b".toList := by
  decide +kernel

end Identifier

end SchemaSketch
