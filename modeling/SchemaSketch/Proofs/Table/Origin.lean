import SchemaSketch.Proofs.Except
import SchemaSketch.Proofs.Sql.Unclosed
import SchemaSketch.Proofs.Table.Reader

/-!
# Names are read out of the statement

A statement is taken apart from left to right: its heading, the list in parentheses behind it, the entries of the
list, the name and the type at the front of an entry. Each step takes a piece of the text, and a name is what
is left of a piece without its enclosure. So every character in the name of a table, or in that of a column,
stands in the statement (`Table.Within`), and nothing that is read brings another. The same holds of the table that is
altered and of the names in its foreign keys, which are searched for in the clauses (`Alteration.Within`).
-/

namespace SchemaSketch

open Text

/-! ## Pieces of a text -/

namespace Reader

theorem bind_eq_some {α β : Type} {r : Reader α} {f : α → Reader β} {cs rest : List Char} {b : β} :
    (r >>= f) cs = some (b, rest) ↔ ∃ a mid, r cs = some (a, mid) ∧ f a mid = some (b, rest) := by
  refine Option.bind_eq_some_iff.trans ?_
  rw [Prod.exists]

/-- What is skipped stands in front of the rest. -/
theorem exists_of_skip {p : Pattern} {cs rest : List Char} {u : Unit} (h : skip p cs = some (u, rest)) :
    ∃ front, cs = front ++ rest := by
  obtain ⟨n, -, hrest⟩ := Option.map_eq_some_iff.1 h
  cases hrest
  exact ⟨cs.take n, (List.take_append_drop n cs).symm⟩

/-- What is taken stands in front of the rest. -/
theorem eq_append_of_take {p : Pattern} {cs taken rest : List Char} (h : take p cs = some (taken, rest)) :
    cs = taken ++ rest := by
  obtain ⟨n, -, hrest⟩ := Option.map_eq_some_iff.1 h
  cases hrest
  exact (List.take_append_drop n cs).symm

end Reader

theorem Pattern.subset_of_mem_findAllFrom {p : Pattern} {passing : Nat} {cs run : List Char}
    (h : run ∈ findAllFrom p passing cs) : run ⊆ cs := by
  induction cs generalizing passing with
  | nil =>
    rw [findAllFrom] at h
    cases h
  | cons c rest ih =>
    cases passing with
    | succ passing => exact List.subset_cons_of_subset c (ih h)
    | zero =>
      rw [findAllFrom] at h
      split at h
      · rcases List.mem_cons.1 h with rfl | h
        · exact List.cons_subset_cons c (List.take_subset _ rest)
        · exact List.subset_cons_of_subset c (ih h)
      · exact List.subset_cons_of_subset c (ih h)

/-- A name has no characters but those that are written, without the blanks at the ends. -/
theorem Identifier.subset_bareName_trim (written : List Char) :
    bareName written ⊆ trim (written.filter (· != zeroWidthSpace)) := by
  refine List.Subset.trans (subset_trimBy ..) ?_
  rcases List.mem_cons.1 (List.getLastD_mem_cons ..) with h | h
  · rw [h]
    exact List.Subset.refl _
  · exact Pattern.subset_of_mem_findAllFrom h

theorem Identifier.subset_bareName (written : List Char) : bareName written ⊆ written :=
  List.Subset.trans (subset_bareName_trim written) (List.Subset.trans (subset_trim _) List.filter_sublist.subset)

/-! ## Headings -/

namespace Heading

/-- The name of the table stands in front of the list. -/
theorem created_eq_append {cs written rest : List Char} (h : created cs = some (written, rest)) :
    ∃ front gap, cs = front ++ (written ++ (gap ++ rest)) := by
  obtain ⟨_, _, hwords, hnamed⟩ := Reader.bind_eq_some.1 h
  obtain ⟨name, _, hname, hbehind⟩ := Reader.bind_eq_some.1 hnamed
  obtain ⟨_, _, hgap, hlist⟩ := Reader.bind_eq_some.1 hbehind
  obtain ⟨front, hfront⟩ := Reader.exists_of_skip hwords
  obtain ⟨gap, hrest⟩ := Reader.exists_of_skip hgap
  split at hlist
  · cases hlist
    exact ⟨front, gap, by rw [hfront, Reader.eq_append_of_take hname, hrest]⟩
  · cases hlist

theorem nameAfter_eq_append {others : List Pattern} {cs written rest : List Char}
    (h : nameAfter others cs = some (written, rest)) : ∃ front, cs = front ++ (written ++ rest) := by
  induction others with
  | nil => cases h
  | cons optionalWords others ih =>
    rw [nameAfter] at h
    dsimp only at h
    split at h
    · next found hfound =>
      cases h
      obtain ⟨_, _, hwords, hname⟩ := Reader.bind_eq_some.1 hfound
      obtain ⟨front, hfront⟩ := Reader.exists_of_skip hwords
      exact ⟨front, by rw [hfront, Reader.eq_append_of_take hname]⟩
    · exact ih h

/-- The name of the table that is altered stands in the statement. -/
theorem altered_eq_append {cs written rest : List Char} (h : altered cs = some (written, rest)) :
    ∃ front, cs = front ++ (written ++ rest) := by
  obtain ⟨_, _, hwords, hname⟩ := Reader.bind_eq_some.1 h
  obtain ⟨front, hfront⟩ := Reader.exists_of_skip hwords
  obtain ⟨more, hmore⟩ := nameAfter_eq_append hname
  exact ⟨front ++ more, by rw [hfront, hmore, List.append_assoc]⟩

end Heading

/-- The name and the type of a column stand at the front of its entry. -/
theorem ColumnDefinition.heading_eq_append {cs name type rest : List Char}
    (h : heading cs = some ((name, type), rest)) : ∃ gap, cs = name ++ (gap ++ (type ++ rest)) := by
  obtain ⟨_, _, hname, hbehind⟩ := Reader.bind_eq_some.1 h
  obtain ⟨_, _, hgap, htyped⟩ := Reader.bind_eq_some.1 hbehind
  obtain ⟨_, _, htype, hpure⟩ := Reader.bind_eq_some.1 htyped
  obtain ⟨gap, hrest⟩ := Reader.exists_of_skip hgap
  cases hpure
  exact ⟨gap, by rw [Reader.eq_append_of_take hname, hrest, Reader.eq_append_of_take htype]⟩

/-! ## Lists in parentheses -/

namespace Statement

theorem textOf_subset {a b : List Token} (h : a ⊆ b) : textOf a ⊆ textOf b := by
  intro c hc
  obtain ⟨t, ht, hc⟩ := List.mem_flatMap.1 hc
  exact List.mem_flatMap.2 ⟨t, h ht, hc⟩

/-- The tokens of a text have no other characters. -/
theorem textOf_tokens_subset {cs : List Char} {ts : List Token} (h : Script.tokens cs = .ok ts) : textOf ts ⊆ cs := by
  rw [Script.tokens, Script.segments] at h
  cases hcheck : (Script.cut (Token.lex cs)).forM Script.check with
  | error fault =>
    rw [hcheck] at h
    cases h
  | ok _ =>
    rw [hcheck] at h
    cases h
    have hprefix : (Script.cut (Token.lex cs)).flatten <+: Token.lex cs := flatten_cutFrom {} [] (Token.lex cs)
    have hsubset := textOf_subset hprefix.subset
    rwa [textOf_lex] at hsubset

theorem untilClosed_subset {depth : Int} {inner ts : List Token} {body : List Char}
    (h : untilClosed depth inner ts = some body) : body ⊆ textOf (inner ++ ts) := by
  induction ts generalizing depth inner with
  | nil => cases h
  | cons t rest ih =>
    have hkept : textOf (t :: inner ++ rest) ⊆ textOf (inner ++ t :: rest) :=
      textOf_subset List.perm_middle.symm.subset
    have hdropped : textOf (inner ++ rest) ⊆ textOf (inner ++ t :: rest) :=
      textOf_subset ((List.sublist_cons_self t rest).append_left inner).subset
    rw [untilClosed] at h
    split at h
    · split at h
      · exact List.Subset.trans (ih h) hdropped
      · exact List.Subset.trans (ih h) hkept
    split at h
    · split at h
      · cases h
        refine textOf_subset fun t ht => ?_
        exact List.mem_append_left _ (List.mem_reverse.1 ht)
      · exact List.Subset.trans (ih h) hkept
    · exact List.Subset.trans (ih h) hkept

/-- What stands in parentheses stands in the text. -/
theorem inParentheses?_subset {cs body : List Char} (h : inParentheses? cs = .ok (some body)) : body ⊆ cs := by
  obtain ⟨ts, hts, hbody⟩ := Except.map_eq_ok.1 h
  exact List.Subset.trans (untilClosed_subset hbody) (textOf_tokens_subset hts)

theorem commaRuns_subset {depth : Nat} {current ts run : List Token} (h : run ∈ commaRuns depth current ts) :
    run ⊆ current ++ ts := by
  induction ts generalizing depth current with
  | nil =>
    rw [commaRuns, List.mem_singleton] at h
    rw [h, List.append_nil]
    exact fun t ht => List.mem_reverse.1 ht
  | cons t rest ih =>
    have hkept : t :: current ++ rest ⊆ current ++ t :: rest := List.perm_middle.symm.subset
    rw [commaRuns] at h
    split at h
    · rcases List.mem_cons.1 h with rfl | h
      · exact fun t ht => List.mem_append_left _ (List.mem_reverse.1 ht)
      · have hrest := List.Subset.trans (List.subset_cons_self t rest) (List.subset_append_right current _)
        exact List.Subset.trans (ih h) hrest
    split at h
    · exact List.Subset.trans (ih h) hkept
    split at h
    · exact List.Subset.trans (ih h) hkept
    · exact List.Subset.trans (ih h) hkept

/-- An entry of a list stands in the list. -/
theorem subset_of_mem_definitions {body entry : List Char} {entries : List (List Char)}
    (h : definitions body = .ok entries) (hentry : entry ∈ entries) : entry ⊆ body := by
  rw [definitions] at h
  split at h
  · cases h
    cases hentry
  · obtain ⟨ts, hts, rfl⟩ := Except.map_eq_ok.1 h
    obtain ⟨run, hrun, rfl⟩ := List.mem_map.1 (List.mem_filter.1 hentry).1
    calc trim (textOf run) ⊆ textOf run := subset_trim _
      _ ⊆ textOf ts := textOf_subset (commaRuns_subset hrun)
      _ ⊆ body := textOf_tokens_subset hts

end Statement

/-! ## Names -/

/-- The names of a table and of its columns have no characters but those of a text. -/
structure Table.Within (t : Table) (cs : List Char) : Prop where
  /-- nor has that of the table -/
  name : t.name.toList ⊆ cs
  /-- nor have those of its columns -/
  columns : ∀ c ∈ t.columns, c.name.toList ⊆ cs

theorem ColumnDefinition.name_column {name type rest : List Char} {noted : Noted Column}
    (h : column name type rest = .ok noted) : noted.value.name = String.ofList (Identifier.bareName name) := by
  obtain ⟨length, -, rfl⟩ := Except.map_eq_ok.1 h
  rfl

/-- The name of a column stands in its entry. -/
theorem Definition.name_subset_of_read {table : String} {entry : List Char} {c : Column} {notes : List Note}
    (h : Definition.read table entry = .ok ⟨.column c, notes⟩) : c.name.toList ⊆ entry := by
  obtain ⟨name, type, rest, hheading, _, hcolumn⟩ := Definition.exists_of_read_column h
  have hname := ColumnDefinition.name_column hcolumn
  dsimp only at hname
  obtain ⟨gap, rfl⟩ := ColumnDefinition.heading_eq_append hheading
  rw [hname, String.toList_ofList]
  exact List.Subset.trans (Identifier.subset_bareName name) (List.subset_append_left ..)

namespace Table

/-- The name of a table that is created stands in its heading, and the list behind it. -/
theorem subset_of_created {statement written fromList : List Char}
    (h : Heading.created statement = some (written, fromList)) :
    Identifier.bareName written ⊆ statement ∧ fromList ⊆ statement := by
  obtain ⟨front, gap, rfl⟩ := Heading.created_eq_append h
  constructor
  · intro c hc
    exact List.mem_append_right _ (List.mem_append_left _ (Identifier.subset_bareName written hc))
  · intro c hc
    exact List.mem_append_right _ (List.mem_append_right _ (List.mem_append_right _ hc))

/-- **Names are read out of the statement.** -/
theorem within_of_readCreate {statement : List Char} {t : Table} (h : (readCreate statement).value = .ok t) :
    t.Within statement := by
  obtain ⟨name, definitions, hfound, rfl⟩ := exists_of_readCreate h
  obtain ⟨written, fromList, body, entries, hcreated, hbody, hentries, rfl, hread⟩ := definitions?_eq_ok hfound
  obtain ⟨hwritten, hlist⟩ := subset_of_created hcreated
  refine ⟨?_, forall_columns_ofDefinitions (fun c hc => ?_) fun _ _ _ _ hc => hc⟩
  · rw [name_ofDefinitions, String.toList_ofList]
    exact hwritten
  · obtain ⟨entry, hentry, hc⟩ := (Except.mem_iff_of_mapM_eq_ok hread).1 hc
    obtain ⟨notes, hc⟩ := Definition.of?_eq_ok.1 hc
    calc c.name.toList ⊆ entry := Definition.name_subset_of_read hc
      _ ⊆ body := Statement.subset_of_mem_definitions hentries hentry
      _ ⊆ fromList := Statement.inParentheses?_subset hbody
      _ ⊆ statement := hlist

end Table

/-! ## Foreign keys -/

/-- What is found is read at an end of the text. -/
theorem Text.exists_suffix_of_searchWord {α : Type} {r : Reader α} {cs : List Char} {x : α × List Char}
    (h : searchWord r cs = some x) : ∃ here, here <:+ cs ∧ r here = some x := by
  have hafter : ∀ before, searchAfter (fun before here => if wordMayBegin before then r here else none) before cs =
      some x → ∃ here, here <:+ cs ∧ r here = some x := by
    have hread : ∀ {before here}, (if wordMayBegin before then r here else none) = some x → r here = some x := by
      intro before here hhere
      split at hhere
      · exact hhere
      · cases hhere
    clear h
    induction cs with
    | nil => exact fun before hhere => ⟨[], List.suffix_refl [], hread hhere⟩
    | cons c rest ih =>
      intro before hfound
      rw [searchAfter] at hfound
      split at hfound
      · next a ha =>
        cases hfound
        exact ⟨c :: rest, List.suffix_refl _, hread ha⟩
      · obtain ⟨here, hsuffix, hhere⟩ := ih _ hfound
        exact ⟨here, hsuffix.trans (List.suffix_cons c rest), hhere⟩
  exact hafter none h

theorem Text.subset_of_mem_splitAtChar {separator : Char} {cs piece : List Char}
    (h : piece ∈ splitAtChar separator cs) : piece ⊆ cs := by
  induction cs generalizing piece with
  | nil =>
    obtain rfl := List.mem_singleton.1 h
    exact List.Subset.refl _
  | cons c rest ih =>
    rw [splitAtChar] at h
    split at h
    · obtain rfl := List.mem_singleton.1 h
      exact List.cons_subset_cons c (List.nil_subset _)
    · next first more hsplit =>
      rw [hsplit] at ih
      split at h
      · rcases List.mem_cons.1 h with rfl | h
        · exact List.nil_subset _
        · exact List.subset_cons_of_subset c (ih h)
      · rcases List.mem_cons.1 h with rfl | h
        · exact List.cons_subset_cons c (ih (List.mem_cons_self ..))
        · exact List.subset_cons_of_subset c (ih (List.mem_cons_of_mem _ h))

theorem Identifier.subset_of_mem_names {written : List Char} {name : String} (h : name ∈ names written) :
    name.toList ⊆ written := by
  obtain ⟨piece, hpiece, rfl⟩ := List.mem_map.1 h
  rw [String.toList_ofList]
  exact List.Subset.trans (subset_bareName piece) (subset_of_mem_splitAtChar (List.mem_filter.1 hpiece).1)

/-- The names of a foreign key have no characters but those of a text. -/
structure ForeignKey.Within (key : ForeignKey) (cs : List Char) : Prop where
  /-- nor has that of its constraint -/
  name : ∀ name ∈ key.name, name.toList ⊆ cs
  /-- nor have those of its columns -/
  columns : ∀ c ∈ key.columns, c.toList ⊆ cs
  /-- nor has that of the table referred to -/
  refTable : key.refTable.toList ⊆ cs
  /-- nor have those of the columns referred to -/
  refColumns : ∀ c ∈ key.refColumns, c.toList ⊆ cs

theorem ForeignKey.Within.mono {key : ForeignKey} {a b : List Char} (h : key.Within a) (hab : a ⊆ b) : key.Within b :=
  ⟨fun n hn => List.Subset.trans (h.name n hn) hab, fun c hc => List.Subset.trans (h.columns c hc) hab,
    List.Subset.trans h.refTable hab, fun c hc => List.Subset.trans (h.refColumns c hc) hab⟩

namespace Reference

theorem subset_of_listInParentheses {cs inner rest : List Char} (h : listInParentheses cs = some (inner, rest)) :
    inner ⊆ cs ∧ rest ⊆ cs := by
  obtain ⟨_, _, hopen, hbehind⟩ := Reader.bind_eq_some.1 h
  obtain ⟨taken, _, htaken, hclosed⟩ := Reader.bind_eq_some.1 hbehind
  obtain ⟨_, _, hclose, hpure⟩ := Reader.bind_eq_some.1 hclosed
  cases hpure
  obtain ⟨front, rfl⟩ := Reader.exists_of_skip hopen
  obtain ⟨gap, rfl⟩ := Reader.exists_of_skip hclose
  rw [Reader.eq_append_of_take htaken]
  constructor
  · exact fun c hc => List.mem_append_right _ (List.mem_append_left _ hc)
  · exact fun c hc => List.mem_append_right _ (List.mem_append_right _ (List.mem_append_right _ hc))

theorem subset_of_keyColumns {cs columns rest : List Char} (h : keyColumns cs = some (columns, rest)) :
    columns ⊆ cs ∧ rest ⊆ cs := by
  obtain ⟨_, list, hwords, hlist⟩ := Reader.bind_eq_some.1 h
  obtain ⟨front, rfl⟩ := Reader.exists_of_skip hwords
  obtain ⟨hcolumns, hrest⟩ := subset_of_listInParentheses hlist
  have hwhole := List.subset_append_right front list
  exact ⟨List.Subset.trans hcolumns hwhole, List.Subset.trans hrest hwhole⟩

theorem subset_of_target {cs table columns rest : List Char} (h : target cs = some ((table, columns), rest)) :
    table ⊆ cs ∧ columns ⊆ cs := by
  obtain ⟨_, _, hwords, hbehind⟩ := Reader.bind_eq_some.1 h
  obtain ⟨name, _, hname, hgapped⟩ := Reader.bind_eq_some.1 hbehind
  obtain ⟨_, afterGap, hgap, hlist⟩ := Reader.bind_eq_some.1 hgapped
  obtain ⟨found, _, hfound, hpure⟩ := Reader.bind_eq_some.1 hlist
  cases hpure
  obtain ⟨front, rfl⟩ := Reader.exists_of_skip hwords
  obtain ⟨gap, rfl⟩ := Reader.exists_of_skip hgap
  have hcolumns : columns ⊆ afterGap := by
    split at hfound
    · next hinner =>
      cases hfound
      exact (subset_of_listInParentheses hinner).1
    · cases hfound
      exact List.nil_subset _
  rw [Reader.eq_append_of_take hname]
  constructor
  · exact fun c hc => List.mem_append_right _ (List.mem_append_left _ hc)
  · exact fun c hc => List.mem_append_right _ (List.mem_append_right _ (List.mem_append_right _ (hcolumns hc)))

theorem subset_of_constraintName {cs name rest : List Char} (h : constraintName cs = some (name, rest)) : name ⊆ cs := by
  obtain ⟨_, _, hwords, hname⟩ := Reader.bind_eq_some.1 h
  obtain ⟨front, rfl⟩ := Reader.exists_of_skip hwords
  rw [Reader.eq_append_of_take hname]
  exact fun c hc => List.mem_append_right _ (List.mem_append_left _ hc)

/-- The names of a foreign key stand in its clause. -/
theorem within_of_foreignKey? {clause : List Char} {key : ForeignKey} (h : (foreignKey? clause).value = some key) :
    key.Within clause := by
  rw [foreignKey?] at h
  split at h
  · cases h
  · next columns afterColumns hcolumns =>
    split at h
    · cases h
    · next table refColumns afterTarget htarget =>
      cases h
      obtain ⟨here, hsuffix, hhere⟩ := exists_suffix_of_searchWord hcolumns
      obtain ⟨there, hbehind, hthere⟩ := exists_suffix_of_searchWord htarget
      obtain ⟨hinner, hafter⟩ := subset_of_keyColumns hhere
      obtain ⟨htable, hrefColumns⟩ := subset_of_target hthere
      have hlater : there ⊆ clause := List.Subset.trans hbehind.subset (List.Subset.trans hafter hsuffix.subset)
      refine ⟨fun name hname => ?_, fun c hc => ?_, ?_, fun c hc => ?_⟩
      · obtain ⟨⟨written, rest⟩, hwritten, rfl⟩ := Option.map_eq_some_iff.1 hname
        obtain ⟨place, hplace, hread⟩ := exists_suffix_of_searchWord hwritten
        rw [String.toList_ofList]
        have hwritten := List.Subset.trans (subset_of_constraintName hread) hplace.subset
        exact List.Subset.trans (Identifier.subset_bareName written) hwritten
      · exact List.Subset.trans (Identifier.subset_of_mem_names hc) (List.Subset.trans hinner hsuffix.subset)
      · rw [String.toList_ofList]
        exact List.Subset.trans (Identifier.subset_bareName table) (List.Subset.trans htable hlater)
      · exact List.Subset.trans (Identifier.subset_of_mem_names hc) (List.Subset.trans hrefColumns hlater)

end Reference

namespace Alteration

/-- A clause is a part of the text that is cut. -/
theorem subset_of_mem_clausesFrom {passing : Nat} {before : Option Char} {current : Option (List Char)}
    {cs clause : List Char} (h : clause ∈ clausesFrom passing before current cs) : clause ⊆ current.getD [] ++ cs := by
  have hcurrent : ∀ {current : Option (List Char)}, clause ∈ (current.map List.reverse).toList →
      clause ⊆ current.getD [] := by
    intro current hmem
    cases current with
    | none => cases hmem
    | some k =>
      obtain rfl := List.mem_singleton.1 hmem
      exact List.reverse_subset.2 (List.Subset.refl k)
  induction cs generalizing passing before current with
  | nil =>
    rw [clausesFrom] at h
    rw [List.append_nil]
    exact hcurrent h
  | cons c rest ih =>
    have hrest : ∀ {k : List Char}, clause ⊆ k ++ rest → clause ⊆ k ++ c :: rest := fun hk d hd =>
      (List.mem_append.1 (hk hd)).elim (List.mem_append_left _)
        fun hmem => List.mem_append_right _ (List.mem_cons_of_mem c hmem)
    cases passing with
    | succ left =>
      rw [clausesFrom] at h
      exact hrest (ih h)
    | zero =>
      rw [clausesFrom] at h
      split at h
      · rcases List.mem_append.1 h with h | h
        · exact List.Subset.trans (hcurrent h) (List.subset_append_left ..)
        · exact fun d hd => List.mem_append_right _ (List.mem_cons_of_mem c (ih h hd))
      · have hlater := ih h
        cases current with
        | none => exact fun d hd => List.mem_cons_of_mem c (hlater hd)
        | some k =>
          intro d hd
          have hmem := hlater hd
          simp only [Option.map_some, Option.getD_some, List.cons_append, List.mem_cons, List.mem_append] at hmem ⊢
          tauto

/-- The names of the table and of its foreign keys have no characters but those of a text. -/
structure Within (a : Alteration) (cs : List Char) : Prop where
  /-- nor has that of the table -/
  table : a.table.toList ⊆ cs
  /-- nor have those in its keys -/
  foreignKeys : ∀ key ∈ a.foreignKeys, key.Within cs

/-- **The names of an alteration are read out of the statement.** -/
theorem within_of_read {statement : List Char} {a : Alteration} (h : (read statement).value = .ok a) :
    a.Within statement := by
  rw [read] at h
  split at h
  · cases h
  · next written rest haltered =>
    dsimp only at h
    split at h
    · cases h
    · cases h
      obtain ⟨front, rfl⟩ := Heading.altered_eq_append haltered
      constructor
      · rw [String.toList_ofList]
        exact fun c hc => List.mem_append_right _ (List.mem_append_left _ (Identifier.subset_bareName written hc))
      · intro key hkey
        obtain ⟨noted, hnoted, hvalue⟩ := List.mem_filterMap.1 hkey
        obtain ⟨clause, hclause, rfl⟩ := List.mem_map.1 hnoted
        refine (Reference.within_of_foreignKey? hvalue).mono (List.Subset.trans (subset_of_mem_clausesFrom hclause) ?_)
        exact fun c hc => List.mem_append_right _ (List.mem_append_right _ hc)

end Alteration
end SchemaSketch
