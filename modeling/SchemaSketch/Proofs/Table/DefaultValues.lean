import SchemaSketch.Proofs.Table.Checks
import SchemaSketch.Proofs.Table.Lines
import SchemaSketch.Proofs.Text.Pieces

/-!
# Columns with any default value

A default value that is written behind a column may be any text. The column is then read with the flags of its clauses
and those whose phrases the value mentions outside of literals (`ColumnDefinition.mentions_default`). A value that
mentions none of them, and no reference, is *silent*: the column is what its name, its type and its clauses say
(`Definition.exists_column_silent`).
-/

namespace SchemaSketch

open Text Pattern

/-- The clauses for the flags of a column. -/
def flagClauses (nullable unique : Bool) : List Clause :=
  (if nullable then [] else [.notNull]) ++ (if unique then [.unique] else [])

namespace ColumnDefinition

/-- A text that says nothing about the column behind which it is written. -/
structure Silent (cs : List Char) : Prop where
  /-- it sets no flag -/
  flags : ∀ ws ∈ flagPhrases, mentions ws cs = false
  /-- it refers to no table -/
  reference : hasPart "REFERENCES".toList (upper (withoutLiterals cs)) = false

instance (cs : List Char) : Decidable (Silent cs) :=
  decidable_of_iff ((∀ ws ∈ flagPhrases, mentions ws cs = false) ∧
    hasPart "REFERENCES".toList (upper (withoutLiterals cs)) = false)
    ⟨fun h => ⟨h.1, h.2⟩, fun h => ⟨h.flags, h.reference⟩⟩

/-- What is written behind a type: clauses for flags, and a default value if there is one. -/
def rest (clauses : List Clause) (value? : Option (List Char)) : List Char :=
  spaced (clauses.map Clause.text ++ (value?.map ("DEFAULT ".toList ++ ·)).toList)

variable (nullable unique : Bool)

theorem rest_none (clauses : List Clause) : rest clauses none = spaced (clauses.map Clause.text) := by
  rw [rest, Option.map_none, Option.toList_none, List.append_nil]

theorem rest_some (clauses : List Clause) (value : List Char) :
    rest clauses (some value) = spaced (clauses.map Clause.text) ++ ' ' :: ("DEFAULT ".toList ++ value) := by
  rw [rest, Option.map_some, Option.toList_some, spaced, List.flatMap_append, List.flatMap_singleton, spaced]

/-- The clauses for flags, as text. -/
theorem spaced_flagClauses : '\'' ∉ spaced ((flagClauses nullable unique).map Clause.text) ∧
    'R' ∉ spaced ((flagClauses nullable unique).map Clause.text) ∧
    upper (spaced ((flagClauses nullable unique).map Clause.text)) =
      spaced ((flagClauses nullable unique).map Clause.text) := by
  cases nullable <;> cases unique <;> decide

/-- What is looked through for flags and references. -/
theorem scan_rest (value : List Char) :
    upper (withoutLiterals (rest (flagClauses nullable unique) (some value))) =
      spaced ((flagClauses nullable unique).map Clause.text) ++
        ' ' :: ("DEFAULT ".toList ++ upper (withoutLiterals value)) := by
  obtain ⟨hquote, -, hupper⟩ := spaced_flagClauses nullable unique
  have hword : upper (' ' :: "DEFAULT ".toList) = ' ' :: "DEFAULT ".toList := by decide
  rw [rest_some, withoutLiterals_append hquote, withoutLiterals_cons (by decide), withoutLiterals_append (by decide),
    upper_append, hupper, ← List.cons_append, upper_append, hword]
  rfl

/-- The phrase of a flag begins with one of three letters. -/
theorem capitals_eq_none_of_head {ws : List String} (hws : ws ∈ flagPhrases) {c : Char} (hc : c ∉ ['N', 'U', 'P'])
    (more : List Char) : capitals ws (c :: more) = none := by
  have hfirst : ∀ ws ∈ flagPhrases, ∃ w vs, ws = w :: vs ∧ ∃ d ∈ ['N', 'U', 'P'], w.toList.head? = some d := by
    simp only [flagPhrases, List.forall_mem_cons, List.not_mem_nil, false_implies, implies_true, and_true]
    exact ⟨⟨_, _, rfl, 'N', by decide, rfl⟩, ⟨_, _, rfl, 'U', by decide, rfl⟩, ⟨_, _, rfl, 'P', by decide, rfl⟩⟩
  obtain ⟨w, vs, rfl, d, hd, hhead⟩ := hfirst ws hws
  obtain ⟨tail, htail⟩ := List.head?_eq_some_iff.1 hhead
  refine capitals_eq_none fun hbegins => ?_
  rw [htail, List.cons_prefix_cons] at hbegins
  exact hc (hbegins.1 ▸ hd)

/-- Behind the word `DEFAULT` a phrase is looked for as at the front of a text. -/
theorem hasWord_behind_default {ws : List String} (hws : ws ∈ flagPhrases) (cs : List Char) :
    hasWord (capitals ws) ("DEFAULT ".toList ++ cs) = hasWord (capitals ws) cs := by
  let word : Piece := ⟨"DEFAULT".toList, ' '⟩
  have hplain : word.Plain := ⟨List.all_eq_true.1 (by cbv), by rintro c ⟨⟩; decide +kernel, by decide⟩
  have havoids : word.Avoids (Reader.skip (capitals ws)) :=
    ⟨fun more => Option.map_eq_none_iff.2 (capitals_eq_none_of_head hws (c := 'D') (by decide) _),
      fun more => Option.map_eq_none_iff.2 (capitals_eq_none_of_head hws (c := ' ') (by decide) _)⟩
  have hsearch := searchWord_spell_append (List.forall_mem_singleton.2 hplain) (List.forall_mem_singleton.2 havoids) cs
  exact congrArg Option.isSome hsearch

/-- **The flags of a column** are those of its clauses and those that its default value mentions. -/
theorem mentions_default {ws : List String} (hws : ws ∈ flagPhrases) (value : List Char) :
    mentions ws (rest (flagClauses nullable unique) (some value)) =
      (mentions ws (rest (flagClauses nullable unique) none) || mentions ws value) := by
  have hwords : ∀ ws ∈ flagPhrases, ∀ w ∈ ws, w.toList ≠ [] ∧ w.toList.all isWord = true := by decide
  have hlater : ∀ ws ∈ flagPhrases, ∀ w ∈ ws.tail, w.toList.head? ≠ some 'D' := by decide
  have hfirst : wordMayBegin (some ' ') = wordMayBegin none := rfl
  obtain ⟨hquote, -, hupper⟩ := spaced_flagClauses nullable unique
  -- no phrase goes on with the word DEFAULT
  have happend : ∀ cs, capitals ws (cs ++ ' ' :: ("DEFAULT ".toList ++ upper (withoutLiterals value))) =
      capitals ws cs := by
    refine capitals_append (hwords ws hws) rfl fun w hw hprefix => hlater ws hws w hw ?_
    obtain ⟨more, hmore⟩ := hprefix
    have hhead := congrArg List.head? hmore
    rwa [List.head?_append_of_ne_nil _ (hwords ws hws w (List.mem_of_mem_tail hw)).1] at hhead
  rw [mentions, mentions, mentions, scan_rest, rest_none, withoutLiterals_of_not_mem hquote, hupper, hasWord_eq,
    hasWordAfter_append happend, ← hasWord_eq, hasWordAfter_congr hfirst, ← hasWord_eq, hasWord_behind_default hws]

/-- A reference is told by the default value alone. -/
theorem hasPart_default (value : List Char) :
    hasPart "REFERENCES".toList (upper (withoutLiterals (rest (flagClauses nullable unique) (some value)))) =
      hasPart "REFERENCES".toList (upper (withoutLiterals value)) := by
  have hskip : ∀ a b : List Char, 'R' ∉ a → hasPart "REFERENCES".toList (a ++ b) = hasPart "REFERENCES".toList b := by
    intro a b ha
    induction a with
    | nil => rfl
    | cons c a ih =>
      obtain ⟨hc, ha⟩ := not_or.1 (mt List.mem_cons.2 ha)
      have hprefix : "REFERENCES".toList.isPrefixOf (c :: (a ++ b)) = false := by
        refine Bool.eq_false_iff.2 fun h => hc ?_
        exact (List.cons_prefix_cons.1 (List.isPrefixOf_iff_prefix.1 h)).1
      rw [List.cons_append, hasPart, hprefix, Bool.false_or, ih ha]
  obtain ⟨-, hletter, -⟩ := spaced_flagClauses nullable unique
  rw [scan_rest, hskip _ _ hletter, ← List.cons_append]
  exact hskip _ _ (by decide)

/-! ## Silent values -/

/-- **A silent default value changes nothing else**: the flags are those of the clauses, and there is no reference. -/
theorem exists_column_silent {name type : List Char} {length : Option Nat} (htype : squeeze type = type)
    (hlength : ColumnType.length? type = .ok length) {value? : Option (List Char)} (hvalue : ∀ v ∈ value?, Silent v) :
    ∃ c, column name type (rest (flagClauses nullable unique) value?) = .ok ⟨c, []⟩ ∧
      c.name = String.ofList (Identifier.bareName name) ∧ c.type = String.ofList type ∧ c.nullable = nullable ∧
      c.unique = unique ∧ c.references = none := by
  have hclauses : mentions ["PRIMARY", "KEY"] (rest (flagClauses nullable unique) none) = false ∧
      mentions ["NOT", "NULL"] (rest (flagClauses nullable unique) none) = !nullable ∧
      mentions ["UNIQUE"] (rest (flagClauses nullable unique) none) = unique ∧
      hasPart "REFERENCES".toList (upper (withoutLiterals (rest (flagClauses nullable unique) none))) = false := by
    cases nullable <;> cases unique <;> decide +kernel
  obtain ⟨hprimary, hnotNull, hunique, hnone⟩ := hclauses
  have hflags : ∀ ws ∈ flagPhrases, mentions ws (rest (flagClauses nullable unique) value?) =
      mentions ws (rest (flagClauses nullable unique) none) := by
    intro ws hws
    cases value? with
    | none => rfl
    | some value => rw [mentions_default nullable unique hws, (hvalue value rfl).flags ws hws, Bool.or_false]
  have hreference : hasPart "REFERENCES".toList
      (upper (withoutLiterals (rest (flagClauses nullable unique) value?))) = false := by
    cases value? with
    | none => exact hnone
    | some value => rw [hasPart_default, (hvalue value rfl).reference]
  have hplain : reference? (String.ofList (Identifier.bareName name))
      (upper (withoutLiterals (rest (flagClauses nullable unique) value?)))
      (rest (flagClauses nullable unique) value?) = .plain none := by
    rw [reference?, hreference, if_neg Bool.false_ne_true]
  rw [column, htype, hlength]
  dsimp only [Except.map]
  rw [hplain]
  refine ⟨_, rfl, rfl, rfl, ?_, ?_, rfl⟩
  · change (!(mentions _ _ || mentions _ _)) = nullable
    rw [hflags _ (by decide), hflags _ (by decide), hprimary, hnotNull, Bool.false_or, Bool.not_not]
  · change (mentions _ _ || mentions _ _) = unique
    rw [hflags _ (by decide), hflags _ (by decide), hprimary, hunique, Bool.false_or]

/-- Clauses and a default value may stand behind a type. -/
theorem behindType_rest (value? : Option (List Char)) : BehindType (rest (flagClauses nullable unique) value?) where
  space _ hc := head?_spaced hc
  continuation := by cases nullable <;> cases unique <;> cases value? <;> rfl
  bracket c hc := by
    simp only [List.mem_cons, List.not_mem_nil, or_false] at hc
    rcases hc with rfl | rfl <;> cases nullable <;> cases unique <;> cases value? <;> rintro ⟨⟩

end ColumnDefinition

/-- **A line with a silent default value is read as it is written.** -/
theorem Definition.exists_of?_written {written name type : List Char} {length : Option Nat}
    (hname : WrittenName written name) (htype : WrittenType type length) (nullable unique : Bool) {value? : Option (List Char)}
    (hvalue : ∀ v ∈ value?, ColumnDefinition.Silent v) :
    ∃ c, (∀ table, of? table (written ++ ' ' :: (type ++ ColumnDefinition.rest (flagClauses nullable unique) value?)) =
        .ok (.column c)) ∧
      c.name = String.ofList name ∧ c.type = String.ofList type ∧ c.nullable = nullable ∧ c.unique = unique ∧
      c.references = none := by
  obtain ⟨c, hcolumn, hbare, hfacts⟩ := @ColumnDefinition.exists_column_silent nullable unique written _ _ htype.tidy
    htype.length _ hvalue
  rw [hname.stands] at hbare
  refine ⟨c, fun table => ?_, hbare, hfacts⟩
  rw [of?, (read_written hname htype (ColumnDefinition.behindType_rest nullable unique value?) table).2, hcolumn]
  rfl

end SchemaSketch
