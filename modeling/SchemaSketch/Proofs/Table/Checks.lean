import SchemaSketch.Proofs.Table.Flags
import SchemaSketch.Proofs.Table.Masks

/-!
# What a check says to the flags of its column

The flags of a column are looked for in all that stands behind its type, and no parenthesis is in the way of that.
So a column with a check has its own flags and those whose words stand in the check, outside of literals
(`Definition.flagged_of_check`). A check in which no such words stand leaves the flags alone; one that says
`IS NOT NULL` of another column does not (`Table.flags_of_checks`).
-/

namespace SchemaSketch

open Text Pattern

namespace ColumnDefinition

/-- Whether a phrase in capitals stands in a text outside of literals. -/
def mentions (ws : List String) (cs : List Char) : Bool := hasWord (capitals ws) (upper (withoutLiterals cs))

/-- A check behind other clauses. -/
def check (expr : List Char) : List Char := ' ' :: ("CHECK (".toList ++ (expr ++ [')']))

/-- A column has the flags of another one and those whose phrases stand in a text. -/
structure FlaggedBy (own : Column) (cs : List Char) (c : Column) : Prop where
  nullable : c.nullable = (own.nullable && !mentions ["PRIMARY", "KEY"] cs && !mentions ["NOT", "NULL"] cs)
  unique : c.unique = (own.unique || mentions ["PRIMARY", "KEY"] cs || mentions ["UNIQUE"] cs)
  primaryKey : c.primaryKey = (own.primaryKey || mentions ["PRIMARY", "KEY"] cs)

/-- The phrases of the flags. -/
def flagPhrases : List (List String) := [["NOT", "NULL"], ["UNIQUE"], ["PRIMARY", "KEY"]]

/-- What begins with a mark or with `CHECK` does not go on with the phrase of a flag. -/
theorem capitals_append_of_head {ws : List String} (hws : ws ∈ flagPhrases) {tail : List Char}
    (htail : wordEnds tail = true) {c : Char} (hc : c ∈ ['(', 'C'])
    (hhead : (tail.dropWhile isBlank).head? = some c) (cs : List Char) : capitals ws (cs ++ tail) = capitals ws cs := by
  have hwords : ∀ ws ∈ flagPhrases, ∀ w ∈ ws, w.toList ≠ [] ∧ w.toList.all isWord = true := by decide
  have hlater : ∀ ws ∈ flagPhrases, ∀ w ∈ ws.tail, w.toList.head? ∉ ['(', 'C'].map some := by decide
  refine capitals_append (hwords ws hws) htail (fun w hw hprefix => ?_) cs
  obtain ⟨rest, hrest⟩ := hprefix
  have hne := (hwords ws hws w (List.mem_of_mem_tail hw)).1
  rw [← hrest, List.head?_append_of_ne_nil _ hne] at hhead
  exact hlater ws hws w hw (hhead ▸ List.mem_map_of_mem hc)

/-- **What stands in a check** counts for the flags of its column. -/
theorem mentions_append_check {ws : List String} (hws : ws ∈ flagPhrases) {clauses : List Char}
    (hclauses : Closed clauses) (expr : List Char) :
    mentions ws (clauses ++ check expr) = (mentions ws clauses || mentions ws (expr ++ [')'])) := by
  have hword : ∀ ws ∈ flagPhrases, hasWordAfter (capitals ws) (some ' ') "CHECK ".toList = false := by
    decide +kernel
  have hfirst : wordMayBegin (some '(') = wordMayBegin none := rfl
  have hquote : (check expr).head? ≠ some '\'' := fun h => absurd (Option.some.inj h) (by decide)
  have hmask : withoutLiterals (check expr) = ' ' :: ("CHECK (".toList ++ withoutLiterals (expr ++ [')'])) := by
    rw [check, withoutLiterals_cons (by decide), withoutLiterals_append (by decide)]
  have hscan : upper (withoutLiterals (clauses ++ check expr)) = upper (withoutLiterals clauses) ++
      ' ' :: ("CHECK ".toList ++ '(' :: upper (withoutLiterals (expr ++ [')']))) := by
    rw [hclauses.withoutLiterals_append hquote, hmask, upper_append]
    rfl
  rw [mentions, mentions, mentions, hasWord_eq, hasWord_eq, hasWord_eq, hscan,
    hasWordAfter_append (capitals_append_of_head hws rfl (c := 'C') (by decide) rfl),
    hasWordAfter_append (capitals_append_of_head hws rfl (c := '(') (by decide) rfl), hword ws hws, Bool.false_or]
  exact congrArg (_ || ·) (hasWordAfter_congr hfirst _ _)

/-- The flags of a column. -/
theorem flags_of_column {name type rest : List Char} {noted : Noted Column} (h : column name type rest = .ok noted) :
    noted.value.nullable = !(mentions ["PRIMARY", "KEY"] rest || mentions ["NOT", "NULL"] rest) ∧
      noted.value.unique = (mentions ["PRIMARY", "KEY"] rest || mentions ["UNIQUE"] rest) ∧
      noted.value.primaryKey = mentions ["PRIMARY", "KEY"] rest := by
  obtain ⟨length, -, rfl⟩ := Except.map_eq_ok.1 h
  exact ⟨rfl, rfl, rfl⟩

/-- Whether a column can be read depends on its type alone. -/
theorem exists_column {name type rest : List Char} {noted : Noted Column} (h : column name type rest = .ok noted)
    (rest' : List Char) : ∃ noted', column name type rest' = .ok noted' := by
  obtain ⟨length, hlength, -⟩ := Except.map_eq_ok.1 h
  exact ⟨_, Except.map_eq_ok.2 ⟨length, hlength, rfl⟩⟩

end ColumnDefinition

/-- **A column with a check** has its own flags and those whose phrases stand in the check. -/
theorem Definition.flagged_of_check {table : String} {front name type clauses expr : List Char} {c : Column}
    {notes : List Note} (hclauses : ColumnDefinition.Closed clauses)
    (hheading : ColumnDefinition.heading (front ++ ColumnDefinition.check expr) =
      some ((name, type), clauses ++ ColumnDefinition.check expr))
    (h : ofColumn table (front ++ ColumnDefinition.check expr) = .ok ⟨.column c, notes⟩) :
    ∃ own, ColumnDefinition.column name type clauses = .ok own ∧
      ColumnDefinition.FlaggedBy own.value (expr ++ [')']) c := by
  rw [ofColumn, hheading] at h
  obtain ⟨noted, hcolumn, hnoted⟩ := Except.map_eq_ok.1 h
  cases hnoted
  obtain ⟨own, hown⟩ := ColumnDefinition.exists_column hcolumn clauses
  obtain ⟨hnullable, hunique, hprimary⟩ := ColumnDefinition.flags_of_column hcolumn
  obtain ⟨hnullable', hunique', hprimary'⟩ := ColumnDefinition.flags_of_column hown
  rw [ColumnDefinition.mentions_append_check (by decide) hclauses] at hnullable hunique hprimary
  rw [ColumnDefinition.mentions_append_check (by decide) hclauses] at hnullable hunique
  refine ⟨own, hown, ⟨?_, ?_, ?_⟩⟩
  · rw [hnullable, hnullable']
    simp only [Bool.not_or, Bool.and_assoc, Bool.and_left_comm]
  · rw [hunique, hunique']
    simp only [Bool.or_assoc, Bool.or_left_comm]
  · rw [hprimary, hprimary']

/-- A check that asks for another column, behind a default and a uniqueness. -/
theorem Definition.flagged_of_check_notNull : ∃ c notes,
    ofColumn "t" ("x int DEFAULT '(' UNIQUE".toList ++ ColumnDefinition.check "y is not null".toList) =
      .ok ⟨.column c, notes⟩ ∧ c.nullable = false ∧
      ∃ own, ColumnDefinition.column ['x'] "int".toList " DEFAULT '(' UNIQUE".toList = .ok own ∧
        ColumnDefinition.FlaggedBy own.value ("y is not null".toList ++ [')']) c := by
  have hliteral : ColumnDefinition.Closed ('\'' :: ("('".toList ++ " UNIQUE".toList)) :=
    .literal rfl (by decide) (ColumnDefinition.closed_of_not_mem (by decide))
  have hclosed : ColumnDefinition.Closed " DEFAULT '(' UNIQUE".toList :=
    ColumnDefinition.closed_append (a := " DEFAULT ".toList) (by decide) hliteral
  have hheading : ColumnDefinition.heading
      ("x int DEFAULT '(' UNIQUE".toList ++ ColumnDefinition.check "y is not null".toList) =
        some ((['x'], "int".toList),
          " DEFAULT '(' UNIQUE".toList ++ ColumnDefinition.check "y is not null".toList) := by decide +kernel
  have hnullable : (ofColumn "t" ("x int DEFAULT '(' UNIQUE".toList ++ ColumnDefinition.check "y is not null".toList)
      ).toOption.map (·.value.column?.map (·.nullable)) = some (some false) := by decide +kernel
  cases hread : ofColumn "t" ("x int DEFAULT '(' UNIQUE".toList ++ ColumnDefinition.check "y is not null".toList) with
  | error fault =>
    rw [hread] at hnullable
    cases hnullable
  | ok noted =>
    obtain ⟨definition, notes⟩ := noted
    rw [hread] at hnullable
    cases definition with
    | column c =>
      exact ⟨c, notes, rfl, Option.some.inj (Option.some.inj hnullable), flagged_of_check hclosed hheading hread⟩
    | foreignKey | primaryKey | unique | nothing => cases hnullable

/-- A table whose first column has a check. -/
def Table.checked (expr : List Char) : List Char :=
  "create table a(x int".toList ++ ColumnDefinition.check expr ++ ",y int)".toList

/-- Two checks that leave the column open make it one that may be empty and one that may not. -/
theorem Table.flags_of_checks :
    ((readCreate (checked "x > 0 or y is null".toList)).value.toOption.map
        (·.columns.map fun c => (c.name, c.nullable))) = some [("x", true), ("y", true)] ∧
      ((readCreate (checked "x > 0 or y is not null".toList)).value.toOption.map
        (·.columns.map fun c => (c.name, c.nullable))) = some [("x", false), ("y", true)] := by
  decide +kernel

end SchemaSketch
