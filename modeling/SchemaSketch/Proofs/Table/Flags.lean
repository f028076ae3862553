import SchemaSketch.Proofs.Except
import SchemaSketch.Proofs.Table.Reader

/-!
# The flags of columns

A column has flags of its own, from its definition, and flags that constraints on the table set. The constraints
are only looked at when the whole list has been read, so it does not matter where among the columns they stand.
What they say is collected from the definitions: the columns of the last primary key (`Table.keyNames`), and the
columns that a uniqueness constraint on one column names (`Table.uniqueNames`).

A name in a constraint means the first column of that name. So the flags are settled by one rule
(`Column.settled`), which holds of each column that is the first of its name, and a later one keeps the flags of
its definition (`Table.Flagged`). The rule comes out of changing one column after another (`foldl_updateFirst`)
because a change of a column leaves its name alone and is made once however often it is asked for.
-/

namespace SchemaSketch

/-! ## What definitions say of flags -/

namespace Definition

/-- The column of a definition. -/
def column? : Definition → Option Column
  | .column c => some c
  | .foreignKey _ | .primaryKey _ | .unique _ | .nothing => none

/-- The columns of a primary key constraint. -/
def key? : Definition → Option (List String)
  | .primaryKey columns => some columns
  | .column _ | .foreignKey _ | .unique _ | .nothing => none

/-- The column of a uniqueness constraint on one column. -/
def single? : Definition → Option String
  | .unique [name] => some name
  | .column _ | .foreignKey _ | .primaryKey _ | .unique _ | .nothing => none

end Definition

namespace Table

/-- The columns of definitions, as each of them is defined. -/
def ownColumns (definitions : List Definition) : List Column := definitions.filterMap Definition.column?

/-- The columns of the last primary key constraint; none if there is no such constraint. -/
def keyNames (definitions : List Definition) : List String :=
  (definitions.filterMap Definition.key?).getLastD []

/-- The columns of all uniqueness constraints on one column. -/
def uniqueNames (definitions : List Definition) : List String := definitions.filterMap Definition.single?

end Table

/-- Whether a column is among those that are named. -/
def Column.isAmong (names : List String) (c : Column) : Bool := names.any (sameName c.name)

/-- A column with the flags that a primary key and uniqueness constraints on single columns set. -/
def Column.settled (key unique : List String) (c : Column) : Column :=
  { c with
    primaryKey := c.primaryKey || c.isAmong key
    nullable := c.nullable && !c.isAmong key
    unique := c.unique || (key.length == 1 && c.isAmong key) || c.isAmong unique }

/-- The columns of a table have the flags that their definitions and the constraints among these give them. -/
structure Table.Flagged (definitions : List Definition) (columns : List Column) : Prop where
  /-- there is one for each column that is defined -/
  length : columns.length = (ownColumns definitions).length
  /-- at its place, the first column of a name has its own flags and those that the constraints set -/
  first : ∀ front c back, ownColumns definitions = front ++ c :: back →
    (∀ d ∈ front, sameName d.name c.name = false) →
      columns[front.length]? = some (c.settled (keyNames definitions) (uniqueNames definitions))
  /-- at its place, a later column of a name has its own flags -/
  later : ∀ front c back, ownColumns definitions = front ++ c :: back →
    (∃ d ∈ front, sameName d.name c.name = true) → columns[front.length]? = some c
  /-- no column of the primary key may be empty -/
  key : ∀ c ∈ columns, c.primaryKey = true → c.nullable = false

/-! ## Changing the first column of a name -/

theorem sameName_comm (a b : String) : sameName a b = sameName b a := BEq.comm

theorem sameName_trans {a b c : String} (h : sameName a b = true) : sameName a c = sameName b c := by
  rw [sameName, sameName, beq_iff_eq.1 h]

namespace Table

variable {change : Column → Column}

/-- A change of the first column of a name, seen from one place of a list of columns. -/
theorem updateFirst_append (name : String) (change : Column → Column) (front : List Column) (c : Column)
    (back : List Column) :
    updateColumn.updateFirst name change (front ++ c :: back) =
      if front.any (sameName ·.name name) then updateColumn.updateFirst name change front ++ c :: back
      else if sameName c.name name then front ++ change c :: back
      else front ++ c :: updateColumn.updateFirst name change back := by
  induction front with
  | nil => rfl
  | cons d front ih =>
    rw [List.cons_append, updateColumn.updateFirst, updateColumn.updateFirst, ih, List.any_cons]
    cases sameName d.name name with
    | true => rfl
    | false =>
      rw [Bool.false_or, if_neg Bool.false_ne_true]
      split
      · rfl
      split <;> rfl

theorem map_name_updateFirst (hname : ∀ c, (change c).name = c.name) (name : String) (columns : List Column) :
    (updateColumn.updateFirst name change columns).map (·.name) = columns.map (·.name) := by
  induction columns with
  | nil => rfl
  | cons c rest ih =>
    rw [updateColumn.updateFirst]
    split
    · rw [List.map_cons, List.map_cons, hname]
    · rw [List.map_cons, List.map_cons, ih]

/-- Whether a name occurs in a list of columns is settled by their names. -/
theorem any_sameName_congr {columns columns' : List Column} (h : columns.map (·.name) = columns'.map (·.name))
    (name : String) : columns.any (sameName ·.name name) = columns'.any (sameName ·.name name) := by
  have hnames := congrArg (List.any · (sameName · name)) h
  rwa [List.any_map, List.any_map] at hnames

/-- **Changing the first columns of some names**, seen from one place: the column there is changed, once, if it is
the first of its name and among those that are named. -/
theorem foldl_updateFirst (change : Column → Column) (hname : ∀ c, (change c).name = c.name)
    (honce : ∀ c, change (change c) = change c) (names : List String) (front : List Column) (c : Column)
    (back : List Column) :
    ∃ front' back',
      names.foldl (fun columns name => updateColumn.updateFirst name change columns) (front ++ c :: back) =
        front' ++ (if !front.any (sameName ·.name c.name) && c.isAmong names then change c else c) :: back' ∧
      front'.map (·.name) = front.map (·.name) := by
  induction names generalizing front c back with
  | nil => exact ⟨front, back, by simp [Column.isAmong], rfl⟩
  | cons name names ih =>
    have hamong : c.isAmong (name :: names) = (sameName c.name name || c.isAmong names) := List.any_cons ..
    rw [List.foldl_cons, updateFirst_append, hamong]
    by_cases hc : sameName c.name name = true
    · have hany : front.any (sameName ·.name name) = front.any (sameName ·.name c.name) := by
        simp only [sameName_comm _ c.name, sameName_comm _ name, sameName_trans hc]
      rw [hany, hc, Bool.true_or, Bool.and_true]
      cases hfront : front.any (sameName ·.name c.name) with
      | true =>
        -- the name means a column in front of the place
        have hupdated := map_name_updateFirst hname name front
        obtain ⟨front', back', hfold, hnames⟩ := ih (updateColumn.updateFirst name change front) c back
        rw [any_sameName_congr hupdated, hfront] at hfold
        exact ⟨front', back', hfold, hnames.trans hupdated⟩
      | false =>
        -- it means the column at the place
        obtain ⟨front', back', hfold, hnames⟩ := ih front (change c) back
        rw [honce, ite_self] at hfold
        exact ⟨front', back', hfold, hnames⟩
    · rw [Bool.eq_false_iff.2 hc, Bool.false_or, if_neg Bool.false_ne_true]
      split
      · have hupdated := map_name_updateFirst hname name front
        obtain ⟨front', back', hfold, hnames⟩ := ih (updateColumn.updateFirst name change front) c back
        rw [any_sameName_congr hupdated] at hfold
        exact ⟨front', back', hfold, hnames.trans hupdated⟩
      · exact ih front c _

theorem columns_foldl_updateColumn (names : List String) (t : Table) :
    (names.foldl (·.updateColumn · change) t).columns =
      names.foldl (fun columns name => updateColumn.updateFirst name change columns) t.columns := by
  induction names generalizing t with
  | nil => rfl
  | cons name names ih => exact ih _

end Table

/-! ## Drafts -/

namespace Draft

theorem columns_foldl_add (definitions : List Definition) (d : Draft) :
    (definitions.foldl add d).table.columns = d.table.columns ++ Table.ownColumns definitions := by
  induction definitions generalizing d with
  | nil => exact (List.append_nil _).symm
  | cons definition rest ih =>
    rw [List.foldl_cons, ih]
    cases definition with
    | column c => exact List.append_assoc ..
    | unique columns => rcases columns with _ | ⟨first, _ | ⟨second, others⟩⟩ <;> rfl
    | foreignKey | primaryKey | nothing => rfl

theorem primaryKey_foldl_add (definitions : List Definition) (d : Draft) :
    (definitions.foldl add d).table.primaryKey =
      (definitions.filterMap Definition.key?).getLastD d.table.primaryKey := by
  induction definitions generalizing d with
  | nil => rfl
  | cons definition rest ih =>
    rw [List.foldl_cons, ih]
    cases definition with
    | primaryKey columns => exact (List.getLastD_cons ..).symm
    | unique columns => rcases columns with _ | ⟨first, _ | ⟨second, others⟩⟩ <;> rfl
    | column | foreignKey | nothing => rfl

theorem uniqueColumns_foldl_add (definitions : List Definition) (d : Draft) :
    (definitions.foldl add d).uniqueColumns = d.uniqueColumns ++ Table.uniqueNames definitions := by
  induction definitions generalizing d with
  | nil => exact (List.append_nil _).symm
  | cons definition rest ih =>
    have hrest : Table.uniqueNames (definition :: rest) = definition.single?.toList ++ Table.uniqueNames rest := by
      rw [Table.uniqueNames, List.filterMap_cons]
      cases definition.single? <;> rfl
    have hadd : (d.add definition).uniqueColumns = d.uniqueColumns ++ definition.single?.toList := by
      cases definition with
      | unique columns =>
        rcases columns with _ | ⟨first, _ | ⟨second, others⟩⟩
        · exact (List.append_nil _).symm
        · rfl
        · exact (List.append_nil _).symm
      | column | foreignKey | primaryKey | nothing => exact (List.append_nil _).symm
    rw [List.foldl_cons, ih, hadd, hrest, List.append_assoc]

/-- The flags of a column are settled in two passes. -/
theorem settled_eq (key unique : List String) (c : Column) :
    c.settled key unique =
      let keyed := if c.isAmong key then keyColumn (key.length == 1) c else c
      if c.isAmong unique then { keyed with unique := true } else keyed := by
  cases hkey : c.isAmong key <;> cases hunique : c.isAmong unique <;>
    simp [Column.settled, keyColumn, hkey, hunique]

/-- The two passes over the columns of a draft, seen from one place. -/
theorem getElem?_columns_toTable {d : Draft} {front back : List Column} {c : Column}
    (h : d.table.columns = front ++ c :: back) :
    d.toTable.columns[front.length]? =
      some (if front.any (sameName ·.name c.name) then c else c.settled d.table.primaryKey d.uniqueColumns) := by
  obtain ⟨front₁, back₁, hkeyed, hnames₁⟩ :=
    Table.foldl_updateFirst (keyColumn (d.table.primaryKey.length == 1)) (fun _ => rfl)
      (fun c => by rw [keyColumn, keyColumn, Bool.or_assoc, Bool.or_self]) d.table.primaryKey front c back
  obtain ⟨front₂, back₂, hunique, hnames₂⟩ :=
    Table.foldl_updateFirst (fun c => { c with unique := true }) (fun _ => rfl) (fun _ => rfl)
      d.uniqueColumns front₁
      (if !front.any (sameName ·.name c.name) && c.isAmong d.table.primaryKey then
        keyColumn (d.table.primaryKey.length == 1) c else c) back₁
  have hlength : front₂.length = front.length := by
    simpa only [List.length_map] using congrArg List.length (hnames₂.trans hnames₁)
  rw [toTable, Table.columns_foldl_updateColumn, Table.columns_foldl_updateColumn, h, hkeyed, hunique, ← hlength,
    List.getElem?_append_right (Nat.le_refl _), Nat.sub_self, List.getElem?_cons_zero, Option.some.injEq]
  rw [settled_eq]
  cases hfirst : front.any (sameName ·.name c.name) with
  | true =>
    simp only [Bool.not_true, Bool.false_and, Bool.false_eq_true, if_false, if_true,
      Table.any_sameName_congr hnames₁, hfirst]
  | false =>
    have hname : (if c.isAmong d.table.primaryKey then keyColumn (d.table.primaryKey.length == 1) c else c).name
        = c.name := by split <;> rfl
    simp only [Bool.not_false, Bool.true_and, Bool.false_eq_true, if_false, Table.any_sameName_congr hnames₁, hname,
      hfirst]
    rw [Column.isAmong, hname]
    rfl

end Draft

/-! ## The columns of a table -/

/-- A column that is a key by its own definition may not be empty by it. -/
theorem ColumnDefinition.not_nullable_of_column {name type rest : List Char} {noted : Noted Column}
    (h : column name type rest = .ok noted) (hkey : noted.value.primaryKey = true) :
    noted.value.nullable = false := by
  obtain ⟨length, -, rfl⟩ := Except.map_eq_ok.1 h
  dsimp only at hkey ⊢
  rw [hkey]
  rfl

namespace Table

theorem getElem?_ofDefinitions (name : String) {definitions : List Definition} {front back : List Column}
    {c : Column} (h : ownColumns definitions = front ++ c :: back) :
    (ofDefinitions name definitions).columns[front.length]? =
      some (if front.any (sameName ·.name c.name) then c
        else c.settled (keyNames definitions) (uniqueNames definitions)) := by
  have hcolumns := Draft.columns_foldl_add definitions (Draft.named name)
  have hunique := Draft.uniqueColumns_foldl_add definitions (Draft.named name)
  have hplace := Draft.getElem?_columns_toTable (hcolumns.trans h)
  rw [Draft.primaryKey_foldl_add, hunique] at hplace
  exact hplace

theorem length_columns_updateColumn (change : Column → Column) (hname : ∀ c, (change c).name = c.name) (t : Table)
    (name : String) : (t.updateColumn name change).columns.length = t.columns.length := by
  have hnames := congrArg List.length (map_name_updateFirst hname name t.columns)
  rwa [List.length_map, List.length_map] at hnames

theorem length_ofDefinitions (name : String) (definitions : List Definition) :
    (ofDefinitions name definitions).columns.length = (ownColumns definitions).length := by
  have hcolumns := Draft.columns_foldl_add definitions (Draft.named name)
  refine Draft.toTable_induction (·.columns.length = _) (congrArg List.length hcolumns) ?_ ?_
  · exact fun alone t name ht =>
      (length_columns_updateColumn (Draft.keyColumn alone) (fun _ => rfl) t name).trans ht
  · exact fun t name ht =>
      (length_columns_updateColumn (fun c => { c with unique := true }) (fun _ => rfl) t name).trans ht

theorem flagged_ofDefinitions {name : String} {definitions : List Definition}
    (hkey : ∀ c ∈ ownColumns definitions, c.primaryKey = true → c.nullable = false) :
    Flagged definitions (ofDefinitions name definitions).columns where
  length := length_ofDefinitions name definitions
  first front c back hown hfront := by
    have hany : front.any (sameName ·.name c.name) = false :=
      List.any_eq_false.2 fun d hd => Bool.eq_false_iff.1 (hfront d hd)
    rw [getElem?_ofDefinitions name hown, hany]
    rfl
  later front c back hown hfront := by
    rw [getElem?_ofDefinitions name hown, List.any_eq_true.2 hfront]
    rfl
  key c hc hprimary := by
    obtain ⟨i, hi, rfl⟩ := List.getElem_of_mem hc
    have hown := hi
    rw [length_ofDefinitions] at hown
    have hsplit : ownColumns definitions =
        (ownColumns definitions).take i ++ (ownColumns definitions)[i] :: (ownColumns definitions).drop (i + 1) := by
      rw [List.getElem_cons_drop, List.take_append_drop]
    have hself := hkey _ (List.getElem_mem hown)
    have hplace := getElem?_ofDefinitions name hsplit
    rw [List.length_take_of_le (Nat.le_of_lt hown), List.getElem?_eq_getElem hi, Option.some.injEq] at hplace
    rw [hplace] at hprimary ⊢
    split at hprimary
    · next hlater =>
      rw [if_pos hlater]
      exact hself hprimary
    · next hfirst =>
      rw [if_neg hfirst]
      rw [Column.settled, Bool.or_eq_true] at hprimary
      rw [Column.settled]
      rcases hprimary with hprimary | hprimary
      · rw [hself hprimary, Bool.false_and]
      · rw [hprimary, Bool.not_true, Bool.and_false]

/-- **The flags of the columns of a table** follow one rule, wherever its constraints stand. -/
theorem flagged_of_readCreate {statement : List Char} {t : Table} (h : (readCreate statement).value = .ok t) :
    ∃ name definitions, definitions? statement = .ok (name, definitions) ∧ Flagged definitions t.columns := by
  obtain ⟨name, definitions, hfound, rfl⟩ := exists_of_readCreate h
  refine ⟨name, definitions, hfound, flagged_ofDefinitions fun c hc => ?_⟩
  obtain ⟨written, fromList, body, entries, -, -, -, -, hread⟩ := definitions?_eq_ok hfound
  obtain ⟨definition, hmem, hdefinition⟩ := List.mem_filterMap.1 hc
  obtain ⟨entry, -, hentry⟩ := (Except.mem_iff_of_mapM_eq_ok hread).1 hmem
  obtain ⟨notes, hentry⟩ := Definition.of?_eq_ok.1 hentry
  cases definition with
  | column c' =>
    cases hdefinition
    obtain ⟨written, type, rest, -, notes, hcolumn⟩ := Definition.exists_of_read_column hentry
    exact ColumnDefinition.not_nullable_of_column hcolumn
  | foreignKey | primaryKey | unique | nothing => cases hdefinition

/-- Constraints before, between and behind the columns, two primary keys, and a name that is used twice. -/
def mingled : List Char :=
  "create table t(unique (B),primary key(b,c),a int unique,b text,".toList
    ++ "primary key(\"A\"),unique (b,c),A int not null,c int)".toList

theorem flagged_mingled :
    ∃ t, (readCreate mingled).value = .ok t ∧
      t.columns.map (fun c => (c.name, c.primaryKey, c.nullable, c.unique)) =
        [("a", true, false, true), ("b", false, true, true), ("A", false, false, false), ("c", false, true, false)] ∧
      ∃ name definitions, definitions? mingled = .ok (name, definitions) ∧ Flagged definitions t.columns := by
  have hread : (readCreate mingled).value.toOption.map
        (·.columns.map fun c => (c.name, c.primaryKey, c.nullable, c.unique)) =
      some [("a", true, false, true), ("b", false, true, true), ("A", false, false, false),
        ("c", false, true, false)] := by decide +kernel
  cases h : (readCreate mingled).value with
  | error fault =>
    rw [h] at hread
    cases hread
  | ok t =>
    rw [h] at hread
    exact ⟨t, rfl, Option.some.inj hread, flagged_of_readCreate h⟩

end Table
end SchemaSketch
