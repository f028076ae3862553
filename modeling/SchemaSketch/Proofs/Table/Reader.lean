import SchemaSketch.Table.Reader

/-!
# A table is what its definitions say

Reading a table goes entry by entry and changes the draft on the way. Seen from outside there are two
steps: all entries are read first (`Table.definitions?`), and then a table is made of what they say
(`Table.value_readCreate`). A single entry that cannot be read leaves no table at all.

What a table takes from its definitions is told by folding `Draft.add` along them: its name is the one in
the heading (`Draft.name_foldl_add`), its foreign keys are those of the definitions, in their order
(`Table.foreignKeys_ofDefinitions`), and its columns are theirs but for the flags
(`Table.forall_columns_ofDefinitions`).
-/

namespace SchemaSketch

/-! ## Definitions -/

/-- The foreign keys in a definition. -/
def Definition.keys : Definition → List ForeignKey
  | .column c => c.references.toList
  | .foreignKey key => [key]
  | .primaryKey _ | .unique _ | .nothing => []

/-- What an entry of a column list says, without the notes. -/
def Definition.of? (table : String) (entry : List Char) : Except ReadFault Definition :=
  (Definition.read table entry).map (·.value)

theorem Definition.of?_eq_ok {table : String} {entry : List Char} {definition : Definition} :
    Definition.of? table entry = .ok definition ↔
      ∃ notes, Definition.read table entry = .ok ⟨definition, notes⟩ := by
  rw [Definition.of?]
  cases Definition.read table entry with
  | error fault =>
    refine ⟨fun h => (by cases h), ?_⟩
    rintro ⟨notes, h⟩
    cases h
  | ok noted =>
    refine ⟨fun h => ⟨noted.notes, by cases h; rfl⟩, ?_⟩
    rintro ⟨notes, h⟩
    cases h
    rfl

/-- What a constraint says. -/
theorem Definition.of?_constraint (table : String) {entry : List Char} (h : isConstraint entry = true) :
    of? table entry = .ok (ofConstraint table entry).value := by
  have hwords : (Text.words entry).isEmpty = false := by
    rw [isConstraint] at h
    cases hentry : Text.words entry with
    | nil =>
      rw [hentry] at h
      cases h
    | cons first more => rfl
  rw [of?, read, hwords, if_neg Bool.false_ne_true, if_pos h]
  rfl

/-- What the entry of a column says. -/
theorem Definition.of?_column (table : String) {entry : List Char} (hwords : (Text.words entry).isEmpty = false)
    (h : isConstraint entry = false) {name type rest : List Char}
    (hheading : ColumnDefinition.heading entry = some ((name, type), rest)) :
    of? table entry =
      ((ColumnDefinition.column name type rest).map fun c => Definition.column c.value).mapError .length := by
  rw [of?, read, hwords, if_neg Bool.false_ne_true, h, if_neg Bool.false_ne_true, ofColumn, hheading]
  dsimp only
  cases ColumnDefinition.column name type rest <;> rfl

/-- A column is read from an entry that begins with its name and its type. -/
theorem Definition.exists_of_read_column {table : String} {entry : List Char} {c : Column} {notes : List Note}
    (h : Definition.read table entry = .ok ⟨.column c, notes⟩) :
    ∃ name type rest, ColumnDefinition.heading entry = some ((name, type), rest) ∧
      ∃ notes, ColumnDefinition.column name type rest = .ok ⟨c, notes⟩ := by
  rw [Definition.read] at h
  split at h
  · cases h
  split at h
  · -- no constraint is a column
    have hvalue := congrArg Noted.value (Except.ok.inj h)
    rw [Definition.ofConstraint] at hvalue
    split at hvalue
    · dsimp only at hvalue
      split at hvalue <;> cases hvalue
    split at hvalue
    · cases hvalue
    split at hvalue <;> cases hvalue
  · rw [Definition.ofColumn] at h
    split at h
    · cases h
    · next name type rest hheading =>
      cases hcolumn : ColumnDefinition.column name type rest with
      | error fault =>
        rw [hcolumn] at h
        cases h
      | ok read =>
        rw [hcolumn] at h
        cases h
        exact ⟨name, type, rest, hheading, read.notes, hcolumn⟩

/-- The name of the table that a statement creates, and what the entries of its column list say. -/
def Table.definitions? (statement : List Char) : Except ReadFault (String × List Definition) :=
  match Heading.created statement with
  | none => .error (.statement .notCreateTable statement)
  | some (written, fromList) =>
    let name := String.ofList (Identifier.bareName written)
    match Statement.inParentheses? fromList with
    | .error cause => .error (.limit cause)
    | .ok none => .error (.statement (.unclosedList name) statement)
    | .ok (some body) =>
      match Statement.definitions body with
      | .error cause => .error (.limit cause)
      | .ok entries => (entries.mapM (Definition.of? name)).map (name, ·)

/-! ## Columns -/

/-- What a change of a column keeps holds of all columns when one of them is changed. -/
theorem Table.forall_columns_updateColumn {motive : Column → Prop} {t : Table} (ht : ∀ c ∈ t.columns, motive c)
    {name : String} {change : Column → Column} (hchange : ∀ c, motive c → motive (change c)) :
    ∀ c ∈ (t.updateColumn name change).columns, motive c := by
  have hfirst : ∀ columns : List Column, (∀ c ∈ columns, motive c) →
      ∀ c ∈ Table.updateColumn.updateFirst name change columns, motive c := by
    intro columns
    induction columns with
    | nil => exact fun h => h
    | cons head rest ih =>
      intro h
      obtain ⟨hhead, hrest⟩ := List.forall_mem_cons.1 h
      rw [Table.updateColumn.updateFirst]
      split
      · exact List.forall_mem_cons.2 ⟨hchange head hhead, hrest⟩
      · exact List.forall_mem_cons.2 ⟨hhead, ih hrest⟩
  exact hfirst t.columns ht

/-! ## Drafts -/

namespace Draft

theorem name_named (name : String) : (named name).table.name = name := rfl

theorem name_add (d : Draft) (definition : Definition) : (d.add definition).table.name = d.table.name := by
  cases definition with
  | unique columns => rcases columns with _ | ⟨first, _ | ⟨second, others⟩⟩ <;> rfl
  | column | foreignKey | primaryKey | nothing => rfl

theorem name_foldl_add (definitions : List Definition) (d : Draft) :
    (definitions.foldl add d).table.name = d.table.name := by
  induction definitions generalizing d with
  | nil => rfl
  | cons definition rest ih => rw [List.foldl_cons, ih, name_add]

theorem foreignKeys_add (d : Draft) (definition : Definition) :
    (d.add definition).table.foreignKeys = d.table.foreignKeys ++ definition.keys := by
  cases definition with
  | unique columns =>
    rcases columns with _ | ⟨first, _ | ⟨second, others⟩⟩ <;> exact (List.append_nil _).symm
  | column | foreignKey => rfl
  | primaryKey | nothing => exact (List.append_nil _).symm

theorem foreignKeys_foldl_add (definitions : List Definition) (d : Draft) :
    (definitions.foldl add d).table.foreignKeys
      = d.table.foreignKeys ++ definitions.flatMap Definition.keys := by
  induction definitions generalizing d with
  | nil => exact (List.append_nil _).symm
  | cons definition rest ih =>
    rw [List.foldl_cons, ih, foreignKeys_add, List.append_assoc, List.flatMap_cons]

/-- What holds of the columns of a draft and of that of a definition holds of all columns then. -/
theorem forall_columns_add {motive : Column → Prop} {d : Draft} (hd : ∀ c ∈ d.table.columns, motive c)
    {definition : Definition} (h : ∀ c, definition = .column c → motive c) :
    ∀ c ∈ (d.add definition).table.columns, motive c := by
  cases definition with
  | column c =>
    intro c' hc'
    rcases List.mem_append.1 hc' with hc' | hc'
    · exact hd c' hc'
    · rw [List.mem_singleton.1 hc']
      exact h c rfl
  | unique columns =>
    -- a constraint on one column is only noted beside the table
    rcases columns with _ | ⟨first, _ | ⟨second, others⟩⟩ <;> exact hd
  | foreignKey | primaryKey | nothing => exact hd

theorem forall_columns_foldl_add {motive : Column → Prop} {definitions : List Definition} {d : Draft}
    (hd : ∀ c ∈ d.table.columns, motive c) (h : ∀ c, .column c ∈ definitions → motive c) :
    ∀ c ∈ (definitions.foldl add d).table.columns, motive c := by
  induction definitions generalizing d with
  | nil => exact hd
  | cons definition rest ih =>
    refine ih (forall_columns_add hd ?_) fun c hc => h c (List.mem_cons_of_mem _ hc)
    rintro c rfl
    exact h c (List.mem_cons_self ..)

/-- **Reading entries into a draft** is reading them and putting in what they say. -/
theorem value_addEntries (entries : List (List Char)) (d : Draft) :
    (d.addEntries entries).value
      = (entries.mapM (Definition.of? d.table.name)).map (·.foldl add d) := by
  induction entries generalizing d with
  | nil => rfl
  | cons entry rest ih =>
    rw [addEntries, addEntry, List.mapM_cons, Definition.of?]
    cases Definition.read d.table.name entry with
    | error fault => rfl
    | ok read =>
      dsimp only [Except.map, bind, Except.bind]
      rw [ih, name_add]
      cases rest.mapM (Definition.of? d.table.name) <;> rfl

/-- What setting flags leaves alone, the table of a draft has from the draft. -/
theorem toTable_induction (motive : Table → Prop) {d : Draft} (start : motive d.table)
    (keyed : ∀ alone t name, motive t → motive (t.updateColumn name (keyColumn alone)))
    (unique : ∀ t name, motive t →
      motive (t.updateColumn name fun c => { c with unique := true })) : motive d.toTable :=
  List.foldlRecOn _ _ (List.foldlRecOn _ _ start fun t ht name _ => keyed _ t name ht)
    fun t ht name _ => unique t name ht

theorem name_toTable (d : Draft) : d.toTable.name = d.table.name :=
  toTable_induction (·.name = d.table.name) rfl (fun _ _ _ h => h) fun _ _ h => h

theorem foreignKeys_toTable (d : Draft) : d.toTable.foreignKeys = d.table.foreignKeys :=
  toTable_induction (·.foreignKeys = d.table.foreignKeys) rfl (fun _ _ _ h => h)
    fun _ _ h => h

/-- What holds of a column whatever its flags are, the columns of a table have from the draft. -/
theorem forall_columns_toTable {motive : Column → Prop} {d : Draft} (hd : ∀ c ∈ d.table.columns, motive c)
    (hflags : ∀ (c : Column) (nullable unique primaryKey : Bool), motive c →
      motive { c with nullable, unique, primaryKey }) :
    ∀ c ∈ d.toTable.columns, motive c :=
  toTable_induction (fun t => ∀ c ∈ t.columns, motive c) hd
    (fun _ _ _ ht => Table.forall_columns_updateColumn ht fun c hc => hflags c _ _ _ hc)
    fun _ _ ht => Table.forall_columns_updateColumn ht fun c hc => hflags c _ _ _ hc

end Draft

/-! ## Tables -/

namespace Table

/-- The table of a name of which the definitions say so much. -/
def ofDefinitions (name : String) (definitions : List Definition) : Table :=
  (definitions.foldl Draft.add (Draft.named name)).toTable

/-- **A table is what its definitions say.** -/
theorem value_readCreate (statement : List Char) :
    (readCreate statement).value
      = (definitions? statement).map fun found => ofDefinitions found.1 found.2 := by
  rw [readCreate, definitions?]
  cases Heading.created statement with
  | none => rfl
  | some found =>
    obtain ⟨written, fromList⟩ := found
    dsimp only
    cases Statement.inParentheses? fromList with
    | error cause => rfl
    | ok inner =>
      cases inner with
      | none => rfl
      | some body =>
        dsimp only
        cases Statement.definitions body with
        | error cause => rfl
        | ok entries =>
          dsimp only
          rw [Draft.value_addEntries, Draft.name_named]
          cases entries.mapM (Definition.of? (String.ofList (Identifier.bareName written))) <;> rfl

theorem name_ofDefinitions (name : String) (definitions : List Definition) :
    (ofDefinitions name definitions).name = name := by
  rw [ofDefinitions, Draft.name_toTable, Draft.name_foldl_add]
  rfl

/-- The foreign keys of a table are those of its definitions, in their order. -/
theorem foreignKeys_ofDefinitions (name : String) (definitions : List Definition) :
    (ofDefinitions name definitions).foreignKeys = definitions.flatMap Definition.keys := by
  rw [ofDefinitions, Draft.foreignKeys_toTable, Draft.foreignKeys_foldl_add]
  rfl

/-- What holds of the columns of its definitions, whatever their flags are, holds of the columns of a table. -/
theorem forall_columns_ofDefinitions {motive : Column → Prop} {name : String} {definitions : List Definition}
    (h : ∀ c, .column c ∈ definitions → motive c)
    (hflags : ∀ (c : Column) (nullable unique primaryKey : Bool), motive c →
      motive { c with nullable, unique, primaryKey }) :
    ∀ c ∈ (ofDefinitions name definitions).columns, motive c :=
  Draft.forall_columns_toTable
    (Draft.forall_columns_foldl_add (fun _ hc => absurd hc List.not_mem_nil) h) hflags

/-- A table that is read is made of definitions. -/
theorem exists_of_readCreate {statement : List Char} {t : Table}
    (h : (readCreate statement).value = .ok t) :
    ∃ name definitions, definitions? statement = .ok (name, definitions) ∧
      t = ofDefinitions name definitions := by
  rw [value_readCreate] at h
  cases hfound : definitions? statement with
  | error fault =>
    rw [hfound] at h
    cases h
  | ok found =>
    rw [hfound] at h
    cases h
    exact ⟨found.1, found.2, rfl, rfl⟩

/-- The definitions of a statement stand in the list in parentheses behind its heading. -/
theorem definitions?_eq_ok {statement : List Char} {name : String} {definitions : List Definition}
    (h : definitions? statement = .ok (name, definitions)) :
    ∃ written fromList body entries, Heading.created statement = some (written, fromList) ∧
      Statement.inParentheses? fromList = .ok (some body) ∧ Statement.definitions body = .ok entries ∧
      name = String.ofList (Identifier.bareName written) ∧
      entries.mapM (Definition.of? name) = .ok definitions := by
  rw [definitions?] at h
  split at h
  · cases h
  next written fromList hcreated =>
  dsimp only at h
  split at h
  · cases h
  · cases h
  next body hbody =>
  split at h
  · cases h
  next entries hentries =>
  cases hread : entries.mapM (Definition.of? (String.ofList (Identifier.bareName written))) with
  | error fault =>
    rw [hread] at h
    cases h
  | ok found =>
    rw [hread] at h
    cases h
    exact ⟨written, fromList, body, entries, hcreated, hbody, hentries, rfl, hread⟩

end Table
end SchemaSketch
