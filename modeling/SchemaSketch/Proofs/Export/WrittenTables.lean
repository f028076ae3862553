import SchemaSketch.Proofs.Export.WrittenColumns
import SchemaSketch.Proofs.Table.Alterations
import SchemaSketch.Proofs.Table.Constraints
import SchemaSketch.Proofs.Table.Kinds

/-!
# A written table is read back

The statement that creates a table has a line for each column. Squeezed onto one line it has the heading of a creation
and a list of the same columns, and so the table that is read has the columns that were written
(`Creation.ofStatement_line`). The statement that adds a foreign key is read as well, and so both are told as
readings.
-/

namespace SchemaSketch

open Text Pattern

/-! ## The heading -/

namespace Heading

/-- The words up to the word `TABLE`. -/
def tableWords : Pattern :=
  keyword "create" >> blanks1 >> Token.lead (oneOf ["global", "local"])
    >> Token.lead (oneOf ["temporary", "temp", "unlogged"]) >> keyword "table"

/-- **The table that is created**, unless its name is an optional word. -/
theorem created_append {table : List Char} (htable : Ident.Plain table) (hif : table ≠ "if".toList) (rest : List Char) :
    created ("CREATE TABLE".toList ++ ' ' :: (table ++ ' ' :: '(' :: rest)) = some (table, '(' :: rest) := by
  have hwords : createWords = ((tableWords >> blanks1) >> Token.lead (phrase ["if", "not", "exists"])) := by
    simp only [createWords, tableWords, andThen_assoc]
  have hfront : (tableWords >> blanks1) ("CREATE TABLE".toList ++ ' ' :: (table ++ ' ' :: '(' :: rest)) = some 13 :=
    andThen_space _ rfl (htable.isBlank_head? _)
  have hword : wholeWord "if" (table ++ ' ' :: '(' :: rest) = none :=
    (wholeWord_append (by decide) table (by decide) _).trans (htable.wholeWord_eq_none hif)
  have hlead : Token.lead (phrase ["if", "not", "exists"]) (table ++ ' ' :: '(' :: rest) = some 0 := by
    rw [Token.lead, optional_apply, andThen_eq_none (phrase_eq_none hword "not" ["exists"])]
    rfl
  have hname : Identifier.qualified (table ++ ' ' :: '(' :: rest) = some table.length :=
    Identifier.qualified_append htable.ne_nil htable.isBareChar (by rintro c ⟨⟩; decide) rfl
  have hblanks : blanks (' ' :: '(' :: rest) = some 1 := rfl
  have hcreate : createWords ("CREATE TABLE".toList ++ ' ' :: (table ++ ' ' :: '(' :: rest)) = some 13 := by
    rw [hwords, andThen_of_eq_some hfront]
    exact congrArg (Option.map (13 + ·)) hlead
  rw [created, Reader.skip_bind, hcreate, Option.bind_some]
  change (Reader.take Identifier.qualified >>= fun _ => _) (table ++ ' ' :: '(' :: rest) = _
  rw [Reader.take_bind, hname, Option.bind_some, List.take_left, List.drop_left, Reader.skip_bind, hblanks]
  rfl

end Heading

theorem Ident.Unquoted.isEmpty_eq_false {name : String} (h : Unquoted name) : name.isEmpty = false :=
  String.isEmpty_eq_false_iff.2 fun heq => h.plain.ne_nil (by rw [heq]; rfl)

theorem Ident.Unquoted.ne_if {name : String} (h : Unquoted name) : name.toList ≠ "if".toList := by
  intro heq
  have hbare := h.bare
  rw [String.toList_inj.1 heq] at hbare
  exact absurd hbare (by decide +kernel)

/-! ## The statement -/

namespace Creation

/-- What stands in front of the list. -/
def heading (table : String) : List Char := "CREATE TABLE".toList ++ ' ' :: (table.toList ++ [' '])

/-- The statement in a script, without the semicolon. -/
def raw (table : String) (items : List (List Char)) : List Char := Table.creation (heading table) (onLines items) []

/-- The statement on one line, without the semicolon. -/
def line (table : String) (items : List (List Char)) : List Char := Table.creation (heading table) (onOneLine items) []

theorem heading_eq (table : String) : heading table = "CREATE TABLE".toList ++ ' ' :: (table.toList ++ [' ']) := rfl

variable {table : String} (htable : Ident.Unquoted table)

include htable

theorem created_heading (rest : List Char) :
    Heading.created (heading table ++ '(' :: rest) = some (table.toList, '(' :: rest) := by
  have hheading : heading table ++ '(' :: rest =
      "CREATE TABLE".toList ++ ' ' :: (table.toList ++ ' ' :: '(' :: rest) := by
    simp only [heading_eq, List.append_assoc, List.cons_append, List.nil_append]
  rw [hheading]
  exact Heading.created_append htable.plain htable.ne_if rest

section

variable {items : List (List Char)} (hitems : ∀ item ∈ items, IsItem item)

include hitems

theorem squeeze_raw (hne : items ≠ []) : squeeze (raw table items) = line table items := by
  have hcreate : Tidy "CREATE TABLE".toList := tidy_of_squeeze_eq (by decide) (by cbv)
  have hopen : Tidy ['('] := .word (List.cons_ne_nil _ _) (List.forall_mem_singleton.2 rfl)
  have hname : Tidy table.toList := .word htable.plain.ne_nil htable.plain.isBlank
  have hfront := squeeze_onLines ((hcreate.space hname).space hopen) hne hitems
  have happend : ∀ body : List Char, Table.creation (heading table) body [] =
      ("CREATE TABLE".toList ++ ' ' :: table.toList) ++ ' ' :: ['('] ++ (body ++ [')']) := by
    intro body
    simp only [Table.creation, heading_eq, List.append_assoc, List.cons_append, List.nil_append]
  exact (congrArg squeeze (happend _)).trans (hfront.trans (happend _).symm)

/-- **The statement is one of the script.** -/
theorem isStatement_raw : IsStatement (raw table items) := by
  have hcreate : IsPhrase "CREATE TABLE".toList := by decide +kernel
  have hheading : IsPhrase (heading table) := hcreate.apart (.inl rfl) (htable.isPhrase.apart (.inl rfl) .nil)
  have hraw : raw table items = (heading table ++ '(' :: onLines items) ++ [')'] := by
    simp only [raw, Table.creation, List.append_assoc, List.cons_append]
  have hphrase : IsPhrase (raw table items) := hheading.enclose (isPhrase_onLines hitems) .nil
  rw [hraw] at hphrase ⊢
  exact hphrase.isStatement (by decide)

end

end Creation

/-! ## The columns -/

theorem Export.WrittenColumn.isItem_of_forall₂ {columns : List WrittenColumn} {cs : List Column}
    (h : List.Forall₂ ReadAs columns cs) : ∀ item ∈ columns.map (·.text), IsItem item := by
  induction h with
  | nil => nofun
  | cons hc _ ih => exact List.forall_mem_cons.2 ⟨hc.item, ih⟩

/-- Columns without references are read one after the other. -/
theorem Draft.value_addEntries_columns {columns : List Export.WrittenColumn} {cs : List Column}
    (h : List.Forall₂ Export.WrittenColumn.ReadAs columns cs) (d : Draft) :
    (d.addEntries (columns.map (·.text))).value =
      .ok { d with table := { d.table with columns := d.table.columns ++ cs } } := by
  induction h generalizing d with
  | nil => rw [List.append_nil]; rfl
  | cons hc _ ih =>
    rw [List.map_cons, value_addEntries_cons, hc.read, Except.bind, ih, add, hc.references, Option.toList_none,
      List.append_nil, List.append_assoc]
    rfl

theorem Reading.of_creation {read : Noted (Except ReadFault Table)} {t : Table} (h : read.value = .ok t) :
    (creation read).table? = some t ∧ (creation read).alteration? = none := by
  obtain ⟨value, notes⟩ := read
  cases h
  exact ⟨rfl, rfl⟩

theorem Reading.of_alteration {read : Noted (Except ReadFault Alteration)} {a : Alteration} (h : read.value = .ok a) :
    (alteration read).table? = none ∧ (alteration read).alteration? = some a := by
  obtain ⟨value, notes⟩ := read
  cases h
  exact ⟨rfl, rfl⟩

/-- A statement whose kind can be told can be cut into tokens. -/
theorem Heading.exists_segments {statement : List Char} {kind : Option StatementKind} (h : kind? statement = .ok kind) :
    ∃ segments, Script.segments statement = .ok segments := by
  rw [kind?] at h
  cases hsegments : Script.segments statement with
  | ok segments => exact ⟨segments, rfl⟩
  | error cause =>
    rw [hsegments] at h
    cases h

/-- A statement that is not too much: it can be cut into tokens, and so can its list of columns. -/
structure Statement.Modest (statement : List Char) : Prop where
  kind : ∃ kind, Heading.kind? statement = .ok kind
  list : Table.Admitted statement

instance (statement : List Char) : Decidable (Table.Admitted statement) :=
  match h : (Table.readCreate statement).value with
  | .error (.limit cause) => isFalse fun hadmitted => hadmitted cause h
  | .error (.length _) | .error .blankDefinition | .error (.statement _ _) | .ok _ =>
    isTrue fun _ => by rw [h]; exact nofun

instance (statement : List Char) : Decidable (Statement.Modest statement) :=
  match h : Heading.kind? statement with
  | .ok kind => decidable_of_iff (Table.Admitted statement) ⟨fun hlist => ⟨⟨kind, h⟩, hlist⟩, (·.list)⟩
  | .error _ => isFalse fun hmodest => by
      obtain ⟨kind, hkind⟩ := hmodest.kind
      rw [h] at hkind
      cases hkind

/-- A script within the limits: it can be cut, and none of its statements is too much. -/
def Script.Modest (script : List Char) : Prop :=
  ∃ statements, Statement.prepare script = .ok statements ∧ ∀ s ∈ statements, Statement.Modest s

instance (script : List Char) : Decidable (Script.Modest script) :=
  match h : Statement.prepare script with
  | .ok statements => decidable_of_iff (∀ s ∈ statements, Statement.Modest s)
      ⟨fun hmodest => ⟨statements, h, hmodest⟩, fun ⟨found, hfound, hmodest⟩ => by
        rw [h] at hfound
        cases hfound
        exact hmodest⟩
  | .error _ => isFalse fun ⟨found, hfound, _⟩ => by
      rw [h] at hfound
      cases hfound

/-- **The table that is read has the columns that were written.** -/
theorem Creation.ofStatement_line {table : String} (htable : Ident.Unquoted table)
    {columns : List Export.WrittenColumn} {cs : List Column}
    (hcolumns : List.Forall₂ Export.WrittenColumn.ReadAs columns cs) (hne : columns ≠ [])
    (hmodest : Statement.Modest (line table (columns.map (·.text)))) :
    (Reading.ofStatement (line table (columns.map (·.text)))).table? = some ⟨table, cs, [], []⟩ ∧
      (Reading.ofStatement (line table (columns.map (·.text)))).alteration? = none := by
  have hlists := Statement.lists_onOneLine (mt List.map_eq_nil_iff.1 hne)
    (Export.WrittenColumn.isItem_of_forall₂ hcolumns)
  have hread := Table.value_readCreate_listed (created_heading htable) rfl hlists hmodest.list
  rw [htable.plain.bareName_eq_self, String.ofList_toList, Draft.value_addEntries_columns hcolumns] at hread
  obtain ⟨kind, hkind⟩ := hmodest.kind
  obtain ⟨segments, hsegments⟩ := Heading.exists_segments hkind
  have hcreated : (Heading.created (line table (columns.map (·.text)))).isSome = true :=
    congrArg Option.isSome (created_heading htable _)
  rw [Reading.ofStatement, (Heading.kind?_eq_createTable hsegments).2 hcreated]
  exact Reading.of_creation hread

/-- **The foreign key that is read is the one that was written.** -/
theorem KeyStatement.ofStatement_line {s : KeyStatement} (h : s.Bare) (honly : s.table ≠ "only")
    (hcolumn : s.column ≠ "add") (htarget : s.target ≠ "add") (hmodest : Statement.Modest s.line) :
    (Reading.ofStatement s.line).table? = none ∧ (Reading.ofStatement s.line).alteration? = some ⟨s.table, [s.key]⟩ := by
  obtain ⟨kind, hkind⟩ := hmodest.kind
  obtain ⟨segments, hsegments⟩ := Heading.exists_segments hkind
  rw [Reading.ofStatement, kind?_line h honly hsegments]
  exact Reading.of_alteration (value_read_line h honly hcolumn htarget)

end SchemaSketch
