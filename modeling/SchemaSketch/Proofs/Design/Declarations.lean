import Mathlib
import SchemaSketch.Proofs.Design.WellFormed
import SchemaSketch.Proofs.Table.Reader

/-!
# Tables that are declared again

A script may declare a table more than once, and a declaration may be broken.

* **Places.** A table keeps the place where its name was declared first
  (`Register.keys_ofReadings`).
* **Contents.** It is what its last declaration says, with the foreign keys that alterations add
  (`Register.exists_declaration_of_mem`).
* **Broken declarations.** A declaration counts only if all of it is read. One that breaks off, after
  however many columns, might as well not be there (`Register.ofReadings_append_cons`).

`Design.declared_ofScript` puts this together for the entities of a script.
-/

namespace SchemaSketch

open Text

namespace Statement

/-- The table that a statement creates, if all of the statement is read. -/
def created? (statement : List Char) : Option Table := (Reading.ofStatement statement).table?

/-- The statement that a table comes from: the last that creates one of its name. -/
def declaration? (statements : List (List Char)) (table : String) : Option (List Char) :=
  statements.reverse.find? fun statement => (created? statement).any (sameName ·.name table)

end Statement

namespace Register

open Statement (created? declaration?)

/-! ## Places -/

/-- A name at the end counts unless it came up before. -/
theorem eraseDups_concat {α : Type} [DecidableEq α] (l : List α) (a : α) :
    (l ++ [a]).eraseDups = if a ∈ l then l.eraseDups else l.eraseDups ++ [a] := by
  rw [List.eraseDups_append, List.removeAll, List.filter_cons, List.filter_nil]
  by_cases h : a ∈ l <;> simp [h, List.eraseDups_cons]

/-- Declaring tables adds the names that are new, each where it comes up first. -/
theorem keys_declared (readings : List Reading) :
    keys (declared readings)
      = ((readings.filterMap Reading.table?).map (lowerName ·.name)).eraseDups := by
  induction readings using List.reverseRecOn with
  | nil => rfl
  | append_singleton readings reading ih =>
    rw [declared, List.foldl_append, List.foldl_cons, List.foldl_nil, ← declared, afterCreation,
      List.filterMap_append]
    cases hread : reading.table? with
    | none => rw [List.filterMap_cons_none hread, List.filterMap_nil, List.append_nil, ih]
    | some table =>
      rw [List.filterMap_cons_some hread, List.filterMap_nil, List.map_append, List.map_singleton,
        eraseDups_concat]
      dsimp only
      rw [declare, keys_put, ih]
      simp only [List.mem_eraseDups]

theorem keys_foldl_afterAlteration (readings : List Reading) (r : Register) :
    keys (readings.foldl afterAlteration r) = keys r := by
  induction readings generalizing r with
  | nil => rfl
  | cons reading rest ih =>
    rw [List.foldl_cons, ih, afterAlteration]
    split
    · exact keys_alter r _
    · rfl

/-- **Places.** The names of a script stand in the order of their first declarations. -/
theorem keys_ofReadings (readings : List Reading) :
    keys (ofReadings readings)
      = ((readings.filterMap Reading.table?).map (lowerName ·.name)).eraseDups := by
  rw [ofReadings, keys_foldl_afterAlteration, keys_declared]

/-! ## Contents -/

/-- The tables under a key are those of that name, in the order of their statements. -/
theorem tablesOf_eq_filter (key : String) (readings : List Reading) :
    tablesOf key readings = (readings.filterMap (·.table?)).filter (lowerName ·.name == key) := by
  rw [tablesOf, List.filterMap_filter, List.filter_filterMap]
  congr 1
  funext reading
  rw [Reading.declares]
  cases reading.table? with
  | none => rfl
  | some table => rfl

/-- The last table under the key of a name comes from the last statement that declares it. -/
theorem getLast?_tablesOf (statements : List (List Char)) (name : String) :
    (tablesOf (lowerName name) (statements.map Reading.ofStatement)).getLast?
      = (declaration? statements name).bind created? := by
  rw [tablesOf_eq_filter, List.filterMap_map, List.getLast?_filter, ← List.filterMap_reverse,
    List.find?_filterMap]
  rfl

/-- **Contents.** A table of a script is what its last declaration says, with the keys that are added. -/
theorem exists_declaration_of_mem {statements : List (List Char)} {k : String} {t : Table}
    (h : (k, t) ∈ ofReadings (statements.map Reading.ofStatement)) :
    ∃ statement read, declaration? statements t.name = some statement ∧
      created? statement = some read ∧
      t = read.withKeys (addedKeys (lowerName t.name) (statements.map Reading.ofStatement)) := by
  have hkeyed := keyed_ofReadings (statements.map Reading.ofStatement)
  obtain rfl : k = lowerName t.name := hkeyed.key_eq _ h
  have hlookup := (mem_iff_lookup_eq_some hkeyed.nodup).1 h
  rw [lookup_ofReadings, getLast?_tablesOf] at hlookup
  obtain ⟨read, hread, heq⟩ := Option.map_eq_some_iff.1 hlookup
  obtain ⟨statement, hstatement, hcreated⟩ := Option.bind_eq_some_iff.1 hread
  exact ⟨statement, read, hstatement, hcreated, heq.symm⟩

/-! ## Broken declarations -/

/-- A statement that neither declares nor alters a table may be left out. -/
theorem ofReadings_append_cons {reading : Reading} (htable : reading.table? = none)
    (halteration : reading.alteration? = none) (before after : List Reading) :
    ofReadings (before ++ reading :: after) = ofReadings (before ++ after) := by
  have hdeclared : declared (before ++ reading :: after) = declared (before ++ after) := by
    rw [declared, declared, List.foldl_append, List.foldl_append, List.foldl_cons, afterCreation, htable]
  rw [ofReadings, ofReadings, hdeclared, List.foldl_append, List.foldl_append, List.foldl_cons]
  congr 1
  rw [afterAlteration, halteration]

end Register

/-! ## The design of a script -/

namespace Design

open Statement (created? declaration?)

/-- The entity in a place comes from the table in that place. -/
theorem exists_entry_of_getElem? {base : BaseColumns} {r : Register} {i : Nat} {e : Entity}
    (h : (entitiesOf base r)[i]? = some e) :
    ∃ entry, r[i]? = some entry ∧ e.id = entityId i ∧ e.tableName = entry.2.name ∧
      e.fields = fields base [] entry.2.columns := by
  have hid : e.id = entityId i := by
    obtain ⟨hi, hget⟩ := List.getElem?_eq_some_iff.1 h
    have hids := congrArg (·[i]?) (ids_entitiesOf base r)
    simpa [hi, hget] using hids
  have hcontents := congrArg (·[i]?) (contents_entitiesOf base r)
  simp only [List.getElem?_map, h, Option.map_some] at hcontents
  obtain ⟨entry, hentry, heq⟩ := Option.map_eq_some_iff.1 hcontents.symm
  obtain ⟨hname, hfields⟩ := Prod.mk.inj heq
  exact ⟨entry, hentry, hid, hname.symm, hfields.symm⟩

/-- The entities of a design are the tables that statements declare. -/
structure Declared (base : BaseColumns) (statements : List (List Char)) (d : Design) : Prop where
  /-- a table stands where its name is declared first, in whatever case it is written -/
  places : d.entities.map (lowerName ·.tableName)
    = ((statements.filterMap created?).map (lowerName ·.name)).eraseDups
  /-- an entity is what the last declaration of its table says -/
  contents : ∀ e ∈ d.entities, ∃ statement t, declaration? statements e.tableName = some statement ∧
    created? statement = some t ∧ e.tableName = t.name ∧ e.fields = fields base [] t.columns
  /-- a declaration of which anything cannot be read might as well not be there -/
  broken : ∀ before statement after fault, statements = before ++ statement :: after →
    Heading.kind? statement = .ok (some .createTable) →
    (Table.readCreate statement).value = .error fault →
    ofStatements base (before ++ after) = d

/-- A declaration of which anything cannot be read says nothing. -/
theorem ofStatements_append_cons (base : BaseColumns) {statement : List Char} {fault : ReadFault}
    (hkind : Heading.kind? statement = .ok (some .createTable))
    (hread : (Table.readCreate statement).value = .error fault) (before after : List (List Char)) :
    ofStatements base (before ++ statement :: after) = ofStatements base (before ++ after) := by
  have hreading : Reading.ofStatement statement = .creation (Table.readCreate statement) := by
    rw [Reading.ofStatement, hkind]
  have htable : (Reading.ofStatement statement).table? = none := by
    rw [hreading]
    cases hcreate : Table.readCreate statement with
    | mk value notes =>
      rw [hcreate] at hread
      obtain rfl : value = .error fault := hread
      rfl
  have halteration : (Reading.ofStatement statement).alteration? = none := by
    rw [hreading]
    rfl
  rw [ofStatements, ofStatements, List.map_append, List.map_append, List.map_cons,
    Register.ofReadings_append_cons htable halteration]

theorem declared_ofStatements (base : BaseColumns) (statements : List (List Char)) :
    Declared base statements (ofStatements base statements) := by
  have hkeyed := Register.keyed_ofReadings (statements.map Reading.ofStatement)
  refine ⟨?_, ?_, ?_⟩
  · have htables := tables_entitiesOf base hkeyed
    rw [Register.keys_ofReadings, List.filterMap_map] at htables
    exact htables
  · intro e he
    obtain ⟨i, hi⟩ := List.mem_iff_getElem?.1 he
    obtain ⟨⟨k, t⟩, hentry, -, hname, hfields⟩ := exists_entry_of_getElem? hi
    obtain ⟨statement, read, hdeclaration, hcreated, ht⟩ :=
      Register.exists_declaration_of_mem (List.mem_of_getElem? hentry)
    refine ⟨statement, read, hname ▸ hdeclaration, hcreated, ?_, ?_⟩
    · rw [hname, ht]
      rfl
    · rw [hfields, ht]
      rfl
  · rintro before statement after fault rfl hkind hread
    exact (ofStatements_append_cons base hkind hread before after).symm

/-- **The entities of every script are the tables that it declares**: each stands where it is declared
first and is what its last good declaration says, and nothing is left of the others. -/
theorem declared_ofScript (base : BaseColumns) {script : List Char} {statements : List (List Char)}
    (h : Statement.prepare script = .ok statements) :
    ∃ d, ofScript base script = .ok d ∧ Declared base statements d :=
  ⟨ofStatements base statements, by rw [ofScript, h]; rfl, declared_ofStatements base statements⟩

/-- One table is declared again; for the other, that breaks off after a column. -/
def redeclaring : List Char :=
  "create table U(a int);create table v(x int);".toList
    ++ "create table u(b int);create table V(c int, d varchar(²))".toList

/-- The statements of that script. -/
def redeclarations : List (List Char) :=
  ["create table U(a int)", "create table v(x int)", "create table u(b int)",
    "create table V(c int, d varchar(²))"].map (·.toList)

theorem declared_redeclarations :
    Statement.prepare redeclaring = .ok redeclarations ∧
      ∃ d, ofScript BaseColumns.standard redeclaring = .ok d ∧
        Declared BaseColumns.standard redeclarations d := by
  have h : Statement.prepare redeclaring = .ok redeclarations := by decide +kernel
  exact ⟨h, declared_ofScript _ h⟩

end Design
end SchemaSketch
