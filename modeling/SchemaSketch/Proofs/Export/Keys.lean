import Mathlib
import SchemaSketch.Proofs.Export.Columns
import SchemaSketch.Proofs.Export.Steps

/-!
# Names in foreign keys and indexes

A foreign key and an index are written for each relation. Both name the column of the relation, and the
index has a name of its own.

* **Columns.** A column is added for a relation unless a field has it, in whatever case. So the column is
  declared in some spelling (`Export.lowerName_column_mem`). It is declared in the spelling of the relation
  unless it is a field's that is only spelled in another way (`Design.keys_declared_iff`).
* **Indexes** are named by gluing the table and the column together with low lines, and such a name does
  not tell where the column begins (`Export.indexName_eq_iff`). So indexes may share a name in two ways
  (`Design.indexNames_nodup_iff`): two relations of a table may have one column, and the name of a table
  may go on where another's ends.
-/

namespace SchemaSketch

open Text

namespace Export

/-! ## Columns -/

section
variable {d : Design} {e : Entity} {l : Lead}

/-- The column of a relation is added unless a field has it. -/
theorem column_mem_addedNames_iff (hl : l ∈ d.leads e) :
    l.column ∈ d.addedNames e ↔ lowerName l.column ∉ e.ownNames := by
  rw [Design.addedNames, List.mem_map]
  constructor
  · rintro ⟨l', hl', hcolumn⟩
    rw [← hcolumn]
    simpa using (List.mem_filter.1 hl').2
  · exact fun h => ⟨l, List.mem_filter.2 ⟨hl, by simpa using h⟩, rfl⟩

/-- No field has a column that all tables share. -/
theorem isShared_of_mem_ownNames {name : String} (h : name ∈ e.ownNames) : isShared name = false := by
  obtain ⟨f, hf, rfl⟩ := List.mem_map.1 h
  simpa using (List.mem_filter.1 hf).2

/-- The column of a relation is declared as it is spelled, unless a field's column is the same in another
spelling only. -/
theorem column_mem_iff (hl : l ∈ d.leads e) :
    l.column ∈ (d.columns e).map (·.name) ↔
      (lowerName l.column ∈ e.ownNames → l.column ∈ e.ownFields.map (·.column)) := by
  rw [(Design.names_columns_perm d e).mem_iff, List.mem_append, List.mem_append,
    column_mem_addedNames_iff hl]
  constructor
  · rintro (hfixed | hown | hadded) hname
    · have hshared := Design.isShared_lowerName_of_mem hfixed
      rw [isShared_of_mem_ownNames hname] at hshared
      cases hshared
    · exact hown
    · exact absurd hname hadded
  · intro h
    by_cases hname : lowerName l.column ∈ e.ownNames
    · exact .inr (.inl (h hname))
    · exact .inr (.inr hname)

/-- The column of a relation is declared in some spelling. -/
theorem lowerName_column_mem (hl : l ∈ d.leads e) :
    lowerName l.column ∈ (d.columns e).map (lowerName ·.name) := by
  have hnames : (d.columns e).map (lowerName ·.name) = ((d.columns e).map (·.name)).map lowerName := by
    rw [List.map_map]
    rfl
  rw [hnames]
  by_cases hname : lowerName l.column ∈ e.ownNames
  · obtain ⟨f, hf, heq⟩ := List.mem_map.1 hname
    have hcolumn : f.column ∈ (d.columns e).map (·.name) := by
      rw [(Design.names_columns_perm d e).mem_iff]
      exact List.mem_append_right _ (List.mem_append_left _ (List.mem_map_of_mem hf))
    exact heq ▸ List.mem_map_of_mem hcolumn
  · exact List.mem_map_of_mem ((column_mem_iff hl).2 fun h => absurd h hname)

end

/-! ## Names of indexes -/

/-- The name of an index, before it is quoted. -/
def indexName (table column : String) : String := "idx_" ++ table ++ "_" ++ column

/-- The name of the index that a step adds, as it is written. -/
def Step.indexName? : Step → Option String
  | create _ => none
  | refer _ _ => none
  | index e l => some (Ident.quote (indexName e.table l.column))

/-- Whether one table's name goes on, behind a low line, where another's ends and its column begins. -/
def GoesOn (table column table' column' : String) : Prop :=
  ∃ middle, table' = table ++ "_" ++ middle ∧ column = middle ++ "_" ++ column'

theorem eq_or_goesOn {table column table' column' : String} {gap : List Char}
    (htable : table'.toList = table.toList ++ gap)
    (hcolumn : '_' :: column.toList = gap ++ '_' :: column'.toList) :
    table = table' ∧ column = column' ∨ GoesOn table column table' column' := by
  cases gap with
  | nil =>
    rw [List.append_nil] at htable
    exact .inl ⟨String.toList_inj.1 htable.symm, String.toList_inj.1 (List.cons.inj hcolumn).2⟩
  | cons c middle =>
    obtain ⟨rfl, hmiddle⟩ := List.cons.inj hcolumn
    refine .inr ⟨String.ofList middle, String.toList_inj.1 ?_, String.toList_inj.1 ?_⟩
    · simp [htable]
    · simp [hmiddle]

theorem indexName_injective (table : String) : Function.Injective (indexName table) :=
  fun _ _ => (String.append_right_inj _).1

/-- **Which indexes have one name**: those of the same table and column, and those of two tables where the
name of one goes on where that of the other ends. -/
theorem indexName_eq_iff {table column table' column' : String} :
    indexName table column = indexName table' column' ↔ table = table' ∧ column = column' ∨
      GoesOn table column table' column' ∨ GoesOn table' column' table column := by
  constructor
  · intro h
    have hlists : table.toList ++ '_' :: column.toList = table'.toList ++ '_' :: column'.toList := by
      have hname := congrArg String.toList h
      simp only [indexName, String.toList_append, List.append_assoc] at hname
      exact List.append_cancel_left hname
    rcases List.append_eq_append_iff.1 hlists with ⟨gap, htable, hcolumn⟩ | ⟨gap, htable, hcolumn⟩
    · rcases eq_or_goesOn htable hcolumn with heq | hon
      · exact .inl heq
      · exact .inr (.inl hon)
    · rcases eq_or_goesOn htable hcolumn with ⟨rfl, rfl⟩ | hon
      · exact .inl ⟨rfl, rfl⟩
      · exact .inr (.inr hon)
  · rintro (⟨rfl, rfl⟩ | ⟨middle, rfl, rfl⟩ | ⟨middle, rfl, rfl⟩)
    · rfl
    · simp only [indexName, String.append_assoc]
    · simp only [indexName, String.append_assoc]

end Export

namespace Design

open Export

/-! ## Relations -/

/-- Every relation leads out of an entity. -/
theorem exists_lead {d : Design} (hd : d.WellFormed) {x : Relation} (hx : x ∈ d.relations) :
    ∃ e ∈ d.entities, e.id = x.sourceId ∧ ∃ l ∈ d.leads e, l.relation = x := by
  obtain ⟨⟨e, he, hsource⟩, target, htarget, hid⟩ := hd.ends x hx
  obtain ⟨found, hfound⟩ : ∃ found, d.entityOf? x.targetId = some found := by
    rw [← Option.isSome_iff_exists, entityOf?, List.find?_isSome]
    exact ⟨target, List.mem_reverse.2 htarget, beq_iff_eq.2 hid⟩
  refine ⟨e, he, hsource, ⟨x, found⟩, List.mem_filterMap.2 ⟨x, hx, ?_⟩, rfl⟩
  rw [if_pos hsource.symm, hfound]
  rfl

/-- **When foreign keys and indexes name declared columns.** A foreign key and an index are written for
every relation. The column that they name is declared in some spelling, and it is declared as they spell it
if and only if it is no field's column, or the column of a field that is spelled so. -/
theorem keys_declared_iff {base : BaseColumns} {script : List Char} {d : Design}
    (h : ofScript base script = .ok d) {x : Relation} (hx : x ∈ d.relations) :
    ∃ e ∈ d.entities, e.id = x.sourceId ∧ ∃ l ∈ d.leads e, l.relation = x ∧
      entityStatements d.toDocument e.toDocument
        = .ok ("\n".intercalate ((d.stepsOf e).map (·.text d))) ∧
      .refer e l ∈ d.stepsOf e ∧ .index e l ∈ d.stepsOf e ∧
      lowerName l.column ∈ (d.columns e).map (lowerName ·.name) ∧
      (Ident.quote l.column ∈ (d.columns e).map (Ident.quote ·.name) ↔
        (lowerName l.column ∈ e.ownNames → l.column ∈ e.ownFields.map (·.column))) := by
  obtain ⟨statements, -, rfl⟩ := ofScript_eq_ok.1 h
  obtain ⟨e, he, hsource, l, hl, hrelation⟩ := exists_lead (wellFormed_ofStatements base statements) hx
  obtain ⟨hrefer, hindex⟩ := mem_stepsOf_of_mem_leads hl
  refine ⟨e, he, hsource, l, hl, hrelation, ?_, hrefer, hindex, lowerName_column_mem hl, ?_⟩
  · rw [entityStatements_toDocument, tableScript_eq_steps]
  · rw [← Function.comp_def Ident.quote, ← List.map_map, List.mem_map_of_injective Ident.quote_injective]
    exact column_mem_iff hl

/-- A table that refers to itself by a column that is spelled in one way only. -/
def oneSpelling : Design where
  entities := [⟨"entity-1", "U", "u", [⟨"x", "X", .integer, true, false, none, none, []⟩], ⟨100, 100⟩⟩]
  relations := [⟨"relation-1", "entity-1", "entity-1", "x", "X", true, .noAction, .noAction⟩]

theorem keys_declared_oneSpelling :
    ofScript BaseColumns.standard "create table u(X int references u)".toList = .ok oneSpelling ∧
      ∃ x ∈ oneSpelling.relations, ∃ e ∈ oneSpelling.entities, ∃ l ∈ oneSpelling.leads e,
        l.relation = x ∧ .refer e l ∈ oneSpelling.stepsOf e ∧ .index e l ∈ oneSpelling.stepsOf e ∧
        Ident.quote l.column ∈ (oneSpelling.columns e).map (Ident.quote ·.name) := by
  have h : ofScript BaseColumns.standard "create table u(X int references u)".toList
      = .ok oneSpelling := by decide +kernel
  have hx := List.mem_singleton_self (⟨"relation-1", "entity-1", "entity-1", "x", "X", true, .noAction,
    .noAction⟩ : Relation)
  obtain ⟨e, he, -, l, hl, hrelation, -, hrefer, hindex, -, hiff⟩ := keys_declared_iff h hx
  have hspelled : ∀ e ∈ oneSpelling.entities, ∀ l ∈ oneSpelling.leads e,
      lowerName l.column ∈ e.ownNames → l.column ∈ e.ownFields.map (·.column) := by decide +kernel
  exact ⟨h, _, hx, e, he, l, hl, hrelation, hrefer, hindex, hiff.2 (hspelled e he l hl)⟩

/-- A foreign key on a column that is spelled in another way where it is declared. -/
def otherSpelling : Design where
  entities := [⟨"entity-1", "U", "u", [⟨"x", "X", .integer, true, false, none, none, []⟩], ⟨100, 100⟩⟩]
  relations := [⟨"relation-1", "entity-1", "entity-1", "x", "x", true, .noAction, .noAction⟩]

/-- A foreign key that spells its column in another way than the table names no declared column. -/
theorem keys_undeclared_otherSpelling :
    ofScript BaseColumns.standard "create table u(X int,foreign key(x)references u)".toList
        = .ok otherSpelling ∧
      ∃ e ∈ otherSpelling.entities, ∃ l ∈ otherSpelling.leads e,
        entityStatements otherSpelling.toDocument e.toDocument
          = .ok ("\n".intercalate ((otherSpelling.stepsOf e).map (·.text otherSpelling))) ∧
        .refer e l ∈ otherSpelling.stepsOf e ∧ .index e l ∈ otherSpelling.stepsOf e ∧
        Ident.quote l.column ∉ (otherSpelling.columns e).map (Ident.quote ·.name) := by
  have hundeclared : ∃ e ∈ otherSpelling.entities, ∃ l ∈ otherSpelling.leads e,
      Ident.quote l.column ∉ (otherSpelling.columns e).map (Ident.quote ·.name) := by decide +kernel
  obtain ⟨e, he, l, hl, hcolumn⟩ := hundeclared
  obtain ⟨hrefer, hindex⟩ := mem_stepsOf_of_mem_leads hl
  refine ⟨by decide +kernel, e, he, l, hl, ?_, hrefer, hindex, hcolumn⟩
  rw [entityStatements_toDocument, tableScript_eq_steps]

/-! ## Indexes -/

/-- The names of the indexes in the script of a design, as they are written. -/
def indexNames (d : Design) : List String := d.steps.filterMap Step.indexName?

theorem indexNames_stepsOf (d : Design) (e : Entity) :
    (d.stepsOf e).filterMap Step.indexName?
      = ((d.leads e).map fun l => indexName e.table l.column).map Ident.quote := by
  simp [filterMap_stepsOf, Step.indexName?]

/-- The names of the indexes, in whatever order the tables are written. -/
theorem indexNames_perm (d : Design) :
    d.indexNames.Perm ((d.entities.flatMap fun e =>
      (d.leads e).map fun l => indexName e.table l.column).map Ident.quote) := by
  rw [indexNames, steps, List.filterMap_flatMap, List.map_flatMap]
  simp only [indexNames_stepsOf]
  exact (ordered_perm d).flatMap_right _

/-- Lists for the members of a list have no member in common if those of any two do not. -/
theorem nodup_flatMap_iff {α β : Type} {l : List α} (hl : l.Nodup) (f : α → List β) :
    (l.flatMap f).Nodup ↔ (∀ a ∈ l, (f a).Nodup) ∧
      ∀ a ∈ l, ∀ b ∈ l, a ≠ b → ∀ x ∈ f a, ∀ y ∈ f b, x ≠ y := by
  have hsymm : Std.Symm (Function.onFun List.Disjoint f) := ⟨fun _ _ h => h.symm⟩
  rw [List.nodup_flatMap]
  refine and_congr_right' ⟨fun h a ha b hb hne x hx y hy hxy => ?_, fun h => ?_⟩
  · exact h.forall ha hb hne hx (hxy ▸ hy)
  · exact hl.pairwise_of_forall_ne fun a ha b hb hne x hx hy => h a ha b hb hne x hx x hy rfl

/-- **When indexes have names of their own.** The indexes of a script have pairwise distinct names if and
only if no table has two relations on one column, no two tables are written under one name and have
relations on one column, and no table's name goes on where another's ends and its column begins. -/
theorem indexNames_nodup_iff {base : BaseColumns} {script : List Char} {d : Design}
    (h : ofScript base script = .ok d) (project : String) :
    (Export.script d.toDocument project).value = .ok (d.stepsText project) ∧
      (d.indexNames.Nodup ↔ (∀ e ∈ d.entities, ((d.leads e).map (·.column)).Nodup) ∧
        ∀ e ∈ d.entities, ∀ e' ∈ d.entities, e ≠ e' → ∀ l ∈ d.leads e, ∀ l' ∈ d.leads e',
          ¬ (e.table = e'.table ∧ l.column = l'.column) ∧
            ¬ GoesOn e.table l.column e'.table l'.column) := by
  obtain ⟨statements, -, rfl⟩ := ofScript_eq_ok.1 h
  have hnodup := nodup_entities (wellFormed_ofStatements base statements)
  refine ⟨script_toDocument_eq_stepsText _ project, ?_⟩
  rw [(indexNames_perm _).nodup_iff, List.nodup_map_iff Ident.quote_injective, nodup_flatMap_iff hnodup]
  refine and_congr (forall₂_congr fun e _ => ?_) ?_
  · -- the indexes of one table differ where their columns do
    have hnames : ((ofStatements base statements).leads e).map (fun l => indexName e.table l.column)
        = (((ofStatements base statements).leads e).map (·.column)).map (indexName e.table) := by
      rw [List.map_map]
      rfl
    rw [hnames, List.nodup_map_iff (indexName_injective e.table)]
  · simp only [List.forall_mem_map, ne_eq, indexName_eq_iff, not_or]
    constructor
    · intro hne e he e' he' hee l hl l' hl'
      obtain ⟨hsame, hon, -⟩ := hne e he e' he' hee l hl l' hl'
      exact ⟨hsame, hon⟩
    · intro hne e he e' he' hee l hl l' hl'
      obtain ⟨hsame, hon⟩ := hne e he e' he' hee l hl l' hl'
      exact ⟨hsame, hon, (hne e' he' e he (Ne.symm hee) l' hl' l hl).2⟩

/-- Two tables that refer to each other. -/
def eachOther : Design where
  entities := [
    ⟨"entity-1", "A", "a", [⟨"x", "x", .integer, true, false, none, none, []⟩], ⟨100, 100⟩⟩,
    ⟨"entity-2", "B", "b", [⟨"y", "y", .integer, true, false, none, none, []⟩], ⟨400, 100⟩⟩]
  relations := [
    ⟨"relation-1", "entity-1", "entity-2", "x", "x", true, .noAction, .noAction⟩,
    ⟨"relation-2", "entity-2", "entity-1", "y", "y", true, .noAction, .noAction⟩]

theorem indexNames_nodup_eachOther :
    ofScript BaseColumns.standard
        "create table a(x int references b);create table b(y int references a)".toList = .ok eachOther ∧
      (Export.script eachOther.toDocument usualProject).value = .ok (eachOther.stepsText usualProject) ∧
      eachOther.indexNames.Nodup := by
  have h : ofScript BaseColumns.standard
      "create table a(x int references b);create table b(y int references a)".toList = .ok eachOther := by
    decide +kernel
  obtain ⟨htext, hiff⟩ := indexNames_nodup_iff h usualProject
  have htables : ∀ e ∈ eachOther.entities, ∀ e' ∈ eachOther.entities, e ≠ e' → e.table ≠ e'.table := by
    decide +kernel
  have hlengths : ∀ e ∈ eachOther.entities, e.table.length = 1 := by decide +kernel
  refine ⟨h, htext, hiff.2 ⟨by decide +kernel, ?_⟩⟩
  intro e he e' he' hne l _ l' _
  refine ⟨fun hsame => htables e he e' he' hne hsame.1, ?_⟩
  rintro ⟨middle, hname, -⟩
  have hlength := hlengths e' he'
  rw [hname, String.length_append, String.length_append, hlengths e he] at hlength
  have hline : "_".length = 1 := rfl
  omega

/-- A table whose name goes on where that of another one ends. -/
def glued : Design where
  entities := [
    ⟨"entity-1", "A", "a", [⟨"bC", "b_c", .integer, true, false, none, none, []⟩], ⟨100, 100⟩⟩,
    ⟨"entity-2", "AB", "a_b", [⟨"c", "c", .integer, true, false, none, none, []⟩], ⟨400, 100⟩⟩]
  relations := [
    ⟨"relation-1", "entity-1", "entity-1", "bC", "b_c", true, .noAction, .noAction⟩,
    ⟨"relation-2", "entity-2", "entity-1", "c", "c", true, .noAction, .noAction⟩]

/-- The column `b_c` of `a` and the column `c` of `a_b` have indexes of one name. -/
theorem indexNames_not_nodup_glued :
    ofScript BaseColumns.standard
        "create table a(b_c int references a);create table a_b(c int references a)".toList = .ok glued ∧
      (Export.script glued.toDocument usualProject).value = .ok (glued.stepsText usualProject) ∧
      glued.indexNames = ["idx_a_b_c", "idx_a_b_c"] ∧ ¬ glued.indexNames.Nodup := by
  have hnames : glued.indexNames = ["idx_a_b_c", "idx_a_b_c"] := by decide +kernel
  refine ⟨by decide +kernel, script_toDocument_eq_stepsText _ _, hnames, ?_⟩
  rw [hnames]
  decide

end Design
end SchemaSketch
