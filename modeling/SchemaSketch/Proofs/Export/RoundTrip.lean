import SchemaSketch.Proofs.Design.ForeignKeys
import SchemaSketch.Proofs.Export.ReadColumns
import SchemaSketch.Proofs.Export.WrittenRegister

/-!
# Reading back the design that was written

The script that is written for a design is read as the same design (`Design.same_ofScript`) if the design is *legible*
(`Design.Legible`): no name is written in quotes, no default value says anything else, and no name is changed or taken for
another on the way.

* Each step is read as the table that it creates or the foreign key that it adds (`Design.ofStatement_line`), and so the
  register has the tables that were written, with the columns that are read of them.
* What is made of the register has the same entities, though in the order in which the tables were written
  (`Design.titles_ofRegister`), and the same fields (`Design.fields_ofRegister`).
* Relations are compared by their tables, which the register tells as well (`Design.mem_tableRelations_ofRegister`).
  Where the entities are the same, so are then the relations by the names of their ends (`Design.ties_subset`).
-/

namespace SchemaSketch

open Text

/-! ## Relations by the names of their ends -/

/-- Members with keys of their own are all the first of their keys. -/
theorem firstBy_eq_self {α κ : Type} [DecidableEq κ] {key : α → κ} {l : List α} (h : (l.map key).Nodup)
    {seen : List κ} (hseen : ∀ a ∈ l, key a ∉ seen) : firstBy key seen l = l := by
  induction l generalizing seen with
  | nil => rfl
  | cons a rest ih =>
    obtain ⟨ha, hrest⟩ := List.forall_mem_cons.1 hseen
    obtain ⟨hnew, hnodup⟩ := List.nodup_cons.1 h
    have hmore : ∀ b ∈ rest, key b ∉ key a :: seen := fun b hb => List.not_mem_cons_of_ne_of_not_mem
      (fun heq => hnew (List.mem_map.2 ⟨b, hb, heq⟩)) (hrest b hb)
    rw [firstBy, if_neg ha, ih hnodup hmore]

namespace Export.Lead

/-- A relation that leads out of an entity, by its tables. -/
def tableRelation (e : Entity) (l : Lead) : TableRelation :=
  ⟨some e.tableName, some l.target.tableName, l.relation.columnName, l.relation.sourceField, l.relation.nullable,
    l.relation.onDelete, l.relation.onUpdate⟩

/-- The same by the names of entities. -/
def tie (e : Entity) (l : Lead) : Tie :=
  ⟨e.name, l.relation.sourceField, l.target.name, l.relation.nullable, l.relation.onDelete, l.relation.onUpdate⟩

end Export.Lead

namespace Design

open Export

section

variable {d : Design} (hd : d.WellFormed)

include hd

theorem nodup_ids : (d.entities.map (·.id)).Nodup := by
  rw [hd.entity_ids]
  refine List.Nodup.map (fun i j hij => ?_) List.nodup_range
  exact entityId_injective hij

/-- An identifier stands for one entity. -/
theorem entityOf?_eq_some {id : String} {e : Entity} : d.entityOf? id = some e ↔ e ∈ d.entities ∧ e.id = id := by
  rw [entityOf?]
  constructor
  · intro h
    have hid := List.find?_some h
    exact ⟨List.mem_reverse.1 (List.mem_of_find?_eq_some h), beq_iff_eq.1 hid⟩
  · rintro ⟨he, rfl⟩
    have hnodup : (d.entities.reverse.map (·.id)).Nodup := by
      rw [List.map_reverse, List.nodup_reverse]
      exact nodup_ids hd
    exact find?_eq_some_of_nodup hnodup (List.mem_reverse.2 he)

theorem mem_leads_iff {e : Entity} {l : Lead} :
    l ∈ d.leads e ↔ l.relation ∈ d.relations ∧ l.relation.sourceId = e.id ∧ l.target ∈ d.entities ∧
      l.target.id = l.relation.targetId := by
  rw [leads, List.mem_filterMap]
  constructor
  · rintro ⟨x, hx, hl⟩
    split at hl
    · next hsource =>
      obtain ⟨target, htarget, rfl⟩ := Option.map_eq_some_iff.1 hl
      obtain ⟨hmem, hid⟩ := (entityOf?_eq_some hd).1 htarget
      exact ⟨hx, hsource, hmem, hid⟩
    · cases hl
  · rintro ⟨hx, hsource, hmem, hid⟩
    refine ⟨l.relation, hx, ?_⟩
    rw [if_pos hsource, (entityOf?_eq_some hd).2 ⟨hmem, hid⟩]
    rfl

omit hd in
/-- The relations that lead out of an entity keep their order. -/
theorem relation_leads_sublist (d : Design) (e : Entity) : ((d.leads e).map (·.relation)).Sublist d.relations := by
  rw [leads]
  generalize d.relations = relations
  induction relations with
  | nil => exact .slnil
  | cons x rest ih =>
    rw [List.filterMap_cons]
    split
    · exact ih.cons x
    · next l hl =>
      have hrelation : l.relation = x := by
        obtain ⟨-, hl⟩ := Option.ite_none_right_eq_some.1 hl
        obtain ⟨target, -, rfl⟩ := Option.map_eq_some_iff.1 hl
        rfl
      rw [List.map_cons, hrelation]
      exact ih.cons_cons x

theorem tableOf_id {e : Entity} (he : e ∈ d.entities) : d.tableOf e.id = some e.tableName := by
  rw [tableOf, find?_eq_some_of_nodup (nodup_ids hd) he]
  rfl

/-- What a design tells of relations, entity by entity. -/
theorem mem_tableRelations_iff {x : TableRelation} :
    x ∈ d.tableRelations ↔ ∃ e ∈ d.entities, ∃ l ∈ d.leads e, l.tableRelation e = x := by
  have htell : ∀ e ∈ d.entities, ∀ l ∈ d.leads e, d.tableRelation l.relation = l.tableRelation e := by
    intro e he l hl
    obtain ⟨-, hsource, htarget, hid⟩ := (mem_leads_iff hd).1 hl
    rw [tableRelation, hsource, ← hid, tableOf_id hd he, tableOf_id hd htarget]
    rfl
  rw [tableRelations, List.mem_map]
  constructor
  · rintro ⟨x, hx, rfl⟩
    obtain ⟨e, he, -, l, hl, rfl⟩ := exists_lead hd hx
    exact ⟨e, he, l, hl, (htell e he l hl).symm⟩
  · rintro ⟨e, he, l, hl, rfl⟩
    exact ⟨l.relation, ((mem_leads_iff hd).1 hl).1, htell e he l hl⟩

theorem mem_ties_iff {tie : Tie} : tie ∈ d.ties ↔ ∃ e ∈ d.entities, ∃ l ∈ d.leads e, l.tie e = tie := by
  have htell : ∀ e ∈ d.entities, ∀ l ∈ d.leads e, d.tie? l.relation = some (l.tie e) := by
    intro e he l hl
    obtain ⟨-, hsource, htarget⟩ := (mem_leads_iff hd).1 hl
    rw [tie?, (entityOf?_eq_some hd).2 ⟨he, hsource.symm⟩, (entityOf?_eq_some hd).2 htarget]
    rfl
  rw [ties, List.mem_filterMap]
  constructor
  · rintro ⟨x, hx, htie⟩
    obtain ⟨e, he, -, l, hl, rfl⟩ := exists_lead hd hx
    exact ⟨e, he, l, hl, Option.some.inj ((htell e he l hl).symm.trans htie)⟩
  · rintro ⟨e, he, l, hl, rfl⟩
    exact ⟨l.relation, ((mem_leads_iff hd).1 hl).1, htell e he l hl⟩

/-- A table has one entity. -/
theorem eq_of_tableName_eq {e e' : Entity} (he : e ∈ d.entities) (he' : e' ∈ d.entities)
    (h : e.tableName = e'.tableName) : e = e' :=
  List.inj_on_of_nodup_map hd.tables_nodup he he' (congrArg lowerName h)

end

/-- Relations of the same tables are relations of the same entities. -/
theorem ties_subset {a b : Design} (ha : a.WellFormed) (hb : b.WellFormed)
    (htitles : ∀ title ∈ a.entities.map (·.title), title ∈ b.entities.map (·.title))
    (hrelations : ∀ x ∈ a.tableRelations, x ∈ b.tableRelations) : ∀ tie ∈ a.ties, tie ∈ b.ties := by
  have hnames : ∀ e ∈ a.entities, ∀ e' ∈ b.entities, e.tableName = e'.tableName → e.name = e'.name := by
    intro e he e' he' htable
    obtain ⟨e'', he'', htitle⟩ := List.mem_map.1 (htitles e.title (List.mem_map_of_mem he))
    have hname : e''.name = e.name := congrArg Prod.fst htitle
    have htable' : e''.tableName = e.tableName := congrArg Prod.snd htitle
    rw [← hname, eq_of_tableName_eq hb he'' he' (htable'.trans htable)]
  intro tie htie
  obtain ⟨e, he, l, hl, rfl⟩ := (mem_ties_iff ha).1 htie
  obtain ⟨e', he', l', hl', htell⟩ := (mem_tableRelations_iff hb).1
    (hrelations _ ((mem_tableRelations_iff ha).2 ⟨e, he, l, hl, rfl⟩))
  obtain ⟨-, -, htarget, -⟩ := (mem_leads_iff ha).1 hl
  obtain ⟨-, -, htarget', -⟩ := (mem_leads_iff hb).1 hl'
  simp only [Lead.tableRelation, TableRelation.mk.injEq, Option.some.injEq] at htell
  obtain ⟨hsource, hends, -, hfield, hnullable, honDelete, honUpdate⟩ := htell
  refine (mem_ties_iff hb).2 ⟨e', he', l', hl', ?_⟩
  rw [Lead.tie, Lead.tie, hnames e he e' he' hsource.symm, hnames _ htarget _ htarget' hends.symm, hfield, hnullable,
    honDelete, honUpdate]

/-! ## What the design of a script is made of -/

section

variable {statements : List (List Char)}

/-- A field comes from a measured column that is no base column. -/
theorem exists_column_of_mem {base : BaseColumns} {e : Entity} (he : e ∈ (ofStatements base statements).entities)
    {f : Field} (hf : f ∈ e.fields) : f.column = f.columnName ∧ f.name = Naming.fieldName f.columnName ∧ f.name ≠ "" ∧
      base.holds f.columnName = false ∧ ∃ c : Column, f = field c f.name ∧ c.Measured := by
  have hmem := List.mem_map_of_mem (f := fun e : Entity => (e.tableName, e.fields)) he
  rw [show (ofStatements base statements).entities = entitiesOf base _ from rfl, contents_entitiesOf] at hmem
  obtain ⟨⟨k, t⟩, hentry, hcontents⟩ := List.mem_map.1 hmem
  have hfields : fields base [] t.columns = e.fields := congrArg Prod.snd hcontents
  rw [← hfields] at hf
  obtain ⟨c, hc, hfc, hbase⟩ := exists_of_mem_fields hf
  have hcolumn : f.columnName = c.name := by rw [hfc]; rfl
  exact ⟨column_eq_of_mem_fields hf, name_eq_of_mem_fields hf, ((names_fields base [] t.columns).1 f hf).1,
    hcolumn ▸ hbase, c, hfc, Register.measured_ofStatements statements _ hentry c hc⟩

/-- A relation has the name of its column, and may be absent if the first column of that name may be empty. -/
theorem relation_of_mem {base : BaseColumns} {e : Entity} (he : e ∈ (ofStatements base statements).entities) {l : Lead}
    (hl : l ∈ (ofStatements base statements).leads e) :
    l.relation.sourceField = Naming.fieldName l.relation.columnName ∧
      l.relation.nullable = Statement.mayBeEmpty statements e.tableName l.relation.columnName := by
  obtain ⟨hx, hsource, htarget, hid⟩ := (mem_leads_iff (wellFormed_ofStatements base statements)).1 hl
  have hjoins : l.relation.joins e l.target l.relation.columnName = true := by
    simp [Relation.joins, hsource, hid, sameName]
  obtain ⟨-, -, -, -, -, hnullable⟩ := (related_ofStatements base statements).first _ hx e he _ htarget hjoins
  obtain ⟨index, link, -, hlink⟩ := exists_link_of_mem_relationsOf hx
  exact ⟨by rw [hlink]; rfl, hnullable⟩

/-- Names in capitals and in small letters stand for the same column. -/
theorem mayBeEmpty_congr (table : String) {a b : String} (h : lowerName a = lowerName b) :
    Statement.mayBeEmpty statements table a = Statement.mayBeEmpty statements table b := by
  have hcolumn : ∀ t : Table, t.column? a = t.column? b := fun t => by
    rw [Table.column?, Table.column?]
    exact congrArg (fun p => t.columns.find? p) (funext fun c => by rw [sameName, sameName, h])
  simp only [Statement.mayBeEmpty, hcolumn]

end

/-! ## Designs that can be read back -/

/-- What is asked of a design so that its script is read as the design. -/
structure Legible (d : Design) : Prop where
  /-- the names of tables are written as they are -/
  tables : ∀ e ∈ d.entities, Ident.Unquoted e.tableName
  /-- so are those of the fields' columns -/
  fields : ∀ e ∈ d.entities, ∀ f ∈ e.fields, Ident.Unquoted f.columnName
  /-- and those of the relations' columns -/
  relations : ∀ x ∈ d.relations, Ident.Unquoted x.columnName
  /-- default values are whole, and say nothing else of a column -/
  defaults : ∀ e ∈ d.entities, ∀ f ∈ e.fields, ∀ value ∈ f.value?, PlainDefault value
  /-- no name in a foreign key is taken for a word of its statement -/
  words : ∀ e ∈ d.entities, ∀ l ∈ d.leads e,
    e.tableName ≠ "only" ∧ l.relation.columnName ≠ "add" ∧ l.target.tableName ≠ "add"
  /-- entities get the same names when their tables are named in the order in which they are written -/
  names : entityNames [] (d.ordered.map (·.tableName)) = d.ordered.map (·.name)
  /-- a column that a relation adds becomes no field -/
  added : ∀ e ∈ d.entities, ∀ l ∈ d.adding e, BaseColumns.standard.holds l.relation.columnName = true ∨
    Naming.fieldName l.relation.columnName = "" ∨ Naming.fieldName l.relation.columnName ∈ e.fields.map (·.name)
  /-- a reference by the key is not absent -/
  keys : ∀ e ∈ d.entities, ∀ l ∈ d.leads e, lowerName l.relation.columnName = "id" → l.relation.nullable = false
  /-- a reference by the column of a field may be absent if the field may be empty -/
  nullable : ∀ e ∈ d.entities, ∀ l ∈ d.leads e, ∀ f ∈ e.fields,
    lowerName f.columnName = lowerName l.relation.columnName → f.nullable = l.relation.nullable

namespace Legible

variable {d : Design} (h : d.Legible)

include h

theorem table_eq {e : Entity} (he : e ∈ d.entities) : e.table = e.tableName :=
  if_neg (by rw [(h.tables e he).isEmpty_eq_false]; exact Bool.false_ne_true)

theorem column_eq {l : Lead} (hl : l.relation ∈ d.relations) : l.column = l.relation.columnName :=
  if_neg (by rw [(h.relations _ hl).isEmpty_eq_false]; exact Bool.false_ne_true)

end Legible

section

variable {statements : List (List Char)} {d : Design} (hd : ofStatements .standard statements = d) (h : d.Legible)

include hd h

/-- The columns of every table are read. -/
theorem nonempty_readColumns {e : Entity} (he : e ∈ d.entities) : Nonempty (d.ReadColumns e) := by
  subst hd
  refine ReadColumns.exists_readColumns (fun f hf => ?_) fun l hl => ?_
  · obtain ⟨hcolumn, -, -, -, hc⟩ := exists_column_of_mem he hf
    exact ⟨hcolumn ▸ h.fields e he f hf, h.defaults e he f hf, hc⟩
  · obtain ⟨hx, -⟩ := (mem_leads_iff (wellFormed_ofStatements _ statements)).1 hl
    exact h.column_eq hx ▸ h.relations _ hx

/-- Every table is written with bare names. -/
theorem writtenBare {e : Entity} (he : e ∈ d.entities) (r : d.ReadColumns e) : d.WrittenBare e := by
  have hfixed : ∀ name ∈ fixedNames, Ident.Unquoted name := by decide +kernel
  have hleads : ∀ l ∈ d.leads e, Ident.Unquoted l.column ∧ Ident.Unquoted l.target.table := by
    intro l hl
    obtain ⟨hx, -, htarget, -⟩ := (mem_leads_iff (hd ▸ wellFormed_ofStatements _ statements)).1 hl
    rw [h.column_eq hx, h.table_eq htarget]
    exact ⟨h.relations _ hx, h.tables _ htarget⟩
  refine ⟨h.table_eq he ▸ h.tables e he, ?_, ?_, hleads⟩
  · have hnames : ∀ name ∈ (d.columns e).map (·.name), Ident.Unquoted name := by
      intro name hname
      rw [(names_columns_perm d e).mem_iff, List.mem_append, List.mem_append] at hname
      rcases hname with hname | hname | hname
      · exact hfixed name hname
      · obtain ⟨f, hf, rfl⟩ := List.mem_map.1 hname
        have hmem := (List.mem_filter.1 hf).1
        subst hd
        rw [(exists_column_of_mem he hmem).1]
        exact h.fields e he f hmem
      · obtain ⟨l, hl, rfl⟩ := List.mem_map.1 hname
        exact (hleads l (List.mem_filter.1 hl).1).1
    exact fun w hw => hnames _ (List.mem_map_of_mem hw)
  · exact List.forall_mem_map.1 (WrittenColumn.isItem_of_forall₂ r.forall₂_columns)

/-- **What is read of a step** is the table that it creates, or the foreign key that it adds. -/
theorem ofStatement_line {e : Entity} (he : e ∈ d.entities) (r : d.ReadColumns e) {columns : Entity → List Column}
    (hcolumns : columns e = r.columns) {s : Step} (hs : s ∈ d.stepsOf e) (hmodest : Statement.Modest (s.line d)) :
    (Reading.ofStatement (s.line d)).table? = s.table? columns ∧
      (Reading.ofStatement (s.line d)).alteration? = s.alteration? := by
  have hbare := writtenBare hd h he r
  rcases mem_stepsOf_iff.1 hs with rfl | ⟨l, hl, rfl | rfl⟩
  · have hread := Creation.ofStatement_line hbare.table r.forall₂_columns (List.cons_ne_nil _ _) hmodest
    rw [Step.table?, hcolumns]
    exact hread
  · obtain ⟨hx, -, htarget, -⟩ := (mem_leads_iff (hd ▸ wellFormed_ofStatements _ statements)).1 hl
    obtain ⟨honly, hcolumn, hadd⟩ := h.words e he l hl
    rw [← h.table_eq he] at honly
    rw [← h.column_eq hx] at hcolumn
    rw [← h.table_eq htarget] at hadd
    exact KeyStatement.ofStatement_line (hbare.bare hl) honly hcolumn hadd hmodest
  · exact Index.ignored e.table l.column

/-! ## The design that is read back -/

section

variable {columns : Entity → List Column} (hcolumns : ∀ e ∈ d.entities, ∃ r : d.ReadColumns e, columns e = r.columns)

omit hd in
theorem keys_nodup (hwell : d.WellFormed) : (d.ordered.map (lowerName ·.table)).Nodup := by
  have htables : d.ordered.map (lowerName ·.table) = d.ordered.map (lowerName ·.tableName) :=
    List.map_congr_left fun e he => by rw [h.table_eq ((ordered_perm d).mem_iff.1 he)]
  rw [htables, ((ordered_perm d).map _).nodup_iff]
  exact hwell.tables_nodup

omit hd in
theorem keyed_register (hwell : d.WellFormed) : (d.register columns).Keyed := by
  refine ⟨?_, List.forall_mem_map.2 fun e _ => rfl⟩
  rw [Register.keys, register, List.map_map]
  exact keys_nodup h hwell

omit hd in
/-- The entities have the same names and tables, in the order in which the tables were written. -/
theorem titles_ofRegister :
    (ofRegister .standard (d.register columns)).entities.map (·.title) = d.ordered.map (·.title) := by
  have htables : (d.register columns).map (·.2.name) = d.ordered.map (·.tableName) := by
    rw [register, List.map_map]
    exact List.map_congr_left fun e he => h.table_eq ((ordered_perm d).mem_iff.1 he)
  have htitles : ∀ entities : List Entity,
      entities.map (·.title) = (entities.map (·.name)).zip (entities.map (·.tableName)) := fun entities =>
    List.zip_map'.symm
  have hnames : (entitiesOf .standard (d.register columns)).map (·.name) = d.ordered.map (·.name) := by
    rw [entitiesOf, names_eq_entityNames, List.map_map, Function.comp_def, htables, h.names]
  rw [htitles, htitles, ofRegister, hnames, tableNames_entitiesOf, htables]

include hcolumns

/-- Each table has the same fields. -/
theorem fields_ofRegister {e e' : Entity} (he : e ∈ d.entities)
    (he' : e' ∈ (ofRegister .standard (d.register columns)).entities) (htable : e.tableName = e'.tableName) :
    e.fields.map (·.face) = e'.fields.map (·.face) := by
  have hmem := List.mem_map_of_mem (f := fun e : Entity => (e.tableName, e.fields)) he'
  rw [ofRegister, contents_entitiesOf, register, List.map_map] at hmem
  obtain ⟨e₁, he₁, hcontents⟩ := List.mem_map.1 hmem
  have hentity : e₁ ∈ d.entities := (ordered_perm d).mem_iff.1 he₁
  have hname : e₁.table = e'.tableName := congrArg Prod.fst hcontents
  have hfields : fields .standard [] (columns e₁) = e'.fields := congrArg Prod.snd hcontents
  rw [h.table_eq hentity] at hname
  have hwell : d.WellFormed := hd ▸ wellFormed_ofStatements _ statements
  obtain rfl : e₁ = e := eq_of_tableName_eq hwell hentity he (hname.trans htable.symm)
  obtain ⟨r, hr⟩ := hcolumns e₁ he
  have hown : ∀ f ∈ e₁.fields, f.column = f.columnName ∧ f.name = Naming.fieldName f.columnName ∧ f.name ≠ "" ∧
      BaseColumns.standard.holds f.columnName = false := by
    subst hd
    intro f hf
    obtain ⟨hcolumn, hname, hne, hbase, -⟩ := exists_column_of_mem he hf
    exact ⟨hcolumn, hname, hne, hbase⟩
  rw [← hfields, hr, r.faces_columns _ _ (hwell.fields_nodup e₁ he)]
  · intro l hl
    obtain ⟨hx, -⟩ := (mem_leads_iff hwell).1 (List.mem_filter.1 hl).1
    rw [h.column_eq hx]
    exact h.added e₁ he l hl
  · intro f hf
    rw [(hown f hf).1]
    exact (hown f hf).2.2.2
  · intro f hf
    rw [(hown f hf).1]
    exact ⟨(hown f hf).2.1, (hown f hf).2.2.1⟩

/-- The first column of a relation's name may be empty if the reference may be absent. -/
theorem nullable_column? {e : Entity} (he : e ∈ d.entities) {l : Lead} (hl : l ∈ d.leads e) :
    ((d.entry columns e).2.column? l.column).map (·.nullable) = some l.relation.nullable := by
  have hwell : d.WellFormed := hd ▸ wellFormed_ofStatements _ statements
  have hcolumn : ∀ l ∈ d.leads e, l.column = l.relation.columnName := fun l hl =>
    h.column_eq ((mem_leads_iff hwell).1 hl).1
  obtain ⟨r, hr⟩ := hcolumns e he
  have hcolumns : (d.entry columns e).2.columns = r.columns := hr
  rw [Table.column?, hcolumns]
  refine r.nullable_columns hl (fun hid => ?_) (fun f hf hname => ?_) fun l' hl' hname => ?_
  · rw [hcolumn l hl] at hid
    exact h.keys e he l hl hid
  · have hmem := (List.mem_filter.1 hf).1
    subst hd
    rw [hcolumn l hl, (exists_column_of_mem he hmem).1] at hname
    exact h.nullable e he l hl f hmem hname
  · rw [hcolumn l hl, hcolumn l' hl'] at hname
    subst hd
    rw [(relation_of_mem he hl').2, (relation_of_mem he hl).2, mayBeEmpty_congr _ hname]

/-- What is read of the foreign keys of a table are its relations. -/
theorem filterMap_tableRelation? {e : Entity} (he : e ∈ d.entities) :
    (d.entry columns e).2.foreignKeys.filterMap ((d.register columns).tableRelation? (d.entry columns e).2) =
      (d.leads e).map (·.tableRelation e) := by
  have hwell : d.WellFormed := hd ▸ wellFormed_ofStatements _ statements
  have hkey : ∀ l ∈ d.leads e, (d.register columns).tableRelation? (d.entry columns e).2 (l.keyStatement e.table).key =
      some (l.tableRelation e) := by
    intro l hl
    obtain ⟨hx, -, htarget, -⟩ := (mem_leads_iff hwell).1 hl
    have hmem : d.entry columns l.target ∈ d.register columns :=
      List.mem_map_of_mem ((ordered_perm d).mem_iff.2 htarget)
    have hfound : (d.register columns).table? l.target.table = some (d.entry columns l.target).2 := by
      rw [table?_eq_lookup]
      exact (Register.mem_iff_lookup_eq_some (keyed_register h hwell).nodup).1 hmem
    have hfield : l.relation.sourceField = Naming.fieldName l.relation.columnName := by
      subst hd
      exact (relation_of_mem he hl).1
    have hread : (d.register columns).tableRelation? (d.entry columns e).2 (l.keyStatement e.table).key =
        some ⟨some e.table, some l.target.table, l.column, Naming.fieldName l.column,
          (((d.entry columns e).2.column? l.column).map (·.nullable)).getD true, l.relation.onDelete,
          l.relation.onUpdate⟩ := by
      have htable : (l.keyStatement e.table).key.refTable = l.target.table := rfl
      unfold Register.tableRelation?
      rw [htable, hfound]
      rfl
    rw [hread, nullable_column? hd h hcolumns he hl, h.column_eq hx, h.table_eq he, h.table_eq htarget, ← hfield]
    rfl
  have hentry : (d.entry columns e).2.foreignKeys = (d.leads e).map fun l => (l.keyStatement e.table).key := rfl
  rw [hentry, List.filterMap_map, ← List.filterMap_eq_map]
  exact List.filterMap_congr hkey

omit hd h hcolumns in
/-- The relations of an entity are told apart by their tables and columns. -/
theorem nodup_tableRelations (hwell : d.WellFormed) {e : Entity} :
    (((d.leads e).map (·.tableRelation e)).map TableRelation.key).Nodup := by
  have hends := hwell.relations_nodup.sublist ((relation_leads_sublist d e).map _)
  rw [List.map_map] at hends ⊢
  refine List.Nodup.map_on (fun l hl l' hl' hkey => List.inj_on_of_nodup_map hends hl hl' ?_) (List.Nodup.of_map _ hends)
  obtain ⟨-, hsource, htarget, hid⟩ := (mem_leads_iff hwell).1 hl
  obtain ⟨-, hsource', htarget', hid'⟩ := (mem_leads_iff hwell).1 hl'
  simp only [Function.comp_apply, TableRelation.key, Lead.tableRelation, Option.map_some, Prod.mk.injEq,
    Option.some.injEq] at hkey
  obtain ⟨-, hname, hcolumn⟩ := hkey
  have hsame : l.target = l'.target := List.inj_on_of_nodup_map hwell.tables_nodup htarget htarget' hname
  simp only [Function.comp_apply, Prod.mk.injEq]
  exact ⟨hsource.trans hsource'.symm, hid ▸ hid' ▸ congrArg (·.id) hsame, hcolumn⟩

/-- The relations are the same. -/
theorem mem_tableRelations_ofRegister (x : TableRelation) :
    x ∈ (ofRegister .standard (d.register columns)).tableRelations ↔ x ∈ d.tableRelations := by
  have hwell : d.WellFormed := hd ▸ wellFormed_ofStatements _ statements
  have htables : ∀ e ∈ d.entities, (d.register columns).tableRelationsOf (d.entry columns e).2 =
      (d.leads e).map (·.tableRelation e) := by
    intro e he
    rw [Register.tableRelationsOf, filterMap_tableRelation? hd h hcolumns he]
    exact firstBy_eq_self (nodup_tableRelations hwell) fun _ _ => List.not_mem_nil
  rw [tableRelations_ofRegister .standard (keyed_register h hwell), mem_tableRelations_iff hwell,
    Register.tableRelations, List.mem_flatMap]
  constructor
  · rintro ⟨entry, hentry, hx⟩
    obtain ⟨e, he, rfl⟩ := List.mem_map.1 hentry
    have hmem := (ordered_perm d).mem_iff.1 he
    rw [htables e hmem] at hx
    exact ⟨e, hmem, List.mem_map.1 hx⟩
  · rintro ⟨e, he, hx⟩
    refine ⟨d.entry columns e, List.mem_map_of_mem ((ordered_perm d).mem_iff.2 he), ?_⟩
    rw [htables e he]
    exact List.mem_map.2 hx

/-- **What is read back is the same design.** -/
theorem same_ofRegister : d.Same (ofRegister .standard (d.register columns)) := by
  have hwell : d.WellFormed := hd ▸ wellFormed_ofStatements _ statements
  have hkeyed : (d.register columns).Keyed := keyed_register h hwell
  have hback := wellFormed_ofRegister .standard hkeyed
  have htitles : ∀ title, title ∈ d.entities.map (·.title) ↔
      title ∈ (ofRegister .standard (d.register columns)).entities.map (·.title) := by
    intro title
    rw [titles_ofRegister h, ((ordered_perm d).map _).mem_iff]
  have hrelations := mem_tableRelations_ofRegister hd h hcolumns
  refine ⟨htitles, fun e he e' he' => fields_ofRegister hd h hcolumns he he', fun tie => ⟨?_, ?_⟩⟩
  · exact ties_subset hwell hback (fun title => (htitles title).1) (fun x => (hrelations x).2) tie
  · exact ties_subset hback hwell (fun title => (htitles title).2) (fun x => (hrelations x).1) tie

end

/-- **What is read of the steps** of a design is the design. -/
theorem same_ofSteps (hmodest : ∀ s ∈ d.steps, Statement.Modest (s.line d)) :
    d.Same (ofStatements .standard (d.steps.map (·.line d))) := by
  have hread : ∀ e, ∃ columns : List Column, e ∈ d.entities → ∃ r : d.ReadColumns e, columns = r.columns := fun e => by
    by_cases he : e ∈ d.entities
    · obtain ⟨r⟩ := nonempty_readColumns hd h he
      exact ⟨r.columns, fun _ => ⟨r, rfl⟩⟩
    · exact ⟨[], fun hmem => absurd hmem he⟩
  choose columns hcolumns using hread
  have hline : ∀ s ∈ d.steps, (Reading.ofStatement (s.line d)).table? = s.table? columns ∧
      (Reading.ofStatement (s.line d)).alteration? = s.alteration? := by
    intro s hs
    obtain ⟨e, he, hse⟩ := List.mem_flatMap.1 hs
    have hmem := (ordered_perm d).mem_iff.1 he
    obtain ⟨r, hr⟩ := hcolumns e hmem
    exact ofStatement_line hd h hmem r hr hse (hmodest s hs)
  have hregister : Register.ofReadings ((d.steps.map (·.line d)).map Reading.ofStatement) = d.register columns := by
    refine ofReadings_steps ?_ ?_ (keys_nodup h (hd ▸ wellFormed_ofStatements _ statements))
    · rw [List.map_map, List.filterMap_map]
      exact List.filterMap_congr fun s hs => (hline s hs).1
    · rw [List.map_map, List.filterMap_map]
      exact List.filterMap_congr fun s hs => (hline s hs).2
  rw [ofStatements, hregister]
  exact same_ofRegister hd h fun e he => hcolumns e he

end

/-- **A design is read back from its script**: where a script has been read and nothing in the design is written in
quotes or renamed, the script that is written for it is read as the same design. -/
theorem same_ofScript {script : List Char} {d : Design} (hd : ofScript .standard script = .ok d) (h : d.Legible)
    {project : String} (hproject : '\n' ∉ project.toList)
    (hlimits : Script.Modest (d.script project).toList) :
    (Export.script d.toDocument project).value = .ok (d.script project) ∧
      ∃ back, ofScript .standard (d.script project).toList = .ok back ∧ d.Same back := by
  obtain ⟨statements, -, hread⟩ := ofScript_eq_ok.1 hd
  obtain ⟨written, hwritten, hmodest⟩ := hlimits
  have hnames : ∀ e ∈ d.entities, '\n' ∉ e.name.toList := by
    subst hread
    exact fun e he => newline_not_mem_name he
  have hbare : ∀ e ∈ d.entities, d.WrittenBare e := fun e he =>
    (nonempty_readColumns hread h he).elim (writtenBare hread h he)
  have hsteps := prepare_script hnames hbare hproject hwritten
  refine ⟨script_toDocument d project, ofStatements .standard written, ofScript_eq_ok.2 ⟨written, hwritten, rfl⟩, ?_⟩
  rw [hsteps] at hmodest ⊢
  exact same_ofSteps hread h (List.forall_mem_map.1 hmodest)

/-- A table that refers to itself, with a default value. -/
def tree : Design where
  entities := [⟨"entity-1", "Node", "node",
    [⟨"label", "label", .string, true, false, none, some "'new'", []⟩,
      ⟨"upId", "up_id", .integer, true, false, none, none, []⟩], ⟨100, 100⟩⟩]
  relations := [⟨"relation-1", "entity-1", "entity-1", "upId", "up_id", true, .noAction, .noAction⟩]

theorem same_ofScript_tree :
    ofScript .standard "create table node(label text default 'new', up_id int references node)".toList = .ok tree ∧
      tree.Legible ∧ Script.Modest (tree.script "shop").toList ∧
      (Export.script tree.toDocument "shop").value = .ok (tree.script "shop") ∧
      ∃ back, ofScript .standard (tree.script "shop").toList = .ok back ∧ tree.Same back := by
  have hread : ofScript .standard "create table node(label text default 'new', up_id int references node)".toList =
      .ok tree := by decide +kernel
  have hlegible : tree.Legible := by constructor <;> decide +kernel
  have hlimits : Script.Modest (tree.script "shop").toList := by
    obtain ⟨statements, -, hstatements⟩ := ofScript_eq_ok.1 hread
    rw [toList_script_eq_parts fun e he =>
      (nonempty_readColumns hstatements hlegible he).elim (writtenBare hstatements hlegible he)]
    decide +kernel
  exact ⟨hread, hlegible, hlimits, same_ofScript hread hlegible (by decide) hlimits⟩

end Design
end SchemaSketch
