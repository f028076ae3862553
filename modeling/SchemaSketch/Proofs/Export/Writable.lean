import Mathlib
import SchemaSketch.Export.Script
import SchemaSketch.Proofs.Except

/-!
# Which documents can be written

A document may hold anything, and a script cannot be made of everything. What is asked of a document is
told here attribute by attribute, without the script: `Writable`. Names must be texts, either the one that is
given or the one that it is made of (`Named`); what is looked up must be able to be a key; an action must be a
text if there is one. Nothing is asked of values that are displayed, nor of flags. And little is asked of
a relation that does not lead out of an entity into the document (`LeadsOut`).

The chain follows the writer: names, fields, relations, an entity, the order of the entities, the script
(`exists_script_iff`).
-/

namespace SchemaSketch.Export
open Text Document

/-! ## Names -/

/-- A value that is a text. -/
def IsText (value : Json) : Prop := ∃ s, value = .string s

/-- A name is there: the one that is given, if one is, and else the one that it is made of. -/
def Named (given name : Json) : Prop := if given.isGiven then IsText given else IsText name

theorem text_eq_ok {value : Json} {s : String} : text value = .ok s ↔ value = .string s := by
  cases value <;> simp [text]

theorem letters_eq_ok {value : Json} {s : String} : letters value = .ok s ↔ value = .string s := by
  cases value <;> simp [letters]

theorem exists_snake_iff {name : Json} {decorate : String → String} :
    (∃ s, (snake name).map (fun n => Json.string (decorate n)) = .ok (.string s)) ↔ IsText name := by
  cases name <;> simp [snake, text, IsText, Except.map]

theorem exists_name_iff {given name : Json} {decorate : String → String} :
    (∃ s, (if given.isGiven then .ok given else (snake name).map fun n => Json.string (decorate n)) = .ok (.string s))
      ↔ Named given name := by
  unfold Named
  split
  · simp [IsText]
  · exact exists_snake_iff

theorem exists_tableName_iff {e : Document.Entity} :
    (∃ s, tableName e = .ok (.string s)) ↔ Named e.tableName e.name :=
  exists_name_iff

theorem exists_keyColumn_iff {o : Outgoing} :
    (∃ s, keyColumn o = .ok (.string s)) ↔ Named o.relation.foreignKey.columnName o.target.name :=
  exists_name_iff

/-! ## Fields -/

theorem exists_sqlType_iff {f : Document.Field} : (∃ s, sqlType f = .ok s) ↔ f.type.isKey = true := by
  unfold sqlType
  split
  · next name h =>
    rw [h]
    split <;> simp [Json.isKey]
  · split <;> simp_all

/-- The line of a column whose name is a text is written if the type can be a key. -/
theorem exists_columnLine_iff {f : Document.Field} {column : String} :
    (∃ line, columnLine f (.string column) = .ok line) ↔ f.type.isKey = true := by
  rw [← exists_sqlType_iff]
  constructor
  · rintro ⟨line, h⟩
    obtain ⟨name, -, h⟩ := Except.bind_eq_ok.1 h
    obtain ⟨type, htype, -⟩ := Except.bind_eq_ok.1 h
    exact ⟨type, htype⟩
  · rintro ⟨type, htype⟩
    exact ⟨_, Except.bind_eq_ok.2 ⟨_, rfl, Except.bind_eq_ok.2 ⟨type, htype, rfl⟩⟩⟩

/-- A field can be written: its column has a name, and its type can be a key, unless all tables have a column
of that name. -/
def WritableField (f : Document.Field) : Prop :=
  ∃ column, columnName f = .ok (.string column) ∧ (isShared (lowerName column) = true ∨ f.type.isKey = true)

theorem exists_fieldLines_iff {fields : List Document.Field} :
    (∃ lines, fieldLines fields = .ok lines) ↔ ∀ f ∈ fields, WritableField f := by
  induction fields with
  | nil => simp [fieldLines]
  | cons f rest ih =>
    rw [List.forall_mem_cons, ← ih]
    constructor
    · rintro ⟨lines, h⟩
      obtain ⟨column, hcolumn, h⟩ := Except.bind_eq_ok.1 h
      obtain ⟨name, hname, h⟩ := Except.bind_eq_ok.1 h
      obtain rfl := letters_eq_ok.1 hname
      by_cases hshared : isShared (lowerName name) = true
      · exact ⟨⟨name, hcolumn, .inl hshared⟩, lines, by rwa [if_pos hshared] at h⟩
      · rw [if_neg hshared] at h
        obtain ⟨line, hline, h⟩ := Except.bind_eq_ok.1 h
        obtain ⟨more, hmore, -⟩ := Except.bind_eq_ok.1 h
        exact ⟨⟨name, hcolumn, .inr (exists_columnLine_iff.1 ⟨line, hline⟩)⟩, more, hmore⟩
    · rintro ⟨⟨name, hcolumn, h⟩, more, hmore⟩
      have hname : letters (.string name) = .ok name := rfl
      simp only [fieldLines, Except.bind_eq_ok, hcolumn, Except.ok.injEq, exists_eq_left', hname]
      split
      · exact ⟨more, hmore⟩
      · next hshared =>
        obtain ⟨line, hline⟩ := exists_columnLine_iff.2 (h.resolve_left hshared)
        exact ⟨_, Except.bind_eq_ok.2 ⟨line, hline, Except.bind_eq_ok.2 ⟨more, hmore, rfl⟩⟩⟩

/-! ## Relations -/

/-- The words of an action are there, if an action is given. -/
def Worded (action : Json) : Prop := action.isGiven = true → IsText action

theorem exists_actionWords_iff {action : Json} : (∃ words, actionWords action = .ok words) ↔ Worded action := by
  unfold actionWords Worded
  split
  · next h => cases action <;> simp_all [letters, IsText, Except.map]
  · next h => simp [h]

theorem exists_keyLines_iff (taken : List String) {leading : List Outgoing} :
    (∃ lines, keyLines taken leading = .ok lines) ↔ ∀ o ∈ leading, ∃ column, keyColumn o = .ok (.string column) := by
  induction leading with
  | nil => simp [keyLines]
  | cons o rest ih =>
    rw [List.forall_mem_cons, ← ih]
    constructor
    · rintro ⟨lines, h⟩
      obtain ⟨column, hcolumn, h⟩ := Except.bind_eq_ok.1 h
      obtain ⟨name, hname, hlines⟩ := Except.bind_eq_ok.1 h
      obtain rfl := letters_eq_ok.1 hname
      by_cases htaken : taken.contains (lowerName name) = true
      · exact ⟨⟨name, hcolumn⟩, lines, by rwa [if_pos htaken] at hlines⟩
      · rw [if_neg htaken] at hlines
        obtain ⟨more, hmore, -⟩ := Except.bind_eq_ok.1 hlines
        exact ⟨⟨name, hcolumn⟩, more, hmore⟩
    · rintro ⟨⟨name, hcolumn⟩, more, hmore⟩
      have hname : letters (.string name) = .ok name := rfl
      simp only [keyLines, Except.bind_eq_ok, hcolumn, Except.ok.injEq, exists_eq_left', hname]
      split
      · exact ⟨more, hmore⟩
      · exact ⟨_, Except.bind_eq_ok.2 ⟨more, hmore, rfl⟩⟩

/-- A relation can be written: its column has a name, its actions have words, and so has the table that it
leads to. -/
structure WritableLead (r : Document.Relation) (target : Document.Entity) : Prop where
  /-- the column has a name -/
  column : Named r.foreignKey.columnName target.name
  /-- what a deletion brings about has words -/
  onDelete : Worded r.foreignKey.onDelete
  /-- what a change brings about has words -/
  onUpdate : Worded r.foreignKey.onUpdate
  /-- the table that it leads to has a name -/
  table : Named target.tableName target.name

theorem exists_foreignKeyStatement_iff (table : String) {o : Outgoing} :
    (∃ s, foreignKeyStatement table o = .ok s) ↔ WritableLead o.relation o.target := by
  constructor
  · rintro ⟨s, h⟩
    obtain ⟨key, hkey, h⟩ := Except.bind_eq_ok.1 h
    obtain ⟨column, hcolumn, h⟩ := Except.bind_eq_ok.1 h
    obtain ⟨deletion, hdeletion, h⟩ := Except.bind_eq_ok.1 h
    obtain ⟨change, hchange, h⟩ := Except.bind_eq_ok.1 h
    obtain ⟨target, htarget, h⟩ := Except.bind_eq_ok.1 h
    obtain ⟨name, hname, -⟩ := Except.bind_eq_ok.1 h
    obtain rfl := text_eq_ok.1 hcolumn
    obtain ⟨t, rfl⟩ : ∃ t, target = .string t := by
      cases target <;> simp [quoted, text, Except.map] at hname ⊢
    exact ⟨exists_keyColumn_iff.1 ⟨_, hkey⟩, exists_actionWords_iff.1 ⟨_, hdeletion⟩,
      exists_actionWords_iff.1 ⟨_, hchange⟩, exists_tableName_iff.1 ⟨_, htarget⟩⟩
  · rintro ⟨hcolumn, hdeletion, hchange, htable⟩
    obtain ⟨column, hcolumn⟩ := exists_keyColumn_iff.2 hcolumn
    obtain ⟨deletion, hdeletion⟩ := exists_actionWords_iff.2 hdeletion
    obtain ⟨change, hchange⟩ := exists_actionWords_iff.2 hchange
    obtain ⟨target, htarget⟩ := exists_tableName_iff.2 htable
    have hquoted : quoted (.string target) = .ok (Ident.quote target) := rfl
    simp only [foreignKeyStatement, Except.bind_eq_ok, hcolumn, hdeletion, hchange, htarget, hquoted,
      Except.ok.injEq, exists_eq_left', text_eq_ok, Json.string.injEq]
    exact ⟨_, rfl⟩

theorem exists_indexStatement_iff (table : String) {o : Outgoing} :
    (∃ s, indexStatement table o = .ok s) ↔ Named o.relation.foreignKey.columnName o.target.name := by
  rw [← exists_keyColumn_iff]
  constructor
  · rintro ⟨s, h⟩
    obtain ⟨key, hkey, h⟩ := Except.bind_eq_ok.1 h
    obtain ⟨column, hcolumn, -⟩ := Except.bind_eq_ok.1 h
    obtain rfl := text_eq_ok.1 hcolumn
    exact ⟨column, hkey⟩
  · rintro ⟨column, hcolumn⟩
    exact ⟨_, Except.bind_eq_ok.2 ⟨_, hcolumn, rfl⟩⟩

/-- A relation leads out of an entity, to one row. -/
def LeadsOut (r : Document.Relation) (e : Document.Entity) : Prop :=
  r.sourceId.agrees e.id = true ∧ leadsToOne r = true

theorem outgoing?_of_leadsOut {d : Document} {e : Document.Entity} {r : Document.Relation} (h : LeadsOut r e) :
    outgoing? d e r = if r.targetId.isKey then .ok ((entityOf? d r.targetId).map fun target => ⟨r, target⟩)
      else .error (.notKey r.targetId) :=
  if_pos (by rw [h.1, h.2]; rfl)

theorem outgoing?_of_not_leadsOut {d : Document} {e : Document.Entity} {r : Document.Relation} (h : ¬ LeadsOut r e) :
    outgoing? d e r = .ok none :=
  if_neg (by rwa [Bool.and_eq_true])

theorem outgoing_eq_ok {d : Document} {e : Document.Entity} {leading : List Outgoing} :
    outgoing d e = .ok leading ↔ ∃ found, d.relations.mapM (outgoing? d e) = .ok found ∧ found.filterMap id = leading :=
  Except.map_eq_ok

/-- What leads out of an entity is found if every relation that does so names what can be a key. -/
theorem exists_outgoing_iff {d : Document} {e : Document.Entity} :
    (∃ leading, outgoing d e = .ok leading) ↔ ∀ r ∈ d.relations, LeadsOut r e → r.targetId.isKey = true := by
  simp only [outgoing_eq_ok]
  rw [exists_comm]
  simp only [exists_and_left, exists_eq', and_true, Except.exists_mapM_eq_ok]
  refine forall₂_congr fun r _ => ?_
  by_cases h : LeadsOut r e
  · rw [outgoing?_of_leadsOut h]
    by_cases hkey : r.targetId.isKey = true <;> simp [h, hkey]
  · simp [outgoing?_of_not_leadsOut h, h]

theorem outgoing?_eq_some {d : Document} {e : Document.Entity} {r : Document.Relation} {o : Outgoing} :
    outgoing? d e r = .ok (some o) ↔
      o.relation = r ∧ LeadsOut r e ∧ r.targetId.isKey = true ∧ entityOf? d r.targetId = some o.target := by
  by_cases h : LeadsOut r e
  · rw [outgoing?_of_leadsOut h]
    obtain ⟨relation, target⟩ := o
    by_cases hkey : r.targetId.isKey = true <;> simp [h, hkey, and_comm, eq_comm]
  · simp [outgoing?_of_not_leadsOut h, h]

/-- What leads out of an entity leads into one of the document. -/
theorem mem_outgoing_iff {d : Document} {e : Document.Entity} {leading : List Outgoing}
    (h : outgoing d e = .ok leading) {o : Outgoing} :
    o ∈ leading ↔ o.relation ∈ d.relations ∧ LeadsOut o.relation e ∧
      entityOf? d o.relation.targetId = some o.target := by
  have hkeys := exists_outgoing_iff.1 ⟨leading, h⟩
  obtain ⟨found, hfound, rfl⟩ := outgoing_eq_ok.1 h
  simp only [List.mem_filterMap, id_eq, exists_eq_right, Except.mem_iff_of_mapM_eq_ok hfound, outgoing?_eq_some]
  constructor
  · rintro ⟨r, hr, rfl, hout, -, htarget⟩
    exact ⟨hr, hout, htarget⟩
  · rintro ⟨hr, hout, htarget⟩
    exact ⟨o.relation, hr, rfl, hout, hkeys _ hr hout, htarget⟩

/-! ## Entities -/

/-- An entity can be written, and so can all that leads out of it. -/
structure WritableEntity (d : Document) (e : Document.Entity) : Prop where
  /-- its table has a name -/
  table : Named e.tableName e.name
  /-- its fields can be written -/
  fields : ∀ f ∈ e.fields, WritableField f
  /-- what its relations lead to can be looked up -/
  targets : ∀ r ∈ d.relations, LeadsOut r e → r.targetId.isKey = true
  /-- its relations into the document can be written -/
  leads : ∀ r ∈ d.relations, LeadsOut r e → ∀ target, entityOf? d r.targetId = some target → WritableLead r target

theorem exists_entityStatements_iff {d : Document} {e : Document.Entity} :
    (∃ s, entityStatements d e = .ok s) ↔ WritableEntity d e := by
  constructor
  · rintro ⟨s, h⟩
    obtain ⟨name, hname, h⟩ := Except.bind_eq_ok.1 h
    obtain ⟨table, htable, h⟩ := Except.bind_eq_ok.1 h
    obtain ⟨leading, hleading, h⟩ := Except.bind_eq_ok.1 h
    obtain ⟨fields, hfields, h⟩ := Except.bind_eq_ok.1 h
    obtain ⟨keys, -, h⟩ := Except.bind_eq_ok.1 h
    obtain ⟨foreignKeys, hforeignKeys, -⟩ := Except.bind_eq_ok.1 h
    obtain rfl := text_eq_ok.1 htable
    refine ⟨exists_tableName_iff.1 ⟨_, hname⟩, exists_fieldLines_iff.1 ⟨_, hfields⟩,
      exists_outgoing_iff.1 ⟨_, hleading⟩, fun r hr hout target htarget => ?_⟩
    have ho : (⟨r, target⟩ : Outgoing) ∈ leading := (mem_outgoing_iff hleading).2 ⟨hr, hout, htarget⟩
    exact (exists_foreignKeyStatement_iff table).1 (Except.exists_mapM_eq_ok.1 ⟨_, hforeignKeys⟩ _ ho)
  · rintro ⟨htable, hfields, htargets, hleads⟩
    obtain ⟨table, htable⟩ := exists_tableName_iff.2 htable
    obtain ⟨fields, hfields⟩ := exists_fieldLines_iff.2 hfields
    obtain ⟨leading, hleading⟩ := exists_outgoing_iff.2 htargets
    have hlead (o : Outgoing) (ho : o ∈ leading) : WritableLead o.relation o.target := by
      obtain ⟨hr, hout, htarget⟩ := (mem_outgoing_iff hleading).1 ho
      exact hleads _ hr hout _ htarget
    obtain ⟨keys, hkeys⟩ := (exists_keyLines_iff (fields.map (·.1))).2 fun o ho =>
      exists_keyColumn_iff.2 (hlead o ho).column
    obtain ⟨foreignKeys, hforeignKeys⟩ := Except.exists_mapM_eq_ok.2 fun o ho =>
      (exists_foreignKeyStatement_iff table).2 (hlead o ho)
    obtain ⟨indexes, hindexes⟩ := Except.exists_mapM_eq_ok.2 fun o ho =>
      (exists_indexStatement_iff table).2 (hlead o ho).column
    simp only [entityStatements, Except.bind_eq_ok, htable, hleading, hfields, hkeys, hforeignKeys, hindexes,
      text_eq_ok, Except.ok.injEq, exists_eq_left', Json.string.injEq]
    exact ⟨_, rfl⟩

/-! ## Documents -/

/-- A document can be written: its identifiers can be keys, and its entities can be written. -/
structure Writable (d : Document) : Prop where
  /-- every identifier can be a key -/
  identifiers : ∀ e ∈ d.entities, e.id.isKey = true
  /-- every entity can be written -/
  entities : ∀ e ∈ d.entities, WritableEntity d e

theorem badId?_eq_none {d : Document} : badId? d = none ↔ ∀ e ∈ d.entities, e.id.isKey = true := by
  simp [badId?]

theorem exists_allStatements_iff {d : Document} {entities : List Document.Entity} :
    (∃ s, (allStatements d entities).value = .ok s) ↔ ∀ e ∈ entities, WritableEntity d e := by
  induction entities with
  | nil => simp [allStatements]
  | cons e rest ih =>
    rw [List.forall_mem_cons, ← ih, ← exists_entityStatements_iff, allStatements]
    cases entityStatements d e with
    | error fault => simp
    | ok statements => simp [Except.exists_map_eq_ok]

/-- The entities of the document are ordered, if what leads out of each of them is found. -/
theorem exists_ordered_iff {d : Document} :
    (∃ entities, ordered d = .ok entities) ↔ ∀ e ∈ d.entities, ∃ leading, outgoing d e = .ok leading := by
  have hstep (e : Document.Entity) : (∃ leading, outgoing d e = .ok leading) ↔
      ∃ m, (outgoing d e).map (fun leading => (e, leading.isEmpty)) = .ok m := Except.exists_map_eq_ok.symm
  simp only [hstep, ← Except.exists_mapM_eq_ok]
  constructor
  · rintro ⟨entities, h⟩
    obtain ⟨marked, hmarked, -⟩ := Except.bind_eq_ok.1 h
    exact ⟨marked, hmarked⟩
  · rintro ⟨marked, hmarked⟩
    exact ⟨_, Except.bind_eq_ok.2 ⟨marked, hmarked, rfl⟩⟩

theorem mem_ordered_iff {d : Document} {entities : List Document.Entity} (h : ordered d = .ok entities)
    {e : Document.Entity} : e ∈ entities ↔ e ∈ d.entities := by
  have houtgoing := exists_ordered_iff.1 ⟨entities, h⟩
  obtain ⟨marked, hmarked, h⟩ := Except.bind_eq_ok.1 h
  cases h
  have hmem (first : Bool) : (e, first) ∈ marked ↔
      e ∈ d.entities ∧ ∃ leading, outgoing d e = .ok leading ∧ leading.isEmpty = first := by
    simp [Except.mem_iff_of_mapM_eq_ok hmarked, Except.map_eq_ok]
  simp only [List.mem_append, List.mem_map, List.mem_filter, Prod.exists, exists_and_right, exists_eq_right,
    Bool.not_eq_true', hmem]
  constructor
  · rintro (⟨he, -⟩ | ⟨he, -⟩) <;> exact he
  · intro he
    obtain ⟨leading, hleading⟩ := houtgoing e he
    cases hempty : leading.isEmpty with
    | true => exact .inl ⟨he, leading, hleading, hempty⟩
    | false => exact .inr ⟨he, leading, hleading, hempty⟩

/-- A document is written as a script if it can be, whatever the project is called. -/
theorem exists_script_iff {d : Document} (project : String) :
    (∃ text, (script d project).value = .ok text) ↔ Writable d := by
  unfold script
  cases hid : badId? d with
  | some id =>
    have hbad : ¬ ∀ e ∈ d.entities, e.id.isKey = true := by simp [← badId?_eq_none, hid]
    exact ⟨fun ⟨_, h⟩ => (by cases h), fun h => absurd h.identifiers hbad⟩
  | none =>
    have hids := badId?_eq_none.1 hid
    cases hordered : ordered d with
    | error fault =>
      have hbad : ¬ ∃ entities, ordered d = .ok entities := by simp [hordered]
      rw [exists_ordered_iff] at hbad
      exact ⟨fun ⟨_, h⟩ => (by cases h),
        fun h => absurd (fun e he => exists_outgoing_iff.2 (h.entities e he).targets) hbad⟩
    | ok entities =>
      rw [Except.exists_map_eq_ok, exists_allStatements_iff]
      simp only [mem_ordered_iff hordered]
      exact ⟨fun h => ⟨hids, h⟩, fun h => h.entities⟩

theorem IsText.isKey {value : Json} (h : IsText value) : value.isKey = true := by
  obtain ⟨s, rfl⟩ := h
  rfl

end SchemaSketch.Export
