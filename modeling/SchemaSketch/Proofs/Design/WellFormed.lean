import Mathlib
import SchemaSketch.Document.Lookup
import SchemaSketch.Proofs.Design.Relations

/-!
# Designs of scripts are well formed

`Design.WellFormed` is what an editor may rely on: identifiers are counted from one, names are there and
distinct, looking up by identifier or table finds the entity itself, relations join entities of the same
design and none stands twice, and each entity has a place of its own on the grid.

Every script has a well-formed design, whatever is declared, declared again or left out
(`wellFormed_of_ofScript`). The proof puts together what is true of one part each: of the register
(`Register.Keyed`), of names and places given one after the other (`names_entitiesFrom`,
`places_entitiesFrom`), of fields (`names_fields`) and of links (`nodup_firstBy`).
-/

namespace SchemaSketch

open Text

namespace Design

/-- What every design of a script is like. -/
structure WellFormed (d : Design) : Prop where
  /-- entities are counted from one -/
  entity_ids : d.entities.map (·.id)
    = (List.range d.entities.length).map fun i => "entity-" ++ toString (i + 1)
  /-- relations are counted from one -/
  relation_ids : d.relations.map (·.id)
    = (List.range d.relations.length).map fun i => "relation-" ++ toString (i + 1)
  /-- every entity has a name -/
  name_ne_empty : ∀ e ∈ d.entities, e.name ≠ ""
  /-- entity names are pairwise distinct -/
  names_nodup : (d.entities.map (·.name)).Nodup
  /-- table names are pairwise distinct, in whatever case they are written -/
  tables_nodup : (d.entities.map (lowerName ·.tableName)).Nodup
  /-- an identifier finds its entity -/
  find_id : ∀ e ∈ d.entities, d.toDocument.entity? (.string e.id) = some e.toDocument
  /-- the name of a table finds its entity, in whatever case it is written -/
  find_table : ∀ e ∈ d.entities, ∀ name, lowerName name = lowerName e.tableName →
    d.toDocument.entityByTable? (.string name) = .ok (some e.toDocument)
  /-- every field has a name -/
  field_ne_empty : ∀ e ∈ d.entities, ∀ f ∈ e.fields, f.name ≠ ""
  /-- field names are pairwise distinct within an entity -/
  fields_nodup : ∀ e ∈ d.entities, (e.fields.map (·.name)).Nodup
  /-- relations join entities of the design -/
  ends : ∀ x ∈ d.relations,
    (∃ e ∈ d.entities, e.id = x.sourceId) ∧ ∃ e ∈ d.entities, e.id = x.targetId
  /-- actions are those that documents know -/
  actions : ∀ x ∈ d.relations,
    x.onDelete.name ∈ ["CASCADE", "SET_NULL", "RESTRICT", "NO_ACTION"] ∧
      x.onUpdate.name ∈ ["CASCADE", "SET_NULL", "RESTRICT", "NO_ACTION"]
  /-- no two relations join the same entities on the same column -/
  relations_nodup : (d.relations.map fun x => (x.sourceId, x.targetId, lowerName x.columnName)).Nodup
  /-- entities stand three to a row -/
  places : d.entities.map (·.place)
    = (List.range d.entities.length).map fun i => ⟨100 + 300 * (i % 3), 100 + 250 * (i / 3)⟩
  /-- no two entities stand in one place -/
  places_nodup : (d.entities.map (·.place)).Nodup

/-! ## Fields -/

/-- Fields have names that are new and pairwise distinct. -/
theorem names_fields (base : BaseColumns) (seen : List String) (columns : List Column) :
    (∀ f ∈ fields base seen columns, f.name ≠ "" ∧ f.name ∉ seen) ∧
      ((fields base seen columns).map (·.name)).Nodup := by
  induction columns generalizing seen with
  | nil => exact ⟨fun f hf => absurd hf List.not_mem_nil, List.nodup_nil⟩
  | cons c rest ih =>
    rw [fields]
    split
    · exact ih seen
    · dsimp only
      split
      · exact ih seen
      · next hkeep =>
        rw [Bool.or_eq_true, not_or, List.contains_iff_mem, String.isEmpty_iff] at hkeep
        obtain ⟨hfresh, hnodup⟩ := ih (Naming.fieldName c.name :: seen)
        refine ⟨?_, List.nodup_cons.2 ⟨?_, hnodup⟩⟩
        · intro f hf
          rcases List.mem_cons.1 hf with rfl | hf
          · exact hkeep
          · exact ⟨(hfresh f hf).1, fun h => (hfresh f hf).2 (List.mem_cons_of_mem _ h)⟩
        · intro hmem
          obtain ⟨f, hf, heq⟩ := List.mem_map.1 hmem
          exact (hfresh f hf).2 (heq ▸ List.mem_cons_self ..)

/-! ## Looking up -/

/-- Looking for a key that no two members share finds its member. -/
theorem find?_eq_some_of_nodup {α κ : Type} [DecidableEq κ] {key : α → κ} {l : List α}
    (h : (l.map key).Nodup) {a : α} (ha : a ∈ l) : l.find? (key · == key a) = some a := by
  induction l with
  | nil => exact absurd ha List.not_mem_nil
  | cons b rest ih =>
    obtain ⟨hnew, hrest⟩ := List.nodup_cons.1 h
    rcases List.mem_cons.1 ha with rfl | ha
    · exact List.find?_cons_of_pos (by simp)
    · have hne : key b ≠ key a := fun heq => hnew (List.mem_map.2 ⟨a, ha, heq.symm⟩)
      rw [List.find?_cons_of_neg (by simpa using hne)]
      exact ih hrest ha

theorem entity?_toDocument (d : Design) (id : String) :
    d.toDocument.entity? (.string id) = (d.entities.find? (·.id == id)).map Entity.toDocument := by
  rw [Document.entity?, toDocument, List.find?_map]
  rfl

theorem entityAmong_map_toDocument (lowered : String) (entities : List Entity) :
    Document.entityAmong lowered (entities.map Entity.toDocument)
      = .ok ((entities.find? (lowerName ·.tableName == lowered)).map Entity.toDocument) := by
  induction entities with
  | nil => rfl
  | cons e rest ih =>
    have hcons : Document.entityAmong lowered ((e :: rest).map Entity.toDocument)
        = if lowerName e.tableName == lowered then .ok (some e.toDocument)
          else Document.entityAmong lowered (rest.map Entity.toDocument) := rfl
    rw [hcons, ih, List.find?_cons]
    cases lowerName e.tableName == lowered <;> rfl

theorem entityByTable?_toDocument (d : Design) (name : String) :
    d.toDocument.entityByTable? (.string name)
      = .ok ((d.entities.find? (lowerName ·.tableName == lowerName name)).map Entity.toDocument) :=
  entityAmong_map_toDocument (lowerName name) d.entities

/-! ## Relations -/

/-- Relations are counted from one. -/
theorem ids_relationsOf (r : Register) :
    (relationsOf r).map (·.id) = (List.range (relationsOf r).length).map relationId := by
  apply List.ext_getElem
  · simp
  · intro i hi _
    simp [relationsOf, relation]

theorem mem_relationsOf {r : Register} {x : Relation} (h : x ∈ relationsOf r) :
    ∃ index, ∃ l ∈ linksFrom r 0 (r.map (·.2)), relation index l = x := by
  obtain ⟨i, hi, rfl⟩ := List.mem_mapIdx.1 h
  exact ⟨i, _, (firstLinks_sublist _ _).subset (List.getElem_mem _), rfl⟩

/-- No two relations of a register join the same entities on the same column. -/
theorem nodup_relationsOf (r : Register) :
    ((relationsOf r).map fun x => (x.sourceId, x.targetId, lowerName x.columnName)).Nodup := by
  have hkeys : (relationsOf r).map (fun x => (x.sourceId, x.targetId, lowerName x.columnName))
      = ((firstLinks [] (linksFrom r 0 (r.map (·.2)))).map Link.key).map
          fun k => (entityId k.1, entityId k.2.1, k.2.2) := by
    apply List.ext_getElem?
    intro i
    simp only [relationsOf, List.getElem?_map, List.getElem?_mapIdx, Option.map_map,
      Function.comp_def, relation, Link.key]
  rw [hkeys, firstLinks_eq_firstBy]
  refine List.Nodup.map ?_ (nodup_firstBy _ _ _).2
  rintro ⟨s, t, c⟩ ⟨s', t', c'⟩ h
  simp only [Prod.mk.injEq] at h ⊢
  exact ⟨entityId_injective h.1, entityId_injective h.2.1, h.2.2⟩

/-! ## The design of a script -/

theorem length_entitiesOf (base : BaseColumns) (r : Register) :
    (entitiesOf base r).length = r.length := by
  rw [entitiesOf, length_entitiesFrom, List.length_map]

theorem ids_entitiesOf (base : BaseColumns) (r : Register) :
    (entitiesOf base r).map (·.id) = (List.range (entitiesOf base r).length).map entityId := by
  rw [length_entitiesOf, entitiesOf, ids_entitiesFrom, List.length_map, List.range_eq_range']

/-- Every place of the register has its entity. -/
theorem exists_mem_entitiesOf (base : BaseColumns) {r : Register} {i : Nat} (hi : i < r.length) :
    ∃ e ∈ entitiesOf base r, e.id = entityId i := by
  have hmem : entityId i ∈ (entitiesOf base r).map (·.id) := by
    rw [ids_entitiesOf, length_entitiesOf]
    exact List.mem_map_of_mem (List.mem_range.2 hi)
  simpa using hmem

theorem tables_entitiesOf (base : BaseColumns) {r : Register} (hr : r.Keyed) :
    (entitiesOf base r).map (lowerName ·.tableName) = r.keys := by
  have htables := congrArg (List.map lowerName) (tableNames_entitiesOf base r)
  rw [List.map_map, List.map_map] at htables
  refine htables.trans ?_
  apply List.map_congr_left
  intro entry hentry
  exact (hr.key_eq entry hentry).symm

theorem mem_fields_of_mem_entitiesOf {base : BaseColumns} {r : Register} {e : Entity}
    (he : e ∈ entitiesOf base r) : ∃ columns, e.fields = fields base [] columns := by
  have hmem := List.mem_map_of_mem (f := fun e : Entity => (e.tableName, e.fields)) he
  rw [contents_entitiesOf] at hmem
  obtain ⟨entry, -, hentry⟩ := List.mem_map.1 hmem
  exact ⟨entry.2.columns, (congrArg Prod.snd hentry).symm⟩

/-- The design of a keyed register is well formed. -/
theorem wellFormed_ofRegister (base : BaseColumns) {r : Register} (hr : r.Keyed) :
    (ofRegister base r).WellFormed := by
  have hids : ((entitiesOf base r).map (·.id)).Nodup := by
    rw [ids_entitiesOf]
    exact List.Nodup.map (fun _ _ => entityId_injective) List.nodup_range
  have htables : ((entitiesOf base r).map (lowerName ·.tableName)).Nodup := by
    rw [tables_entitiesOf base hr]
    exact hr.nodup
  have hplaces : (entitiesOf base r).map (·.place)
      = (List.range (entitiesOf base r).length).map Place.ofIndex := by
    rw [length_entitiesOf, entitiesOf, show Place.origin = .ofIndex 0 from rfl,
      places_entitiesFrom, List.length_map, List.range_eq_range']
  exact {
    entity_ids := ids_entitiesOf base r
    relation_ids := ids_relationsOf r
    name_ne_empty := fun e he => name_ne_empty_of_mem_entitiesFrom base he
    names_nodup := (names_entitiesFrom base 0 [] Place.origin _).2
    tables_nodup := htables
    find_id := fun e he => by
      rw [entity?_toDocument, show (ofRegister base r).entities = entitiesOf base r from rfl,
        find?_eq_some_of_nodup hids he]
      rfl
    find_table := fun e he name hname => by
      rw [entityByTable?_toDocument, hname,
        show (ofRegister base r).entities = entitiesOf base r from rfl,
        find?_eq_some_of_nodup htables he]
      rfl
    field_ne_empty := fun e he f hf => by
      obtain ⟨columns, hfields⟩ := mem_fields_of_mem_entitiesOf he
      exact ((names_fields base [] columns).1 f (hfields ▸ hf)).1
    fields_nodup := fun e he => by
      obtain ⟨columns, hfields⟩ := mem_fields_of_mem_entitiesOf he
      rw [hfields]
      exact (names_fields base [] columns).2
    ends := fun x hx => by
      obtain ⟨index, l, hl, rfl⟩ := mem_relationsOf hx
      obtain ⟨hsource, htarget⟩ := bounds_of_mem_linksFrom hl
      rw [Nat.zero_add, List.length_map] at hsource
      exact ⟨exists_mem_entitiesOf base hsource, exists_mem_entitiesOf base htarget⟩
    actions := fun x _ => ⟨by cases x.onDelete <;> decide, by cases x.onUpdate <;> decide⟩
    relations_nodup := nodup_relationsOf r
    places := hplaces
    places_nodup := by
      change ((entitiesOf base r).map (·.place)).Nodup
      rw [hplaces]
      exact List.Nodup.map (fun _ _ => Place.ofIndex_injective) List.nodup_range }

theorem wellFormed_ofStatements (base : BaseColumns) (statements : List (List Char)) :
    (ofStatements base statements).WellFormed :=
  wellFormed_ofRegister base (Register.keyed_ofReadings _)

/-- The design of a script is that of its statements. -/
theorem ofScript_eq_ok {base : BaseColumns} {script : List Char} {d : Design} :
    ofScript base script = .ok d ↔
      ∃ statements, Statement.prepare script = .ok statements ∧ ofStatements base statements = d := by
  rw [ofScript]
  cases Statement.prepare script with
  | error cause =>
    refine ⟨fun h => (by cases h), ?_⟩
    rintro ⟨statements, h, -⟩
    cases h
  | ok statements =>
    refine ⟨fun h => ⟨statements, rfl, Except.ok.inj h⟩, ?_⟩
    rintro ⟨_, h, rfl⟩
    cases h
    rfl

/-- **The design of every script is well formed.** -/
theorem wellFormed_of_ofScript {base : BaseColumns} {script : List Char} {d : Design}
    (h : ofScript base script = .ok d) : d.WellFormed := by
  obtain ⟨statements, -, rfl⟩ : ∃ statements, Statement.prepare script = .ok statements ∧
      ofStatements base statements = d := by
    unfold ofScript at h
    cases hprepare : Statement.prepare script with
    | error cause => rw [hprepare] at h; cases h
    | ok statements =>
      rw [hprepare] at h
      cases h
      exact ⟨statements, rfl, rfl⟩
  exact wellFormed_ofRegister base (Register.keyed_ofReadings _)

/-- Two tables whose entities would both be called `U`, one of which refers to the other. -/
def twoTables : Design where
  entities := [
    ⟨"entity-1", "U", "u", [⟨"x", "x", .integer, true, false, none, none, []⟩], ⟨100, 100⟩⟩,
    ⟨"entity-2", "U2", "us", [⟨"y", "y", .integer, true, false, none, none, []⟩], ⟨400, 100⟩⟩]
  relations := [
    ⟨"relation-1", "entity-2", "entity-1", "y", "y", true, .noAction, .noAction⟩]

theorem wellFormed_twoTables :
    ofScript BaseColumns.standard "create table u(x int);create table us(y int references u)".toList
      = .ok twoTables ∧ twoTables.WellFormed := by
  have h : ofScript BaseColumns.standard
      "create table u(x int);create table us(y int references u)".toList = .ok twoTables := by
    decide +kernel
  exact ⟨h, wellFormed_of_ofScript h⟩

end Design
end SchemaSketch
