import Mathlib
import SchemaSketch.Proofs.Design.WellFormed
import SchemaSketch.Proofs.Export.Design

/-!
# What a written script does, step by step

The script of a design creates a table for each entity and adds foreign keys and indexes to it. These are
its `Export.Step`s, in order: the script is their text (`Design.script_toDocument_eq_stepsText`).

* **Order.** The tables without outgoing relations are created first. The foreign keys of a table are added
  right behind it, and not when all tables are there. So a foreign key finds its table if and only if that
  table has no outgoing relations or was not written later in the design (`Design.create_mem_iff`).
* **Running.** `Export.runs` goes through the steps and asks of each whether the tables that it needs are
  there. What a script needs in order to run is told by `Design.runs_steps_iff`: a chain of three tables
  written in the order in which they refer does not run.
-/

namespace SchemaSketch

namespace Export

deriving instance DecidableEq for Lead

/-- A statement of a written script. -/
inductive Step where
  /-- creates the table of an entity -/
  | create (e : Entity)
  /-- adds the foreign key of a relation to the table of an entity -/
  | refer (e : Entity) (l : Lead)
  /-- adds the index of a relation to the table of an entity -/
  | index (e : Entity) (l : Lead)
  deriving DecidableEq

namespace Step

/-- The text of a step. -/
def text (d : Design) : Step → String
  | create e => "\n".intercalate ["-- Entity: " ++ e.name,
      "CREATE TABLE " ++ Ident.quote e.table ++ " (", ",\n".intercalate ((d.columns e).map (·.line)), ");"]
  | refer e l => l.foreignKey e.table
  | index e l => l.index e.table

/-- The entity whose table is created, if one is. -/
def created? : Step → Option Entity
  | create e => some e
  | refer _ _ => none
  | index _ _ => none

/-- The entity whose table a step is about. -/
def entity : Step → Entity
  | create e => e
  | refer e _ => e
  | index e _ => e

/-- The tables that must be there. -/
def needs : Step → List String
  | create _ => []
  | refer e l => [e.table, l.target.table]
  | index e _ => [e.table]

/-- The tables that are there afterwards and were not before. -/
def creates (s : Step) : List String := (s.created?.map (·.table)).toList

end Step

/-- Whether steps run one after the other, when some tables are there already. -/
def runs (there : List String) : List Step → Bool
  | [] => true
  | s :: rest => s.needs.all there.contains && runs (there ++ s.creates) rest

theorem runs_iff {there : List String} {steps : List Step} :
    runs there steps = true ↔ ∀ before s after, steps = before ++ s :: after →
      ∀ table ∈ s.needs, table ∈ there ++ before.flatMap Step.creates := by
  induction steps generalizing there with
  | nil => simp [runs]
  | cons first rest ih =>
    rw [runs, Bool.and_eq_true, ih, List.all_eq_true]
    constructor
    · rintro ⟨hfirst, hrest⟩ before s after hsplit table htable
      rcases List.cons_eq_append_iff.1 hsplit with ⟨rfl, hcons⟩ | ⟨before', rfl, hrest'⟩
      · obtain ⟨rfl, rfl⟩ := List.cons.inj hcons
        simpa using hfirst table htable
      · have hthere := hrest before' s after hrest' table htable
        rwa [List.flatMap_cons, ← List.append_assoc]
    · intro h
      constructor
      · intro table htable
        simpa using h [] first rest rfl table htable
      · intro before s after hsplit table htable
        have hthere := h (first :: before) s after (by rw [hsplit]; rfl) table htable
        rwa [List.flatMap_cons, ← List.append_assoc] at hthere

end Export

namespace Design

open Export

/-- The steps for an entity: its table, its foreign keys, its indexes. -/
def stepsOf (d : Design) (e : Entity) : List Step :=
  .create e :: ((d.leads e).map (.refer e) ++ (d.leads e).map (.index e))

/-- The steps of the script of a design. -/
def steps (d : Design) : List Step := d.ordered.flatMap d.stepsOf

/-- The text of the steps, with an empty line behind those of each entity. -/
def stepsText (d : Design) (project : String) : String :=
  "\n".intercalate (heading project ++ d.ordered.flatMap fun e => (d.stepsOf e).map (·.text d) ++ [""])

/-- Whether one entity's table is created no later than the foreign keys of another's are added. -/
def ComesFirst (d : Design) (target source : Entity) : Prop :=
  (d.leads target).isEmpty = true ∨ d.entities.idxOf target ≤ d.entities.idxOf source

instance (d : Design) (target source : Entity) : Decidable (d.ComesFirst target source) :=
  inferInstanceAs (Decidable (_ ∨ _))

/-! ## The steps for an entity -/

section
variable {d : Design} {e : Entity}

theorem mem_stepsOf_iff {s : Step} :
    s ∈ d.stepsOf e ↔ s = .create e ∨ ∃ l ∈ d.leads e, s = .refer e l ∨ s = .index e l := by
  simp only [stepsOf, List.mem_cons, List.mem_append, List.mem_map, eq_comm (a := s)]
  constructor
  · rintro (h | ⟨l, hl, h⟩ | ⟨l, hl, h⟩)
    · exact .inl h
    · exact .inr ⟨l, hl, .inl h⟩
    · exact .inr ⟨l, hl, .inr h⟩
  · rintro (h | ⟨l, hl, h | h⟩)
    · exact .inl h
    · exact .inr (.inl ⟨l, hl, h⟩)
    · exact .inr (.inr ⟨l, hl, h⟩)

/-- Each relation of an entity has its foreign key and its index. -/
theorem mem_stepsOf_of_mem_leads {l : Lead} (hl : l ∈ d.leads e) :
    .refer e l ∈ d.stepsOf e ∧ .index e l ∈ d.stepsOf e :=
  ⟨mem_stepsOf_iff.2 (.inr ⟨l, hl, .inl rfl⟩), mem_stepsOf_iff.2 (.inr ⟨l, hl, .inr rfl⟩)⟩

/-- A step that creates no table stands for a relation of its entity. -/
theorem leads_of_mem_stepsOf {s : Step} (hs : s ∈ d.stepsOf e) (hcreated : s.created? = none) :
    s.entity = e ∧ (d.leads e).isEmpty = false := by
  rcases mem_stepsOf_iff.1 hs with rfl | ⟨l, hl, rfl | rfl⟩
  · cases hcreated
  · exact ⟨rfl, List.isEmpty_eq_false_iff.2 (List.ne_nil_of_mem hl)⟩
  · exact ⟨rfl, List.isEmpty_eq_false_iff.2 (List.ne_nil_of_mem hl)⟩

end

/-- What is gathered from the steps for an entity, one kind of step after the other. -/
theorem filterMap_stepsOf {β : Type} (f : Step → Option β) (d : Design) (e : Entity) :
    (d.stepsOf e).filterMap f = (f (.create e)).toList
      ++ ((d.leads e).filterMap (f <| .refer e ·) ++ (d.leads e).filterMap (f <| .index e ·)) := by
  have hleads : ((d.leads e).map (Step.refer e) ++ (d.leads e).map (Step.index e)).filterMap f
      = (d.leads e).filterMap (f <| .refer e ·) ++ (d.leads e).filterMap (f <| .index e ·) := by
    rw [List.filterMap_append, List.filterMap_map, List.filterMap_map]
    rfl
  rw [stepsOf, List.filterMap_cons, hleads]
  cases f (.create e) with
  | none => rfl
  | some b => rfl

/-! ## Texts -/

/-- Parts that are joined by themselves first might as well be joined with the rest. -/
theorem intercalate_append_intercalate (sep : String) (front : List String) {parts : List String}
    (hparts : parts ≠ []) (back : List String) :
    sep.intercalate (front ++ sep.intercalate parts :: back) = sep.intercalate (front ++ (parts ++ back)) := by
  induction front with
  | nil =>
    cases back with
    | nil => rw [List.append_nil, List.nil_append, List.nil_append, String.intercalate_singleton]
    | cons line back =>
      rw [List.nil_append, List.nil_append, String.intercalate_cons_cons,
        String.intercalate_append_of_ne_nil hparts (List.cons_ne_nil _ _)]
  | cons line front ih =>
    rw [List.cons_append, List.cons_append, String.intercalate_cons_of_ne_nil (by simp),
      String.intercalate_cons_of_ne_nil (by simp [hparts]), ih]

/-- The same for the parts of each member of a list. -/
theorem intercalate_flatMap_intercalate {α : Type} (sep : String) {parts : α → List String}
    (hparts : ∀ a, parts a ≠ []) (back : α → List String) (l : List α) (front : List String) :
    sep.intercalate (front ++ l.flatMap fun a => sep.intercalate (parts a) :: back a)
      = sep.intercalate (front ++ l.flatMap fun a => parts a ++ back a) := by
  induction l generalizing front with
  | nil => rfl
  | cons a rest ih =>
    rw [List.flatMap_cons, List.cons_append, intercalate_append_intercalate sep front (hparts a),
      List.flatMap_cons]
    simp only [← List.append_assoc, ih]

theorem tableScript_eq_steps (d : Design) (e : Entity) :
    d.tableScript e = "\n".intercalate ((d.stepsOf e).map (·.text d)) := by
  rw [stepsOf, List.map_cons, List.map_append, List.map_map, List.map_map, tableScript, List.append_assoc]
  exact (intercalate_append_intercalate "\n" [] (List.cons_ne_nil _ _) _).symm

theorem script_eq_stepsText (d : Design) (project : String) : d.script project = d.stepsText project := by
  have hscripts : d.script project = "\n".intercalate (heading project ++ d.ordered.flatMap fun e =>
      ["\n".intercalate ((d.stepsOf e).map (·.text d)), ""]) := by
    simp only [← tableScript_eq_steps]
    rfl
  rw [hscripts, stepsText, intercalate_flatMap_intercalate "\n" fun e => by simp [stepsOf]]

/-- **The script of a design is the text of its steps.** -/
theorem script_toDocument_eq_stepsText (d : Design) (project : String) :
    (Export.script d.toDocument project).value = .ok (d.stepsText project) := by
  rw [script_toDocument, script_eq_stepsText]

/-! ## Order -/

/-- A member of joined lists stands in one of them, behind all that is before that one. -/
theorem exists_of_flatMap_eq_append {α β : Type} {f : α → List β} {l : List α} {before after : List β}
    {b : β} (h : l.flatMap f = before ++ b :: after) :
    ∃ front a back fore aft, l = front ++ a :: back ∧ f a = fore ++ b :: aft ∧
      before = front.flatMap f ++ fore := by
  induction l generalizing before with
  | nil => simp at h
  | cons a rest ih =>
    rw [List.flatMap_cons] at h
    rcases List.append_eq_append_iff.1 h with ⟨gap, rfl, hrest⟩ | ⟨gap, ha, hgap⟩
    · obtain ⟨front, a', back, fore, aft, rfl, hb, rfl⟩ := ih hrest
      exact ⟨a :: front, a', back, fore, aft, rfl, hb, by simp⟩
    · cases gap with
      | nil =>
        obtain ⟨front, a', back, fore, aft, rfl, hb, hnil⟩ := @ih [] hgap.symm
        refine ⟨a :: front, a', back, fore, aft, rfl, hb, ?_⟩
        rw [List.flatMap_cons, List.append_assoc, ← hnil, ha, List.append_nil, List.append_nil]
      | cons c gap =>
        obtain ⟨rfl, -⟩ := List.cons.inj hgap
        exact ⟨[], a, rest, before, gap, rfl, ha, rfl⟩

/-- Places in a list of pairwise distinct members. -/
theorem idxOf_le_idxOf_iff {α : Type} [DecidableEq α] {front back : List α} {a b : α}
    (hnodup : (front ++ b :: back).Nodup) (ha : a ∈ front ++ b :: back) :
    (front ++ b :: back).idxOf a ≤ (front ++ b :: back).idxOf b ↔ a ∈ front ∨ a = b := by
  have hb : b ∉ front := fun hmem =>
    (List.nodup_append.1 hnodup).2.2 b hmem b (List.mem_cons_self ..) rfl
  have hplace : (front ++ b :: back).idxOf b = front.length := by
    rw [List.idxOf_append_of_notMem hb, List.idxOf_cons_self]
    rfl
  rw [hplace]
  constructor
  · intro hle
    by_contra hnot
    obtain ⟨hfront, hne⟩ := not_or.1 hnot
    rw [List.idxOf_append_of_notMem hfront, List.idxOf_cons_ne _ (Ne.symm hne)] at hle
    omega
  · rintro (hfront | rfl)
    · rw [List.idxOf_append_of_mem hfront]
      exact (List.idxOf_lt_length_of_mem hfront).le
    · exact hplace.le

/-- In a list that is put in order by a property, what stands before a member without the property are
those that have it and those that stood before the member already. -/
theorem mem_front_iff {α : Type} [DecidableEq α] {l : List α} (hl : l.Nodup) {p : α → Bool}
    {front back : List α} {a b : α} (h : l.filter p ++ l.filter (fun x => !p x) = front ++ b :: back)
    (hb : p b = false) (ha : a ∈ l) :
    a ∈ front ∨ a = b ↔ p a = true ∨ l.idxOf a ≤ l.idxOf b := by
  -- the member stands in the second part, and so behind all of the first
  obtain ⟨middle, rfl, hsecond⟩ : ∃ middle, front = l.filter p ++ middle ∧
      l.filter (fun x => !p x) = middle ++ b :: back := by
    rcases List.append_eq_append_iff.1 h with ⟨middle, hfront, hsecond⟩ | ⟨gap, hfirst, hgap⟩
    · exact ⟨middle, hfront, hsecond⟩
    · cases gap with
      | nil => exact ⟨[], by simpa using hfirst.symm, hgap.symm⟩
      | cons c gap =>
        obtain ⟨rfl, -⟩ := List.cons.inj hgap
        have hmem : b ∈ l.filter p := by rw [hfirst]; simp
        rw [(List.mem_filter.1 hmem).2] at hb
        cases hb
  obtain ⟨first, rest, rfl, rfl, hrest⟩ := List.filter_eq_append_iff.1 hsecond
  obtain ⟨gap, last, rfl, hgap, -, rfl⟩ := List.filter_eq_cons_iff.1 hrest
  rw [← List.append_assoc] at hl ha ⊢
  rw [idxOf_le_idxOf_iff hl ha]
  cases hp : p a with
  | true =>
    have hfirst : a ∈ (first ++ gap ++ b :: last).filter p := List.mem_filter.2 ⟨ha, hp⟩
    exact iff_of_true (.inl (List.mem_append_left _ hfirst)) (.inl rfl)
  | false =>
    have hgap' : a ∉ gap := fun hmem => hgap a hmem (by rw [hp]; rfl)
    simp [List.mem_filter, hp, hgap']

theorem created_cons (e : Entity) (steps : List Step) :
    (Step.create e :: steps).filterMap Step.created? = e :: steps.filterMap Step.created? := rfl

/-- The steps that create tables are those of the entities. -/
theorem created_stepsOf (d : Design) (e : Entity) : (d.stepsOf e).filterMap Step.created? = [e] := by
  simp [filterMap_stepsOf, Step.created?]

theorem created_flatMap_stepsOf (d : Design) (entities : List Entity) :
    (entities.flatMap d.stepsOf).filterMap Step.created? = entities := by
  rw [List.filterMap_flatMap]
  simp only [created_stepsOf, List.flatMap_singleton']

theorem mem_iff_mem_created {e : Entity} {steps : List Step} :
    .create e ∈ steps ↔ e ∈ steps.filterMap Step.created? := by
  rw [List.mem_filterMap]
  constructor
  · exact fun h => ⟨_, h, rfl⟩
  · rintro ⟨s, hs, hcreated⟩
    cases s with
    | create e' =>
      obtain rfl := Option.some.inj hcreated
      exact hs
    | refer e' l => cases hcreated
    | index e' l => cases hcreated

/-- **Order.** When a foreign key or an index of an entity is added, the tables that are there are those
without outgoing relations, those that stand before the entity in the design, and its own. -/
theorem create_mem_iff {d : Design} (hd : d.entities.Nodup) {before after : List Step} {s : Step}
    (hsplit : d.steps = before ++ s :: after) (hs : s.created? = none) {target : Entity}
    (htarget : target ∈ d.entities) : .create target ∈ before ↔ d.ComesFirst target s.entity := by
  obtain ⟨front, e, back, fore, aft, hordered, hsteps, rfl⟩ := exists_of_flatMap_eq_append hsplit
  have hmem : s ∈ d.stepsOf e := by rw [hsteps]; simp
  obtain ⟨rfl, hleads⟩ := leads_of_mem_stepsOf hmem hs
  -- of the entity's own steps the first creates its table, and no other creates any
  have hfore : fore.filterMap Step.created? = [s.entity] := by
    have hcreated := created_stepsOf d s.entity
    cases fore with
    | nil =>
      rw [← (List.cons.inj hsteps).1] at hs
      cases hs
    | cons first fore =>
      obtain ⟨rfl, -⟩ := List.cons.inj hsteps
      rw [hsteps, List.cons_append, created_cons, List.filterMap_append] at hcreated
      rw [created_cons, (List.append_eq_nil_iff.1 (List.cons.inj hcreated).2).1]
  rw [mem_iff_mem_created, List.filterMap_append, created_flatMap_stepsOf, hfore, List.mem_append,
    List.mem_singleton]
  exact mem_front_iff hd hordered hleads htarget

/-- The own table of an entity is there when its foreign keys and indexes are added. -/
theorem create_entity_mem {d : Design} (hd : d.entities.Nodup) {before after : List Step} {s : Step}
    (hsplit : d.steps = before ++ s :: after) (hs : s.created? = none) (he : s.entity ∈ d.entities) :
    .create s.entity ∈ before :=
  (create_mem_iff hd hsplit hs he).2 (.inr le_rfl)

/-! ## Running -/

theorem ordered_perm (d : Design) : d.ordered.Perm d.entities :=
  List.filter_append_perm (fun e => (d.leads e).isEmpty) d.entities

theorem mem_steps_iff {d : Design} {s : Step} : s ∈ d.steps ↔ ∃ e ∈ d.entities, s ∈ d.stepsOf e := by
  rw [steps, List.mem_flatMap]
  simp only [(ordered_perm d).mem_iff]

theorem mem_creates_iff {table : String} {steps : List Step} :
    table ∈ steps.flatMap Step.creates ↔ ∃ e, .create e ∈ steps ∧ e.table = table := by
  simp only [List.mem_flatMap, Step.creates, Option.mem_toList, Option.map_eq_some_iff,
    mem_iff_mem_created, List.mem_filterMap]
  constructor
  · rintro ⟨s, hs, e, hcreated, htable⟩
    exact ⟨e, ⟨s, hs, hcreated⟩, htable⟩
  · rintro ⟨e, ⟨s, hs, hcreated⟩, htable⟩
    exact ⟨s, hs, e, hcreated, htable⟩

/-- **Running.** A script runs if and only if each relation finds a table of the name that it refers to. -/
theorem runs_steps_iff {d : Design} (hd : d.entities.Nodup) :
    runs [] d.steps = true ↔ ∀ source ∈ d.entities, ∀ l ∈ d.leads source,
      ∃ target ∈ d.entities, target.table = l.target.table ∧ d.ComesFirst target source := by
  rw [runs_iff]
  simp only [List.nil_append, mem_creates_iff]
  constructor
  · intro h source hsource l hl
    have hrefer : .refer source l ∈ d.steps :=
      mem_steps_iff.2 ⟨source, hsource, (mem_stepsOf_of_mem_leads hl).1⟩
    obtain ⟨before, after, hsplit⟩ := List.append_of_mem hrefer
    obtain ⟨target, hcreate, htable⟩ := h before _ after hsplit l.target.table (by simp [Step.needs])
    obtain ⟨e, he, hmem⟩ := mem_steps_iff.1 (hsplit ▸ List.mem_append_left _ hcreate)
    obtain rfl : target = e := by
      have hcreated := mem_iff_mem_created.1 hmem
      rw [created_stepsOf] at hcreated
      exact List.mem_singleton.1 hcreated
    exact ⟨target, he, htable, (create_mem_iff hd hsplit rfl he).1 hcreate⟩
  · intro h before s after hsplit table htable
    obtain ⟨e, he, hmem⟩ := mem_steps_iff.1 (hsplit ▸ List.mem_append_right before (List.mem_cons_self ..))
    rcases mem_stepsOf_iff.1 hmem with rfl | ⟨l, hl, rfl | rfl⟩
    · exact absurd htable List.not_mem_nil
    · rcases List.mem_cons.1 htable with rfl | htable
      · exact ⟨e, create_entity_mem hd hsplit rfl he, rfl⟩
      · obtain rfl := List.mem_singleton.1 htable
        obtain ⟨target, htarget, hname, hfirst⟩ := h e he l hl
        exact ⟨target, (create_mem_iff hd hsplit rfl htarget).2 hfirst, hname⟩
    · obtain rfl := List.mem_singleton.1 htable
      exact ⟨e, create_entity_mem hd hsplit rfl he, rfl⟩

/-! ## The script of a script's design -/

theorem nodup_entities {d : Design} (hd : d.WellFormed) : d.entities.Nodup :=
  List.Nodup.of_map _ hd.names_nodup

/-- **Which foreign keys find their tables.** The tables without outgoing relations are created first, the
others behind them, both in the order of the design. A foreign key stands behind the table that it refers
to if and only if that table comes first in this sense, and the script runs if and only if a table of that
name does so for every relation. -/
theorem references_found_iff {base : BaseColumns} {script : List Char} {d : Design}
    (h : ofScript base script = .ok d) (project : String) :
    (Export.script d.toDocument project).value = .ok (d.stepsText project) ∧
      d.steps.filterMap Step.created? = d.entities.filter (fun e => (d.leads e).isEmpty)
        ++ d.entities.filter (fun e => !(d.leads e).isEmpty) ∧
      (∀ before source l after, d.steps = before ++ .refer source l :: after →
        ∀ target ∈ d.entities, .create target ∈ before ↔ d.ComesFirst target source) ∧
      (runs [] d.steps = true ↔ ∀ source ∈ d.entities, ∀ l ∈ d.leads source,
        ∃ target ∈ d.entities, target.table = l.target.table ∧ d.ComesFirst target source) := by
  obtain ⟨statements, -, rfl⟩ := ofScript_eq_ok.1 h
  have hnodup := nodup_entities (wellFormed_ofStatements base statements)
  exact ⟨script_toDocument_eq_stepsText _ project, created_flatMap_stepsOf _ _,
    fun before source l after hsplit target htarget => create_mem_iff hnodup hsplit rfl htarget,
    runs_steps_iff hnodup⟩

/-- A table that refers to another one, which stands behind it. -/
def forwardReference : Design where
  entities := [
    ⟨"entity-1", "A", "a", [⟨"x", "x", .integer, true, false, none, none, []⟩], ⟨100, 100⟩⟩,
    ⟨"entity-2", "B", "b", [⟨"y", "y", .integer, true, false, none, none, []⟩], ⟨400, 100⟩⟩]
  relations := [⟨"relation-1", "entity-1", "entity-2", "x", "x", true, .noAction, .noAction⟩]

theorem references_found_forwardReference :
    ofScript BaseColumns.standard "create table a(x int references b);create table b(y int)".toList
        = .ok forwardReference ∧
      (∃ before source l after, forwardReference.steps = before ++ .refer source l :: after ∧
        .create l.target ∈ before) ∧
      runs [] forwardReference.steps = true := by
  have h : ofScript BaseColumns.standard
      "create table a(x int references b);create table b(y int)".toList = .ok forwardReference := by
    decide +kernel
  obtain ⟨-, -, hbehind, hruns⟩ := references_found_iff h usualProject
  have hleads : ∃ source ∈ forwardReference.entities, ∃ l ∈ forwardReference.leads source,
      l.target ∈ forwardReference.entities ∧ forwardReference.ComesFirst l.target source := by
    decide +kernel
  obtain ⟨source, hsource, l, hl, htarget, hfirst⟩ := hleads
  have hrefer : .refer source l ∈ forwardReference.steps :=
    mem_steps_iff.2 ⟨source, hsource, (mem_stepsOf_of_mem_leads hl).1⟩
  obtain ⟨before, after, hsplit⟩ := List.append_of_mem hrefer
  have hcreate := (hbehind before source l after hsplit l.target htarget).2 hfirst
  exact ⟨h, ⟨before, source, l, after, hsplit, hcreate⟩, hruns.2 (by decide +kernel)⟩

/-- Three tables, of which the first refers to the second and the second to the third. -/
def chain : Design where
  entities := [
    ⟨"entity-1", "A", "a", [⟨"x", "x", .integer, true, false, none, none, []⟩], ⟨100, 100⟩⟩,
    ⟨"entity-2", "B", "b", [⟨"y", "y", .integer, true, false, none, none, []⟩], ⟨400, 100⟩⟩,
    ⟨"entity-3", "C", "c", [⟨"z", "z", .integer, true, false, none, none, []⟩], ⟨700, 100⟩⟩]
  relations := [
    ⟨"relation-1", "entity-1", "entity-2", "x", "x", true, .noAction, .noAction⟩,
    ⟨"relation-2", "entity-2", "entity-3", "y", "y", true, .noAction, .noAction⟩]

/-- The first table of a chain refers to the second before that is created. -/
theorem references_not_found_chain :
    ofScript BaseColumns.standard
        ("create table a(x int references b);create table b(y int references c);"
          ++ "create table c(z int)").toList = .ok chain ∧
      (Export.script chain.toDocument usualProject).value = .ok (chain.stepsText usualProject) ∧
      (∃ before source l after, chain.steps = before ++ .refer source l :: after ∧
        .create l.target ∉ before ∧ .create l.target ∈ after) ∧
      runs [] chain.steps = false := by
  have hplace : chain.steps = chain.steps.take 2 ++ .refer (chain.entities.get ⟨0, by decide⟩)
      ⟨chain.relations.get ⟨0, by decide⟩, chain.entities.get ⟨1, by decide⟩⟩ :: chain.steps.drop 3 := by
    decide +kernel
  exact ⟨by decide +kernel, script_toDocument_eq_stepsText _ _,
    ⟨_, _, _, _, hplace, by decide +kernel, by decide +kernel⟩, by decide +kernel⟩

end Design
end SchemaSketch
