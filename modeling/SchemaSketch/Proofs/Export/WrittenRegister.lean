import SchemaSketch.Proofs.Export.WrittenScripts

/-!
# The register of a written script

Tables of different names are registered in the order in which they are created, each with the foreign keys that are
added to it anywhere (`Register.ofReadings_eq_map`). A written script creates each table once and adds to it a foreign key
for each relation that leads out of it. So the register has one entry for each entity, in the order in which the tables
were written (`Design.ofReadings_steps`).
-/

namespace SchemaSketch

open Text

namespace Register

/-! ## A register after all alterations -/

theorem addedKeys_cons (key : String) (reading : Reading) (rest : List Reading) :
    addedKeys key (reading :: rest) = addedKeys key [reading] ++ addedKeys key rest := by
  rw [addedKeys, ← List.singleton_append, List.filter_append, List.flatMap_append]
  rfl

theorem afterAlteration_eq_map (r : Register) (reading : Reading) :
    r.afterAlteration reading = r.map fun entry => (entry.1, entry.2.withKeys (addedKeys entry.1 [reading])) := by
  rw [afterAlteration]
  cases hread : reading.alteration? with
  | none => simp [addedKeys, Reading.alters, hread, Table.withKeys_nil]
  | some a =>
    refine List.map_congr_left fun entry _ => ?_
    obtain ⟨key, table⟩ := entry
    by_cases hkey : key = lowerName a.table
    · simp [addedKeys, Reading.alters, hread, ← hkey, Table.withKeys]
    · simp [addedKeys, Reading.alters, hread, hkey, Ne.symm hkey, Table.withKeys_nil]

/-- Each table gets the foreign keys that are added under its key. -/
theorem foldl_afterAlteration_eq_map (readings : List Reading) (r : Register) :
    readings.foldl afterAlteration r =
      r.map fun entry => (entry.1, entry.2.withKeys (addedKeys entry.1 readings)) := by
  induction readings generalizing r with
  | nil => simp [addedKeys, Table.withKeys_nil]
  | cons reading rest ih =>
    rw [List.foldl_cons, ih, afterAlteration_eq_map, List.map_map]
    refine List.map_congr_left fun entry _ => ?_
    rw [Function.comp_apply, Table.withKeys_withKeys, addedKeys_cons _ reading rest]

/-- **Tables of different names** are registered in the order of their declarations, with the foreign keys that are
added to them. -/
theorem ofReadings_eq_map {readings : List Reading}
    (h : ((readings.filterMap Reading.table?).map (lowerName ·.name)).Nodup) :
    ofReadings readings = (readings.filterMap Reading.table?).map fun t =>
      (lowerName t.name, t.withKeys (addedKeys (lowerName t.name) readings)) := by
  have hdeclared : declared readings
      = (readings.filterMap Reading.table?).map fun t => (lowerName t.name, t) :=
    @foldl_afterCreation_eq_append readings [] h
  rw [ofReadings, foldl_afterAlteration_eq_map, hdeclared, List.map_map]
  rfl

/-- The foreign keys under a key are those of the alterations of that name. -/
theorem addedKeys_eq_flatMap (key : String) (readings : List Reading) : addedKeys key readings =
    ((readings.filterMap Reading.alteration?).filter (lowerName ·.table == key)).flatMap (·.foreignKeys) := by
  induction readings with
  | nil => rfl
  | cons reading rest ih =>
    rw [addedKeys_cons, ih]
    cases hread : reading.alteration? with
    | none => simp [addedKeys, Reading.alters, hread]
    | some a =>
      rw [List.filterMap_cons_some hread, List.filter_cons]
      by_cases hkey : lowerName a.table = key
      · simp [addedKeys, Reading.alters, hread, hkey]
      · simp [addedKeys, Reading.alters, hread, hkey]

end Register

/-- Where all members but one have nothing, what is gathered is what that one has. -/
theorem flatMap_eq_of_nodup {α β κ : Type} {key : α → κ} {l : List α} (h : (l.map key).Nodup) {a : α} (ha : a ∈ l)
    {f : α → List β} (hf : ∀ b ∈ l, key b ≠ key a → f b = []) : l.flatMap f = f a := by
  obtain ⟨front, back, rfl⟩ := List.append_of_mem ha
  rw [List.map_append, List.map_cons, List.nodup_append, List.nodup_cons] at h
  obtain ⟨-, ⟨hback, -⟩, hfront⟩ := h
  have hleft : front.flatMap f = [] := List.flatMap_eq_nil_iff.2 fun b hb =>
    hf b (List.mem_append_left _ hb) (hfront _ (List.mem_map_of_mem hb) _ (List.mem_cons_self ..))
  have hright : back.flatMap f = [] := List.flatMap_eq_nil_iff.2 fun b hb =>
    hf b (by simp [hb]) fun heq => hback (heq ▸ List.mem_map_of_mem hb)
  rw [List.flatMap_append, List.flatMap_cons, hleft, hright, List.nil_append, List.append_nil]

namespace Export

namespace Step

/-- The table that a step creates, with the columns that are read. -/
def table? (columns : Entity → List Column) : Step → Option Table
  | create e => some ⟨e.table, columns e, [], []⟩
  | refer _ _ => none
  | index _ _ => none

/-- The alteration that a step makes. -/
def alteration? : Step → Option Alteration
  | create _ => none
  | refer e l => some ⟨e.table, [(l.keyStatement e.table).key]⟩
  | index _ _ => none

end Step
end Export

namespace Design

open Export

variable {d : Design}

/-- The entry of an entity in the register of its script. -/
def entry (d : Design) (columns : Entity → List Column) (e : Entity) : String × Table :=
  (lowerName e.table, ⟨e.table, columns e, (d.leads e).map fun l => (l.keyStatement e.table).key, []⟩)

/-- The tables that were written, in that order, with their foreign keys. -/
def register (d : Design) (columns : Entity → List Column) : Register := d.ordered.map (d.entry columns)

/-- **The register of a written script** has the tables that were written. -/
theorem ofReadings_steps {columns : Entity → List Column} {readings : List Reading}
    (htable : readings.filterMap Reading.table? = d.steps.filterMap (Step.table? columns))
    (halteration : readings.filterMap Reading.alteration? = d.steps.filterMap Step.alteration?)
    (hnodup : (d.ordered.map (lowerName ·.table)).Nodup) :
    Register.ofReadings readings = d.register columns := by
  have htables : readings.filterMap Reading.table? = d.ordered.map fun e => ⟨e.table, columns e, [], []⟩ := by
    rw [htable, steps, List.filterMap_flatMap, List.map_eq_flatMap]
    refine List.flatMap_congr fun e _ => ?_
    rw [filterMap_stepsOf]
    simp [Step.table?]
  have halterations : readings.filterMap Reading.alteration? =
      d.ordered.flatMap fun e => (d.leads e).map fun l => ⟨e.table, [(l.keyStatement e.table).key]⟩ := by
    rw [halteration, steps, List.filterMap_flatMap]
    refine List.flatMap_congr fun e _ => ?_
    rw [filterMap_stepsOf]
    simp [Step.alteration?]
  have hkeys : ∀ e ∈ d.ordered, Register.addedKeys (lowerName e.table) readings =
      (d.leads e).map fun l => (l.keyStatement e.table).key := by
    intro e he
    rw [Register.addedKeys_eq_flatMap, halterations, List.filter_flatMap, List.flatMap_assoc,
      flatMap_eq_of_nodup hnodup he]
    · rw [List.filter_eq_self.2, List.flatMap_map]
      · exact List.map_eq_flatMap.symm
      · refine List.forall_mem_map.2 fun l _ => ?_
        exact beq_self_eq_true _
    · intro b _ hne
      rw [List.filter_eq_nil_iff.2, List.flatMap_nil]
      refine List.forall_mem_map.2 fun l _ => ?_
      simpa using hne
  rw [Register.ofReadings_eq_map (by rwa [htables, List.map_map]), htables, List.map_map]
  refine List.map_congr_left fun e he => ?_
  rw [Function.comp_apply, entry, hkeys e he]
  rfl

end Design
end SchemaSketch
