import Mathlib
import SchemaSketch.Design.Assembly

/-!
# The names and places of entities

An entity gets a name, an identifier and a place on the canvas, one entity after the other.

* **Names.** `Design.freeName` avoids every name in use: if all the numbers it tried were taken, the
  list of names in use would be longer than it is (`freeName_not_mem`). So the names given one after
  the other are pairwise distinct (`nodup_entityNames`), and those of entities are (`names_entitiesFrom`).
* **Identifiers** count the entities from one.
* **Places** are read off the number of the entity: three to a row (`Place.ofIndex`). That `Place.next`
  keeps step with the number is `next_ofIndex`.
-/

namespace SchemaSketch

namespace Design

/-! ## Numbered texts -/

/-- A stem with a number says which number. -/
theorem numbered_injective (stem : String) {m n : Nat} (h : stem ++ toString m = stem ++ toString n) :
    m = n :=
  Nat.repr_injective ((String.append_right_inj stem).1 h)

theorem entityId_injective {m n : Nat} (h : entityId m = entityId n) : m = n := by
  have := numbered_injective "entity-" h
  omega

/-! ## Free names -/

/-- If the number that `freeSuffix` settles for is taken after all, so were all before it. -/
theorem numbered_mem_of_freeSuffix_mem {base : String} {used : List String} {k rounds : Nat}
    (h : freeSuffix base used k rounds ∈ used) :
    ∀ i ≤ rounds, base ++ toString (k + i) ∈ used := by
  induction rounds generalizing k with
  | zero =>
    intro i hi
    obtain rfl : i = 0 := by omega
    exact h
  | succ rounds ih =>
    rw [freeSuffix] at h
    by_cases hk : base ++ toString k ∈ used
    · rw [if_pos (by simpa using hk)] at h
      intro i hi
      rcases i with _ | i
      · exact hk
      · have := ih h i (by omega)
        rwa [show k + (i + 1) = k + 1 + i by omega]
    · rw [if_neg (by simpa using hk)] at h
      exact absurd h hk

/-- **A free name is free.** The numbers tried, one more than there are names in use, cannot all be
taken. -/
theorem freeName_not_mem (base : String) (used : List String) : freeName base used ∉ used := by
  rw [freeName]
  split
  · intro h
    have htaken := numbered_mem_of_freeSuffix_mem h
    let tried := (List.range (used.length + 1)).map fun i => base ++ toString (2 + i)
    have hnodup : tried.Nodup := by
      apply List.Nodup.map _ List.nodup_range
      intro i j hij
      have := numbered_injective base hij
      omega
    have hsubset : tried ⊆ used := by
      intro name hname
      obtain ⟨i, hi, rfl⟩ := List.mem_map.1 hname
      exact htaken i (by have := List.mem_range.1 hi; omega)
    have hlength := (hnodup.subperm hsubset).length_le
    simp only [tried, List.length_map, List.length_range] at hlength
    omega
  · next h => simpa using h

theorem freeSuffix_ne_empty {base : String} (hbase : base ≠ "") (used : List String) (k rounds : Nat) :
    freeSuffix base used k rounds ≠ "" := by
  induction rounds generalizing k with
  | zero =>
    intro h
    exact hbase (String.append_eq_empty_iff.1 h).1
  | succ rounds ih =>
    rw [freeSuffix]
    split
    · exact ih (k + 1)
    · intro h
      exact hbase (String.append_eq_empty_iff.1 h).1

theorem freeName_ne_empty {base : String} (hbase : base ≠ "") (used : List String) :
    freeName base used ≠ "" := by
  rw [freeName]
  split
  · exact freeSuffix_ne_empty hbase used 2 used.length
  · exact hbase

theorem nonEmpty_ne_empty (a : String) {b : String} (hb : b ≠ "") : nonEmpty a b ≠ "" := by
  rw [nonEmpty]
  split
  · exact hb
  · next ha => exact fun h => ha (String.isEmpty_iff.2 h)

/-- Every table has a name for its entity, whatever its own name is. -/
theorem entityName_ne_empty (table : String) (used : List String) : entityName table used ≠ "" :=
  freeName_ne_empty (nonEmpty_ne_empty _ (nonEmpty_ne_empty _ (by decide))) used

/-- No name is given that is in use, and none twice. -/
theorem nodup_entityNames (used tables : List String) :
    (entityNames used tables).Nodup ∧ ∀ name ∈ entityNames used tables, name ∉ used := by
  induction tables generalizing used with
  | nil => exact ⟨List.nodup_nil, nofun⟩
  | cons table rest ih =>
    obtain ⟨hnodup, hfree⟩ := ih (entityName table used :: used)
    have hname : entityName table used ∉ used := freeName_not_mem _ _
    refine ⟨List.nodup_cons.2 ⟨fun hmem => hfree _ hmem (List.mem_cons_self ..), hnodup⟩, ?_⟩
    exact List.forall_mem_cons.2 ⟨hname, fun name hmem hused => hfree name hmem (List.mem_cons_of_mem _ hused)⟩

/-! ## One entity after the other -/

section
variable (base : BaseColumns)

theorem length_entitiesFrom (index : Nat) (used : List String) (place : Place) (tables : List Table) :
    (entitiesFrom base index used place tables).length = tables.length := by
  induction tables generalizing index used place with
  | nil => rfl
  | cons table rest ih => simp [entitiesFrom, ih]

/-- What an entity takes from its own table alone. -/
theorem contents_entitiesFrom (index : Nat) (used : List String) (place : Place) (tables : List Table) :
    (entitiesFrom base index used place tables).map (fun e => (e.tableName, e.fields))
      = tables.map fun t => (t.name, fields base [] t.columns) := by
  induction tables generalizing index used place with
  | nil => rfl
  | cons table rest ih => simp [entitiesFrom, ih]

theorem contents_entitiesOf (r : Register) :
    (entitiesOf base r).map (fun e => (e.tableName, e.fields))
      = r.map fun entry => (entry.2.name, fields base [] entry.2.columns) := by
  rw [entitiesOf, contents_entitiesFrom, List.map_map]
  rfl

/-- The entities of a register are those of its tables, in order. -/
theorem tableNames_entitiesOf (r : Register) :
    (entitiesOf base r).map (·.tableName) = r.map (·.2.name) := by
  have h := congrArg (List.map Prod.fst) (contents_entitiesOf base r)
  rwa [List.map_map, List.map_map] at h

/-- Identifiers count on from the index. -/
theorem ids_entitiesFrom (index : Nat) (used : List String) (place : Place) (tables : List Table) :
    (entitiesFrom base index used place tables).map (·.id)
      = (List.range' index tables.length).map entityId := by
  induction tables generalizing index used place with
  | nil => rfl
  | cons table rest ih => simp [entitiesFrom, ih, List.range'_succ]

/-- The names of the entities are those given to their tables, one after the other. -/
theorem names_eq_entityNames (index : Nat) (used : List String) (place : Place) (tables : List Table) :
    (entitiesFrom base index used place tables).map (·.name) = entityNames used (tables.map (·.name)) := by
  induction tables generalizing index used place with
  | nil => rfl
  | cons table rest ih => exact congrArg (entityName table.name used :: ·) (ih (index + 1) _ place.next)

/-- No entity gets a name in use, and no two get the same. -/
theorem names_entitiesFrom (index : Nat) (used : List String) (place : Place) (tables : List Table) :
    (∀ e ∈ entitiesFrom base index used place tables, e.name ∉ used) ∧
      ((entitiesFrom base index used place tables).map (·.name)).Nodup := by
  have hnames := names_eq_entityNames base index used place tables
  obtain ⟨hnodup, hfree⟩ := nodup_entityNames used (tables.map (·.name))
  rw [← hnames] at hnodup hfree
  exact ⟨fun e he => hfree e.name (List.mem_map_of_mem he), hnodup⟩

theorem name_ne_empty_of_mem_entitiesFrom {index : Nat} {used : List String} {place : Place}
    {tables : List Table} {e : Entity} (he : e ∈ entitiesFrom base index used place tables) :
    e.name ≠ "" := by
  induction tables generalizing index used place with
  | nil => exact absurd he List.not_mem_nil
  | cons table rest ih =>
    rcases List.mem_cons.1 he with rfl | he
    · exact entityName_ne_empty _ _
    · exact ih he

end

end Design

/-! ## Places -/

namespace Place

/-- The place of an entity by its number, counted from zero: three to a row. -/
def ofIndex (i : Nat) : Place := ⟨100 + 300 * (i % 3), 100 + 250 * (i / 3)⟩

/-- The next place is that of the next number: a row is full after the third. -/
theorem next_ofIndex (i : Nat) : (ofIndex i).next = ofIndex (i + 1) := by
  have hrow : i % 3 = 2 ∧ (i + 1) % 3 = 0 ∧ (i + 1) / 3 = i / 3 + 1 ∨
      i % 3 < 2 ∧ (i + 1) % 3 = i % 3 + 1 ∧ (i + 1) / 3 = i / 3 := by omega
  have hx : (ofIndex i).x + stepX = 400 + 300 * (i % 3) := by
    change 100 + 300 * (i % 3) + 300 = _
    omega
  have hmax : maxX = 900 := rfl
  rw [next, hx]
  rcases hrow with ⟨hlast, hcolumn, hline⟩ | ⟨hmore, hcolumn, hline⟩
  · rw [if_pos (by omega)]
    simp only [ofIndex, hcolumn, hline, origin, stepY, Nat.mul_add, Nat.add_assoc]
  · rw [if_neg (by omega)]
    simp only [ofIndex, hcolumn, hline, Place.mk.injEq]
    exact ⟨by omega, trivial⟩

theorem ofIndex_injective {i j : Nat} (h : ofIndex i = ofIndex j) : i = j := by
  simp only [ofIndex, Place.mk.injEq] at h
  omega

end Place

/-- Places count on from the index. -/
theorem Design.places_entitiesFrom (base : BaseColumns) (index : Nat) (used : List String)
    (tables : List Table) :
    (entitiesFrom base index used (.ofIndex index) tables).map (·.place)
      = (List.range' index tables.length).map Place.ofIndex := by
  induction tables generalizing index used with
  | nil => rfl
  | cons table rest ih =>
    simp [entitiesFrom, List.range'_succ, Place.next_ofIndex, ih]

end SchemaSketch
