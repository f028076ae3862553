import Mathlib
import SchemaSketch.Table.Register

/-!
# The register as a map

What a register holds is told key by key.

* **Keys.** No key stands twice, and every table stands under its own name in small letters
  (`Register.Keyed`). Each step of a script keeps this, so the register of every script has it
  (`keyed_ofReadings`).
* **Different names.** Tables of different names are all registered, in the order of their declarations
  (`names_ofReadings`).
* **Values.** Under a key stands the last table that was declared under it, with all the foreign keys
  that alterations add to it, in their order (`lookup_ofReadings`). Nothing else in a script matters
  for the key, and so nothing is said about how declarations of different tables are interleaved.
* **Order.** Two registers that hold the same under every key are permutations of each other
  (`perm_of_lookup_eq`).
-/

namespace SchemaSketch

open Text

/-- A table with more foreign keys. -/
def Table.withKeys (t : Table) (keys : List ForeignKey) : Table :=
  { t with foreignKeys := t.foreignKeys ++ keys }

theorem Table.withKeys_nil (t : Table) : t.withKeys [] = t := by simp [Table.withKeys]

theorem Table.withKeys_withKeys (t : Table) (a b : List ForeignKey) :
    (t.withKeys a).withKeys b = t.withKeys (a ++ b) := by
  simp [Table.withKeys, List.append_assoc]

/-- The table of a statement is read from the statement as a whole. -/
theorem Reading.readCreate_of_table? {statement : List Char} {t : Table}
    (h : (Reading.ofStatement statement).table? = some t) :
    (Table.readCreate statement).value = .ok t := by
  rw [Reading.ofStatement] at h
  split at h
  · cases h
  · cases h
  · cases hread : Table.readCreate statement with
    | mk value notes =>
      rw [hread] at h
      cases value with
      | error fault => cases h
      | ok found =>
        cases h
        rfl
  · cases h

/-- Whether a reading declares a table under a key. -/
def Reading.declares (key : String) (reading : Reading) : Bool :=
  reading.table?.any (lowerName ·.name == key)

/-- Whether a reading adds foreign keys to the table under a key. -/
def Reading.alters (key : String) (reading : Reading) : Bool :=
  reading.alteration?.any (lowerName ·.table == key)

namespace Register

/-! ## Keys -/

/-- No key stands twice, and a table's key is its name in small letters. -/
structure Keyed (r : Register) : Prop where
  /-- the keys are pairwise distinct -/
  nodup : (keys r).Nodup
  /-- a key is the name of its table -/
  key_eq : ∀ entry ∈ r, entry.1 = lowerName entry.2.name

theorem keyed_nil : Keyed [] := ⟨List.nodup_nil, fun _ h => absurd h List.not_mem_nil⟩

/-- An entry after a table is put in is that table's or was there before. -/
theorem mem_put {key : String} {table : Table} {r : Register} {entry : String × Table}
    (h : entry ∈ put key table r) : entry = (key, table) ∨ entry ∈ r := by
  induction r with
  | nil => exact .inl (List.mem_singleton.1 h)
  | cons head rest ih =>
    obtain ⟨k, t⟩ := head
    rw [put] at h
    by_cases hk : k = key
    · rw [if_pos (by simpa using hk)] at h
      rcases List.mem_cons.1 h with rfl | h
      · exact .inl (by rw [hk])
      · exact .inr (List.mem_cons_of_mem _ h)
    · rw [if_neg (by simpa using hk)] at h
      rcases List.mem_cons.1 h with rfl | h
      · exact .inr (List.mem_cons_self ..)
      · rcases ih h with h | h
        · exact .inl h
        · exact .inr (List.mem_cons_of_mem _ h)

theorem Keyed.declare {r : Register} (hr : Keyed r) (table : Table) : Keyed (r.declare table) := by
  refine ⟨?_, ?_⟩
  · rw [Register.declare, keys_put]
    split
    · exact hr.nodup
    · next hnew =>
      refine List.nodup_append.2 ⟨hr.nodup, List.nodup_singleton _, ?_⟩
      rintro k hk _ hk' rfl
      exact hnew (List.mem_singleton.1 hk' ▸ hk)
  · intro entry h
    rcases mem_put h with rfl | h
    · rfl
    · exact hr.key_eq entry h

theorem Keyed.alter {r : Register} (hr : Keyed r) (a : Alteration) : Keyed (r.alter a) := by
  refine ⟨by rw [keys_alter]; exact hr.nodup, ?_⟩
  intro entry h
  obtain ⟨⟨k, t⟩, hmem, rfl⟩ := List.mem_map.1 h
  dsimp only
  split
  · exact hr.key_eq (k, t) hmem
  · exact hr.key_eq (k, t) hmem

theorem Keyed.afterCreation {r : Register} (hr : Keyed r) (reading : Reading) :
    Keyed (r.afterCreation reading) := by
  rw [Register.afterCreation]
  split
  · exact hr.declare _
  · exact hr

theorem Keyed.afterAlteration {r : Register} (hr : Keyed r) (reading : Reading) :
    Keyed (r.afterAlteration reading) := by
  rw [Register.afterAlteration]
  split
  · exact hr.alter _
  · exact hr

/-- What each declaration and each alteration of a script keeps, the whole script keeps. -/
theorem ofReadings_induction {motive : Register → Prop} {readings : List Reading} (nil : motive [])
    (creation : ∀ r, ∀ reading ∈ readings, motive r → motive (r.afterCreation reading))
    (alteration : ∀ r, ∀ reading ∈ readings, motive r → motive (r.afterAlteration reading)) :
    motive (ofReadings readings) := by
  have hdeclared : motive (declared readings) :=
    List.foldlRecOn readings afterCreation nil fun r hr reading hmem => creation r reading hmem hr
  exact List.foldlRecOn readings afterAlteration hdeclared fun r hr reading hmem =>
    alteration r reading hmem hr

/-- **The register of every script is keyed.** -/
theorem keyed_ofReadings (readings : List Reading) : Keyed (ofReadings readings) :=
  ofReadings_induction keyed_nil (fun _ reading _ hr => hr.afterCreation reading)
    fun _ reading _ hr => hr.afterAlteration reading

/-! ## Declarations of different tables -/

theorem put_of_not_mem {key : String} {r : Register} (h : key ∉ keys r) (table : Table) :
    put key table r = r ++ [(key, table)] := by
  induction r with
  | nil => rfl
  | cons head rest ih =>
    obtain ⟨k, t⟩ := head
    obtain ⟨hne, hrest⟩ : key ≠ k ∧ key ∉ keys rest := by simpa [keys] using h
    rw [put, if_neg (by simpa using hne.symm), ih hrest]
    rfl

/-- Tables of different names are registered in the order of their declarations. -/
theorem foldl_afterCreation_eq_append {readings : List Reading} {r : Register}
    (h : (keys r ++ (readings.filterMap Reading.table?).map (lowerName ·.name)).Nodup) :
    readings.foldl afterCreation r
      = r ++ (readings.filterMap Reading.table?).map fun t => (lowerName t.name, t) := by
  induction readings generalizing r with
  | nil => rw [List.foldl_nil, List.filterMap_nil, List.map_nil, List.append_nil]
  | cons reading rest ih =>
    rw [List.foldl_cons, afterCreation]
    cases hread : reading.table? with
    | none =>
      rw [List.filterMap_cons_none hread] at h ⊢
      exact ih h
    | some table =>
      rw [List.filterMap_cons_some hread, List.map_cons] at h
      rw [List.filterMap_cons_some hread, List.map_cons]
      have hnew : lowerName table.name ∉ keys r := fun hmem =>
        (List.nodup_append.1 h).2.2 _ hmem _ (List.mem_cons_self ..) rfl
      have hdeclare : r.declare table = r ++ [(lowerName table.name, table)] := put_of_not_mem hnew table
      have hkeys : keys (r.declare table) = keys r ++ [lowerName table.name] := by
        rw [hdeclare, keys, List.map_append]
        rfl
      dsimp only
      rw [ih (by rw [hkeys, List.append_assoc]; exact h), hdeclare, List.append_assoc]
      rfl

theorem names_afterAlteration (r : Register) (reading : Reading) :
    (r.afterAlteration reading).map (·.2.name) = r.map (·.2.name) := by
  rw [afterAlteration]
  split
  · rw [alter, List.map_map]
    refine List.map_congr_left fun entry _ => ?_
    obtain ⟨key, table⟩ := entry
    dsimp only [Function.comp]
    split <;> rfl
  · rfl

theorem names_foldl_afterAlteration (readings : List Reading) (r : Register) :
    (readings.foldl afterAlteration r).map (·.2.name) = r.map (·.2.name) := by
  induction readings generalizing r with
  | nil => rfl
  | cons reading rest ih => rw [List.foldl_cons, ih, names_afterAlteration]

/-- A script that declares tables of different names registers each of them. -/
theorem names_ofReadings {readings : List Reading}
    (h : ((readings.filterMap Reading.table?).map (lowerName ·.name)).Nodup) :
    (ofReadings readings).map (·.2.name) = (readings.filterMap Reading.table?).map (·.name) := by
  have hdeclared : declared readings
      = (readings.filterMap Reading.table?).map fun t => (lowerName t.name, t) :=
    @foldl_afterCreation_eq_append readings [] h
  rw [ofReadings, names_foldl_afterAlteration, hdeclared, List.map_map]
  rfl

/-! ## Values -/

theorem lookup_cons (k' : String) (t : Table) (rest : Register) (k : String) :
    List.lookup k ((k', t) :: rest) = if k = k' then some t else rest.lookup k := by
  rw [List.lookup_cons]
  by_cases hk : k = k'
  · rw [if_pos hk, beq_iff_eq.2 hk]
  · rw [if_neg hk, beq_eq_false_iff_ne.2 hk]

theorem lookup_put (key : String) (table : Table) (r : Register) (k : String) :
    (put key table r).lookup k = if k = key then some table else r.lookup k := by
  induction r with
  | nil => exact lookup_cons key table [] k
  | cons head rest ih =>
    obtain ⟨k', t⟩ := head
    rw [put]
    by_cases hk' : k' = key
    · subst hk'
      rw [if_pos (by simp), lookup_cons, lookup_cons]
      by_cases hk : k = k' <;> simp [hk]
    · rw [if_neg (by simpa using hk'), lookup_cons, lookup_cons, ih]
      by_cases hk : k = k'
      · subst hk
        simp [hk']
      · simp [hk]

theorem lookup_alter (r : Register) (a : Alteration) (k : String) :
    (r.alter a).lookup k =
      (r.lookup k).map fun t => if k = lowerName a.table then t.withKeys a.foreignKeys else t := by
  induction r with
  | nil => rfl
  | cons head rest ih =>
    obtain ⟨k', t⟩ := head
    have hcons : alter ((k', t) :: rest) a
        = (k', if k' = lowerName a.table then t.withKeys a.foreignKeys else t) :: alter rest a := by
      simp only [alter, List.map_cons, beq_iff_eq]
      split <;> rfl
    rw [hcons, lookup_cons, lookup_cons, ih]
    by_cases hk : k = k'
    · subst hk
      simp
    · simp [hk]

/-- The tables that readings declare under a key, in order. -/
def tablesOf (key : String) (readings : List Reading) : List Table :=
  (readings.filter (·.declares key)).filterMap (·.table?)

/-- The foreign keys that readings add to the table under a key, in order. -/
def addedKeys (key : String) (readings : List Reading) : List ForeignKey :=
  (readings.filter (·.alters key)).flatMap fun reading =>
    (reading.alteration?.map (·.foreignKeys)).getD []

theorem lookup_afterCreation (r : Register) (reading : Reading) (k : String) :
    (r.afterCreation reading).lookup k =
      if reading.declares k then reading.table? else r.lookup k := by
  rw [afterCreation]
  cases hread : reading.table? with
  | none => simp [Reading.declares, hread]
  | some table =>
    simp only [declare, lookup_put, Reading.declares, hread, Option.any_some, beq_iff_eq]
    by_cases hk : k = lowerName table.name
    · rw [if_pos hk, if_pos hk.symm]
    · rw [if_neg hk, if_neg (Ne.symm hk)]

theorem lookup_afterAlteration (r : Register) (reading : Reading) (k : String) :
    (r.afterAlteration reading).lookup k = (r.lookup k).map (·.withKeys (addedKeys k [reading])) := by
  rw [afterAlteration]
  cases hread : reading.alteration? with
  | none => simp [addedKeys, Reading.alters, hread, Table.withKeys_nil]
  | some a =>
    rw [lookup_alter]
    congr 1
    funext t
    by_cases hk : k = lowerName a.table
    · simp [addedKeys, Reading.alters, hread, ← hk]
    · simp [addedKeys, Reading.alters, hread, hk, Ne.symm hk, Table.withKeys_nil]

theorem lookup_foldl_afterCreation (readings : List Reading) (r : Register) (k : String) :
    (readings.foldl afterCreation r).lookup k = ((tablesOf k readings).getLast?).or (r.lookup k) := by
  induction readings generalizing r with
  | nil => simp [tablesOf]
  | cons reading rest ih =>
    rw [List.foldl_cons, ih, lookup_afterCreation]
    by_cases hk : reading.declares k
    · obtain ⟨table, htable⟩ : ∃ table, reading.table? = some table := by
        obtain ⟨table, htable, -⟩ := (Option.any_eq_true _ _).1 hk
        exact ⟨table, htable⟩
      simp only [tablesOf, List.filter_cons, hk, if_true, List.filterMap_cons, htable]
      rw [List.getLast?_cons]
      cases ((rest.filter (·.declares k)).filterMap (·.table?)).getLast? <;> rfl
    · simp [tablesOf, hk]

theorem lookup_foldl_afterAlteration (readings : List Reading) (r : Register) (k : String) :
    (readings.foldl afterAlteration r).lookup k =
      (r.lookup k).map (·.withKeys (addedKeys k readings)) := by
  induction readings generalizing r with
  | nil => simp [addedKeys, Table.withKeys_nil]
  | cons reading rest ih =>
    have happend : addedKeys k (reading :: rest) = addedKeys k [reading] ++ addedKeys k rest := by
      rw [addedKeys, ← List.singleton_append, List.filter_append, List.flatMap_append]
      rfl
    rw [List.foldl_cons, ih, lookup_afterAlteration, Option.map_map, happend]
    congr 1
    funext t
    exact Table.withKeys_withKeys t _ _

/-- **What stands under a key**: the last table declared under it, with all the foreign keys added to
it. -/
theorem lookup_ofReadings (readings : List Reading) (k : String) :
    (ofReadings readings).lookup k =
      (tablesOf k readings).getLast?.map (·.withKeys (addedKeys k readings)) := by
  rw [ofReadings, lookup_foldl_afterAlteration, declared, lookup_foldl_afterCreation]
  simp

/-! ## Order -/

/-- An entry is what its key holds, if no key stands twice. -/
theorem mem_iff_lookup_eq_some {r : Register} (hr : (keys r).Nodup) {k : String} {t : Table} :
    (k, t) ∈ r ↔ r.lookup k = some t := by
  induction r with
  | nil => simp
  | cons head rest ih =>
    obtain ⟨k', t'⟩ := head
    obtain ⟨hnew, hrest⟩ := List.nodup_cons.1 hr
    rw [lookup_cons, List.mem_cons, ih hrest]
    by_cases hk : k = k'
    · subst hk
      have habsent : rest.lookup k ≠ some t := fun h =>
        hnew (List.mem_map.2 ⟨(k, t), (ih hrest).2 h, rfl⟩)
      simp [habsent, eq_comm]
    · simp [hk]

/-- **Registers that hold the same are permutations of each other.** -/
theorem perm_of_lookup_eq {r s : Register} (hr : (keys r).Nodup) (hs : (keys s).Nodup)
    (h : ∀ k, r.lookup k = s.lookup k) : r.Perm s := by
  have hr' : r.Nodup := List.Nodup.of_map _ hr
  have hs' : s.Nodup := List.Nodup.of_map _ hs
  refine (List.perm_ext_iff_of_nodup hr' hs').2 ?_
  rintro ⟨k, t⟩
  rw [mem_iff_lookup_eq_some hr, mem_iff_lookup_eq_some hs, h]

end Register
end SchemaSketch
