import Mathlib
import SchemaSketch.Proofs.Design.Names
import SchemaSketch.Proofs.Register

/-!
# Relations by the names of their tables

Inside a design a relation joins two identifiers, and these count places in the register. Seen from
outside a relation joins two tables: a `TableRelation` names them. The two views agree:

* `Register.tableRelations` reads them off a register, table by table, asking only what stands under a
  name;
* `tableRelations_ofRegister` says that these are the relations of the design of the register.

Both views drop what repeats an earlier foreign key. `firstBy` is that dropping, for any key; it keeps
keys distinct (`nodup_firstBy`), and it does not notice how keys are spelled as long as the same ones
stay the same (`firstBy_map`).
-/

namespace SchemaSketch

open Text

/-! ## The first of each key -/

section
variable {α β κ ι : Type} [DecidableEq κ] [DecidableEq ι]

/-- The members of a list whose key was not seen before. -/
def firstBy (key : α → κ) (seen : List κ) : List α → List α
  | [] => []
  | a :: rest =>
    if key a ∈ seen then firstBy key seen rest else a :: firstBy key (key a :: seen) rest

theorem firstBy_sublist (key : α → κ) (seen : List κ) (l : List α) : (firstBy key seen l).Sublist l := by
  induction l generalizing seen with
  | nil => exact List.Sublist.refl _
  | cons a rest ih =>
    rw [firstBy]
    split
    · exact (ih seen).cons a
    · exact (ih (key a :: seen)).cons_cons a

/-- The keys that are kept are new and pairwise distinct. -/
theorem nodup_firstBy (key : α → κ) (seen : List κ) (l : List α) :
    (∀ a ∈ firstBy key seen l, key a ∉ seen) ∧ ((firstBy key seen l).map key).Nodup := by
  induction l generalizing seen with
  | nil => exact ⟨fun a ha => absurd ha List.not_mem_nil, List.nodup_nil⟩
  | cons a rest ih =>
    rw [firstBy]
    split
    · exact ih seen
    · next hnew =>
      obtain ⟨hfresh, hnodup⟩ := ih (key a :: seen)
      refine ⟨?_, List.nodup_cons.2 ⟨?_, hnodup⟩⟩
      · intro b hb
        rcases List.mem_cons.1 hb with rfl | hb
        · exact hnew
        · exact fun hseen => hfresh b hb (List.mem_cons_of_mem _ hseen)
      · intro hmem
        obtain ⟨b, hb, heq⟩ := List.mem_map.1 hmem
        exact hfresh b hb (heq ▸ List.mem_cons_self ..)

/-- Keys may be exchanged for others that tell the same members apart. -/
theorem firstBy_map (key : α → κ) (key' : β → ι) (f : α → β) {l : List α} {seen : List κ}
    {seen' : List ι} (hkey : ∀ a ∈ l, ∀ b ∈ l, key' (f a) = key' (f b) ↔ key a = key b)
    (hseen : ∀ a ∈ l, key' (f a) ∈ seen' ↔ key a ∈ seen) :
    (firstBy key seen l).map f = firstBy key' seen' (l.map f) := by
  induction l generalizing seen seen' with
  | nil => rfl
  | cons a rest ih =>
    have hrest : ∀ b ∈ rest, ∀ c ∈ rest, key' (f b) = key' (f c) ↔ key b = key c :=
      fun b hb c hc => hkey b (List.mem_cons_of_mem _ hb) c (List.mem_cons_of_mem _ hc)
    rw [List.map_cons, firstBy, firstBy]
    by_cases ha : key a ∈ seen
    · rw [if_pos ha, if_pos ((hseen a (List.mem_cons_self ..)).2 ha)]
      exact ih hrest fun b hb => hseen b (List.mem_cons_of_mem _ hb)
    · rw [if_neg ha, if_neg (fun h => ha ((hseen a (List.mem_cons_self ..)).1 h)), List.map_cons]
      congr 1
      apply ih hrest
      intro b hb
      rw [List.mem_cons, List.mem_cons, hseen b (List.mem_cons_of_mem _ hb),
        hkey b (List.mem_cons_of_mem _ hb) a (List.mem_cons_self ..)]

/-- What was seen of keys that do not occur makes no difference. -/
theorem firstBy_append_seen (key : α → κ) (seen others : List κ) {l : List α}
    (h : ∀ a ∈ l, key a ∉ others) : firstBy key (seen ++ others) l = firstBy key seen l := by
  induction l generalizing seen with
  | nil => rfl
  | cons a rest ih =>
    have ha : key a ∉ others := h a (List.mem_cons_self ..)
    have hrest : ∀ b ∈ rest, key b ∉ others := fun b hb => h b (List.mem_cons_of_mem _ hb)
    have hmem : key a ∈ seen ++ others ↔ key a ∈ seen := by simp [ha]
    rw [firstBy, firstBy, ih seen hrest]
    by_cases hseen : key a ∈ seen
    · rw [if_pos hseen, if_pos (hmem.2 hseen)]
    · rw [if_neg hseen, if_neg (fun h => hseen (hmem.1 h)), ← List.cons_append, ih _ hrest]

/-- Two lists without a common key are looked at one after the other. -/
theorem firstBy_append (key : α → κ) (seen : List κ) {a b : List α}
    (hseen : ∀ y ∈ b, key y ∉ seen) (h : ∀ x ∈ a, ∀ y ∈ b, key x ≠ key y) :
    firstBy key seen (a ++ b) = firstBy key seen a ++ firstBy key [] b := by
  induction a generalizing seen with
  | nil => exact firstBy_append_seen key [] seen hseen
  | cons x rest ih =>
    have hrest : ∀ z ∈ rest, ∀ y ∈ b, key z ≠ key y := fun z hz => h z (List.mem_cons_of_mem _ hz)
    rw [List.cons_append, firstBy, firstBy]
    split
    · exact ih seen hseen hrest
    · rw [List.cons_append, ih (key x :: seen) ?_ hrest]
      intro y hy hmem
      rcases List.mem_cons.1 hmem with heq | hmem
      · exact h x (List.mem_cons_self ..) y hy heq.symm
      · exact hseen y hy hmem

/-- A list of lists without common keys is looked at list by list. -/
theorem firstBy_flatMap (key : α → κ) (g : β → List α) {l : List β}
    (h : l.Pairwise fun b c => ∀ x ∈ g b, ∀ y ∈ g c, key x ≠ key y) :
    firstBy key [] (l.flatMap g) = l.flatMap fun b => firstBy key [] (g b) := by
  induction l with
  | nil => rfl
  | cons b rest ih =>
    obtain ⟨hb, hrest⟩ := List.pairwise_cons.1 h
    rw [List.flatMap_cons, List.flatMap_cons, ← ih hrest]
    apply firstBy_append
    · exact fun y _ => List.not_mem_nil
    · intro x hx y hy
      obtain ⟨c, hc, hyc⟩ := List.mem_flatMap.1 hy
      exact hb c hc x hx y hyc

/-- Each key that was not seen before is kept. -/
theorem exists_mem_firstBy (key : α → κ) {seen : List κ} {l : List α} {a : α} (ha : a ∈ l)
    (hseen : key a ∉ seen) : ∃ b ∈ firstBy key seen l, key b = key a := by
  induction l generalizing seen with
  | nil => exact absurd ha List.not_mem_nil
  | cons b rest ih =>
    rw [firstBy]
    by_cases hb : key b ∈ seen
    · rw [if_pos hb]
      refine ih ((List.mem_cons.1 ha).resolve_left ?_) hseen
      rintro rfl
      exact hseen hb
    · rw [if_neg hb]
      by_cases hab : key a = key b
      · exact ⟨b, List.mem_cons_self .., hab.symm⟩
      · have harest : a ∈ rest := (List.mem_cons.1 ha).resolve_left fun h => hab (h ▸ rfl)
        have hnew : key a ∉ key b :: seen := by simp [hab, hseen]
        obtain ⟨c, hc, hkey⟩ := ih harest hnew
        exact ⟨c, List.mem_cons_of_mem _ hc, hkey⟩

/-- What is kept is the first member of its key. -/
theorem find?_of_mem_firstBy (key : α → κ) {seen : List κ} {l : List α} {a : α}
    (ha : a ∈ firstBy key seen l) : l.find? (key · = key a) = some a := by
  induction l generalizing seen with
  | nil => exact absurd ha List.not_mem_nil
  | cons b rest ih =>
    have hnew := (nodup_firstBy key seen (b :: rest)).1 a ha
    rw [firstBy] at ha
    by_cases hb : key b ∈ seen
    · rw [if_pos hb] at ha
      have hne : key b ≠ key a := fun h => hnew (h ▸ hb)
      rw [List.find?_cons_of_neg (by simpa using hne)]
      exact ih ha
    · rw [if_neg hb] at ha
      rcases List.mem_cons.1 ha with rfl | ha
      · exact List.find?_cons_of_pos (by simp)
      · have hne : key b ≠ key a := fun h =>
          (nodup_firstBy key (key b :: seen) rest).1 a ha (h ▸ List.mem_cons_self ..)
        rw [List.find?_cons_of_neg (by simpa using hne)]
        exact ih ha

/-- What is kept stands in the order in which its keys come up first. -/
theorem pairwise_firstBy_filterMap (key : α → κ) (f : β → Option α) (seen : List κ) (l : List β) :
    (firstBy key seen (l.filterMap f)).Pairwise fun a b =>
      l.findIdx (fun x => (f x).any (key · = key a))
        < l.findIdx fun x => (f x).any (key · = key b) := by
  induction l generalizing seen with
  | nil => exact List.Pairwise.nil
  | cons x rest ih =>
    -- a member whose key does not come up at the head is looked for in the rest
    have hshift : ∀ a, (f x).any (key · = key a) = false →
        (x :: rest).findIdx (fun y => (f y).any (key · = key a))
          = rest.findIdx (fun y => (f y).any (key · = key a)) + 1 := fun a ha => by
      rw [List.findIdx_cons, ha]
      rfl
    have hrest : ∀ seen',
        (∀ a ∈ firstBy key seen' (rest.filterMap f), (f x).any (key · = key a) = false) →
        (firstBy key seen' (rest.filterMap f)).Pairwise fun a b =>
          (x :: rest).findIdx (fun x => (f x).any (key · = key a))
            < (x :: rest).findIdx fun x => (f x).any (key · = key b) := by
      intro seen' hne
      refine (ih seen').imp_of_mem fun {a b} ha hb hlt => ?_
      rw [hshift a (hne a ha), hshift b (hne b hb)]
      exact Nat.succ_lt_succ hlt
    cases hx : f x with
    | none =>
      rw [List.filterMap_cons_none hx]
      exact hrest seen fun a _ => by rw [hx]; rfl
    | some c =>
      have hnew : ∀ seen', key c ∈ seen' → ∀ a ∈ firstBy key seen' (rest.filterMap f),
          (f x).any (key · = key a) = false := by
        intro seen' hc a ha
        rw [hx, Option.any_some, decide_eq_false_iff_not]
        exact fun h => (nodup_firstBy key seen' _).1 a ha (h ▸ hc)
      rw [List.filterMap_cons_some hx, firstBy]
      split
      · next hc => exact hrest seen (hnew seen hc)
      · have hhead := hnew (key c :: seen) (List.mem_cons_self ..)
        refine List.pairwise_cons.2 ⟨fun b hb => ?_, hrest _ hhead⟩
        rw [hshift b (hhead b hb), List.findIdx_cons, hx, Option.any_some, decide_eq_true rfl]
        exact Nat.succ_pos _

end

/-! ## Links -/

namespace Design

/-- What tells two links apart. -/
def Link.key (l : Link) : Nat × Nat × String := (l.source, l.target, lowerName l.column)

theorem Link.same_iff {a b : Link} : a.same b = true ↔ a.key = b.key := by
  simp [Link.same, Link.key, sameName, and_assoc]

theorem firstLinks_eq_firstBy (seen ls : List Link) :
    firstLinks seen ls = firstBy Link.key (seen.map Link.key) ls := by
  induction ls generalizing seen with
  | nil => rfl
  | cons l rest ih =>
    have hmem : seen.any (·.same l) = true ↔ l.key ∈ seen.map Link.key := by
      simp only [List.any_eq_true, List.mem_map, Link.same_iff]
    rw [firstLinks, firstBy, ih, ih, List.map_cons]
    by_cases h : l.key ∈ seen.map Link.key
    · rw [if_pos h, if_pos (hmem.2 h)]
    · rw [if_neg h, if_neg (fun h' => h (hmem.1 h'))]

theorem firstLinks_sublist (seen ls : List Link) : (firstLinks seen ls).Sublist ls := by
  rw [firstLinks_eq_firstBy]
  exact firstBy_sublist _ _ _

/-- A link joins places of the register. -/
theorem bounds_of_mem_linksFrom {r : Register} {source : Nat} {tables : List Table} {l : Link}
    (h : l ∈ linksFrom r source tables) :
    l.source < source + tables.length ∧ l.target < r.length := by
  induction tables generalizing source with
  | nil => exact absurd h List.not_mem_nil
  | cons table rest ih =>
    rcases List.mem_append.1 h with h | h
    · obtain ⟨key, -, hlink⟩ := List.mem_filterMap.1 h
      unfold link? at hlink
      split at hlink
      · next target column more htarget hcolumns =>
        obtain rfl := Option.some.inj hlink
        exact ⟨by simp, (List.findIdx?_eq_some_iff_getElem.1 htarget).1⟩
      · exact absurd hlink (by simp)
    · obtain ⟨hsource, htarget⟩ := ih h
      exact ⟨by rw [List.length_cons]; omega, htarget⟩

end Design

/-! ## Relations of tables -/

/-- A relation with its ends named by their tables. -/
structure TableRelation where
  /-- the table that refers -/
  source : Option String
  /-- the table referred to -/
  target : Option String
  /-- the referring column -/
  columnName : String
  /-- the name of the referring field -/
  sourceField : String
  /-- whether the reference may be absent -/
  nullable : Bool
  /-- what a deletion brings about -/
  onDelete : Action
  /-- what a change brings about -/
  onUpdate : Action
  deriving DecidableEq, Repr

/-- What tells two such relations apart. -/
def TableRelation.key (x : TableRelation) : Option String × Option String × String :=
  (x.source.map lowerName, x.target.map lowerName, lowerName x.columnName)

namespace Design

/-- The table of the entity with an identifier. -/
def tableOf (d : Design) (id : String) : Option String :=
  (d.entities.find? (·.id == id)).map (·.tableName)

/-- A relation of a design by its tables. -/
def tableRelation (d : Design) (x : Relation) : TableRelation :=
  ⟨d.tableOf x.sourceId, d.tableOf x.targetId, x.columnName, x.sourceField, x.nullable, x.onDelete,
    x.onUpdate⟩

/-- The relations of a design by their tables, in order. -/
def tableRelations (d : Design) : List TableRelation := d.relations.map d.tableRelation

end Design

namespace Register

/-- The relation of a foreign key of a table, if it refers to a registered table and has a column. -/
def tableRelation? (r : Register) (table : Table) (key : ForeignKey) : Option TableRelation :=
  match r.table? key.refTable, key.columns with
  | some target, column :: _ => some {
      source := some table.name
      target := some target.name
      columnName := column
      sourceField := Naming.fieldName column
      nullable := ((table.column? column).map (·.nullable)).getD true
      onDelete := key.onDelete.getD .noAction
      onUpdate := key.onUpdate.getD .noAction }
  | _, _ => none

theorem source_of_mem_filterMap {r : Register} {table : Table} {x : TableRelation}
    (h : x ∈ table.foreignKeys.filterMap (r.tableRelation? table)) : x.source = some table.name := by
  obtain ⟨key, -, hkey⟩ := List.mem_filterMap.1 h
  unfold tableRelation? at hkey
  split at hkey
  · obtain rfl := Option.some.inj hkey
    rfl
  · exact absurd hkey (by simp)

/-- The relations of a table: of several with one key the first. -/
def tableRelationsOf (r : Register) (table : Table) : List TableRelation :=
  firstBy TableRelation.key [] (table.foreignKeys.filterMap (r.tableRelation? table))

/-- The relations of a register, table by table. -/
def tableRelations (r : Register) : List TableRelation :=
  r.flatMap fun entry => r.tableRelationsOf entry.2

end Register

/-! ## The two views agree -/

namespace Design

/-- Looking for the identifier of a place finds the entity in that place. -/
theorem find?_entitiesFrom (base : BaseColumns) (index i : Nat) (used : List String) (place : Place)
    (tables : List Table) :
    (entitiesFrom base index used place tables).find? (·.id == entityId (index + i))
      = (entitiesFrom base index used place tables)[i]? := by
  induction tables generalizing index i used place with
  | nil => rfl
  | cons table rest ih =>
    rw [entitiesFrom]
    rcases i with _ | i
    · simp
    · have hne : ¬ entityId index = entityId (index + (i + 1)) := fun h => by
        have := entityId_injective h
        omega
      rw [List.find?_cons_of_neg (by simpa using hne), List.getElem?_cons_succ,
        show index + (i + 1) = index + 1 + i by omega, ih]

/-- The identifier of a place belongs to the table in that place. -/
theorem tableOf_entityId (base : BaseColumns) (r : Register) (i : Nat) :
    (ofRegister base r).tableOf (entityId i) = r[i]?.map (·.2.name) := by
  have hfind := find?_entitiesFrom base 0 i [] Place.origin (r.map (·.2))
  rw [Nat.zero_add] at hfind
  rw [tableOf, ofRegister, entitiesOf, hfind, ← List.getElem?_map, ← List.getElem?_map]
  exact congrArg (·[i]?) (tableNames_entitiesOf base r)

/-- A link by its tables. -/
def linkRelation (r : Register) (l : Link) : TableRelation :=
  ⟨r[l.source]?.map (·.2.name), r[l.target]?.map (·.2.name), l.column, Naming.fieldName l.column,
    l.nullable, l.onDelete, l.onUpdate⟩

theorem tableRelation_relation (base : BaseColumns) (r : Register) (index : Nat) (l : Link) :
    (ofRegister base r).tableRelation (relation index l) = linkRelation r l := by
  simp only [tableRelation, relation, tableOf_entityId, linkRelation]

/-- The numbers of relations do not matter to their tables. -/
theorem tableRelations_eq_map (base : BaseColumns) (r : Register) :
    (ofRegister base r).tableRelations
      = (firstLinks [] (linksFrom r 0 (r.map (·.2)))).map (linkRelation r) := by
  have hrelations : (ofRegister base r).relations
      = (firstLinks [] (linksFrom r 0 (r.map (·.2)))).mapIdx relation := rfl
  rw [tableRelations, hrelations]
  apply List.ext_getElem?
  intro i
  simp only [List.getElem?_map, List.getElem?_mapIdx, Option.map_map, Function.comp_def,
    tableRelation_relation]

section
variable {r : Register}

/-- The place of a key holds what stands under it. -/
theorem getElem?_findIdx? {k : String} {i : Nat} (h : r.findIdx? (·.1 == k) = some i) :
    ∃ t, r[i]? = some (k, t) ∧ r.lookup k = some t := by
  induction r generalizing i with
  | nil => simp at h
  | cons head rest ih =>
    obtain ⟨k', t⟩ := head
    rw [List.findIdx?_cons] at h
    by_cases hk : k' = k
    · subst hk
      rw [if_pos (by simp)] at h
      obtain rfl := Option.some.inj h
      exact ⟨t, rfl, by simp⟩
    · rw [if_neg (by simpa using hk)] at h
      obtain ⟨j, hj, rfl⟩ := Option.map_eq_some_iff.1 h
      obtain ⟨t', helem, hlookup⟩ := ih hj
      refine ⟨t', helem, ?_⟩
      rw [Register.lookup_cons, if_neg (Ne.symm hk), hlookup]

theorem lookup_eq_none_of_findIdx? {k : String} (h : r.findIdx? (·.1 == k) = none) :
    r.lookup k = none := by
  rw [List.findIdx?_eq_none_iff] at h
  rw [List.lookup_eq_none_iff]
  intro p hp
  have hne : ¬ p.1 = k := by simpa using h p hp
  simpa using Ne.symm hne

theorem table?_eq_lookup (name : String) : r.table? name = r.lookup (lowerName name) := by
  induction r with
  | nil => rfl
  | cons head rest ih =>
    obtain ⟨k, t⟩ := head
    rw [Register.table?] at ih ⊢
    rw [Register.lookup_cons]
    by_cases hk : k = lowerName name
    · simp [hk]
    · rw [List.find?_cons_of_neg (by simpa using hk), ih, if_neg (Ne.symm hk)]

/-- The link of a foreign key, by its tables, is the relation of the foreign key. -/
theorem map_link? {source : Nat} {k : String} {t : Table} (h : r[source]? = some (k, t))
    (key : ForeignKey) : (link? r source t key).map (linkRelation r) = r.tableRelation? t key := by
  unfold link? Register.tableRelation?
  rw [table?_eq_lookup]
  cases hfind : r.findIdx? (·.1 == lowerName key.refTable) with
  | none => rw [lookup_eq_none_of_findIdx? hfind]; rfl
  | some target =>
    obtain ⟨t', htarget, hlookup⟩ := getElem?_findIdx? hfind
    rw [hlookup]
    cases hcolumns : key.columns with
    | nil => rfl
    | cons column more => simp [linkRelation, h, htarget]

/-- The links of the tables from a place on, by their tables. -/
theorem map_linksFrom (source : Nat) (entries : List (String × Table))
    (h : ∀ i, i < entries.length → r[source + i]? = entries[i]?) :
    (linksFrom r source (entries.map (·.2))).map (linkRelation r)
      = entries.flatMap fun entry => entry.2.foreignKeys.filterMap (r.tableRelation? entry.2) := by
  induction entries generalizing source with
  | nil => rfl
  | cons head rest ih =>
    obtain ⟨k, t⟩ := head
    have hhead : r[source]? = some (k, t) := h 0 (by simp)
    have hrest : ∀ i, i < rest.length → r[source + 1 + i]? = rest[i]? := by
      intro i hi
      rw [show source + 1 + i = source + (i + 1) by omega, h (i + 1) (by simpa using hi),
        List.getElem?_cons_succ]
    rw [List.map_cons, linksFrom, List.map_append, ih (source + 1) hrest, List.flatMap_cons,
      List.map_filterMap]
    congr 2
    funext key
    exact map_link? hhead key

/-- In a keyed register no two places hold tables of one name. -/
theorem lowerName_injective (hr : r.Keyed) {i j : Nat} (hi : i < r.length) (hj : j < r.length) :
    (r[i]?.map (·.2.name)).map lowerName = (r[j]?.map (·.2.name)).map lowerName ↔ i = j := by
  refine ⟨fun h => ?_, fun h => h ▸ rfl⟩
  simp only [List.getElem?_eq_getElem hi, List.getElem?_eq_getElem hj, Option.map_some,
    Option.some.injEq, ← hr.key_eq _ (List.getElem_mem _)] at h
  have hkeys : r.keys[i]? = r.keys[j]? := by
    simp [Register.keys, hi, hj, h]
  exact (List.getElem?_inj (by simpa [Register.keys] using hi) hr.nodup).1 hkeys

/-- **The relations of a design are those of its register.** -/
theorem tableRelations_ofRegister (base : BaseColumns) (hr : r.Keyed) :
    (ofRegister base r).tableRelations = r.tableRelations := by
  have hlinks : (linksFrom r 0 (r.map (·.2))).map (linkRelation r)
      = r.flatMap fun entry => entry.2.foreignKeys.filterMap (r.tableRelation? entry.2) :=
    map_linksFrom 0 r fun i _ => by rw [Nat.zero_add]
  have hkeys : ∀ a ∈ linksFrom r 0 (r.map (·.2)), ∀ b ∈ linksFrom r 0 (r.map (·.2)),
      (linkRelation r a).key = (linkRelation r b).key ↔ a.key = b.key := by
    intro a ha b hb
    obtain ⟨hsa, hta⟩ := bounds_of_mem_linksFrom ha
    obtain ⟨hsb, htb⟩ := bounds_of_mem_linksFrom hb
    rw [Nat.zero_add, List.length_map] at hsa hsb
    simp only [TableRelation.key, linkRelation, Link.key, Prod.mk.injEq,
      lowerName_injective hr hsa hsb, lowerName_injective hr hta htb]
  have hfirst : (firstLinks [] (linksFrom r 0 (r.map (·.2)))).map (linkRelation r)
      = firstBy TableRelation.key [] (r.flatMap fun entry =>
          entry.2.foreignKeys.filterMap (r.tableRelation? entry.2)) := by
    rw [firstLinks_eq_firstBy, ← hlinks]
    exact firstBy_map _ _ _ hkeys fun a _ => by simp
  -- different tables refer from different names, so each table is looked at by itself
  have hapart : r.Pairwise fun b c => ∀ x ∈ b.2.foreignKeys.filterMap (r.tableRelation? b.2),
      ∀ y ∈ c.2.foreignKeys.filterMap (r.tableRelation? c.2), x.key ≠ y.key := by
    have hdistinct : r.Pairwise fun b c => b.1 ≠ c.1 := List.pairwise_map.1 hr.nodup
    refine hdistinct.imp_of_mem fun {b c} hb hc hne x hx y hy heq => hne ?_
    have hsource : x.source.map lowerName = y.source.map lowerName := congrArg Prod.fst heq
    rw [Register.source_of_mem_filterMap hx, Register.source_of_mem_filterMap hy] at hsource
    rw [hr.key_eq b hb, hr.key_eq c hc]
    exact Option.some.inj hsource
  calc (ofRegister base r).tableRelations
      = (firstLinks [] (linksFrom r 0 (r.map (·.2)))).map (linkRelation r) := by
        rw [tableRelations_eq_map]
    _ = r.flatMap fun entry => firstBy TableRelation.key []
          (entry.2.foreignKeys.filterMap (r.tableRelation? entry.2)) := by
        rw [hfirst, firstBy_flatMap _ _ hapart]
    _ = r.tableRelations := rfl

end

end Design
end SchemaSketch
