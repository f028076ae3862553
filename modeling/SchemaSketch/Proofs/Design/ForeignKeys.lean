import Mathlib
import SchemaSketch.Proofs.Design.Declarations

/-!
# Relations are foreign keys

The foreign keys of a table are written in its declaration and in the statements that alter it
(`Statement.foreignKeys`). A key counts by its first column and by the table it refers to
(`ForeignKey.refersTo`).

* **Links.** The links of one table are the first of each such kind among its keys, in their order
  (`Design.mem_linksOf`, `Design.pairwise_linksOf`).
* **Tables.** Links of different tables have nothing to do with each other, so those of a register are
  the links of its tables one after the other (`Design.firstLinks_linksFrom`).

`Design.related_ofScript` says it for the entities of a script: there is a relation where there is a
foreign key, there is one only, and it is as the first such key says.
-/

namespace SchemaSketch

open Text

/-- Whether a foreign key refers to a table, by its first column. -/
def ForeignKey.refersTo (key : ForeignKey) (table column : String) : Bool :=
  key.columns.head?.any (sameName · column) && sameName key.refTable table

/-- Whether a relation joins two entities on a column. -/
def Relation.joins (x : Relation) (source target : Entity) (column : String) : Bool :=
  x.sourceId == source.id && x.targetId == target.id && sameName x.columnName column

namespace Statement

/-- The foreign keys in a statement that creates a table, in order. -/
def definedKeys (statement : List Char) : List ForeignKey :=
  match Table.definitions? statement with
  | .ok (_, definitions) => definitions.flatMap Definition.keys
  | .error _ => []

/-- The foreign keys of a table: those of its last declaration, then those that are added to it. -/
def foreignKeys (statements : List (List Char)) (table : String) : List ForeignKey :=
  ((declaration? statements table).map definedKeys).getD []
    ++ Register.addedKeys (lowerName table) (statements.map Reading.ofStatement)

/-- Whether the first column of a name may be empty, as its table declares it; a column that is not
declared may. It makes no difference whether the column becomes a field. -/
def mayBeEmpty (statements : List (List Char)) (table column : String) : Bool :=
  ((((declaration? statements table).bind created?).bind (·.column? column)).map (·.nullable)).getD true

end Statement

namespace Design

/-! ## The links of one table -/

/-- The links of the table in a place. -/
def linksOf (r : Register) (source : Nat) (table : Table) : List Link :=
  firstBy Link.key [] (table.foreignKeys.filterMap (link? r source table))

/-- The link of a foreign key, part by part. -/
theorem link?_eq_some {r : Register} {source : Nat} {table : Table} {key : ForeignKey} {l : Link} :
    link? r source table key = some l ↔
      l.source = source ∧ r.findIdx? (·.1 == lowerName key.refTable) = some l.target ∧
      key.columns.head? = some l.column ∧
      l.nullable = ((table.column? l.column).map (·.nullable)).getD true ∧
      l.onDelete = key.onDelete.getD .noAction ∧ l.onUpdate = key.onUpdate.getD .noAction := by
  unfold link?
  split
  · next target column more htarget hcolumns =>
    obtain ⟨source', target', column', nullable, onDelete, onUpdate⟩ := l
    rw [htarget, hcolumns]
    simp only [Option.some.injEq, Link.mk.injEq, List.head?_cons]
    constructor
    · rintro ⟨rfl, rfl, rfl, rfl, rfl, rfl⟩
      exact ⟨rfl, rfl, rfl, rfl, rfl, rfl⟩
    · rintro ⟨rfl, rfl, rfl, rfl, rfl, rfl⟩
      exact ⟨rfl, rfl, rfl, rfl, rfl, rfl⟩
  · next hnone =>
    refine ⟨fun h => (by cases h), ?_⟩
    rintro ⟨-, htarget, hcolumn, -⟩
    obtain ⟨more, hcolumns⟩ := List.head?_eq_some_iff.1 hcolumn
    exact absurd hcolumns (hnone _ _ _ htarget)

section
variable {r : Register} {i j : Nat} {table target : Table} {k : String}

/-- The place of a table is found under its name, in whatever case it is written. -/
theorem findIdx?_eq_some (hr : r.Keyed) (hj : r[j]? = some (k, target)) (name : String) :
    r.findIdx? (·.1 == lowerName name) = some j ↔ sameName name target.name = true := by
  have hk : k = lowerName target.name := hr.key_eq _ (List.mem_of_getElem? hj)
  obtain ⟨hlt, hget⟩ := List.getElem?_eq_some_iff.1 hj
  rw [sameName, beq_iff_eq, ← hk]
  constructor
  · intro h
    obtain ⟨t, hentry, -⟩ := getElem?_findIdx? h
    rw [hj] at hentry
    exact (Prod.mk.inj (Option.some.inj hentry)).1.symm
  · intro h
    rw [List.findIdx?_eq_some_iff_getElem]
    refine ⟨hlt, by rw [hget, h]; exact beq_self_eq_true _, ?_⟩
    intro i hi hkey
    -- an earlier place with this key would be the same place
    have hkeys : r.keys[i]? = r.keys[j]? := by
      simp only [Register.keys, List.getElem?_map, hj, Option.map_some,
        List.getElem?_eq_getElem (Nat.lt_trans hi hlt), ← h]
      exact congrArg some (beq_iff_eq.1 hkey)
    have hlen : i < r.keys.length := by
      rw [Register.keys, List.length_map]
      exact Nat.lt_trans hi hlt
    exact Nat.ne_of_lt hi ((List.getElem?_inj hlen hr.nodup).1 hkeys)

/-- A foreign key gives a link to a table on a column where it refers to that table by that column. -/
theorem any_link? (hr : r.Keyed) (hj : r[j]? = some (k, target)) (key : ForeignKey) (column : String) :
    (link? r i table key).any (·.key = (i, j, lowerName column))
      = key.refersTo target.name column := by
  rw [Bool.eq_iff_iff, Option.any_eq_true, ForeignKey.refersTo, Bool.and_eq_true, Option.any_eq_true]
  constructor
  · rintro ⟨l, hl, hkey⟩
    obtain ⟨-, htarget, hcolumn, -⟩ := link?_eq_some.1 hl
    simp only [Link.key, decide_eq_true_eq, Prod.mk.injEq] at hkey
    obtain ⟨-, rfl, hname⟩ := hkey
    exact ⟨⟨l.column, hcolumn, beq_iff_eq.2 hname⟩, (findIdx?_eq_some hr hj _).1 htarget⟩
  · rintro ⟨⟨first, hfirst, hname⟩, htarget⟩
    have hplace := (findIdx?_eq_some hr hj key.refTable).2 htarget
    have hlink := link?_eq_some (l := ⟨i, j, first, ((table.column? first).map (·.nullable)).getD true,
      key.onDelete.getD .noAction, key.onUpdate.getD .noAction⟩).2
        ⟨rfl, hplace, hfirst, rfl, rfl, rfl⟩
    refine ⟨_, hlink, ?_⟩
    simpa [Link.key, sameName] using hname

end

/-! ## The links of all tables -/

section
variable {r : Register} {l : Link}

theorem linksFrom_eq_flatMap (r : Register) (source : Nat) (tables : List Table) :
    linksFrom r source tables
      = (tables.zipIdx source).flatMap fun p => p.1.foreignKeys.filterMap (link? r p.2 p.1) := by
  induction tables generalizing source with
  | nil => rfl
  | cons table rest ih => rw [linksFrom, ih, List.zipIdx_cons, List.flatMap_cons]

/-- A link starts at the table among whose links it is. -/
theorem source_of_link? {source : Nat} {table : Table}
    (h : l ∈ table.foreignKeys.filterMap (link? r source table)) : l.source = source := by
  obtain ⟨key, -, hkey⟩ := List.mem_filterMap.1 h
  exact (link?_eq_some.1 hkey).1

theorem source_of_mem_linksOf {source : Nat} {table : Table} (h : l ∈ linksOf r source table) :
    l.source = source :=
  source_of_link? ((firstBy_sublist _ _ _).subset h)

/-- Places count up. -/
theorem pairwise_zipIdx (tables : List Table) : (tables.zipIdx).Pairwise (·.2 < ·.2) := by
  rw [← List.pairwise_map (f := Prod.snd), List.zipIdx_map_snd]
  exact List.pairwise_lt_range'

/-- **Tables.** The links of a register are those of its tables, one table after the other. -/
theorem firstLinks_linksFrom (r : Register) :
    firstLinks [] (linksFrom r 0 (r.map (·.2)))
      = ((r.map (·.2)).zipIdx).flatMap fun p => linksOf r p.2 p.1 := by
  have hapart : ((r.map (·.2)).zipIdx).Pairwise fun p q =>
      ∀ a ∈ p.1.foreignKeys.filterMap (link? r p.2 p.1),
        ∀ b ∈ q.1.foreignKeys.filterMap (link? r q.2 q.1), a.key ≠ b.key := by
    refine (pairwise_zipIdx _).imp fun {p q} hlt a ha b hb hkey => ?_
    have hsource : a.source = b.source := congrArg Prod.fst hkey
    rw [source_of_link? ha, source_of_link? hb] at hsource
    exact Nat.ne_of_lt hlt hsource
  rw [firstLinks_eq_firstBy, linksFrom_eq_flatMap]
  exact firstBy_flatMap _ _ hapart

/-- The links of a register are the links of the tables in their places. -/
theorem mem_firstLinks {k : String} {t : Table} (hsource : r[l.source]? = some (k, t)) :
    l ∈ firstLinks [] (linksFrom r 0 (r.map (·.2))) ↔ l ∈ linksOf r l.source t := by
  have hplace : (r.map (·.2))[l.source]? = some t := by
    rw [List.getElem?_map, hsource]
    rfl
  rw [firstLinks_linksFrom, List.mem_flatMap]
  constructor
  · rintro ⟨⟨t', i⟩, hmem, hl⟩
    obtain rfl : l.source = i := source_of_mem_linksOf hl
    obtain rfl : t = t' := Option.some.inj (hplace.symm.trans (List.mem_zipIdx_iff_getElem?.1 hmem))
    exact hl
  · intro hl
    exact ⟨(t, l.source), List.mem_zipIdx_iff_getElem?.2 hplace, hl⟩

/-- Whether a link comes before another: by the place of its table, then by the first foreign key that
gives a link like it. -/
def Link.Precedes (r : Register) (a b : Link) : Prop :=
  a.source < b.source ∨ a.source = b.source ∧ ∀ k t, r[a.source]? = some (k, t) →
    t.foreignKeys.findIdx (fun key => (link? r a.source t key).any (·.key = a.key))
      < t.foreignKeys.findIdx fun key => (link? r a.source t key).any (·.key = b.key)

/-- Links are in order. -/
theorem pairwise_firstLinks (r : Register) :
    (firstLinks [] (linksFrom r 0 (r.map (·.2)))).Pairwise (Link.Precedes r) := by
  rw [firstLinks_linksFrom, List.pairwise_flatMap]
  constructor
  · rintro ⟨table, i⟩ hmem
    have hplace := List.mem_zipIdx_iff_getElem?.1 hmem
    refine (pairwise_firstBy_filterMap Link.key (link? r i table) [] _).imp_of_mem ?_
    intro a b ha hb hlt
    obtain rfl := source_of_mem_linksOf ha
    refine .inr ⟨(source_of_mem_linksOf hb).symm, fun k t hentry => ?_⟩
    rw [List.getElem?_map, hentry] at hplace
    obtain rfl : t = table := Option.some.inj hplace
    exact hlt
  · refine (pairwise_zipIdx _).imp fun {p q} hlt a ha b hb => .inl ?_
    rw [source_of_mem_linksOf ha, source_of_mem_linksOf hb]
    exact hlt

end

/-! ## The design of a script -/

open Statement (created? declaration? definedKeys foreignKeys mayBeEmpty)

/-- Whether a relation comes before another: by the place of its table, then by the first foreign key
that it stands for. -/
def Precedes (d : Design) (statements : List (List Char)) (x y : Relation) : Prop :=
  ∀ (i j : Nat) (S S' : Entity), d.entities[i]? = some S → d.entities[j]? = some S' →
    ∀ T ∈ d.entities, ∀ T' ∈ d.entities,
      x.joins S T x.columnName = true → y.joins S' T' y.columnName = true →
      i < j ∨ i = j ∧
        (foreignKeys statements S.tableName).findIdx (·.refersTo T.tableName x.columnName)
          < (foreignKeys statements S'.tableName).findIdx (·.refersTo T'.tableName y.columnName)

/-- The relations of a design are the foreign keys of the statements. -/
structure Related (statements : List (List Char)) (d : Design) : Prop where
  /-- a relation joins two entities -/
  ends : ∀ x ∈ d.relations, ∃ S ∈ d.entities, ∃ T ∈ d.entities, x.joins S T x.columnName = true
  /-- where there is a foreign key there is a relation, and nowhere else -/
  joins_iff : ∀ S ∈ d.entities, ∀ T ∈ d.entities, ∀ column,
    (∃ x ∈ d.relations, x.joins S T column = true) ↔
      ∃ key ∈ foreignKeys statements S.tableName, key.refersTo T.tableName column = true
  /-- there are no two -/
  once : ∀ S T column, (d.relations.filter (·.joins S T column)).length ≤ 1
  /-- a relation is what the first of its foreign keys says -/
  first : ∀ x ∈ d.relations, ∀ S ∈ d.entities, ∀ T ∈ d.entities,
    x.joins S T x.columnName = true →
    ∃ key, (foreignKeys statements S.tableName).find? (·.refersTo T.tableName x.columnName) = some key ∧
      key.columns.head? = some x.columnName ∧
      x.onDelete = key.onDelete.getD .noAction ∧ x.onUpdate = key.onUpdate.getD .noAction ∧
      x.nullable = mayBeEmpty statements S.tableName x.columnName
  /-- relations are in the order of tables, then in that of foreign keys -/
  order : d.relations.Pairwise (d.Precedes statements)

/-- The keys of a table in a statement that creates it. -/
theorem definedKeys_of_created? {statement : List Char} {t : Table}
    (h : created? statement = some t) : definedKeys statement = t.foreignKeys := by
  obtain ⟨name, definitions, hfound, rfl⟩ :=
    Table.exists_of_readCreate (Reading.readCreate_of_table? h)
  rw [definedKeys, hfound, Table.foreignKeys_ofDefinitions]

/-- The table that an entity comes from stands in its place of the register, and is what the statements
say of it. -/
structure ComesFrom (statements : List (List Char)) (r : Register) (e : Entity) (i : Nat)
    (t : Table) : Prop where
  /-- the table stands in the place -/
  entry : r[i]? = some (lowerName t.name, t)
  /-- the entity's identifier counts the place -/
  id : e.id = entityId i
  /-- the entity has the table's name -/
  name : e.tableName = t.name
  /-- the table has the foreign keys that are written -/
  keys : t.foreignKeys = foreignKeys statements e.tableName
  /-- the table has the columns that are declared -/
  nullable : ∀ column, ((t.column? column).map (·.nullable)).getD true
    = mayBeEmpty statements e.tableName column

section
variable {base : BaseColumns} {statements : List (List Char)} {r : Register} {S T : Entity} {i j : Nat}
  {s t : Table} {l : Link}

theorem exists_comesFrom (hr : r = .ofReadings (statements.map Reading.ofStatement))
    (hS : (entitiesOf base r)[i]? = some S) : ∃ s, ComesFrom statements r S i s := by
  subst hr
  obtain ⟨⟨k, s⟩, hentry, hid, hname, -⟩ := exists_entry_of_getElem? hS
  have hmem := List.mem_of_getElem? hentry
  obtain rfl : k = lowerName s.name := (Register.keyed_ofReadings _).key_eq _ hmem
  obtain ⟨statement, read, hdeclaration, hcreated, hs⟩ := Register.exists_declaration_of_mem hmem
  have hkeys : s.foreignKeys = read.foreignKeys
      ++ Register.addedKeys (lowerName s.name) (statements.map Reading.ofStatement) :=
    congrArg Table.foreignKeys hs
  have hcolumns : s.columns = read.columns := (congrArg Table.columns hs).trans rfl
  refine ⟨s, hentry, hid, hname, ?_, fun column => ?_⟩
  · rw [foreignKeys, hname, hdeclaration, Option.map_some, Option.getD_some,
      definedKeys_of_created? hcreated, hkeys]
  · rw [mayBeEmpty, hname, hdeclaration, Option.bind_some, hcreated, Option.bind_some,
      Table.column?, Table.column?, hcolumns]

theorem exists_comesFrom_of_mem (hr : r = .ofReadings (statements.map Reading.ofStatement))
    (hS : S ∈ entitiesOf base r) : ∃ i s, ComesFrom statements r S i s := by
  obtain ⟨i, hi⟩ := List.mem_iff_getElem?.1 hS
  exact ⟨i, exists_comesFrom hr hi⟩

/-- A relation joins the entities in the places that its link joins. -/
theorem joins_relation (hS : S.id = entityId i) (hT : T.id = entityId j) (index : Nat)
    (column : String) :
    (relation index l).joins S T column = true ↔ l.key = (i, j, lowerName column) := by
  simp only [Relation.joins, relation, hS, hT, Bool.and_eq_true, beq_iff_eq, sameName, Link.key,
    Prod.mk.injEq, and_assoc]
  constructor
  · rintro ⟨hsource, htarget, hcolumn⟩
    exact ⟨entityId_injective hsource, entityId_injective htarget, hcolumn⟩
  · rintro ⟨rfl, rfl, hcolumn⟩
    exact ⟨rfl, rfl, hcolumn⟩

/-- A relation is made of a link. -/
theorem exists_link_of_mem_relationsOf {x : Relation} (h : x ∈ relationsOf r) :
    ∃ index, ∃ l ∈ firstLinks [] (linksFrom r 0 (r.map (·.2))), x = relation index l := by
  obtain ⟨index, hindex, rfl⟩ := List.mem_mapIdx.1 h
  exact ⟨index, _, List.getElem_mem hindex, rfl⟩

/-- A foreign key gives a link like this one where it refers to the same table by the same column. -/
theorem any_link?_eq_refersTo (hr : r.Keyed) (hT : ComesFrom statements r T j t) {column : String}
    (hkey : l.key = (i, j, lowerName column)) (key : ForeignKey) :
    (link? r i s key).any (·.key = l.key) = key.refersTo T.tableName column := by
  rw [hkey, hT.name]
  exact any_link? hr hT.entry key column

/-- The foreign key that a link is made of: the first that refers to its table by its column. -/
theorem exists_key_of_mem (hr : r.Keyed) (hS : ComesFrom statements r S i s)
    (hT : ComesFrom statements r T j t) {column : String} (hkey : l.key = (i, j, lowerName column))
    (hl : l ∈ firstLinks [] (linksFrom r 0 (r.map (·.2)))) :
    ∃ key, (foreignKeys statements S.tableName).find? (·.refersTo T.tableName column) = some key ∧
      link? r i s key = some l := by
  obtain rfl : l.source = i := congrArg Prod.fst hkey
  have hfind := find?_of_mem_firstBy Link.key ((mem_firstLinks hS.entry).1 hl)
  rw [List.find?_filterMap] at hfind
  obtain ⟨key, hfirst, hlink⟩ := Option.bind_eq_some_iff.1 hfind
  refine ⟨key, ?_, hlink⟩
  simpa only [any_link?_eq_refersTo hr hT hkey, hS.keys] using hfirst

/-- There is a relation where there is a foreign key, and nowhere else. -/
theorem joins_relationsOf_iff (hr : r.Keyed) (hS : ComesFrom statements r S i s)
    (hT : ComesFrom statements r T j t) (column : String) :
    (∃ x ∈ relationsOf r, x.joins S T column = true) ↔
      ∃ key ∈ foreignKeys statements S.tableName, key.refersTo T.tableName column = true := by
  constructor
  · rintro ⟨x, hx, hjoins⟩
    obtain ⟨index, l, hl, rfl⟩ := exists_link_of_mem_relationsOf hx
    obtain ⟨key, hfirst, -⟩ := exists_key_of_mem hr hS hT ((joins_relation hS.id hT.id _ _).1 hjoins) hl
    have hrefers := List.find?_some hfirst
    exact ⟨key, List.mem_of_find?_eq_some hfirst, hrefers⟩
  · rintro ⟨key, hkey, hrefers⟩
    have hany : (link? r i s key).any (·.key = (i, j, lowerName column)) = true := by
      rw [any_link? hr hT.entry, ← hT.name]
      exact hrefers
    obtain ⟨l, hlink, hl⟩ := (Option.any_eq_true _ _).1 hany
    have hmem : l ∈ s.foreignKeys.filterMap (link? r i s) :=
      List.mem_filterMap.2 ⟨key, hS.keys ▸ hkey, hlink⟩
    -- the first link of this kind is kept
    obtain ⟨first, hfirst, heq⟩ := exists_mem_firstBy Link.key hmem List.not_mem_nil
    obtain rfl : first.source = i := source_of_mem_linksOf hfirst
    obtain ⟨index, hindex, rfl⟩ := List.mem_iff_getElem.1 ((mem_firstLinks hS.entry).2 hfirst)
    exact ⟨relation index _, List.mem_mapIdx.2 ⟨index, hindex, rfl⟩,
      (joins_relation hS.id hT.id index column).2 (heq.trans (of_decide_eq_true hl))⟩

/-- No two relations join the same entities on the same column. -/
theorem length_filter_joins_le (r : Register) (S T : Entity) (column : String) :
    ((relationsOf r).filter (·.joins S T column)).length ≤ 1 := by
  let kind := fun x : Relation => (x.sourceId, x.targetId, lowerName x.columnName)
  have hnodup : (((relationsOf r).filter (·.joins S T column)).map kind).Nodup :=
    (nodup_relationsOf r).sublist (List.filter_sublist.map kind)
  have hsame : ∀ c ∈ ((relationsOf r).filter (·.joins S T column)).map kind,
      c = (S.id, T.id, lowerName column) := by
    intro c hc
    obtain ⟨x, hx, rfl⟩ := List.mem_map.1 hc
    simpa [Relation.joins, sameName, kind, and_assoc] using (List.mem_filter.1 hx).2
  rw [List.eq_replicate_of_mem hsame, List.nodup_replicate, List.length_map] at hnodup
  exact hnodup

/-- What links have in order, the relations made of them have. -/
theorem pairwise_mapIdx_relation {R : Link → Link → Prop} {R' : Relation → Relation → Prop}
    {links : List Link} (h : links.Pairwise R)
    (himp : ∀ m n a b, R a b → R' (relation m a) (relation n b)) :
    (links.mapIdx relation).Pairwise R' := by
  rw [List.pairwise_iff_getElem] at h ⊢
  intro m n hm hn hlt
  rw [List.length_mapIdx] at hm hn
  rw [List.getElem_mapIdx, List.getElem_mapIdx]
  exact himp m n _ _ (h m n hm hn hlt)

/-- Relations are in the order of tables, then in that of foreign keys. -/
theorem precedes_relation (hr : r = .ofReadings (statements.map Reading.ofStatement)) (m n : Nat)
    {a b : Link} (h : a.Precedes r b) :
    (ofRegister base r).Precedes statements (relation m a) (relation n b) := by
  have hkeyed : r.Keyed := hr ▸ Register.keyed_ofReadings _
  intro i i' S S' hS hS' T hT T' hT' hjoins hjoins'
  obtain ⟨s, hS₁⟩ := exists_comesFrom hr hS
  obtain ⟨s', hS₁'⟩ := exists_comesFrom hr hS'
  obtain ⟨j, t, hT₁⟩ := exists_comesFrom_of_mem hr hT
  obtain ⟨j', t', hT₁'⟩ := exists_comesFrom_of_mem hr hT'
  have hkey := (joins_relation hS₁.id hT₁.id m _).1 hjoins
  have hkey' := (joins_relation hS₁'.id hT₁'.id n _).1 hjoins'
  obtain rfl : a.source = i := congrArg Prod.fst hkey
  obtain rfl : b.source = i' := congrArg Prod.fst hkey'
  rcases h with hlt | ⟨heq, hlt⟩
  · exact .inl hlt
  · obtain rfl : S = S' := Option.some.inj (hS.symm.trans (heq ▸ hS'))
    refine .inr ⟨heq, ?_⟩
    rw [← heq] at hkey'
    simpa only [any_link?_eq_refersTo hkeyed hT₁ hkey, any_link?_eq_refersTo hkeyed hT₁' hkey',
      hS₁.keys] using hlt _ s hS₁.entry

end

/-- The relations of statements are their foreign keys. -/
theorem related_ofStatements (base : BaseColumns) (statements : List (List Char)) :
    Related statements (ofStatements base statements) := by
  let r := Register.ofReadings (statements.map Reading.ofStatement)
  have hr : r.Keyed := Register.keyed_ofReadings _
  refine ⟨?_, ?_, length_filter_joins_le r, ?_, ?_⟩
  · intro x hx
    obtain ⟨index, l, hl, rfl⟩ := exists_link_of_mem_relationsOf hx
    obtain ⟨hsource, htarget⟩ := bounds_of_mem_linksFrom ((firstLinks_sublist _ _).subset hl)
    rw [Nat.zero_add, List.length_map] at hsource
    obtain ⟨S, hS, hSid⟩ := exists_mem_entitiesOf base hsource
    obtain ⟨T, hT, hTid⟩ := exists_mem_entitiesOf base htarget
    exact ⟨S, hS, T, hT, (joins_relation hSid hTid index _).2 rfl⟩
  · intro S hS T hT column
    obtain ⟨i, s, hS⟩ := exists_comesFrom_of_mem rfl hS
    obtain ⟨j, t, hT⟩ := exists_comesFrom_of_mem rfl hT
    exact joins_relationsOf_iff hr hS hT column
  · intro x hx S hS T hT hjoins
    obtain ⟨i, s, hS⟩ := exists_comesFrom_of_mem rfl hS
    obtain ⟨j, t, hT⟩ := exists_comesFrom_of_mem rfl hT
    obtain ⟨index, l, hl, rfl⟩ := exists_link_of_mem_relationsOf hx
    obtain ⟨key, hkey, hlink⟩ :=
      exists_key_of_mem hr hS hT ((joins_relation hS.id hT.id index _).1 hjoins) hl
    obtain ⟨-, -, hcolumn, hnullable, honDelete, honUpdate⟩ := link?_eq_some.1 hlink
    exact ⟨key, hkey, hcolumn, honDelete, honUpdate, hnullable.trans (hS.nullable l.column)⟩
  · exact pairwise_mapIdx_relation (pairwise_firstLinks r) fun m n _ _ => precedes_relation rfl m n

/-- A foreign key that is added before the tables are there, and one that repeats it. -/
def referring : List Char :=
  "alter table B add foreign key(Y)references A;".toList
    ++ "create table a(x int);create table b(y int references a)".toList

/-- The statements of that script. -/
def references : List (List Char) :=
  ["alter table B add foreign key(Y)references A", "create table a(x int)",
    "create table b(y int references a)"].map (·.toList)

end Design
end SchemaSketch
